import Mathlib.Data.List.Perm.Basic
import Mathlib.Logic.Relation
import Worklog.Proofs.Schedule.Board
import Worklog.Proofs.Schedule.History
import Worklog.Proofs.Session.Calm

namespace Worklog.System

/-- What holds of a system in steady surroundings at any time. -/
structure Sound (s : System) : Prop where
  ready : s.database.Ready s.board.rows
  admits : ∀ began fresh key now, ⟨began, .stamped fresh key now⟩ ∈ s.pending →
    s.database.ledger.admits key = true
  fine : s.board.Fine

/-- A system that begins with an empty table is sound. -/
theorem sound_on {db : Database} {clock : Moment} (hblank : db.Blank) (hcalm : db.Undisturbed)
    (hclock : clock.Storable) : (on db clock).Sound := by
  have hrows : (on db clock).board.rows = [] := by
    simp only [System.board, on, hblank.rows, Option.getD_some]
  refine ⟨⟨hcalm, hblank.openUnique, ?_, ?_⟩, by simp [on], ?_⟩
  · rw [hrows]
    exact hblank.rows
  · rw [hrows]
    exact .nil
  · refine ⟨?_, hclock, ?_, by simp [System.board, on], by simp [System.board, on],
      by simp [System.board, on]⟩
    · rw [hrows]
      exact .nil
    · simp [hrows]

/-- A later system whose board has moved, on a database that differs in its rows only. -/
structure Moves (s s' : System) : Prop where
  board : s.board.Move s'.board
  disruption : s'.database.disruption = s.database.disruption
  ledger : s'.database.ledger = { s.database.ledger with rows := some s'.board.rows }
  stamped : ∀ began fresh key now, ⟨began, .stamped fresh key now⟩ ∈ s'.pending →
    s.database.ledger.admits key = true

variable {s s' : System}

theorem Sound.next (h : s.Sound) (hmoves : s.Moves s') : s'.Sound where
  ready := h.ready.next hmoves.disruption hmoves.ledger (hmoves.board.fine h.fine).consistent
  admits := by
    intro began fresh key now hp
    rw [hmoves.ledger]
    exact hmoves.stamped began fresh key now hp
  fine := hmoves.board.fine h.fine

/-- The rows that the database has tell where the board has moved to. -/
private theorem moves_of {rows : List Row}
    (hdisruption : s'.database.disruption = s.database.disruption)
    (hledger : s'.database.ledger = { s.database.ledger with rows := some rows })
    (hmove : s.board.Move ⟨rows, s'.clock, s'.steps, s'.pending, s'.finished⟩)
    (hstamped : ∀ began fresh key now, ⟨began, .stamped fresh key now⟩ ∈ s'.pending →
      s.database.ledger.admits key = true) : s.Moves s' := by
  have hrows : s'.board.rows = rows := by rw [System.board, hledger, Option.getD_some]
  refine ⟨?_, hdisruption, by rw [hrows, hledger], hstamped⟩
  rw [← hrows] at hmove
  exact hmove

/-- Bookkeeping leaves the rows of the board. -/
private theorem Sound.moves_alike (h : s.Sound) (hlike : s.database.Alike s'.database)
    (hmove : s.board.Move ⟨s.board.rows, s'.clock, s'.steps, s'.pending, s'.finished⟩)
    (hstamped : ∀ began fresh key now, ⟨began, .stamped fresh key now⟩ ∈ s'.pending →
      s.database.ledger.admits key = true) : s.Moves s' := by
  refine moves_of hlike.disruption ?_ hmove hstamped
  rw [hlike.ledger, ← h.ready.stored]

/-- A call that reads or waits does not insert, and leaves the starts under way as they are. -/
private theorem Sound.admits_append (h : s.Sound) {p : Session.Pending}
    (hp : ∀ fresh key now, p.stage = .stamped fresh key now → s.database.ledger.admits key = true) :
    ∀ began fresh key now, ⟨began, .stamped fresh key now⟩ ∈ s.pending ++ [p] →
      s.database.ledger.admits key = true := by
  intro began fresh key now hmem
  obtain hmem | hmem := List.mem_append.mp hmem
  · exact h.admits began fresh key now hmem
  · obtain rfl := List.mem_singleton.mp hmem
    exact hp fresh key now rfl

private theorem Sound.admits_rest (h : s.Sound) {p : Session.Pending} {rest : List Session.Pending}
    (hperm : s.pending.Perm (p :: rest)) :
    ∀ began fresh key now, ⟨began, .stamped fresh key now⟩ ∈ rest →
      s.database.ledger.admits key = true := fun began fresh key now hmem =>
  h.admits began fresh key now (hperm.mem_iff.mpr (List.mem_cons_of_mem _ hmem))

/-- The first step of a stop finds the open row of its key, or ends the stop. -/
private theorem Sound.ask_stop (h : s.Sound) {key : KeyRef} (hkey : key.fits = true) :
    s.Moves (s.step (.ask (.stop key))) := by
  by_cases hopen : ∃ r ∈ s.board.rows, r.isOpenFor key = true
  · obtain ⟨r, hr, hopen⟩ := hopen
    obtain ⟨db, hfind, hlike⟩ := Session.find_of_open h.ready hkey hr hopen
    simp only [step, act, ask, hfind]
    exact h.moves_alike hlike (.spot hr hopen) (h.admits_append (by rintro _ _ _ ⟨⟩))
  · have hfree : ∀ r ∈ s.board.rows, ¬ r.isOpenFor key = true :=
      fun r hr hopenFor => hopen ⟨r, hr, hopenFor⟩
    obtain ⟨db, hfind, hlike⟩ := Session.find_of_free h.ready hkey hfree
    obtain ⟨db', hrefuse, hnoted⟩ := Session.refuseStop_eq key s.clock db
    simp only [step, act, ask, hfind, conclude, hrefuse]
    exact h.moves_alike (hlike.trans hnoted) (.miss hfree) h.admits

/-- The insertion of a start. -/
private theorem Sound.resume_start (h : s.Sound) {n began : Nat} {fresh : Uuid} {key : KeyRef}
    {now : Moment} (hn : s.pending[n]? = some ⟨began, .stamped fresh key now⟩)
    (hperm : s.pending.Perm (⟨began, .stamped fresh key now⟩ :: s.pending.eraseIdx n)) :
    s.Moves (s.step (.resume n)) := by
  obtain ⟨hkey, hnow, _, hnew⟩ := h.fine.relies hperm
  have hadmits := h.admits began fresh key now (hperm.mem_iff.mpr List.mem_cons_self)
  by_cases hopen : ∃ r ∈ s.board.rows, r.isOpenFor key = true
  · obtain ⟨r, hr, hopen⟩ := hopen
    obtain ⟨db, hstart, hlike⟩ :=
      Session.start_of_open h.ready hkey hadmits fresh hnow hr hopen
    simp only [step, act, resume, hn, conclude, hstart]
    exact h.moves_alike hlike (.clash hperm hr hopen) (h.admits_rest hperm)
  · have hfree : ∀ r ∈ s.board.rows, ¬ r.isOpenFor key = true :=
      fun r hr hopenFor => hopen ⟨r, hr, hopenFor⟩
    obtain ⟨db, row, hstart, hdisruption, hledger, hid, hkeyRef, hstarted, hstopped⟩ :=
      Session.start_of_free h.ready hkey hadmits hnew hnow hfree
    simp only [step, act, resume, hn, conclude, hstart]
    exact moves_of hdisruption hledger (.insert hperm hfree hid hkeyRef hstarted hstopped)
      (h.admits_rest hperm)

/-- The last step of a stop that has found a row. -/
private theorem Sound.resume_close (h : s.Sound) {n began : Nat} {key : KeyRef} {i : Interval}
    {now : Moment} (hn : s.pending[n]? = some ⟨began, .timed key i now⟩)
    (hperm : s.pending.Perm (⟨began, .timed key i now⟩ :: s.pending.eraseIdx n)) :
    s.Moves (s.step (.resume n)) := by
  obtain ⟨_, hnow, _, _⟩ := h.fine.relies hperm
  obtain ⟨ended, hend⟩ := Instant.storable_iff.mp hnow
  by_cases hopen : ∃ r ∈ s.board.rows, r.isOpenWith i.id = true
  · obtain ⟨r, hr, hopen⟩ := hopen
    obtain ⟨hid, hstopped⟩ := Row.isOpenWith_iff.mp hopen
    obtain ⟨db, hfinish, hdisruption, hledger⟩ := Session.finish_of_open h.ready
      key hr hid hstopped hend (h.fine.started_le hperm hend r hr hopen)
    simp only [step, act, resume, hn, conclude, hfinish]
    exact moves_of hdisruption hledger (.close hperm hr hid hstopped hend) (h.admits_rest hperm)
  · have hclosed : ∀ r ∈ s.board.rows, ¬ r.isOpenWith i.id = true :=
      fun r hr hopenWith => hopen ⟨r, hr, hopenWith⟩
    obtain ⟨db, hfinish, hlike⟩ := Session.finish_of_closed h.ready key hclosed hnow
    simp only [step, act, resume, hn, conclude, hfinish]
    exact h.moves_alike hlike (.late hperm hclosed) (h.admits_rest hperm)

private theorem Sound.resume_moves (h : s.Sound) (n : Nat) : s.Moves (s.step (.resume n)) := by
  cases hn : s.pending[n]? with
  | none =>
    simp only [step, act, resume, hn]
    exact h.moves_alike (.refl _) .idle h.admits
  | some p =>
    obtain ⟨hlt, hp⟩ := List.getElem?_eq_some_iff.mp hn
    have hperm : s.pending.Perm (p :: s.pending.eraseIdx n) := by
      rw [← hp]
      exact (List.getElem_cons_eraseIdx_perm hlt).symm
    obtain ⟨began, stage⟩ := p
    cases stage with
    | stamped fresh key now => exact h.resume_start hn hperm
    | found key i =>
      simp only [step, act, resume, hn]
      refine h.moves_alike (.refl _) (.time hperm) fun began' fresh key' now hmem => ?_
      obtain hmem | hmem := List.mem_append.mp hmem
      · exact h.admits_rest hperm began' fresh key' now hmem
      · cases List.mem_singleton.mp hmem
    | timed key i now => exact h.resume_close hn hperm

private theorem Sound.read_moves (h : s.Sound) (r : Report.Request) :
    s.Moves (s.step (.read r)) := by
  simp only [step, act, read]
  split
  · exact h.moves_alike (.refl _) .idle h.admits
  · next w _ =>
    split
    · exact h.moves_alike (.refl _) .idle h.admits
    · rcases hread : Primitive.intervalsOverlapping r.user w.start w.stop s.database with ⟨_ | is, db⟩
      all_goals
        have hlike := (Primitive.intervalsOverlapping_cases hread).1
        simp only [Database.intervals, hread]
        exact h.moves_alike hlike .idle h.admits

private theorem Sound.add_moves (h : s.Sound) (n : Nat) : s.Moves (s.step (.add n)) := by
  simp only [step, act, add]
  split
  · exact h.moves_alike (.refl _) .idle h.admits
  · next p _ =>
    obtain ⟨db, hfinish, hlike⟩ := Report.finish_eq p.request.user p.window p.intervals s.clock
      s.database
    simp only [deliver, hfinish]
    exact h.moves_alike hlike .idle h.admits

/-- Every permitted event is a move of the board. -/
theorem Sound.step_moves (h : s.Sound) {e : Event} (hpermits : s.Permits e) :
    s.Moves (s.step e) := by
  cases e with
  | clock m => exact h.moves_alike (.refl _) (.clock hpermits.1 hpermits.2) h.admits
  | ask r =>
    cases r with
    | start fresh key =>
      obtain ⟨hkey, ⟨hrows, hpending⟩, hadmits⟩ := hpermits
      exact h.moves_alike (.refl _) (.stamp hkey hrows hpending)
        (h.admits_append (by rintro _ _ _ ⟨⟩; exact hadmits))
    | stop key => exact h.ask_stop hpermits
  | resume n => exact h.resume_moves n
  | read r => exact h.read_moves r
  | add n => exact h.add_moves n
  | use p => exact absurd hpermits not_false

/-- A steady schedule is a sequence of moves. -/
theorem Sound.run_moves {events : List Event} (h : s.Sound) (hsteady : s.Steady events) :
    Relation.ReflTransGen Board.Move s.board (s.run events).board ∧ (s.run events).Sound := by
  induction events generalizing s with
  | nil => exact ⟨.refl, h⟩
  | cons e events ih =>
    obtain ⟨hpermits, hsteady⟩ := hsteady
    have hmoves := h.step_moves hpermits
    obtain ⟨hrest, hsound⟩ := ih (h.next hmoves) hsteady
    exact ⟨.head hmoves.board hrest, hsound⟩

end Worklog.System
