import Mathlib.Algebra.Order.Ring.Int
import Worklog.Proofs.Database.History
import Worklog.Proofs.Schedule.System

namespace Worklog

/-- The key of a stop under way and the interval that it has found. -/
def Session.Stage.target? : Session.Stage → Option (KeyRef × Interval)
  | stamped _ _ _ => none
  | found key i | timed key i _ => some (key, i)

/-- What matters of a system in steady surroundings: the stored rows, the clock, and the starts and stops under
    way and finished. -/
structure Board where
  rows : List Row
  clock : Moment
  steps : Nat
  pending : List Session.Pending
  finished : List (Finished Session.Request Interval)

def System.board (s : System) : Board :=
  ⟨s.database.ledger.rows.getD [], s.clock, s.steps, s.pending, s.finished⟩

namespace Board

/-- The ways in which an event moves a board. A call under way is taken out and, unless it is finished,
    put back behind the others. -/
inductive Move : Board → Board → Prop where
  /-- The clock goes on. -/
  | clock {b : Board} {m : Moment} (hstorable : m.Storable) (hle : b.clock.instant ≤ m.instant) :
    Move b { b with clock := m, steps := b.steps + 1 }
  /-- Nothing of the board changes. -/
  | idle {b : Board} : Move b { b with steps := b.steps + 1 }
  /-- A start reads the clock. -/
  | stamp {b : Board} {fresh : Uuid} {key : KeyRef} (hkey : key.fits = true)
      (hrows : ∀ r ∈ b.rows, r.id ≠ fresh) (hpending : ∀ p ∈ b.pending, p.stage.fresh? ≠ some fresh) :
    Move b { b with
      steps := b.steps + 1
      pending := b.pending ++ [⟨b.steps, .stamped fresh key b.clock⟩] }
  /-- A stop finds no open row. -/
  | miss {b : Board} {key : KeyRef} (hfree : ∀ r ∈ b.rows, ¬ r.isOpenFor key = true) :
    Move b { b with
      steps := b.steps + 1
      finished := b.finished ++
        [⟨.stop key, b.steps, b.steps, b.clock, .error (Session.notStarted key)⟩] }
  /-- A stop finds the open row of its key. -/
  | spot {b : Board} {key : KeyRef} {r : Row} (hr : r ∈ b.rows) (hopen : r.isOpenFor key = true) :
    Move b { b with
      steps := b.steps + 1
      pending := b.pending ++ [⟨b.steps, .found key r.interval⟩] }
  /-- A start inserts. -/
  | insert {b : Board} {began : Nat} {fresh : Uuid} {key : KeyRef} {now : Moment}
      {rest : List Session.Pending} {row : Row}
      (hperm : b.pending.Perm (⟨began, .stamped fresh key now⟩ :: rest))
      (hfree : ∀ r ∈ b.rows, ¬ r.isOpenFor key = true) (hid : row.id = fresh)
      (hkey : row.key.ref = key) (hstart : Instant.ofMoment now = .ok row.started)
      (hopen : row.stopped = none) :
    Move b { b with
      rows := b.rows ++ [row]
      steps := b.steps + 1
      pending := rest
      finished := b.finished ++
        [⟨.start fresh key, began, b.steps, now, .ok ⟨fresh, row.user, row.task, now, none⟩⟩] }
  /-- A start is refused because its key has an open row. -/
  | clash {b : Board} {began : Nat} {fresh : Uuid} {key : KeyRef} {now : Moment}
      {rest : List Session.Pending} {r : Row}
      (hperm : b.pending.Perm (⟨began, .stamped fresh key now⟩ :: rest))
      (hr : r ∈ b.rows) (hopen : r.isOpenFor key = true) :
    Move b { b with
      steps := b.steps + 1
      pending := rest
      finished := b.finished ++
        [⟨.start fresh key, began, b.steps, now, .error (Session.alreadyStarted key)⟩] }
  /-- A stop reads the clock. -/
  | time {b : Board} {began : Nat} {key : KeyRef} {i : Interval} {rest : List Session.Pending}
      (hperm : b.pending.Perm (⟨began, .found key i⟩ :: rest)) :
    Move b { b with
      steps := b.steps + 1
      pending := rest ++ [⟨began, .timed key i b.clock⟩] }
  /-- A stop closes the row that it found. -/
  | close {b : Board} {began : Nat} {key : KeyRef} {i : Interval} {now : Moment}
      {rest : List Session.Pending} {r : Row} {ended : Instant}
      (hperm : b.pending.Perm (⟨began, .timed key i now⟩ :: rest))
      (hr : r ∈ b.rows) (hid : r.id = i.id) (hopen : r.stopped = none)
      (hend : Instant.ofMoment now = .ok ended) :
    Move b { b with
      rows := b.rows.map (Row.closing i.id ended)
      steps := b.steps + 1
      pending := rest
      finished := b.finished ++
        [⟨.stop key, began, b.steps, now, .ok (r.stoppedAt ended).interval⟩] }
  /-- A stop comes too late for the row that it found. -/
  | late {b : Board} {began : Nat} {key : KeyRef} {i : Interval} {now : Moment}
      {rest : List Session.Pending}
      (hperm : b.pending.Perm (⟨began, .timed key i now⟩ :: rest))
      (hclosed : ∀ r ∈ b.rows, ¬ r.isOpenWith i.id = true) :
    Move b { b with
      steps := b.steps + 1
      pending := rest
      finished := b.finished ++
        [⟨.stop key, began, b.steps, now, .error (Session.notStarted key)⟩] }

/-- The interval is what a look at an open row of the key showed; the row is still there. -/
def Shown (rows : List Row) (key : KeyRef) (i : Interval) : Prop :=
  ∃ r ∈ rows, r.key.ref = key ∧ i = { r.interval with stopped := none }

/-- What a call under way may rely on: a start has read a time that has passed and has an id of its own;
    a stop has seen a row, which started before the time that the stop has read. -/
def Relies (b : Board) : Session.Stage → Prop
  | .stamped fresh key now =>
    key.fits = true ∧ now.Storable ∧ now.instant ≤ b.clock.instant ∧ ∀ r ∈ b.rows, r.id ≠ fresh
  | .found key i => Shown b.rows key i
  | .timed key i now =>
    Shown b.rows key i ∧ now.Storable ∧ now.instant ≤ b.clock.instant ∧
      i.started.instant ≤ now.instant

/-- The rules that moves keep. -/
structure Fine (b : Board) : Prop where
  consistent : Consistent b.rows
  clock : b.clock.Storable
  past : ∀ r ∈ b.rows, r.Past b.clock
  pending : ∀ p ∈ b.pending, p.began < b.steps ∧ b.Relies p.stage
  apart : b.pending.Pairwise fun p q => ∀ id, p.stage.fresh? = some id → q.stage.fresh? ≠ some id
  finished : ∀ f ∈ b.finished, f.began ≤ f.ended ∧ f.ended < b.steps

variable {b b' : Board}

theorem Shown.append {rows : List Row} {key : KeyRef} {i : Interval} (h : Shown rows key i)
    (row : Row) : Shown (rows ++ [row]) key i := by
  obtain ⟨r, hr, hkey, hi⟩ := h
  exact ⟨r, List.mem_append_left _ hr, hkey, hi⟩

theorem Shown.closing {rows : List Row} {key : KeyRef} {i : Interval} (h : Shown rows key i)
    (id : Uuid) (ended : Instant) : Shown (rows.map (Row.closing id ended)) key i := by
  obtain ⟨r, hr, hkey, rfl⟩ := h
  refine ⟨r.closing id ended, List.mem_map_of_mem hr, by rw [Row.closing_key, hkey], ?_⟩
  simp only [Row.interval, Row.closing_id, Row.closing_started]
  rw [show (r.closing id ended).user = r.user from congrArg Key.user (r.closing_key id ended),
    show (r.closing id ended).task = r.task from congrArg Key.task (r.closing_key id ended)]

/-- What a call relies on stays true while rows are kept, the clock goes on and its id is not taken. -/
theorem Relies.mono {stage : Session.Stage} (h : b.Relies stage)
    (hshown : ∀ key i, Shown b.rows key i → Shown b'.rows key i)
    (hclock : b.clock.instant ≤ b'.clock.instant)
    (hids : ∀ id, stage.fresh? = some id → (∀ r ∈ b.rows, r.id ≠ id) → ∀ r ∈ b'.rows, r.id ≠ id) :
    b'.Relies stage := by
  cases stage with
  | stamped fresh key now =>
    obtain ⟨hkey, hstorable, hle, hid⟩ := h
    exact ⟨hkey, hstorable, hle.trans hclock, hids fresh rfl hid⟩
  | found key i => exact hshown key i h
  | timed key i now =>
    obtain ⟨hi, hstorable, hle, hstart⟩ := h
    exact ⟨hshown key i hi, hstorable, hle.trans hclock, hstart⟩

/-- Ids are as far apart whatever the order of the calls. -/
private theorem apart_symm {p q : Session.Pending}
    (h : ∀ id, p.stage.fresh? = some id → q.stage.fresh? ≠ some id) (id : Uuid)
    (hq : q.stage.fresh? = some id) : p.stage.fresh? ≠ some id := fun hp => h id hp hq

namespace Fine

variable {p : Session.Pending} {rest : List Session.Pending}

theorem began_lt (h : b.Fine) (hperm : b.pending.Perm (p :: rest)) : p.began < b.steps :=
  (h.pending p (hperm.mem_iff.mpr (by simp))).1

theorem relies (h : b.Fine) (hperm : b.pending.Perm (p :: rest)) : b.Relies p.stage :=
  (h.pending p (hperm.mem_iff.mpr (by simp))).2

/-- What a stop has found is a row of its key. -/
theorem target (h : b.Fine) (hp : p ∈ b.pending) {key : KeyRef} {i : Interval}
    (htarget : p.stage.target? = some (key, i)) : Shown b.rows key i := by
  have hrelies := (h.pending p hp).2
  cases hstage : p.stage with
  | stamped fresh key' now =>
    rw [hstage] at htarget
    cases htarget
  | found key' i' =>
    rw [hstage] at htarget hrelies
    cases htarget
    exact hrelies
  | timed key' i' now =>
    rw [hstage] at htarget hrelies
    cases htarget
    exact hrelies.1

/-- An open row with the id that a stop has found is the open row of the key of that stop. -/
theorem isOpenFor_of_target (h : b.Fine) (hp : p ∈ b.pending) {key : KeyRef} {i : Interval}
    (htarget : p.stage.target? = some (key, i)) {r : Row} (hr : r ∈ b.rows) (hid : r.id = i.id)
    (hopen : r.stopped = none) : r.isOpenFor key = true := by
  obtain ⟨r', hr', hkey, rfl⟩ := h.target hp htarget
  obtain rfl := h.consistent.eq_of_id hr' hr hid.symm
  exact Row.isOpenFor_iff.mpr ⟨hkey, hopen⟩

theorem of_rest (h : b.Fine) (hperm : b.pending.Perm (p :: rest)) :
    ∀ q ∈ rest, q.began < b.steps ∧ b.Relies q.stage :=
  fun q hq => h.pending q (hperm.mem_iff.mpr (List.mem_cons_of_mem _ hq))

theorem rest_apart (h : b.Fine) (hperm : b.pending.Perm (p :: rest)) :
    (∀ q ∈ rest, ∀ id, p.stage.fresh? = some id → q.stage.fresh? ≠ some id) ∧
      rest.Pairwise fun p q => ∀ id, p.stage.fresh? = some id → q.stage.fresh? ≠ some id :=
  List.pairwise_cons.mp ((hperm.pairwise_iff fun {_ _} => apart_symm).mp h.apart)

theorem finished_lt (h : b.Fine) :
    ∀ f ∈ b.finished, f.began ≤ f.ended ∧ f.ended < b.steps + 1 := by
  intro f hf
  have hold := h.finished f hf
  omega

theorem finished_append (h : b.Fine) {f : Finished Session.Request Interval}
    (hbegan : f.began ≤ b.steps) (hended : f.ended = b.steps) :
    ∀ g ∈ b.finished ++ [f], g.began ≤ g.ended ∧ g.ended < b.steps + 1 := by
  intro g hg
  obtain hg | hg := List.mem_append.mp hg
  · exact h.finished_lt g hg
  · obtain rfl := List.mem_singleton.mp hg
    omega

end Fine

private theorem fine_insert (h : b.Fine) {began : Nat} {fresh : Uuid} {key : KeyRef} {now : Moment}
    {rest : List Session.Pending} {row : Row} (f : Finished Session.Request Interval)
    (hperm : b.pending.Perm (⟨began, .stamped fresh key now⟩ :: rest))
    (hfree : ∀ r ∈ b.rows, ¬ r.isOpenFor key = true) (hid : row.id = fresh)
    (hkey : row.key.ref = key) (hstart : Instant.ofMoment now = .ok row.started)
    (hopen : row.stopped = none) (hbegan : f.began = began) (hended : f.ended = b.steps) :
    Fine ⟨b.rows ++ [row], b.clock, b.steps + 1, rest, b.finished ++ [f]⟩ := by
  obtain ⟨hfits, _, hle, hnew⟩ := h.relies hperm
  have hnow : (row.started.micros : Int) ≤ b.clock.instant := by
    rw [(Instant.ofMoment_eq_ok_iff.mp hstart).2]
    exact hle
  obtain ⟨hother, hapart⟩ := h.rest_apart hperm
  have hbefore : began < b.steps := h.began_lt hperm
  refine ⟨?_, h.clock, ?_, fun q hq => ?_, hapart, h.finished_append (by omega) hended⟩
  · refine h.consistent.append (fun r hr => hid ▸ hnew r hr) (fun _ => hkey ▸ hfree) ?_
    rw [Row.inOrder_iff, hopen]
    simp
  · intro r hr
    obtain hr | hr := List.mem_append.mp hr
    · exact h.past r hr
    · obtain rfl := List.mem_singleton.mp hr
      exact Row.past_of_open hnow hopen
  · obtain ⟨hq', hrelies⟩ := h.of_rest hperm q hq
    refine ⟨Nat.lt_succ_of_lt hq', hrelies.mono (fun _ _ hi => hi.append row) le_rfl ?_⟩
    intro id hqid hids r hr
    obtain hr | hr := List.mem_append.mp hr
    · exact hids r hr
    · obtain rfl := List.mem_singleton.mp hr
      rintro rfl
      exact hother q hq _ (by rw [hid]; rfl) hqid

/-- A stop that has read the clock closes its row after its start. -/
theorem Fine.started_le (h : b.Fine) {began : Nat} {key : KeyRef} {i : Interval} {now : Moment}
    {rest : List Session.Pending} {ended : Instant}
    (hperm : b.pending.Perm (⟨began, .timed key i now⟩ :: rest))
    (hend : Instant.ofMoment now = .ok ended) :
    ∀ r ∈ b.rows, r.isOpenWith i.id = true → r.started.micros ≤ ended.micros := by
  intro r hr hopen
  obtain ⟨⟨r', hr', _, hi⟩, _, _, hstart⟩ := h.relies hperm
  have hid : r'.id = r.id := by
    rw [(Row.isOpenWith_iff.mp hopen).1, hi]
    rfl
  obtain rfl := h.consistent.eq_of_id hr' hr hid
  have hstarted : i.started = r'.started.toMoment := by
    rw [hi]
    rfl
  rw [hstarted, Instant.instant_toMoment, ← (Instant.ofMoment_eq_ok_iff.mp hend).2] at hstart
  exact Int.ofNat_le.mp hstart

private theorem fine_close (h : b.Fine) {began : Nat} {key : KeyRef} {i : Interval} {now : Moment}
    {rest : List Session.Pending} {ended : Instant} (f : Finished Session.Request Interval)
    (hperm : b.pending.Perm (⟨began, .timed key i now⟩ :: rest))
    (hend : Instant.ofMoment now = .ok ended) (hbegan : f.began = began) (hended : f.ended = b.steps) :
    Fine ⟨b.rows.map (Row.closing i.id ended), b.clock, b.steps + 1, rest, b.finished ++ [f]⟩ := by
  obtain ⟨_, _, hle, _⟩ := h.relies hperm
  have hbefore : began < b.steps := h.began_lt hperm
  have hpast : (ended.micros : Int) ≤ b.clock.instant := by
    rw [(Instant.ofMoment_eq_ok_iff.mp hend).2]
    exact hle
  refine ⟨h.consistent.closing (h.started_le hperm hend), h.clock, ?_, fun q hq => ?_,
    (h.rest_apart hperm).2, h.finished_append (by omega) hended⟩
  · intro r' hr'
    obtain ⟨r, hr, rfl⟩ := List.mem_map.mp hr'
    exact (h.past r hr).closing i.id hpast
  · obtain ⟨hq', hrelies⟩ := h.of_rest hperm q hq
    refine ⟨Nat.lt_succ_of_lt hq', hrelies.mono (fun _ _ hi => hi.closing _ _) le_rfl ?_⟩
    intro id _ hids r' hr'
    obtain ⟨r, hr, rfl⟩ := List.mem_map.mp hr'
    rw [Row.closing_id]
    exact hids r hr

/-- Calls go on without a change of rows and clock. -/
private theorem fine_calls (h : b.Fine) {calls : List Session.Pending}
    {finished : List (Finished Session.Request Interval)}
    (hcalls : ∀ q ∈ calls, q.began < b.steps + 1 ∧ b.Relies q.stage)
    (hapart : calls.Pairwise fun p q => ∀ id, p.stage.fresh? = some id → q.stage.fresh? ≠ some id)
    (hfinished : ∀ f ∈ finished, f.began ≤ f.ended ∧ f.ended < b.steps + 1) :
    Fine ⟨b.rows, b.clock, b.steps + 1, calls, finished⟩ :=
  ⟨h.consistent, h.clock, h.past, hcalls, hapart, hfinished⟩

private theorem still {calls : List Session.Pending}
    (hcalls : ∀ q ∈ calls, q.began < b.steps ∧ b.Relies q.stage) :
    ∀ q ∈ calls, q.began < b.steps + 1 ∧ b.Relies q.stage :=
  fun q hq => ⟨Nat.lt_succ_of_lt (hcalls q hq).1, (hcalls q hq).2⟩

private theorem joined {calls : List Session.Pending} {p : Session.Pending}
    (hcalls : ∀ q ∈ calls, q.began < b.steps ∧ b.Relies q.stage) (hp : p.began < b.steps + 1)
    (hrelies : b.Relies p.stage) : ∀ q ∈ calls ++ [p], q.began < b.steps + 1 ∧ b.Relies q.stage := by
  intro q hq
  obtain hq | hq := List.mem_append.mp hq
  · exact still hcalls q hq
  · obtain rfl := List.mem_singleton.mp hq
    exact ⟨hp, hrelies⟩

private theorem joined_apart {calls : List Session.Pending} {p : Session.Pending}
    (hcalls : calls.Pairwise fun p q => ∀ id, p.stage.fresh? = some id → q.stage.fresh? ≠ some id)
    (hp : ∀ q ∈ calls, ∀ id, p.stage.fresh? = some id → q.stage.fresh? ≠ some id) :
    (calls ++ [p]).Pairwise fun p q => ∀ id, p.stage.fresh? = some id → q.stage.fresh? ≠ some id := by
  rw [List.pairwise_append]
  refine ⟨hcalls, List.pairwise_singleton .., fun q hq p' hp' => ?_⟩
  obtain rfl := List.mem_singleton.mp hp'
  exact apart_symm (hp q hq)

/-- Moves keep the rules. -/
theorem Move.fine (hmove : b.Move b') (h : b.Fine) : b'.Fine := by
  cases hmove with
  | @clock m hstorable hle =>
    refine ⟨h.consistent, hstorable, fun r hr => (h.past r hr).mono hle, fun p hp => ?_, h.apart,
      h.finished_lt⟩
    obtain ⟨hbegan, hrelies⟩ := h.pending p hp
    exact ⟨Nat.lt_succ_of_lt hbegan, hrelies.mono (fun _ _ => id) hle fun _ _ => id⟩
  | idle => exact fine_calls h (still h.pending) h.apart h.finished_lt
  | @stamp fresh key hkey hrows hpending =>
    refine fine_calls h (joined h.pending (Nat.lt_succ_self _) ⟨hkey, h.clock, le_rfl, hrows⟩)
      (joined_apart h.apart fun q hq id hid => ?_) h.finished_lt
    cases hid
    exact hpending q hq
  | @miss key hfree =>
    exact fine_calls h (still h.pending) h.apart (h.finished_append le_rfl rfl)
  | @spot key r hr hopen =>
    obtain ⟨hkey, hstopped⟩ := Row.isOpenFor_iff.mp hopen
    have hshown : Shown b.rows key r.interval := ⟨r, hr, hkey, by simp [Row.interval, hstopped]⟩
    exact fine_calls h (joined h.pending (Nat.lt_succ_self _) hshown)
      (joined_apart h.apart fun q hq id hid => by cases hid) h.finished_lt
  | @insert began fresh key now rest row hperm hfree hid hkey hstart hopen =>
    exact fine_insert h _ hperm hfree hid hkey hstart hopen rfl rfl
  | @clash began fresh key now rest r hperm hr hopen =>
    exact fine_calls h (still (h.of_rest hperm)) (h.rest_apart hperm).2
      (h.finished_append (h.began_lt hperm).le rfl)
  | @time began key i rest hperm =>
    have hbegan : began < b.steps := h.began_lt hperm
    obtain ⟨r, hr, hkey, rfl⟩ := h.relies hperm
    have hstarted : r.started.toMoment.instant ≤ b.clock.instant := by
      rw [Instant.instant_toMoment]
      exact (h.past r hr).started
    exact fine_calls h
      (joined (h.of_rest hperm) (Nat.lt_succ_of_lt hbegan) ⟨⟨r, hr, hkey, rfl⟩, h.clock, le_rfl, hstarted⟩)
      (joined_apart (h.rest_apart hperm).2 fun q hq id hid => by cases hid) h.finished_lt
  | @close began key i now rest r ended hperm hr hid hopen hend =>
    exact fine_close h _ hperm hend rfl rfl
  | @late began key i now rest hperm hclosed =>
    exact fine_calls h (still (h.of_rest hperm)) (h.rest_apart hperm).2
      (h.finished_append (h.began_lt hperm).le rfl)

end Board
end Worklog
