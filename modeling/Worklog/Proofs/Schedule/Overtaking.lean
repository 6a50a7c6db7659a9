import Worklog.Proofs.Report.Worked
import Worklog.Proofs.Schedule.Steady

namespace Worklog

/-- The start that stored a row. -/
structure Opens (g : Finished Session.Request Interval) (r : Row) : Prop where
  request : g.request = .start r.id r.key.ref
  answer : g.answer = .ok ⟨r.id, r.user, r.task, g.now, none⟩
  started : Instant.ofMoment g.now = .ok r.started

/-- The stop that ended a row. -/
structure Ends (f : Finished Session.Request Interval) (r : Row) : Prop where
  request : f.request = .stop r.key.ref
  answer : f.answer = .ok r.interval
  stopped : ∃ ended, r.stopped = some ended ∧ Instant.ofMoment f.now = .ok ended

/-- Between the first and the last event of the start that stored the second row, a stop that had read a
    later time ended the first row. -/
def Overtaken (finished : List (Finished Session.Request Interval)) (first second : Row) : Prop :=
  ∃ f ∈ finished, ∃ g ∈ finished, Ends f first ∧ Opens g second ∧
    g.began < f.ended ∧ f.ended < g.ended ∧ g.now.instant < f.now.instant

variable {finished : List (Finished Session.Request Interval)} {first second : Row}

theorem Opens.closing {g : Finished Session.Request Interval} {r : Row} (h : Opens g r) (id : Uuid)
    (ended : Instant) : Opens g (r.closing id ended) := by
  unfold Row.closing
  split
  · exact ⟨h.request, h.answer, h.started⟩
  · exact h

theorem Overtaken.append (h : Overtaken finished first second)
    (f : Finished Session.Request Interval) : Overtaken (finished ++ [f]) first second := by
  obtain ⟨stop, hstop, start, hstart, hrest⟩ := h
  exact ⟨stop, List.mem_append_left _ hstop, start, List.mem_append_left _ hstart, hrest⟩

theorem Overtaken.closing (h : Overtaken finished first second) (id : Uuid) (ended : Instant) :
    Overtaken finished first (second.closing id ended) := by
  obtain ⟨stop, hstop, start, hstart, hends, hopens, hrest⟩ := h
  exact ⟨stop, hstop, start, hstart, hends, hopens.closing id ended, hrest⟩

/-- The start of the second row has read a time from before the end of the first one. -/
theorem Overtaken.started_lt (h : Overtaken finished first second) {ended : Instant}
    (hended : first.stopped = some ended) : second.started.micros < ended.micros := by
  obtain ⟨stop, _, start, _, hends, hopens, _, _, hlt⟩ := h
  obtain ⟨ended', hended', hstop⟩ := hends.stopped
  obtain rfl := Option.some.inj (hended'.symm.trans hended)
  rw [← (Instant.ofMoment_eq_ok_iff.mp hopens.started).2,
    ← (Instant.ofMoment_eq_ok_iff.mp hstop).2] at hlt
  exact Int.ofNat_lt.mp hlt

/-- What is known of two rows of a key, the first stored before the second: the first has an end, the
    second does not end earlier, and starts earlier only if its start was overtaken. -/
def InTurn (finished : List (Finished Session.Request Interval)) (first second : Row) : Prop :=
  ∃ ended, first.stopped = some ended ∧
    (∀ later, second.stopped = some later → ended.micros ≤ later.micros) ∧
    (ended.micros ≤ second.started.micros ∨ Overtaken finished first second)

theorem InTurn.append (h : InTurn finished first second) (f : Finished Session.Request Interval) :
    InTurn (finished ++ [f]) first second := by
  obtain ⟨ended, hended, hlater, hstart⟩ := h
  exact ⟨ended, hended, hlater, hstart.imp_right fun hovertaken => hovertaken.append f⟩

/-- An end for the second row that is not before that of the first. -/
theorem InTurn.closing (h : InTurn finished first second) {id : Uuid} {closed : Instant}
    (horder : second.isOpenWith id = true → ∀ ended, first.stopped = some ended →
      ended.micros ≤ closed.micros) :
    InTurn finished first (second.closing id closed) := by
  obtain ⟨ended, hended, hlater, hstart⟩ := h
  refine ⟨ended, hended, fun later hclosed => ?_, ?_⟩
  · by_cases hopen : second.isOpenWith id = true
    · rw [Row.closing_of_open hopen] at hclosed
      cases hclosed
      exact horder hopen ended hended
    · rw [Row.closing_of_not_open hopen] at hclosed
      exact hlater later hclosed
  · rw [Row.closing_started]
    exact hstart.imp_right fun hovertaken => hovertaken.closing _ closed

/-- Times that meet are those of an overtaken start. -/
theorem InTurn.meet_iff (h : InTurn finished first second) :
    (∃ t, first.Covers t ∧ second.Covers t) ↔
      (∃ ended, first.stopped = some ended ∧ first.started.micros < ended.micros) ∧
        Overtaken finished first second := by
  obtain ⟨ended, hended, hlater, hstart⟩ := h
  constructor
  · rintro ⟨t, ⟨hfirst, hbefore⟩, hsecond, _⟩
    have hbefore := hbefore ended hended
    refine ⟨⟨ended, hended, by omega⟩, hstart.resolve_left fun hle => ?_⟩
    omega
  · rintro ⟨⟨ended', hended', hlength⟩, hovertaken⟩
    obtain rfl := Option.some.inj (hended'.symm.trans hended)
    have hlt := hovertaken.started_lt hended
    refine ⟨max first.started.micros second.started.micros, ⟨by omega, ?_⟩, by omega, ?_⟩
    · intro e he
      obtain rfl := Option.some.inj (he.symm.trans hended)
      omega
    · intro later hsecond
      have hle := hlater later hsecond
      omega

/-- The time that a call under way has read. -/
def Session.Stage.now? : Session.Stage → Option Moment
  | stamped _ _ now | timed _ _ now => some now
  | found _ _ => none

namespace Board

/-- The rules between the rows of a key, the starts and stops under way on it, and the finished ones. -/
structure Recorded (b : Board) : Prop where
  fits : ∀ r ∈ b.rows, r.key.ref.fits = true
  rows : b.rows.Pairwise fun x y => x.key = y.key → InTurn b.finished x y
  stamped : ∀ p ∈ b.pending, ∀ fresh key now, p.stage = .stamped fresh key now →
    ∀ r ∈ b.rows, r.key.ref = key → ∀ ended, r.stopped = some ended →
      (ended.micros : Int) ≤ now.instant ∨ ∃ f ∈ b.finished, Ends f r ∧ p.began < f.ended
  timed : ∀ p ∈ b.pending, ∀ key i now, p.stage = .timed key i now →
    (∃ r ∈ b.rows, r.isOpenWith i.id = true) → ∀ r ∈ b.rows, r.key.ref = key →
      ∀ ended, r.stopped = some ended → (ended.micros : Int) ≤ now.instant

variable {b b' : Board}

/-- The calls under way go on, and nothing else happens. -/
private theorem recorded_calls (hrec : b.Recorded) {clock : Moment} {steps : Nat}
    {pending : List Session.Pending} (hpending : ∀ p ∈ pending, p ∈ b.pending ∨
      ∀ now, p.stage.now? = some now → ∀ r ∈ b.rows, ∀ ended, r.stopped = some ended →
        (ended.micros : Int) ≤ now.instant) :
    Recorded ⟨b.rows, clock, steps, pending, b.finished⟩ := by
  refine ⟨hrec.fits, hrec.rows, ?_, ?_⟩
  · intro p hp fresh key now hstage r hr hkey ended hended
    obtain hold | hnew := hpending p hp
    · exact hrec.stamped p hold fresh key now hstage r hr hkey ended hended
    · exact .inl (hnew now (by rw [hstage]; rfl) r hr ended hended)
  · intro p hp key i now hstage hopen r hr hkey ended hended
    obtain hold | hnew := hpending p hp
    · exact hrec.timed p hold key i now hstage hopen r hr hkey ended hended
    · exact hnew now (by rw [hstage]; rfl) r hr ended hended

/-- A call comes to its end without a change of the rows. -/
private theorem recorded_refused (hrec : b.Recorded) {steps : Nat} {pending : List Session.Pending}
    (hsub : ∀ p ∈ pending, p ∈ b.pending) (f : Finished Session.Request Interval) :
    Recorded ⟨b.rows, b.clock, steps, pending, b.finished ++ [f]⟩ := by
  refine ⟨hrec.fits, hrec.rows.imp fun hxy hkey => (hxy hkey).append f, ?_, ?_⟩
  · intro p hp fresh key now hstage r hr hkey ended hended
    refine (hrec.stamped p (hsub p hp) fresh key now hstage r hr hkey ended hended).imp_right ?_
    rintro ⟨g, hg, hends⟩
    exact ⟨g, List.mem_append_left _ hg, hends⟩
  · intro p hp key i now hstage hopen
    exact hrec.timed p (hsub p hp) key i now hstage hopen

/-- A row that had ended when a start inserts ended before the start read the clock, or meanwhile. -/
private theorem inTurn_insert (hrec : b.Recorded) (h : b.Fine) {began : Nat} {fresh : Uuid}
    {key : KeyRef} {now : Moment} {row : Row} (hmem : ⟨began, .stamped fresh key now⟩ ∈ b.pending)
    (hstarted : (row.started.micros : Int) = now.instant) (hopen : row.stopped = none)
    {f : Finished Session.Request Interval} (hopens : Opens f row) (hbegan : f.began = began)
    (hended : f.ended = b.steps) (hnow : f.now = now) {x : Row} (hx : x ∈ b.rows)
    (hxKey : x.key.ref = key) {ended : Instant} (hxStopped : x.stopped = some ended) :
    InTurn (b.finished ++ [f]) x row := by
  refine ⟨ended, hxStopped, fun later hlater => ?_, ?_⟩
  · rw [hopen] at hlater
    cases hlater
  · by_cases hle : ended.micros ≤ row.started.micros
    · exact .inl hle
    · right
      obtain hpast | ⟨g, hg, hends, hlate⟩ :=
        hrec.stamped _ hmem fresh key now rfl x hx hxKey ended hxStopped
      · omega
      · obtain ⟨ended', hended', hgNow⟩ := hends.stopped
        obtain rfl := Option.some.inj (hended'.symm.trans hxStopped)
        have hgInstant := (Instant.ofMoment_eq_ok_iff.mp hgNow).2
        have hgEnded := (h.finished g hg).2
        refine ⟨g, List.mem_append_left _ hg, f, by simp, hends, hopens, ?_, ?_, ?_⟩
        · rw [hbegan]
          exact hlate
        · rw [hended]
          exact hgEnded
        · rw [hnow]
          omega

/-- A start inserts. It was overtaken, or all rows of its key had ended before it read the clock. -/
private theorem recorded_insert (hrec : b.Recorded) (h : b.Fine) {began : Nat} {fresh : Uuid}
    {key : KeyRef} {now : Moment} {rest : List Session.Pending} {row : Row}
    (hperm : b.pending.Perm (⟨began, .stamped fresh key now⟩ :: rest))
    (hfree : ∀ r ∈ b.rows, ¬ r.isOpenFor key = true) (hid : row.id = fresh)
    (hkey : row.key.ref = key) (hstart : Instant.ofMoment now = .ok row.started)
    (hopen : row.stopped = none) {f : Finished Session.Request Interval}
    (hopens : Opens f row) (hbegan : f.began = began) (hended : f.ended = b.steps)
    (hnow : f.now = now) :
    Recorded ⟨b.rows ++ [row], b.clock, b.steps + 1, rest, b.finished ++ [f]⟩ := by
  have hmem : ⟨began, .stamped fresh key now⟩ ∈ b.pending := hperm.mem_iff.mpr List.mem_cons_self
  have hsub : ∀ p ∈ rest, p ∈ b.pending :=
    fun p hp => hperm.mem_iff.mpr (List.mem_cons_of_mem _ hp)
  obtain ⟨hfits, _, _, hnew⟩ := h.relies hperm
  have hstarted : (row.started.micros : Int) = now.instant :=
    (Instant.ofMoment_eq_ok_iff.mp hstart).2
  refine ⟨?_, ?_, ?_, ?_⟩
  · intro r hr
    obtain hr | hr := List.mem_append.mp hr
    · exact hrec.fits r hr
    · obtain rfl := List.mem_singleton.mp hr
      rwa [hkey]
  · rw [List.pairwise_append]
    refine ⟨hrec.rows.imp fun hxy hsame => (hxy hsame).append f, List.pairwise_singleton .., ?_⟩
    intro x hx y hy hsame
    obtain rfl := List.mem_singleton.mp hy
    have hxKey : x.key.ref = key := by rw [hsame, hkey]
    cases hxStopped : x.stopped with
    | none => exact absurd (Row.isOpenFor_iff.mpr ⟨hxKey, hxStopped⟩) (hfree x hx)
    | some ended =>
      exact inTurn_insert hrec h hmem hstarted hopen hopens hbegan hended hnow hx hxKey hxStopped
  · intro p hp fresh' key' now' hstage r hr hrKey ended hrStopped
    obtain hr | hr := List.mem_append.mp hr
    · refine (hrec.stamped p (hsub p hp) fresh' key' now' hstage r hr hrKey ended hrStopped).imp_right ?_
      rintro ⟨g, hg, hends⟩
      exact ⟨g, List.mem_append_left _ hg, hends⟩
    · obtain rfl := List.mem_singleton.mp hr
      rw [hopen] at hrStopped
      cases hrStopped
  · intro p hp key' i now' hstage hstill r hr hrKey ended hrStopped
    obtain ⟨x, hx, hxOpen⟩ := hstill
    obtain hr | hr := List.mem_append.mp hr
    · refine hrec.timed p (hsub p hp) key' i now' hstage ⟨x, ?_, hxOpen⟩ r hr hrKey ended hrStopped
      obtain hx | hx := List.mem_append.mp hx
      · exact hx
      · -- The stop has found a stored row, and the new row has an id of its own.
        obtain rfl := List.mem_singleton.mp hx
        have hrelies := (h.pending p (hsub p hp)).2
        rw [hstage] at hrelies
        obtain ⟨⟨found, hfound, _, rfl⟩, _⟩ := hrelies
        exact absurd ((Row.isOpenWith_iff.mp hxOpen).1.symm.trans hid) (hnew found hfound)
    · obtain rfl := List.mem_singleton.mp hr
      rw [hopen] at hrStopped
      cases hrStopped

/-- A stop that can still end its row is of another key than the row that has just been ended. -/
private theorem timed_close (hrec : b.Recorded) (h : b.Fine) {p : Session.Pending}
    (hp : p ∈ b.pending) {key key' : KeyRef} {j : Interval} {now : Moment}
    (hstage : p.stage = .timed key' j now) {r : Row} (hr : r ∈ b.rows)
    (hfor : r.isOpenFor key = true) {ended : Instant}
    (hstill : ∃ x ∈ b.rows.map (Row.closing r.id ended), x.isOpenWith j.id = true) :
    ∀ x ∈ b.rows.map (Row.closing r.id ended), x.key.ref = key' →
      ∀ e, x.stopped = some e → (e.micros : Int) ≤ now.instant := by
  intro x' hx' hxKey e he
  obtain ⟨y', hy', hyOpen'⟩ := hstill
  obtain ⟨y, hy, rfl⟩ := List.mem_map.mp hy'
  obtain ⟨x, hx, rfl⟩ := List.mem_map.mp hx'
  have hyClosed : ¬ y.isOpenWith r.id = true := by
    intro hyOpen
    have hstopped := (Row.isOpenWith_iff.mp hyOpen').2
    rw [Row.closing_of_open hyOpen] at hstopped
    cases hstopped
  have hyEq := Row.closing_of_not_open hyClosed ended
  rw [hyEq] at hy' hyOpen'
  obtain ⟨hyId, hyStopped⟩ := Row.isOpenWith_iff.mp hyOpen'
  have hyFor := h.isOpenFor_of_target hp (by rw [hstage]; rfl) hy hyId hyStopped
  rw [Row.closing_key] at hxKey
  by_cases hxOpen : x.isOpenWith r.id = true
  · obtain rfl := h.consistent.eq_of_isOpenWith hx hr hxOpen
    obtain rfl := (Row.isOpenFor_iff.mp hfor).1.symm.trans hxKey
    exact absurd hyFor (h.consistent.free_of_closing hx hfor ended y hy')
  · rw [Row.closing_of_not_open hxOpen] at he
    exact hrec.timed p hp key' j now hstage ⟨y, hy, hyOpen'⟩ x hx hxKey e he

/-- A stop ends its row. All other rows of the key had ended before it read the clock. -/
private theorem recorded_close (hrec : b.Recorded) (h : b.Fine) {began : Nat} {key : KeyRef}
    {i : Interval} {now : Moment} {rest : List Session.Pending} {r : Row} {ended : Instant}
    (hperm : b.pending.Perm (⟨began, .timed key i now⟩ :: rest)) (hr : r ∈ b.rows)
    (hid : r.id = i.id) (hopen : r.stopped = none) (hend : Instant.ofMoment now = .ok ended)
    {f : Finished Session.Request Interval} (hends : Ends f (r.stoppedAt ended))
    (hended : f.ended = b.steps) :
    Recorded ⟨b.rows.map (Row.closing i.id ended), b.clock, b.steps + 1, rest, b.finished ++ [f]⟩ := by
  have hmem : ⟨began, .timed key i now⟩ ∈ b.pending := hperm.mem_iff.mpr List.mem_cons_self
  have hsub : ∀ p ∈ rest, p ∈ b.pending :=
    fun p hp => hperm.mem_iff.mpr (List.mem_cons_of_mem _ hp)
  have hwith : r.isOpenWith i.id = true := Row.isOpenWith_iff.mpr ⟨hid, hopen⟩
  have hfor := h.isOpenFor_of_target hmem rfl hr hid hopen
  have honly : ∀ x ∈ b.rows, x.isOpenWith i.id = true → x = r := fun x hx hxOpen =>
    h.consistent.eq_of_isOpenWith hx hr (hid ▸ hxOpen)
  have hinstant := (Instant.ofMoment_eq_ok_iff.mp hend).2
  refine ⟨?_, ?_, ?_, ?_⟩
  · intro r' hr'
    obtain ⟨x, hx, rfl⟩ := List.mem_map.mp hr'
    rw [Row.closing_key]
    exact hrec.fits x hx
  · rw [List.pairwise_map]
    refine hrec.rows.imp_of_mem fun {x y} hx hy hxy hsame => ?_
    rw [Row.closing_key, Row.closing_key] at hsame
    have hturn := hxy hsame
    obtain ⟨_, hxStopped, _⟩ := hxy hsame
    rw [Row.closing_of_closed hxStopped]
    refine (hturn.closing fun hyOpen e he => ?_).append f
    obtain rfl := honly y hy hyOpen
    have hxKey : x.key.ref = key := by rw [hsame, (Row.isOpenFor_iff.mp hfor).1]
    have hbefore := hrec.timed _ hmem key i now rfl ⟨y, hy, hyOpen⟩ x hx hxKey e he
    omega
  · intro p hp fresh key' now' hstage r' hr' hr'Key e he
    obtain ⟨x, hx, rfl⟩ := List.mem_map.mp hr'
    by_cases hxOpen : x.isOpenWith i.id = true
    · right
      obtain rfl := honly x hx hxOpen
      refine ⟨f, by simp, ?_, ?_⟩
      · rw [Row.closing, if_pos hxOpen]
        exact hends
      · rw [hended]
        exact (h.pending p (hsub p hp)).1
    · rw [Row.closing_key] at hr'Key
      rw [Row.closing_of_not_open hxOpen] at he ⊢
      refine (hrec.stamped p (hsub p hp) fresh key' now' hstage x hx hr'Key e he).imp_right ?_
      rintro ⟨g, hg, hgEnds⟩
      exact ⟨g, List.mem_append_left _ hg, hgEnds⟩
  · intro p hp key' j now' hstage hstill
    rw [← hid] at hstill ⊢
    exact timed_close hrec h (hsub p hp) hstage hr hfor hstill

/-- Moves keep the record. -/
theorem Move.recorded (hmove : b.Move b') (h : b.Fine) (hrec : b.Recorded) : b'.Recorded := by
  cases hmove with
  | clock _ _ => exact recorded_calls hrec fun p hp => .inl hp
  | idle => exact recorded_calls hrec fun p hp => .inl hp
  | @stamp fresh key _ _ _ =>
    refine recorded_calls hrec fun p hp => ?_
    obtain hp | hp := List.mem_append.mp hp
    · exact .inl hp
    · obtain rfl := List.mem_singleton.mp hp
      refine .inr ?_
      rintro _ ⟨⟩
      exact fun r hr => (h.past r hr).stopped
  | miss _ => exact recorded_refused hrec (fun _ hp => hp) _
  | @spot key r _ _ =>
    refine recorded_calls hrec fun p hp => ?_
    obtain hp | hp := List.mem_append.mp hp
    · exact .inl hp
    · obtain rfl := List.mem_singleton.mp hp
      refine .inr ?_
      rintro _ ⟨⟩
  | @insert began fresh key now rest row hperm hfree hid hkey hstart hopen =>
    have hopens : Opens ⟨.start fresh key, began, b.steps, now,
        .ok ⟨fresh, row.user, row.task, now, none⟩⟩ row := by
      subst hid hkey
      exact ⟨rfl, rfl, hstart⟩
    exact recorded_insert hrec h hperm hfree hid hkey hstart hopen hopens rfl rfl rfl
  | clash hperm _ _ =>
    exact recorded_refused hrec (fun p hp => hperm.mem_iff.mpr (List.mem_cons_of_mem _ hp)) _
  | @time began key i rest hperm =>
    refine recorded_calls hrec fun p hp => ?_
    obtain hp | hp := List.mem_append.mp hp
    · exact .inl (hperm.mem_iff.mpr (List.mem_cons_of_mem _ hp))
    · obtain rfl := List.mem_singleton.mp hp
      refine .inr ?_
      rintro _ ⟨⟩
      exact fun r hr => (h.past r hr).stopped
  | @close began key i now rest r ended hperm hr hid hopen hend =>
    have hfor := h.isOpenFor_of_target (hperm.mem_iff.mpr List.mem_cons_self) rfl hr hid hopen
    have hends : Ends ⟨.stop key, began, b.steps, now, .ok (r.stoppedAt ended).interval⟩
        (r.stoppedAt ended) :=
      ⟨congrArg Session.Request.stop (Row.isOpenFor_iff.mp hfor).1.symm, rfl, ended, rfl, hend⟩
    exact recorded_close hrec h hperm hr hid hopen hend hends rfl
  | late hperm _ =>
    exact recorded_refused hrec (fun p hp => hperm.mem_iff.mpr (List.mem_cons_of_mem _ hp)) _

/-- Sequences of moves keep the rules and the record. -/
theorem recorded_of_moves (hmoves : Relation.ReflTransGen Move b b') (h : b.Fine)
    (hrec : b.Recorded) : b'.Fine ∧ b'.Recorded := by
  induction hmoves with
  | refl => exact ⟨h, hrec⟩
  | tail _ hmove ih => exact ⟨hmove.fine ih.1, hmove.recorded ih.1 ih.2⟩

theorem Recorded.ints (hrec : b.Recorded) {r : Row} (hr : r ∈ b.rows) :
    ∃ n : Int, r.task = .int n := by
  obtain ⟨_, task, _, _, hkey⟩ := KeyRef.fits_iff.mp (hrec.fits r hr)
  exact ⟨task, Option.some.inj (congrArg KeyRef.task hkey)⟩

/-- No start on the key was overtaken. -/
def Undisputed (b : Board) (key : Key) : Prop :=
  b.rows.Pairwise fun first second =>
    first.key = key → second.key = key → ¬ Overtaken b.finished first second

theorem Undisputed.noneTwice {key : Key} (h : b.Undisputed key) (hrec : b.Recorded) :
    Report.NoneTwice key b.rows := by
  refine (h.and hrec.rows).imp ?_
  rintro first second ⟨hnot, hturn⟩ hfirst hsecond t hboth
  have hmeet := (hturn (hfirst.trans hsecond.symm)).meet_iff.mp ⟨t, hboth⟩
  exact hnot hfirst hsecond hmeet.2

end Board

namespace System

/-- A report in steady surroundings. The time of a task without overtaken starts is the number of
    microseconds that belong to its rows, and only the others can be too long. -/
private theorem Sound.report_of_recorded {s : System} (h : s.Sound) (hrec : s.board.Recorded)
    {user : Int} (huser : Integer.fits64 user = true) {start stop now : Moment}
    (hstart : start.Storable) (hstop : stop.Storable) (hle : start.instant ≤ stop.instant)
    (haware : now.isAware = true) (hnow : s.clock.instant ≤ now.instant) :
    ∃ answer db', Report.run Database.intervals now (some (.int user)) start stop s.database =
        (answer, db') ∧
      (∀ totals, answer = .ok totals → ∀ row ∈ totals, s.board.Undisputed ⟨.int user, row.task⟩ →
        row.micros =
          (Report.covered s.board.rows ⟨.int user, row.task⟩ start stop now).card) ∧
      ((∀ task, s.board.Undisputed ⟨.int user, task⟩) → ∃ totals, answer = .ok totals) := by
  obtain hsame | hlt := hle.eq_or_lt
  · exact ⟨_, _, Report.run_of_empty s.database _ now hstart.1 hstop.1 hsame,
      by rintro _ ⟨⟩; simp, fun _ => ⟨[], rfl⟩⟩
  have hpast : ∀ r ∈ s.board.rows, r.user = .int user → r.Past now :=
    fun r hr _ => (h.fine.past r hr).mono hnow
  obtain ⟨answer, db', hrun, _, hanswer⟩ := Report.run_cases h.ready huser
    hstart hstop hlt haware (fun r hr huserRow _ => (hpast r hr huserRow).started)
    fun r hr _ => hrec.ints hr
  refine ⟨answer, db', hrun, ?_, fun hnone => ?_⟩
  · rintro totals rfl row hrow hundisputed
    obtain ⟨totals', htotals, htallies, _⟩ | ⟨_, _, herror, _⟩ := hanswer
    · cases htotals
      rw [htallies.micros row hrow, (hundisputed.noneTwice hrec).spent_eq hpast]
    · cases herror
  · obtain ⟨totals, htotals, _⟩ | ⟨_, task, _, hlong⟩ := hanswer
    · exact ⟨totals, htotals⟩
    · rw [((hnone task).noneTwice hrec).spent_eq hpast] at hlong
      exact absurd (Report.card_covered_le_greatest _ _ hstart hstop hle now) (not_le.mpr hlong)

/-- In steady surroundings, from an empty table. Of two rows of a key the one that was stored first has an
    end, and the times of the two meet exactly when the first has a length and the start of the second was
    overtaken. A report counts no microsecond of a task twice, and no more than its window has, unless
    a start on the task was overtaken; without overtaken starts it has an answer. -/
theorem rows_meet_iff_overtaken {db : Database} {clock : Moment} {events : List Event}
    (hblank : db.Blank) (hcalm : db.Undisturbed) (hclock : clock.Storable)
    (hsteady : (on db clock).Steady events) :
    let s := (on db clock).run events
    s.database.ledger.rows = some s.board.rows ∧
    (s.board.rows.Pairwise fun first second => first.key = second.key → first.stopped ≠ none ∧
      ((∃ t, first.Covers t ∧ second.Covers t) ↔
        (∃ ended, first.stopped = some ended ∧ first.started.micros < ended.micros) ∧
          Overtaken s.finished first second)) ∧
    ∀ (user : Int) (start stop now : Moment), Integer.fits64 user = true → start.Storable →
      stop.Storable → start.instant ≤ stop.instant → now.isAware = true →
      s.clock.instant ≤ now.instant →
      ∃ answer db', Report.run Database.intervals now (some (.int user)) start stop s.database =
          (answer, db') ∧
        (∀ totals, answer = .ok totals → ∀ row ∈ totals,
          s.board.Undisputed ⟨.int user, row.task⟩ →
          row.micros =
              (Report.covered s.board.rows ⟨.int user, row.task⟩ start stop now).card ∧
            row.micros ≤ stop.instant - start.instant) ∧
        ((∀ task, s.board.Undisputed ⟨.int user, task⟩) → ∃ totals, answer = .ok totals) := by
  intro s
  have hinitial := sound_on hblank hcalm hclock
  obtain ⟨hmoves, hsound⟩ := hinitial.run_moves hsteady
  have hempty : (on db clock).board.rows = [] :=
    (Option.some.inj (hblank.rows.symm.trans hinitial.ready.stored)).symm
  have hstart : (on db clock).board.Recorded := by
    refine ⟨?_, ?_, by simp [System.board, on], by simp [System.board, on]⟩
    · simp [hempty]
    · rw [hempty]
      exact .nil
  obtain ⟨_, hrec⟩ := Board.recorded_of_moves hmoves hinitial.fine hstart
  refine ⟨hsound.ready.stored, hrec.rows.imp ?_, ?_⟩
  · intro first second hturn hkey
    refine ⟨?_, (hturn hkey).meet_iff⟩
    obtain ⟨ended, hended, _⟩ := hturn hkey
    simp [hended]
  · intro user start stop now huser hstart hstop hle haware hnow
    obtain ⟨answer, db', hrun, hrows, hanswer⟩ :=
      hsound.report_of_recorded hrec huser hstart hstop hle haware hnow
    refine ⟨answer, db', hrun, fun totals htotals row hrow hundisputed => ?_, hanswer⟩
    have hmicros := hrows totals htotals row hrow hundisputed
    refine ⟨hmicros, ?_⟩
    rw [hmicros]
    exact Report.card_covered_le _ _ hle now

/-- A key is freed in microsecond 5, and the next start reads the clock after that. -/
def handover : List Event :=
  let key : KeyRef := ⟨some (.int 1), some (.int 1)⟩
  [.ask (.start (.ofNat 0xa1) key), .resume 0, .clock (tick 5), .ask (.stop key), .resume 0, .resume 0,
    .ask (.start (.ofNat 0xa2) key), .resume 0, .clock (tick 7)]

/-- What the two starts of the handover have stored. -/
def handedOver : List Row :=
  [⟨.ofNat 0xa1, .int 1, .int 1, ⟨1, by decide⟩, some ⟨5, by decide⟩⟩,
    ⟨.ofNat 0xa2, .int 1, .int 1, ⟨5, by decide⟩, none⟩]

/-- No start of the handover was overtaken, and a report does not count more than there is. -/
theorem handover_counts_once :
    (on {} (tick 1)).Steady handover ∧
    ((on {} (tick 1)).run handover).database.ledger.rows = some handedOver ∧
    ∃ totals db', Report.run Database.intervals (tick 7) (some (.int 1)) (tick 0) (tick 6)
        ((on {} (tick 1)).run handover).database = (.ok totals, db') ∧
      ∀ row ∈ totals, row.micros ≤ (tick 6).instant - (tick 0).instant := by
  have hsteady : (on {} (tick 1)).Steady handover := by decide +kernel
  have hstored : ((on {} (tick 1)).run handover).database.ledger.rows = some handedOver := by
    decide +kernel
  obtain ⟨hrows, hmeet, hreport⟩ :=
    rows_meet_iff_overtaken ⟨rfl, rfl⟩ (fun _ _ => rfl) (by decide) hsteady
  rw [Option.some.inj (hrows.symm.trans hstored), handedOver, List.pairwise_pair] at hmeet
  have hundisputed : ∀ key, ((on {} (tick 1)).run handover).board.Undisputed key := by
    intro key
    unfold Board.Undisputed
    rw [Option.some.inj (hrows.symm.trans hstored), handedOver, List.pairwise_pair]
    intro _ _ hovertaken
    obtain ⟨t, hfirst, hsecond⟩ := (hmeet rfl).2.mpr ⟨⟨_, rfl, by decide⟩, hovertaken⟩
    exact absurd hsecond.1 (not_le.mpr (hfirst.2 _ rfl))
  obtain ⟨answer, db', hrun, hcounted, hanswer⟩ := hreport 1 (tick 0) (tick 6) (tick 7)
    (by decide) (by decide) (by decide) (by decide) rfl (by decide +kernel)
  obtain ⟨totals, rfl⟩ := hanswer fun task => hundisputed _
  exact ⟨hsteady, hstored, totals, db', hrun,
    fun row hrow => (hcounted totals rfl row hrow (hundisputed _)).2⟩

/-- While an interval from microsecond 1 is open, a start of its key reads the clock in microsecond 2. A
    stop in microsecond 5 comes before the insertion. -/
def doubleBooking : List Event :=
  let key : KeyRef := ⟨some (.int 1), some (.int 1)⟩
  [.ask (.start (.ofNat 0xa1) key), .resume 0, .clock (tick 2), .ask (.start (.ofNat 0xa2) key),
    .clock (tick 5), .ask (.stop key), .resume 1, .resume 1, .resume 0, .clock (tick 6)]

/-- What the two starts of the double booking have stored. -/
def doubleBooked : List Row :=
  [⟨.ofNat 0xa1, .int 1, .int 1, ⟨1, by decide⟩, some ⟨5, by decide⟩⟩,
    ⟨.ofNat 0xa2, .int 1, .int 1, ⟨2, by decide⟩, none⟩]

/-- The second start was overtaken: the times of two rows of a key meet, and of six microseconds a report
    counts eight. -/
theorem doubleBooking_counts_twice :
    (on {} (tick 1)).Steady doubleBooking ∧
    ((on {} (tick 1)).run doubleBooking).database.ledger.rows = some doubleBooked ∧
    (∃ first ∈ doubleBooked, ∃ second ∈ doubleBooked, first ≠ second ∧ first.key = second.key ∧
      ∃ t, first.Covers t ∧ second.Covers t) ∧
    ∃ db' row, Report.run Database.intervals (tick 6) (some (.int 1)) (tick 0) (tick 6)
        ((on {} (tick 1)).run doubleBooking).database = (.ok [row], db') ∧
      (tick 6).instant - (tick 0).instant < row.micros := by
  have hsteady : (on {} (tick 1)).Steady doubleBooking := by decide +kernel
  have hrows : ((on {} (tick 1)).run doubleBooking).database.ledger.rows = some doubleBooked := by
    decide +kernel
  have hready : ((on {} (tick 1)).run doubleBooking).database.Ready doubleBooked := by
    have hsound := ((sound_on ⟨rfl, rfl⟩ (fun _ _ => rfl) (by decide)).run_moves hsteady).2
    rw [← Option.some.inj (hsound.ready.stored.symm.trans hrows)]
    exact hsound.ready
  have hfrom : Instant.ofMoment (tick 0) = .ok ⟨0, by decide⟩ := rfl
  have hto : Instant.ofMoment (tick 6) = .ok ⟨6, by decide⟩ := rfl
  have huser : Integer.fits64 1 = true := by decide
  obtain ⟨db', hrun, _⟩ := Report.run_of_fits hready huser hfrom hto (by decide) (tick 6)
  have hsorted : doubleBooked.Pairwise fun a b => a.started.micros ≤ b.started.micros := by decide
  have hfound : (doubleBooked.filter fun r => r.ofUser (some (.int 1)) &&
      r.reaches ⟨0, by decide⟩ ⟨6, by decide⟩) = doubleBooked := by decide
  rw [hfound, List.mergeSort_of_pairwise (hsorted.imp decide_eq_true)] at hrun
  have htotals : Report.aggregate (doubleBooked.map Row.interval) ⟨tick 0, tick 6⟩ (tick 6) =
      .ok [⟨.int 1, 8⟩] := rfl
  rw [htotals] at hrun
  refine ⟨hsteady, hrows, ?_, db', _, hrun, by decide⟩
  exact ⟨_, List.mem_cons_self, _, List.mem_cons_of_mem _ List.mem_cons_self, by decide, by decide,
    3, by decide, by decide⟩

end System
end Worklog
