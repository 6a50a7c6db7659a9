import Worklog.Proofs.Report.Worked
import Worklog.Proofs.Schedule.History
import Worklog.Proofs.Session.Calm

namespace Worklog

namespace Session

def Request.key : Request → KeyRef
  | start _ key | stop key => key

def Request.isStart : Request → Bool
  | start _ _ => true
  | stop _ => false

/-- A start or a stop with the time that it reads from the clock. -/
structure Turn where
  now : Moment
  request : Request
  deriving DecidableEq

/-- The whole call. -/
def Turn.call (t : Turn) : Use Interval :=
  match t.request with
  | .start fresh key => start Database.intervals fresh t.now key
  | .stop key => stop Database.intervals t.now key

/-- A serial course of calls: the database, the last reading of the clock, and the calls that have
    succeeded. -/
structure Course where
  database : Database
  clock : Moment
  history : List Turn := []

namespace Course

/-- A call has its turn. -/
def step (c : Course) (t : Turn) : Course :=
  match t.call c.database with
  | (.ok _, db) => ⟨db, t.now, c.history ++ [t]⟩
  | (.error _, db) => ⟨db, t.now, c.history⟩

/-- One call after the other. -/
def run (c : Course) (turns : List Turn) : Course := turns.foldl step c

/-- The clock does not go back, the key is a pair of 64-bit integers, and a start brings a new id and names
    a task that the database can refer to. -/
def Permits (c : Course) (t : Turn) : Prop :=
  t.now.Storable ∧ c.clock.instant ≤ t.now.instant ∧ t.request.key.fits = true ∧
    match t.request with
    | .start fresh key =>
      (∀ r ∈ c.database.ledger.rows.getD [], r.id ≠ fresh) ∧ c.database.ledger.admits key = true
    | .stop _ => True

instance (c : Course) : (t : Turn) → Decidable (c.Permits t)
  | ⟨_, .start _ _⟩ => inferInstanceAs (Decidable (_ ∧ _ ∧ _ ∧ _ ∧ _))
  | ⟨_, .stop _⟩ => inferInstanceAs (Decidable (_ ∧ _ ∧ _ ∧ True))

/-- All calls are permitted when they have their turn. -/
def Steady : Course → List Turn → Prop
  | _, [] => True
  | c, t :: turns => c.Permits t ∧ (c.step t).Steady turns

instance steadyDecidable : (c : Course) → (turns : List Turn) → Decidable (c.Steady turns)
  | _, [] => instDecidableTrue
  | c, t :: turns =>
    have := steadyDecidable (c.step t) turns
    inferInstanceAs (Decidable (_ ∧ _))

end Course

/-- A key is active at a time if the last of its successful calls up to then was a start. -/
def activeAt (history : List Turn) (key : KeyRef) (t : Int) : Bool :=
  (history.filter fun turn => turn.request.key = key ∧ turn.now.instant ≤ t).getLast?.any
    (·.request.isStart)

theorem activeAt_append (history : List Turn) (turn : Turn) (key : KeyRef) (t : Int) :
    activeAt (history ++ [turn]) key t =
      if turn.request.key = key ∧ turn.now.instant ≤ t then turn.request.isStart
      else activeAt history key t := by
  unfold activeAt
  by_cases hturn : turn.request.key = key ∧ turn.now.instant ≤ t
  · rw [List.filter_append, List.filter_cons_of_pos (by simpa using hturn), List.filter_nil,
      List.getLast?_concat, if_pos hturn]
    rfl
  · rw [List.filter_append, List.filter_cons_of_neg (by simpa using hturn), List.filter_nil,
      List.append_nil, if_neg hturn]

theorem activeAt_start (history : List Turn) (now : Moment) (fresh : Uuid) (key key' : KeyRef)
    (t : Int) : activeAt (history ++ [⟨now, .start fresh key⟩]) key' t =
      if key = key' ∧ now.instant ≤ t then true else activeAt history key' t :=
  activeAt_append history ⟨now, .start fresh key⟩ key' t

theorem activeAt_stop (history : List Turn) (now : Moment) (key key' : KeyRef) (t : Int) :
    activeAt (history ++ [⟨now, .stop key⟩]) key' t =
      if key = key' ∧ now.instant ≤ t then false else activeAt history key' t :=
  activeAt_append history ⟨now, .stop key⟩ key' t

end Session

namespace Row

/-- A row that has ended covers nothing from the time on at which its times have passed. -/
theorem Past.not_covers {r : Row} {now : Moment} (h : r.Past now) (hclosed : r.stopped ≠ none)
    {t : Int} (hle : now.instant ≤ t) : ¬ r.Covers t := by
  rintro ⟨_, hbefore⟩
  obtain ⟨ended, hended⟩ := Option.ne_none_iff_exists'.mp hclosed
  have hpast := h.stopped ended hended
  have hlt := hbefore ended hended
  omega

/-- An end changes nothing of what a row covers before. -/
theorem covers_closing_iff {r : Row} {id : Uuid} {ended : Instant} {t : Int}
    (hlt : r.isOpenWith id = true → t < ended.micros) : (r.closing id ended).Covers t ↔ r.Covers t := by
  by_cases hopen : r.isOpenWith id = true
  · have hstopped := (isOpenWith_iff.mp hopen).2
    simp [Covers, closing_of_open hopen, hstopped, hlt hopen]
  · rw [closing_of_not_open hopen]

end Row

namespace Session.Course

/-- What holds of a course at any time, with the rows that it has stored. Of two rows of a key the first
    has ended when the second starts. -/
structure Sound (c : Course) (rows : List Row) : Prop where
  ready : c.database.Ready rows
  fits : ∀ r ∈ rows, r.key.ref.fits = true
  past : ∀ r ∈ rows, r.Past c.clock
  inTurn : rows.Pairwise fun x y => x.key = y.key →
    ∃ ended, x.stopped = some ended ∧ ended.micros ≤ y.started.micros
  active : ∀ key t, activeAt c.history key t = true ↔ ∃ r ∈ rows, r.key.ref = key ∧ r.Covers t

variable {c : Course} {rows : List Row} {t : Turn}

theorem Sound.past_of_le (h : c.Sound rows) {now : Moment} (hclock : c.clock.instant ≤ now.instant) :
    ∀ r ∈ rows, r.Past now := fun r hr => (h.past r hr).mono hclock

/-- A call that is refused changes nothing but the clock. -/
private theorem Sound.refused (h : c.Sound rows) {now : Moment}
    (hclock : c.clock.instant ≤ now.instant) {db : Database} (hlike : c.database.Alike db) :
    Sound ⟨db, now, c.history⟩ rows where
  ready := h.ready.alike hlike
  fits := h.fits
  past := h.past_of_le hclock
  inTurn := h.inTurn
  active := h.active

/-- From a start on the key is covered by the new row. -/
private theorem Sound.active_started (h : c.Sound rows) {fresh : Uuid} {key : KeyRef} {now : Moment}
    {row : Row} (hkeyRef : row.key.ref = key) (hinstant : (row.started.micros : Int) = now.instant)
    (hopen : row.stopped = none) (key' : KeyRef) (t : Int) :
    activeAt (c.history ++ [⟨now, .start fresh key⟩]) key' t = true ↔
      ∃ r ∈ rows ++ [row], r.key.ref = key' ∧ r.Covers t := by
  rw [activeAt_start]
  by_cases hturn : key = key' ∧ now.instant ≤ t
  · rw [if_pos hturn]
    refine ⟨fun _ => ⟨row, by simp, hkeyRef.trans hturn.1, ?_, by simp [hopen]⟩, fun _ => rfl⟩
    rw [hinstant]
    exact hturn.2
  · rw [if_neg hturn, h.active]
    constructor
    · rintro ⟨r, hr, hrest⟩
      exact ⟨r, List.mem_append_left _ hr, hrest⟩
    · rintro ⟨r, hr, hrKey, hcovers⟩
      obtain hr | hr := List.mem_append.mp hr
      · exact ⟨r, hr, hrKey, hcovers⟩
      · obtain rfl := List.mem_singleton.mp hr
        exact absurd ⟨hkeyRef.symm.trans hrKey, hinstant ▸ hcovers.1⟩ hturn

/-- A start that succeeds adds an open row, and from its time on the key is active. -/
private theorem Sound.started (h : c.Sound rows) {fresh : Uuid} {key : KeyRef} {now : Moment}
    (hclock : c.clock.instant ≤ now.instant) (hkey : key.fits = true)
    (hnew : ∀ r ∈ rows, r.id ≠ fresh) (hfree : ∀ r ∈ rows, ¬ r.isOpenFor key = true)
    {db : Database} {row : Row} (hdisruption : db.disruption = c.database.disruption)
    (hledger : db.ledger = { c.database.ledger with rows := some (rows ++ [row]) })
    (hid : row.id = fresh) (hkeyRef : row.key.ref = key)
    (hstarted : Instant.ofMoment now = .ok row.started) (hopen : row.stopped = none) :
    Sound ⟨db, now, c.history ++ [⟨now, .start fresh key⟩]⟩ (rows ++ [row]) := by
  have hinstant := (Instant.ofMoment_eq_ok_iff.mp hstarted).2
  have hpast := h.past_of_le hclock
  refine ⟨h.ready.next hdisruption hledger ?_, ?_, ?_, ?_, h.active_started hkeyRef hinstant hopen⟩
  · refine h.ready.consistent.append (fun r hr => hid ▸ hnew r hr) (fun _ => hkeyRef ▸ hfree) ?_
    rw [Row.inOrder_iff, hopen]
    simp
  · intro r hr
    obtain hr | hr := List.mem_append.mp hr
    · exact h.fits r hr
    · obtain rfl := List.mem_singleton.mp hr
      rwa [hkeyRef]
  · intro r hr
    obtain hr | hr := List.mem_append.mp hr
    · exact hpast r hr
    · obtain rfl := List.mem_singleton.mp hr
      exact Row.past_of_open hinstant.le hopen
  · exact Successive.append h.inTurn hpast hinstant (hkeyRef ▸ hfree)

/-- From a stop on the key is not covered. -/
private theorem Sound.active_stopped (h : c.Sound rows) {key : KeyRef} {now : Moment} {r : Row}
    (hr : r ∈ rows) (hfor : r.isOpenFor key = true) {ended : Instant}
    (hinstant : (ended.micros : Int) = now.instant)
    (hpast : ∀ x ∈ rows.map (Row.closing r.id ended), x.Past now) (key' : KeyRef) (t : Int) :
    activeAt (c.history ++ [⟨now, .stop key⟩]) key' t = true ↔
      ∃ x ∈ rows.map (Row.closing r.id ended), x.key.ref = key' ∧ x.Covers t := by
  rw [activeAt_stop]
  by_cases hturn : key = key' ∧ now.instant ≤ t
  · rw [if_pos hturn]
    obtain ⟨rfl, hle⟩ := hturn
    refine ⟨fun hstart => absurd hstart Bool.false_ne_true, ?_⟩
    rintro ⟨x, hx, hxKey, hcovers⟩
    have hclosed : x.stopped ≠ none := fun hxStopped =>
      h.ready.consistent.free_of_closing hr hfor ended x hx (Row.isOpenFor_iff.mpr ⟨hxKey, hxStopped⟩)
    exact absurd hcovers ((hpast x hx).not_covers hclosed hle)
  · rw [if_neg hturn, h.active]
    have hsame : ∀ x ∈ rows, x.key.ref = key' →
        ((x.closing r.id ended).Covers t ↔ x.Covers t) := by
      intro x hx hxKey
      refine Row.covers_closing_iff fun hxOpen => ?_
      obtain rfl := h.ready.consistent.eq_of_isOpenWith hx hr hxOpen
      rw [hinstant]
      exact not_le.mp fun hle => hturn ⟨(Row.isOpenFor_iff.mp hfor).1.symm.trans hxKey, hle⟩
    constructor
    · rintro ⟨x, hx, hxKey, hcovers⟩
      exact ⟨_, List.mem_map_of_mem hx, by rw [Row.closing_key, hxKey], (hsame x hx hxKey).mpr hcovers⟩
    · rintro ⟨x', hx', hxKey, hcovers⟩
      obtain ⟨x, hx, rfl⟩ := List.mem_map.mp hx'
      rw [Row.closing_key] at hxKey
      exact ⟨x, hx, hxKey, (hsame x hx hxKey).mp hcovers⟩

/-- A stop that succeeds ends the open row of its key, and from its time on the key is inactive. -/
private theorem Sound.stopped (h : c.Sound rows) {key : KeyRef} {now : Moment}
    (hclock : c.clock.instant ≤ now.instant) {r : Row} (hr : r ∈ rows)
    (hfor : r.isOpenFor key = true) {ended : Instant} (hend : Instant.ofMoment now = .ok ended)
    {db : Database} (hdisruption : db.disruption = c.database.disruption)
    (hledger : db.ledger = { c.database.ledger with
      rows := some (rows.map (Row.closing r.id ended)) }) :
    Sound ⟨db, now, c.history ++ [⟨now, .stop key⟩]⟩ (rows.map (Row.closing r.id ended)) := by
  have hinstant := (Instant.ofMoment_eq_ok_iff.mp hend).2
  have horder : ∀ x ∈ rows, x.isOpenWith r.id = true → x.started.micros ≤ ended.micros := by
    intro x hx _
    have hstarted := (h.past_of_le hclock x hx).started
    omega
  have hpast : ∀ x ∈ rows.map (Row.closing r.id ended), x.Past now := by
    intro x' hx'
    obtain ⟨x, hx, rfl⟩ := List.mem_map.mp hx'
    exact (h.past_of_le hclock x hx).closing r.id hinstant.le
  refine ⟨h.ready.next hdisruption hledger (h.ready.consistent.closing horder), ?_, hpast,
    Successive.closing h.inTurn r.id ended, h.active_stopped hr hfor hinstant hpast⟩
  intro x' hx'
  obtain ⟨x, hx, rfl⟩ := List.mem_map.mp hx'
  rw [Row.closing_key]
  exact h.fits x hx

/-- Every permitted call keeps a course sound. -/
theorem Sound.step (h : c.Sound rows) (hpermits : c.Permits t) :
    ∃ rows', (c.step t).Sound rows' := by
  obtain ⟨now, request⟩ := t
  obtain ⟨hnow, hclock, hkey, hrequest⟩ := hpermits
  dsimp only at hnow hclock
  cases request with
  | start fresh key =>
    rw [Request.key] at hkey
    obtain ⟨hnew, hadmits⟩ := hrequest
    rw [h.ready.stored, Option.getD_some] at hnew
    by_cases hopen : ∃ r ∈ rows, r.isOpenFor key = true
    · obtain ⟨r, hr, hopen⟩ := hopen
      obtain ⟨db, hstart, hlike⟩ :=
        start_of_open h.ready hkey hadmits fresh hnow hr hopen
      simp only [Course.step, Turn.call, hstart]
      exact ⟨rows, h.refused hclock hlike⟩
    · have hfree : ∀ r ∈ rows, ¬ r.isOpenFor key = true := fun r hr hfor => hopen ⟨r, hr, hfor⟩
      obtain ⟨db, row, hstart, hdisruption, hledger, hid, hkeyRef, hstarted, hstopped⟩ :=
        start_of_free h.ready hkey hadmits hnew hnow hfree
      simp only [Course.step, Turn.call, hstart]
      exact ⟨_, h.started hclock hkey hnew hfree hdisruption hledger hid hkeyRef hstarted hstopped⟩
  | stop key =>
    rw [Request.key] at hkey
    by_cases hopen : ∃ r ∈ rows, r.isOpenFor key = true
    · obtain ⟨r, hr, hopen⟩ := hopen
      obtain ⟨ended, hend⟩ := Instant.storable_iff.mp hnow
      have horder : r.started.micros ≤ ended.micros := by
        have hstarted := (h.past_of_le hclock r hr).started
        rw [← (Instant.ofMoment_eq_ok_iff.mp hend).2] at hstarted
        exact Int.ofNat_le.mp hstarted
      obtain ⟨db, hstop, hdisruption, hledger⟩ :=
        stop_of_open h.ready hkey hr hopen hend horder
      simp only [Course.step, Turn.call, hstop]
      exact ⟨_, h.stopped hclock hr hopen hend hdisruption hledger⟩
    · have hfree : ∀ r ∈ rows, ¬ r.isOpenFor key = true := fun r hr hfor => hopen ⟨r, hr, hfor⟩
      obtain ⟨db, hstop, hlike⟩ := stop_of_free h.ready hkey hfree now
      simp only [Course.step, Turn.call, hstop]
      exact ⟨rows, h.refused hclock hlike⟩

/-- A steady course stays sound. -/
theorem Sound.run {turns : List Turn} (h : c.Sound rows) (hsteady : c.Steady turns) :
    ∃ rows', (c.run turns).Sound rows' := by
  induction turns generalizing c rows with
  | nil => exact ⟨rows, h⟩
  | cons t turns ih =>
    obtain ⟨hpermits, hsteady⟩ := hsteady
    obtain ⟨rows', hstep⟩ := h.step hpermits
    exact ih hstep hsteady

theorem sound_of_blank {db : Database} (hblank : db.Blank) (hcalm : db.Undisturbed)
    (clock : Moment) : Sound ⟨db, clock, []⟩ [] :=
  ⟨⟨hcalm, hblank.openUnique, hblank.rows, .nil⟩, by simp, by simp, .nil, by simp [activeAt]⟩

/-- The microseconds between two bounds and before `now` at which a key was active. -/
def activeMicros (history : List Turn) (key : KeyRef) (start stop now : Moment) : Finset Int :=
  (start.upTo stop).filter fun t => t < now.instant ∧ activeAt history key t

theorem Sound.covered_eq (h : c.Sound rows) (key : Key) (start stop now : Moment) :
    Report.covered rows key start stop now = activeMicros c.history key.ref start stop now := by
  unfold Report.covered activeMicros
  refine Finset.filter_congr fun t _ => and_congr_right fun _ => ?_
  rw [h.active]
  refine exists_congr fun r => and_congr_right fun _ => and_congr_left fun _ => ?_
  exact ⟨congrArg Key.ref, Key.ref_injective⟩

theorem Sound.past_of_user (h : c.Sound rows) {now : Moment} (hnow : c.clock.instant ≤ now.instant)
    (user : Int) : ∀ r ∈ rows, r.user = .int user → r.Past now := fun r hr _ => h.past_of_le hnow r hr

/-- Every stored interval is about integers. -/
theorem Sound.int_task (h : c.Sound rows) : ∀ r ∈ rows, ∃ n : Int, r.task = .int n := by
  intro r hr
  obtain ⟨_, task, _, _, hkey⟩ := KeyRef.fits_iff.mp (h.fits r hr)
  exact ⟨task, Option.some.inj (congrArg KeyRef.task hkey)⟩

/-- The time that a course has stored for a task is the time at which its key was active. -/
theorem Sound.spent_eq (h : c.Sound rows) {now : Moment} (hnow : c.clock.instant ≤ now.instant)
    (user : Int) (start stop : Moment) (task : Ident) :
    Report.spent task (Report.ofUser user rows) ⟨start, stop⟩ now =
      (activeMicros c.history ⟨some (.int user), some task⟩ start stop now).card := by
  have hnoneTwice := Report.noneTwice_of_successive h.inTurn ⟨.int user, task⟩
  rw [hnoneTwice.spent_eq (h.past_of_user hnow user), h.covered_eq]
  rfl

/-- No time that a course has stored is longer than the window. -/
theorem Sound.spent_le (h : c.Sound rows) {now : Moment} (hnow : c.clock.instant ≤ now.instant)
    (user : Int) {start stop : Moment} (hle : start.instant ≤ stop.instant) (task : Ident) :
    (Report.spent task (Report.ofUser user rows) ⟨start, stop⟩ now : Int) ≤ stop.instant - start.instant := by
  rw [(Report.noneTwice_of_successive h.inTurn _).spent_eq (h.past_of_user hnow user)]
  exact Report.card_covered_le rows _ hle now

/-- A user outside 64 bits has never been active. -/
theorem Sound.inactive_of_wide (h : c.Sound rows) {user : Int} (hwide : Integer.fits64 user = false)
    (task : Option Ident) (t : Int) : activeAt c.history ⟨some (.int user), task⟩ t = false := by
  rw [← Bool.not_eq_true, h.active]
  rintro ⟨r, hr, hkey, _⟩
  obtain ⟨user', _, hfits, _, hfit⟩ := KeyRef.fits_iff.mp (hkey ▸ h.fits r hr)
  obtain rfl := Ident.int.inj (Option.some.inj (congrArg KeyRef.user hfit))
  cases hwide.symm.trans hfits

/-- After any serial course of starts and stops from an empty table, with a clock that does not go back,
    a report as of a later time tells for every task how many microseconds of the window the key of user
    and task was active. A task has a row exactly if one of its intervals meets the window. A user outside
    64 bits has never been active, but no report says so. -/
theorem report_counts_active {db : Database} {clock : Moment} {turns : List Turn}
    (hblank : db.Blank) (hcalm : db.Undisturbed) (hsteady : Steady ⟨db, clock, []⟩ turns)
    (user : Int) {start stop now : Moment}
    (hstart : start.Storable) (hstop : stop.Storable) (hlt : start.instant < stop.instant)
    (haware : now.isAware = true) (hnow : (run ⟨db, clock, []⟩ turns).clock.instant ≤ now.instant) :
    (Integer.fits64 user = true →
      ∃ rows totals db', (run ⟨db, clock, []⟩ turns).database.ledger.rows = some rows ∧
        Report.run Database.intervals now (some (.int user)) start stop
          (run ⟨db, clock, []⟩ turns).database = (.ok totals, db') ∧
        (totals.map (·.task)).Nodup ∧
        (∀ task, Report.timeOf task totals =
          (activeMicros (run ⟨db, clock, []⟩ turns).history ⟨some (.int user), some task⟩ start stop
            now).card) ∧
        (∀ task, (∃ row ∈ totals, row.task = task) ↔
          ∃ r ∈ rows, r.key = ⟨.int user, task⟩ ∧ r.interval.Meets ⟨start, stop⟩ now) ∧
        ∀ row ∈ totals, row.micros ≤ stop.instant - start.instant) ∧
    (Integer.fits64 user = false →
      (∀ task t, activeAt (run ⟨db, clock, []⟩ turns).history ⟨some (.int user), task⟩ t = false) ∧
      ∃ e, (Report.run Database.intervals now (some (.int user)) start stop
        (run ⟨db, clock, []⟩ turns).database).1 = .error e) := by
  obtain ⟨rows, hsound⟩ := (sound_of_blank hblank hcalm clock).run hsteady
  refine ⟨fun huser => ?_, fun hwide => ⟨hsound.inactive_of_wide hwide, _,
    Report.run_of_wide hsound.ready hwide hstart hstop hlt now⟩⟩
  have hpast := hsound.past_of_user hnow user
  obtain ⟨_, db', hrun, _, hanswer⟩ := Report.run_cases hsound.ready huser
    hstart hstop hlt haware (fun r hr hmine _ => (hpast r hr hmine).started)
    fun r hr _ => hsound.int_task r hr
  obtain ⟨totals, rfl, htallies, _⟩ | ⟨_, task, _, hlong⟩ := hanswer
  · refine ⟨rows, totals, db', hsound.ready.stored, hrun, htallies.nodup, ?_, htallies.task_mem_iff, ?_⟩
    · intro task
      rw [htallies.timeOf_eq, hsound.spent_eq hnow]
    · intro row hrow
      rw [htallies.micros row hrow]
      exact hsound.spent_le hnow user hlt.le _
  · rw [(Report.noneTwice_of_successive hsound.inTurn _).spent_eq hpast] at hlong
    exact absurd (Report.card_covered_le_greatest rows _ hstart hstop hlt.le now) (not_le.mpr hlong)

/-- Two starts and two stops, of which the second ones are refused, and a start of another task. -/
def errands : List Turn :=
  let first : KeyRef := ⟨some (.int 1), some (.int 1)⟩
  let second : KeyRef := ⟨some (.int 1), some (.int 2)⟩
  [⟨tick 1, .start (.ofNat 0xa1) first⟩, ⟨tick 2, .start (.ofNat 0xa2) first⟩, ⟨tick 5, .stop first⟩,
    ⟨tick 5, .stop first⟩, ⟨tick 6, .start (.ofNat 0xa3) second⟩]

/-- Between microseconds 3 and 9, as of microsecond 8, each of the two tasks has two. There is no report for
    user 2^63. -/
theorem errands_report :
    Steady ⟨{}, tick 0, []⟩ errands ∧
    (∃ totals db', Report.run Database.intervals (tick 8) (some (.int 1)) (tick 3) (tick 9)
        (run ⟨{}, tick 0, []⟩ errands).database = (.ok totals, db') ∧
      Report.timeOf (.int 1) totals = 2 ∧ Report.timeOf (.int 2) totals = 2 ∧
      Report.timeOf (.int 3) totals = 0) ∧
    ∃ e, (Report.run Database.intervals (tick 8) (some (.int (2 ^ 63))) (tick 3) (tick 9)
      (run ⟨{}, tick 0, []⟩ errands).database).1 = .error e := by
  have hsteady : Steady ⟨{}, tick 0, []⟩ errands := by decide +kernel
  have hstart : (tick 3).Storable := by decide
  have hstop : (tick 9).Storable := by decide
  have hlt : (tick 3).instant < (tick 9).instant := by decide
  have hnow : (run ⟨{}, tick 0, []⟩ errands).clock.instant ≤ (tick 8).instant := by decide +kernel
  have hreports (user : Int) := report_counts_active ⟨rfl, rfl⟩ (fun _ _ => rfl) hsteady user hstart hstop
    hlt rfl hnow
  obtain ⟨_, totals, db', _, hrun, _, htime, _⟩ := (hreports 1).1 rfl
  refine ⟨hsteady, ⟨totals, db', hrun, ?_, ?_, ?_⟩, ((hreports (2 ^ 63)).2 rfl).2⟩
  · rw [htime]
    decide +kernel
  · rw [htime]
    decide +kernel
  · rw [htime]
    decide +kernel

/-- Not even of an empty table is there a report for user 2^63 that says that no task has time. -/
theorem wide_user_unreported :
    Steady ⟨{}, tick 0, []⟩ [] ∧ (tick 3).Storable ∧ (tick 9).Storable ∧
    (tick 3).instant < (tick 9).instant ∧ (tick 0).instant ≤ (tick 8).instant ∧
    ¬ ∃ totals db', Report.run Database.intervals (tick 8) (some (.int (2 ^ 63))) (tick 3) (tick 9)
      (run ⟨{}, tick 0, []⟩ []).database = (.ok totals, db') := by
  refine ⟨trivial, by decide, by decide, by decide, by decide, ?_⟩
  rintro ⟨totals, db', hrun⟩
  cases hrun

end Session.Course
end Worklog
