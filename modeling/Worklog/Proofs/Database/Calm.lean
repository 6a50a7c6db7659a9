import Worklog.Proofs.Database.History
import Worklog.Proofs.Database.Primitives
import Worklog.Proofs.Database.Rejection

namespace Worklog

namespace Complaint

theorem mentions_self (phrase : List Char) : mentions phrase phrase = true := by
  cases phrase with
  | nil => rfl
  | cons c rest => simp [mentions]

end Complaint

/-- A complaint that mentions the message of the index of open intervals blames it. -/
theorem Refusal.blamesOpenIndex_of_mentions {message : String}
    (h : Complaint.mentions openIndexMessage.toList message.toList = true) :
    Refusal.blamesOpenIndex ⟨some ⟨message, none⟩, none⟩ = true := by
  simp only [Refusal.blamesOpenIndex, Option.any, Complaint.blamesOpenIndex, h, Bool.or_true,
    Bool.true_or]

/-- An undisturbed database with a consistent table of intervals and its index. -/
structure Database.Ready (db : Database) (rows : List Row) : Prop where
  calm : db.Undisturbed
  openUnique : db.ledger.openUnique = true
  stored : db.ledger.rows = some rows
  consistent : Consistent rows

namespace Database.Ready

variable {db db' : Database} {rows rows' : List Row}

/-- Only the rows have changed. -/
theorem next (h : db.Ready rows) (hdisruption : db'.disruption = db.disruption)
    (hledger : db'.ledger = { db.ledger with rows := some rows' }) (hfine : Consistent rows') :
    db'.Ready rows' where
  calm := by
    intro n verb
    rw [hdisruption]
    exact h.calm n verb
  openUnique := by
    rw [hledger]
    exact h.openUnique
  stored := by rw [hledger]
  consistent := hfine

theorem alike (h : db.Ready rows) (hlike : db.Alike db') : db'.Ready rows := by
  refine h.next hlike.disruption ?_ h.consistent
  rw [hlike.ledger, ← h.stored]

end Database.Ready

namespace Primitive

variable {db : Database} {rows : List Row} {key : KeyRef}

/-- A statement that cannot be refused is not refused. -/
private theorem not_refused {α : Type} (hcalm : db.Undisturbed) {answer : Bool → Except Rejection α}
    (hanswer : ∀ prepared, ∃ a, answer prepared = .ok a) (e : Raised) : ¬ db.Refuses answer e := by
  rintro (hraised | ⟨prepared, x, hx, _⟩)
  · exact hcalm.not_raises e hraised
  · obtain ⟨a, ha⟩ := hanswer prepared
    cases ha.symm.trans hx

theorem openInterval_of_fits (h : db.Ready rows) (hkey : key.fits = true) :
    ∃ db', openInterval key db = (openAnswer key (rows.filter (Row.isOpenFor key)), db') ∧
      db.Alike db' := by
  rcases hopen : openInterval key db with ⟨r, db'⟩
  have hanswer : ∀ prepared, Ledger.openRows prepared key db.ledger =
      .ok (rows.filter (Row.isOpenFor key)) := fun prepared => Ledger.openRows_of_fits h.stored hkey
  obtain ⟨hlike, ⟨prepared, opened, hopened, rfl⟩ | ⟨e, _, he⟩⟩ := openInterval_cases hopen
  · rw [hanswer] at hopened
    cases hopened
    exact ⟨db', rfl, hlike⟩
  · exact absurd he (not_refused h.calm (fun prepared => ⟨_, hanswer prepared⟩) e)

/-- The rows of a window are read in the order of their starts. -/
theorem intervalsOverlapping_of_fits (h : db.Ready rows) {user : Int}
    (huser : Integer.fits64 user = true) {start stop : Moment} {first last : Instant}
    (hstart : Instant.ofMoment start = .ok first) (hstop : Instant.ofMoment stop = .ok last) :
    ∃ db', intervalsOverlapping (some (.int user)) start stop db =
        (.ok (((rows.filter fun r => r.ofUser (some (.int user)) && r.reaches first last).mergeSort
          fun a b => a.started.micros ≤ b.started.micros).map Row.interval), db') ∧
      db.Alike db' := by
  rcases hread : intervalsOverlapping (some (.int user)) start stop db with ⟨r, db'⟩
  have hanswer : ∀ prepared, Ledger.overlappingRows prepared (some (.int user)) start stop db.ledger =
      _ := fun prepared => Ledger.overlappingRows_of_fits h.stored huser hstart hstop
  obtain ⟨hlike, ⟨prepared, found, hfound, rfl⟩ | ⟨e, _, he⟩⟩ := intervalsOverlapping_cases hread
  · rw [hanswer] at hfound
    cases hfound
    exact ⟨db', rfl, hlike⟩
  · exact absurd he (not_refused h.calm (fun prepared => ⟨_, hanswer prepared⟩) e)

/-- A read that the database rejects ends with that error alone. -/
private theorem intervalsOverlapping_of_rejected (hcalm : db.Undisturbed) {user : Option Ident}
    {start stop : Moment} {x : Rejection}
    (hreject : ∀ prepared, Ledger.overlappingRows prepared user start stop db.ledger = .error x) :
    ∃ db', intervalsOverlapping user start stop db =
        (.error (Raised.settle (some { user, operation := some "intervals_overlapping" }) x.raised), db') ∧
      db.Alike db' := by
  rcases hread : intervalsOverlapping user start stop db with ⟨r, db'⟩
  obtain ⟨hlike, ⟨prepared, found, hfound, _⟩ | ⟨e, rfl, he⟩⟩ := intervalsOverlapping_cases hread
  · cases (hreject prepared).symm.trans hfound
  · obtain hraised | ⟨prepared, y, hy, rfl⟩ := he
    · exact absurd hraised (hcalm.not_raises e)
    · cases (hreject prepared).symm.trans hy
      exact ⟨db', rfl, hlike⟩

/-- The failure of a read between bounds that cannot be stored. -/
def overlapFailure (user : Option Ident) : Fault :=
  .failure (Failure.storage .general "intervals_overlapping"
    (some { user, operation := some "intervals_overlapping" }))

/-- Nothing is read between bounds that cannot be stored. -/
theorem intervalsOverlapping_of_unstorable (hcalm : db.Undisturbed) {start stop : Moment}
    (hbounds : ¬ (start.Storable ∧ stop.Storable)) (user : Option Ident) :
    ∃ db', intervalsOverlapping user start stop db = (.error (overlapFailure user), db') ∧
      db.Alike db' := by
  obtain ⟨fault, hreject⟩ := Ledger.overlappingRows_of_unstorable (l := db.ledger) hbounds user
  obtain ⟨db', hread, hlike⟩ := intervalsOverlapping_of_rejected hcalm hreject
  refine ⟨db', ?_, hlike⟩
  rw [hread]
  cases fault <;> rfl

/-- Nothing is read for a user outside 64 bits. -/
theorem intervalsOverlapping_of_wide (h : db.Ready rows) {user : Int}
    (hwide : Integer.fits64 user = false) {start stop : Moment} (hstart : start.Storable)
    (hstop : stop.Storable) :
    ∃ db', intervalsOverlapping (some (.int user)) start stop db = (.error .tooWide, db') ∧
      db.Alike db' :=
  intervalsOverlapping_of_rejected h.calm (Ledger.overlappingRows_of_wide h.stored hwide hstart hstop)

/-- The error of an insertion that the index of open intervals rejects means a conflict. -/
theorem beginAnswer_oneOpen (key : KeyRef) :
    beginAnswer key (Rejection.violates .oneOpen).raised = .ok (.conflict key) := by
  have hblames := Refusal.blamesOpenIndex_of_mentions (Complaint.mentions_self openIndexMessage.toList)
  have hraised : (Rejection.violates .oneOpen).raised =
      .storage ⟨.integrity, ⟨some ⟨openIndexMessage, none⟩, none⟩⟩ := rfl
  rw [hraised, beginAnswer, if_pos ⟨rfl, hblames⟩]

/-- A key with an open row is in conflict. -/
theorem beginInterval_of_open (h : db.Ready rows) (hkey : key.fits = true)
    (hadmits : db.ledger.admits key = true) (fresh : Uuid) {started : Moment}
    (hstart : started.Storable) {r : Row} (hr : r ∈ rows) (hopen : r.isOpenFor key = true) :
    ∃ db', beginInterval fresh key started db = (.ok (.conflict key), db') ∧ db.Alike db' := by
  obtain ⟨i, hi⟩ := Instant.storable_iff.mp hstart
  have hreject : ∀ prepared, Ledger.insertRow prepared fresh key started none db.ledger =
      .error (.violates .oneOpen) := fun prepared =>
    Ledger.insertRow_of_open prepared fresh h.stored hkey hi hadmits h.openUnique hr hopen
  rcases hbegin : beginInterval fresh key started db with ⟨answer, db'⟩
  obtain ⟨hdisruption, ⟨prepared, row, hinsert, _⟩ | ⟨hledger, e, rfl, he⟩⟩ :=
    beginInterval_cases hbegin
  · rw [hreject] at hinsert
    cases hinsert
  · obtain hraised | ⟨prepared, x, hx, rfl⟩ := he
    · exact absurd hraised (h.calm.not_raises e)
    · cases (hreject prepared).symm.trans hx
      rw [beginAnswer_oneOpen]
      exact ⟨db', rfl, hledger, hdisruption⟩

/-- A key without an open row gets one. -/
theorem beginInterval_of_free (h : db.Ready rows) (hkey : key.fits = true)
    (hadmits : db.ledger.admits key = true) {fresh : Uuid}
    (hnew : ∀ r ∈ rows, r.id ≠ fresh) {started : Moment} (hstart : started.Storable)
    (hfree : ∀ r ∈ rows, ¬ r.isOpenFor key = true) :
    ∃ db' row, beginInterval fresh key started db =
        (.ok (.interval ⟨fresh, row.user, row.task, started, none⟩), db') ∧
      db'.disruption = db.disruption ∧
      db'.ledger = { db.ledger with rows := some (rows ++ [row]) } ∧
      row.id = fresh ∧ row.key.ref = key ∧ Instant.ofMoment started = .ok row.started ∧
      row.stopped = none := by
  obtain ⟨i, hi⟩ := Instant.storable_iff.mp hstart
  have hanswer : ∀ prepared, ∃ row : Row, row.id = fresh ∧ row.key.ref = key ∧ row.started = i ∧
      row.stopped = none ∧ Ledger.insertRow prepared fresh key started none db.ledger =
        .ok (row, { db.ledger with rows := some (rows ++ [row]) }) := fun prepared =>
    Ledger.insertRow_of_free prepared h.stored hkey hi hadmits hfree hnew
  rcases hbegin : beginInterval fresh key started db with ⟨answer, db'⟩
  obtain ⟨hdisruption, ⟨prepared, row, hinsert, rfl⟩ | ⟨_, e, _, he⟩⟩ := beginInterval_cases hbegin
  · obtain ⟨row', hid, hkeyRef, hstarted, hstopped, hinsert'⟩ := hanswer prepared
    have hpair := Except.ok.inj (hinsert'.symm.trans hinsert)
    obtain rfl := congrArg Prod.fst hpair
    refine ⟨db', row', ?_, hdisruption, (congrArg Prod.snd hpair).symm, hid, hkeyRef,
      hstarted ▸ hi, hstopped⟩
    rw [← hkeyRef]
    rfl
  · refine absurd he (not_refused h.calm (fun prepared => ?_) e)
    obtain ⟨_, _, _, _, _, hinsert⟩ := hanswer prepared
    exact ⟨_, hinsert⟩

/-- An open row gets its end. -/
theorem closeInterval_of_open (h : db.Ready rows) {r : Row} (hr : r ∈ rows)
    (hopen : r.stopped = none) {stopped : Moment}
    {ended : Instant} (hend : Instant.ofMoment stopped = .ok ended)
    (horder : r.started.micros ≤ ended.micros) :
    ∃ db', closeInterval r.id stopped db = (.ok (.interval (r.stoppedAt ended).interval), db') ∧
      db'.disruption = db.disruption ∧
      db'.ledger = { db.ledger with rows := some (rows.map (Row.closing r.id ended)) } := by
  have hisOpen : r.isOpenWith r.id = true := Row.isOpenWith_iff.mpr ⟨rfl, hopen⟩
  have hanswer := Ledger.closeRow_of_ordered h.stored hend fun x hx hxOpen =>
    h.consistent.eq_of_isOpenWith hx hr hxOpen ▸ horder
  rcases hclose : closeInterval r.id stopped db with ⟨answer, db'⟩
  obtain ⟨hdisruption, ⟨n, row?, _, hended, hfind, rfl⟩ | ⟨_, ⟨l, hnone, _⟩ | ⟨e, _, he⟩⟩⟩ :=
    closeInterval_cases hclose
  · have hledger := congrArg Prod.snd (Except.ok.inj (hended.symm.trans hanswer))
    dsimp only at hledger
    refine ⟨db', ?_, hdisruption, hledger⟩
    rw [hledger, Ledger.findRow_eq_ok rfl] at hfind
    cases hfind
    rw [h.consistent.find_closing hr hopen]
    rfl
  · have hcount := congrArg Prod.fst (Except.ok.inj (hnone.symm.trans hanswer))
    exact absurd hisOpen (List.countP_eq_zero.mp hcount.symm r hr)
  · exact absurd he (not_refused h.calm (fun _ => ⟨_, hanswer⟩) e)

/-- Without an open row of the id there is nothing to end. -/
theorem closeInterval_of_closed (h : db.Ready rows) {id : Uuid}
    (hclosed : ∀ r ∈ rows, ¬ r.isOpenWith id = true) {stopped : Moment}
    (hstop : stopped.Storable) :
    ∃ db', closeInterval id stopped db = (.ok (.notFound id), db') ∧ db.Alike db' := by
  obtain ⟨ended, hend⟩ := Instant.storable_iff.mp hstop
  have hanswer := Ledger.closeRow_of_ordered h.stored hend fun r hr hopen => absurd hopen (hclosed r hr)
  have hcount : rows.countP (Row.isOpenWith id) = 0 := List.countP_eq_zero.mpr hclosed
  rcases hclose : closeInterval id stopped db with ⟨answer, db'⟩
  obtain ⟨hdisruption, ⟨n, row?, hn, hended, _⟩ | ⟨hledger, ⟨l, _, rfl⟩ | ⟨e, _, he⟩⟩⟩ :=
    closeInterval_cases hclose
  · have hcounted := congrArg Prod.fst (Except.ok.inj (hended.symm.trans hanswer))
    exact absurd (hcounted.trans hcount) hn
  · exact ⟨db', rfl, hledger, hdisruption⟩
  · exact absurd he (not_refused h.calm (fun _ => ⟨_, hanswer⟩) e)

end Primitive
end Worklog
