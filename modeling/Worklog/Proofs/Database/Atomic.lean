import Worklog.Proofs.Database.Primitives

namespace Worklog

/-- The same surroundings up to an access, at which the caller gives up. -/
def Disruption.cut (d : Disruption) (k : Nat) : Disruption := fun n verb =>
  if n < k then d n verb else some (.fault .cancelled)

namespace Database

/-- The database with its surroundings cut off at an access. -/
def cut (db : Database) (k : Nat) : Database := { db with disruption := db.disruption.cut k }

/-- An error from outside comes after a commit: the surroundings have one for an access that is made, and
    before that access something has changed for good. -/
def StruckLate (after : Database → Database) (db : Database) : Prop :=
  ∃ k verb e, k < (after db).accesses ∧ db.disruption k verb = some e ∧
    (after (db.cut k)).ledger ≠ db.ledger

end Database

namespace Scope

/-- The tables as they are for good. -/
def lasting (s : Scope) : Ledger := s.database.ledger

/-- The scope with the surroundings of its database cut off at an access. -/
def cut (s : Scope) (k : Nat) : Scope := { s with database := s.database.cut k }

/-- The scope after one more access. -/
def counted (s : Scope) : Scope :=
  { s with database := { s.database with accesses := s.database.accesses + 1 } }

end Scope

namespace Work

open Run

variable {α β : Type} {verb : Verb} {q : Query} {s t u : Scope}

theorem keeps_read (statement : Ledger → Except Rejection α) :
    Keeps Scope.lasting (read verb statement) := fun _ => (read_cases rfl).1.database.ledger

theorem keeps_ask (statement : Bool → Ledger → Except Rejection α) :
    Keeps Scope.lasting (ask verb q statement) := fun _ => (ask_cases rfl).1.database.ledger

theorem keeps_write (statement : Ledger → Except Rejection (α × Ledger)) :
    Keeps Scope.lasting (write verb statement) := by
  intro s
  rcases hwrite : write verb statement s with ⟨r, t⟩
  obtain ⟨hlike, _⟩ | ⟨_, _, _, _, hlike⟩ := write_cases hwrite
  · exact hlike.database.ledger
  · exact hlike.database.ledger

theorem keeps_note (r : Log.Record) : Keeps Scope.lasting (note r) := fun _ => rfl

theorem succeeds_note (r : Log.Record) : Succeeds (note r) := fun _ _ _ h => by cases h

theorem spares_commit : Spares Scope.lasting commit := by
  intro s e t hcommit
  obtain ⟨hlike, _⟩ | ⟨hr, _⟩ := commit_cases hcommit
  · exact hlike.database.ledger
  · cases hr

theorem working_of_commit (h : commit s = (.ok (), t)) : t.working = s.working := by
  obtain ⟨_, _, _, hr⟩ | ⟨_, hdone⟩ := commit_cases h
  · cases hr
  · exact hdone.working

/-- Work that succeeds depends on its surroundings at the accesses only that it has made. -/
def Local (w : Work α) : Prop := ∀ s a t, w s = (.ok a, t) →
  t.database.disruption = s.database.disruption ∧
    ∀ k, t.database.accesses ≤ k → s.database.accesses ≤ k ∧ w (s.cut k) = (.ok a, t.cut k)

theorem Local.bind {w : Work α} {f : α → Work β} (hw : Local w) (hf : ∀ a, Local (f a)) :
    Local (w >>= f) := by
  intro s b t h
  obtain ⟨a, u, hfirst, hrest⟩ | ⟨_, _, hr⟩ := bind_eq_iff.mp h
  · obtain ⟨hdisruption, hcut⟩ := hw s a u hfirst
    obtain ⟨hdisruption', hcut'⟩ := hf a u b t hrest
    refine ⟨hdisruption'.trans hdisruption, fun k hk => ?_⟩
    obtain ⟨hle, hrest⟩ := hcut' k hk
    obtain ⟨hle, hfirst⟩ := hcut k hle
    exact ⟨hle, by rw [bind_of_ok hfirst, hrest]⟩
  · cases hr

/-- Work that takes no notice of its surroundings. -/
def Deaf (w : Work α) : Prop := ∀ s,
  (w s).2.database.disruption = s.database.disruption ∧
    (w s).2.database.accesses = s.database.accesses ∧
    ∀ k, w (s.cut k) = ((w s).1, (w s).2.cut k)

theorem Deaf.local {w : Work α} (h : Deaf w) : Local w := by
  intro s a t hw
  obtain ⟨hdisruption, haccesses, hcut⟩ := h s
  rw [hw] at hdisruption haccesses hcut
  exact ⟨hdisruption, fun k hk => ⟨haccesses ▸ hk, hcut k⟩⟩

theorem Deaf.bind {w : Work α} {f : α → Work β} (hw : Deaf w) (hf : ∀ a, Deaf (f a)) :
    Deaf (w >>= f) := by
  intro s
  obtain ⟨hdisruption, haccesses, hcut⟩ := hw s
  rcases hfirst : w s with ⟨_ | a, u⟩
  · rw [hfirst] at hdisruption haccesses hcut
    rw [bind_of_error hfirst]
    exact ⟨hdisruption, haccesses, fun k => bind_of_error (hcut k)⟩
  · rw [hfirst] at hdisruption haccesses hcut
    obtain ⟨hdisruption', haccesses', hcut'⟩ := hf a u
    rw [bind_of_ok hfirst]
    exact ⟨hdisruption'.trans hdisruption, haccesses'.trans haccesses,
      fun k => (bind_of_ok (hcut k)).trans (hcut' k)⟩

theorem deaf_prepare (q : Query) (r : Except Rejection α) : Deaf (prepare q r) := by
  unfold prepare
  split <;> exact fun _ => ⟨rfl, rfl, fun _ => rfl⟩

/-- An access is made unless it is disturbed. -/
theorem access_of_quiet (h : s.database.disruption s.database.accesses verb = none) :
    access verb s = (.ok (), s.counted) := by
  simp only [access, h]
  rfl

theorem access_of_disturbed {e : Raised}
    (h : s.database.disruption s.database.accesses verb = some e) :
    access verb s = (.error e, s.counted) := by
  simp only [access, h]
  rfl

theorem read_of_quiet {statement : Ledger → Except Rejection α} {a : α}
    (h : s.database.disruption s.database.accesses verb = none) (ha : statement s.working = .ok a) :
    read verb statement s = (.ok a, s.counted) := by
  rw [read, bind_of_ok (access_of_quiet h)]
  change ((statement s.working).mapError Rejection.raised, s.counted) = _
  rw [ha]
  rfl

theorem read_of_disturbed {statement : Ledger → Except Rejection α} {e : Raised}
    (h : s.database.disruption s.database.accesses verb = some e) :
    read verb statement s = (.error e, s.counted) := by
  rw [read, bind_of_error (access_of_disturbed h)]

theorem local_access : Local (access verb) := by
  intro s a t h
  cases hquiet : s.database.disruption s.database.accesses verb with
  | some e =>
    rw [access_of_disturbed hquiet] at h
    cases h
  | none =>
    rw [access_of_quiet hquiet] at h
    cases h
    refine ⟨rfl, fun k hk => ⟨Nat.le_of_lt hk, access_of_quiet ?_⟩⟩
    rw [← hquiet]
    exact if_pos hk

theorem local_read (statement : Ledger → Except Rejection α) : Local (read verb statement) :=
  local_access.bind fun _ => Deaf.local fun _ => ⟨rfl, rfl, fun _ => rfl⟩

theorem local_write (statement : Ledger → Except Rejection (α × Ledger)) :
    Local (write verb statement) :=
  (local_read statement).bind fun _ => Deaf.local fun _ => ⟨rfl, rfl, fun _ => rfl⟩

theorem local_ask (statement : Bool → Ledger → Except Rejection α) :
    Local (ask verb q statement) := by
  refine local_access.bind fun _ => Deaf.local fun s => ?_
  let r := statement (s.database.prepared.contains q) s.working
  have hrest : Deaf (prepare q r >>= fun _ => ofExcept (r.mapError Rejection.raised)) :=
    (deaf_prepare q r).bind fun _ _ => ⟨rfl, rfl, fun _ => rfl⟩
  exact hrest s

theorem local_commit : Local commit :=
  local_access.bind fun _ => Deaf.local fun _ => ⟨rfl, rfl, fun _ => rfl⟩

theorem local_pure (a : α) : Local (pure a) := Deaf.local fun _ => ⟨rfl, rfl, fun _ => rfl⟩

theorem local_refuse (f : Failure) : Local (refuse f : Work α) :=
  Deaf.local fun _ => ⟨rfl, rfl, fun _ => rfl⟩

/-- Work that fails leaves the tables as they were for good, or was struck late. -/
def Settles (w : Work α) : Prop := ∀ s e t, w s = (.error e, t) →
  t.lasting = s.lasting ∨
    ∃ k verb e', k < t.database.accesses ∧ s.database.disruption k verb = some e' ∧
      (w (s.cut k)).2.lasting = t.lasting

/-- Only what comes after a commit can be struck late. -/
theorem Settles.of_commit {w : Work α} {v : α → Work β} (hw : Local w) (hspares : Spares Scope.lasting w)
    (hkeeps : ∀ a, Keeps Scope.lasting (v a))
    (hstruck : ∀ s a t e u, w s = (.ok a, t) → v a t = (.error e, u) →
      ∃ verb, t.database.disruption t.database.accesses verb = some e ∧
        u.database.accesses = t.database.accesses + 1) : Settles (w >>= v) := by
  intro s e u h
  obtain ⟨a, t, hfirst, hrest⟩ | ⟨e', hfirst, _⟩ := bind_eq_iff.mp h
  · obtain ⟨verb, hverb, haccesses⟩ := hstruck s a t e u hfirst hrest
    obtain ⟨hdisruption, hcut⟩ := hw s a t hfirst
    obtain ⟨_, hfirst'⟩ := hcut _ (Nat.le_refl _)
    -- Cut off where it failed, the work has committed already, and nothing lasting comes after that.
    refine .inr ⟨t.database.accesses, verb, e, ?_, ?_, ?_⟩
    · rw [haccesses]
      exact Nat.lt_succ_self _
    · rw [← hdisruption, hverb]
    · rw [bind_of_ok hfirst', hkeeps a, (hkeeps a).after hrest]
      rfl
  · exact .inl (hspares s e' u hfirst)

theorem Settles.bind_succeeds {w : Work α} {f : α → Work β} (hw : Settles w)
    (hkeeps : ∀ a, Keeps Scope.lasting (f a)) (hf : ∀ a, Succeeds (f a)) : Settles (w >>= f) := by
  intro s e t h
  obtain ⟨a, u, _, hrest⟩ | ⟨e', hfirst, _⟩ := bind_eq_iff.mp h
  · exact absurd hrest (hf a u e t)
  · obtain hsame | ⟨k, verb, e'', hk, hverb, hlate⟩ := hw s e' t hfirst
    · exact .inl hsame
    · refine .inr ⟨k, verb, e'', hk, hverb, ?_⟩
      rw [← hlate]
      rcases hcut : w (s.cut k) with ⟨_ | a, u⟩
      · rw [bind_of_error hcut]
      · rw [bind_of_ok hcut, hkeeps a]

theorem Settles.of_spares {w : Work α} (h : Spares Scope.lasting w) : Settles w :=
  fun s e t hw => .inl (h s e t hw)

end Work

namespace Database

open Run

variable {α β : Type}

/-- A use that ends with an error leaves the tables as they were, unless it was struck late. -/
def Atomic (x : Use α) : Prop := ∀ db f db', x db = (.error f, db') →
  ¬ StruckLate (fun db => (x db).2) db → db'.ledger = db.ledger

theorem atomic_of_spares {x : Use α} (h : Spares Database.ledger x) : Atomic x :=
  fun db f db' hx _ => h db f db' hx

/-- Only the ledger and the number of accesses tell that a use was struck late. -/
theorem struckLate_congr {after after' : Database → Database}
    (hledger : ∀ db, (after' db).ledger = (after db).ledger)
    (haccesses : ∀ db, (after' db).accesses = (after db).accesses) (db : Database) :
    StruckLate after' db ↔ StruckLate after db := by
  simp only [StruckLate, hledger, haccesses]

theorem Atomic.map {x : Use α} (h : Atomic x) (g : α → β) : Atomic (do return g (← x)) := by
  have hafter : (fun db => ((do return g (← x) : Use β) db).2) = fun db => (x db).2 := by
    funext db
    rcases hx : x db with ⟨_ | a, db'⟩
    · exact congrArg Prod.snd (bind_of_error hx)
    · exact congrArg Prod.snd (bind_of_ok hx)
  intro db f db' hmap hcalm
  rw [hafter] at hcalm
  obtain ⟨a, u, _, hr⟩ | ⟨f', hfirst, _⟩ := bind_eq_iff.mp hmap
  · cases hr
  · exact h db f' db' hfirst hcalm

/-- A scope changes for good what its work does. -/
theorem scope_leaves (context : Option Context) (work : Work α) (db : Database) :
    (scope context work db).2.ledger = (work ⟨db, db.ledger⟩).2.lasting ∧
      (scope context work db).2.accesses = (work ⟨db, db.ledger⟩).2.database.accesses := by
  unfold scope
  rw [bind_of_ok (attempt_eq work db)]
  rcases work ⟨db, db.ledger⟩ with ⟨e | a, s⟩
  · cases e <;> exact ⟨rfl, rfl⟩
  · exact ⟨rfl, rfl⟩

theorem keeps_scope (context : Option Context) {work : Work α} (h : Keeps Scope.lasting work) :
    Keeps Database.ledger (scope context work) :=
  fun db => (scope_leaves context work db).1.trans (h ⟨db, db.ledger⟩)

theorem atomic_scope (context : Option Context) {work : Work α} (h : Work.Settles work) :
    Atomic (scope context work) := by
  intro db f db' hscope hcalm
  obtain ⟨r, s, hwork, hlike, hr⟩ := scope_cases hscope
  cases r with
  | ok a => cases hr
  | error e =>
    obtain hsame | ⟨k, verb, e', hk, hverb, hlate⟩ := h _ _ _ hwork
    · exact hlike.ledger.trans hsame
    · rw [hlike.ledger]
      refine Classical.byContradiction fun hchanged => hcalm ⟨k, verb, e', ?_, hverb, ?_⟩
      · rw [(scope_leaves context work db).2, hwork]
        exact hk
      · rw [(scope_leaves context work (db.cut k)).1]
        exact fun hsame => hchanged (hlate.symm.trans hsame)

end Database

namespace Primitive

open Run

theorem keeps_openInterval (key : KeyRef) : Keeps Database.ledger (openInterval key) :=
  fun _ => (openInterval_cases rfl).1.ledger

theorem keeps_intervalsOverlapping (user : Option Ident) (start stop : Moment) :
    Keeps Database.ledger (intervalsOverlapping user start stop) :=
  fun _ => (intervalsOverlapping_cases rfl).1.ledger

/-- A beginning that does not answer an interval has stored none. -/
theorem ledger_of_beginInterval {fresh : Uuid} {key : KeyRef} {started : Moment} {db db' : Database}
    {r : Except Fault Begun} (h : beginInterval fresh key started db = (r, db'))
    (hnone : ∀ i, r ≠ .ok (.interval i)) : db'.ledger = db.ledger := by
  obtain ⟨_, ⟨_, _, _, hr⟩ | ⟨hledger, _⟩⟩ := beginInterval_cases h
  · exact absurd hr (hnone _)
  · exact hledger

theorem spares_beginInterval (fresh : Uuid) (key : KeyRef) (started : Moment) :
    Spares Database.ledger (beginInterval fresh key started) :=
  fun _ _ _ h => ledger_of_beginInterval h fun _ hi => by cases hi

/-- An ending that does not answer an interval has ended none. -/
theorem ledger_of_closeInterval {id : Uuid} {stopped : Moment} {db db' : Database}
    {r : Except Fault Closed} (h : closeInterval id stopped db = (r, db'))
    (hnone : ∀ i, r ≠ .ok (.interval i)) : db'.ledger = db.ledger := by
  obtain ⟨_, ⟨n, row?, hn, hclose, hfind, hr⟩ | ⟨hledger, _⟩⟩ := closeInterval_cases h
  · -- A row was ended, so a row with the id is there to be answered.
    obtain ⟨rows, ended, hrows, _, _, rfl, hl⟩ := Ledger.closeRow_eq_ok hclose
    obtain ⟨row, hrow, hopen⟩ := List.countP_pos_iff.mp (Nat.pos_of_ne_zero hn)
    rw [hl, Ledger.findRow_eq_ok rfl] at hfind
    cases hfind
    cases hfound : (rows.map (Row.closing id ended)).find? (·.id = id) with
    | some found =>
      rw [hfound] at hr
      exact absurd hr (hnone _)
    | none =>
      have hother := List.find?_eq_none.mp hfound _ (List.mem_map_of_mem hrow)
      simp [(Row.isOpenWith_iff.mp hopen).1] at hother
  · exact hledger

theorem spares_closeInterval (id : Uuid) (stopped : Moment) :
    Spares Database.ledger (closeInterval id stopped) :=
  fun _ _ _ h => ledger_of_closeInterval h fun _ hi => by cases hi

end Primitive
end Worklog
