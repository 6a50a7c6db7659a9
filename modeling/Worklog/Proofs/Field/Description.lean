import Mathlib.Data.List.DropRight
import Worklog.Field.Request
import Worklog.Proofs.Run

namespace Worklog

namespace Blank

variable {p : Char → Bool} {cs : List Char}

theorem trim_prefix_dropWhile (p : Char → Bool) (cs : List Char) : trim p cs <+: cs.dropWhile p :=
  List.rdropWhile_prefix p _

theorem trim_eq_nil_iff : trim p cs = [] ↔ ∀ c ∈ cs, p c = true := by
  refine List.rdropWhile_eq_nil_iff.trans ⟨fun h => ?_, fun h c hc => ?_⟩
  · rw [← List.dropWhile_eq_nil_iff]
    cases hrest : cs.dropWhile p with
    | nil => rfl
    | cons c rest =>
      -- What `dropWhile` leaves begins with a character that is not dropped.
      have hne : cs.dropWhile p ≠ [] := by rw [hrest]; exact List.cons_ne_nil c rest
      have hfirst := List.head_dropWhile_not p hne
      have hmem := List.head_mem hne
      rw [h _ hmem] at hfirst
      cases hfirst
  · exact h c ((List.dropWhile_suffix p).subset hc)

theorem length_trim_le (p : Char → Bool) (cs : List Char) : (trim p cs).length ≤ cs.length :=
  (trim_prefix_dropWhile p cs).length_le.trans (List.dropWhile_suffix p).length_le

theorem dropWhile_trim (p : Char → Bool) (cs : List Char) : (trim p cs).dropWhile p = trim p cs := by
  rw [List.dropWhile_eq_self_iff]
  intro hpos
  have hlonger := (trim_prefix_dropWhile p cs).length_le
  have hne : cs.dropWhile p ≠ [] := List.ne_nil_of_length_pos (hpos.trans_le hlonger)
  have hfirst : (trim p cs)[0] = (cs.dropWhile p).head hne := by
    rw [(trim_prefix_dropWhile p cs).getElem hpos, List.head_eq_getElem]
  rw [hfirst, List.head_dropWhile_not p hne]
  simp

/-- Trimmed once is trimmed for good. -/
theorem trim_trim (p : Char → Bool) (cs : List Char) : trim p (trim p cs) = trim p cs := by
  have htwice : trim p (trim p cs) = ((trim p cs).dropWhile p).rdropWhile p := rfl
  rw [htwice, dropWhile_trim]
  exact List.rdropWhile_idempotent p (cs.dropWhile p)

theorem toList_strip (s : String) : (strip s).toList = trim isBlank s.toList := String.toList_ofList

theorem strip_strip (s : String) : strip (strip s) = strip s := by
  apply String.toList_injective
  rw [toList_strip, toList_strip, trim_trim]

theorem strip_eq_empty_iff (s : String) : strip s = "" ↔ ∀ c ∈ s.toList, isBlank c = true := by
  rw [← String.toList_inj, toList_strip]
  exact trim_eq_nil_iff

theorem length_strip_le (s : String) : (strip s).length ≤ s.length := by
  rw [← String.length_toList, ← String.length_toList, toList_strip]
  exact length_trim_le isBlank s.toList

end Blank

namespace Description

variable {s d : String} {v : Json}

/-- A text that may be handed in as a description. -/
structure Acceptable (s : String) : Prop where
  pos : 1 ≤ s.length
  le : s.length ≤ 1000
  visible : ∃ c ∈ s.toList, Blank.isBlank c = false

/-- A description as it is stored. -/
structure Normal (d : String) : Prop where
  stripped : Blank.strip d = d
  pos : 1 ≤ d.length
  le : d.length ≤ 1000

theorem strip_ne_empty_iff : Blank.strip s ≠ "" ↔ ∃ c ∈ s.toList, Blank.isBlank c = false := by
  simp [Blank.strip_eq_empty_iff]

/-- What is accepted is stripped, and is not empty. -/
theorem Acceptable.normal (h : Acceptable s) : Normal (Blank.strip s) where
  stripped := Blank.strip_strip s
  pos := by
    have hne := strip_ne_empty_iff.mpr h.visible
    have hlength : (Blank.strip s).length ≠ 0 := by simpa using hne
    omega
  le := (Blank.length_strip_le s).trans h.le

theorem Normal.acceptable (h : Normal d) : Acceptable d where
  pos := h.pos
  le := h.le
  visible := by
    rw [← strip_ne_empty_iff, h.stripped]
    rintro rfl
    exact absurd h.pos (by decide)

theorem ofText_eq_ok_iff : ofText s = .ok d ↔ Acceptable s ∧ d = Blank.strip s := by
  unfold ofText
  constructor
  · intro h
    split at h
    · cases h
    split at h
    · cases h
    split at h
    · cases h
    next hempty hlong hblank =>
      cases h
      exact ⟨⟨by omega, Nat.le_of_not_lt hlong, strip_ne_empty_iff.mp hblank⟩, rfl⟩
  · rintro ⟨h, rfl⟩
    have hpos := h.pos
    have hle : ¬ maxLength < s.length := Nat.not_lt.mpr h.le
    rw [if_neg (by omega), if_neg hle, if_neg (strip_ne_empty_iff.mpr h.visible)]

theorem ofJson_eq_ok_iff : ofJson v = .ok d ↔ ∃ s, v = .str s ∧ Acceptable s ∧ d = Blank.strip s := by
  cases v with
  | str s => simp [ofJson, ofText_eq_ok_iff]
  | _ => simp [ofJson]

/-- A description may be null in a change, and is read as the one of a new task otherwise. -/
theorem ofJson?_of_ne_null (h : v ≠ .null) : ofJson? v = (ofJson v).map some := by
  cases v with
  | null => exact absurd rfl h
  | _ => rfl

theorem normal_of_ofJson (h : ofJson v = .ok d) : Normal d := by
  obtain ⟨s, _, hs, rfl⟩ := ofJson_eq_ok_iff.mp h
  exact hs.normal

theorem ofJson_of_normal (h : Normal d) : ofJson (.str d) = .ok d :=
  ofJson_eq_ok_iff.mpr ⟨d, rfl, h.acceptable, h.stripped.symm⟩

theorem normal_of_ofJson? (h : ofJson? v = .ok (some d)) : Normal d := by
  by_cases hnull : v = .null
  · subst hnull
    cases h
  · rw [ofJson?_of_ne_null hnull] at h
    cases hread : ofJson v with
    | error problem =>
      rw [hread] at h
      cases h
    | ok r =>
      rw [hread] at h
      cases h
      exact normal_of_ofJson hread

end Description

/-- A field that is read from a value is read as the value says. -/
theorem field_eq_ok_iff {α β : Type} {x : Except Problem α} {f : α → β} {place : List String} {b : β} :
    ((x.map f).mapError fun p => [Issue.mk place p]) = .ok b ↔ ∃ a, x = .ok a ∧ f a = b :=
  except_mapError_eq_ok_iff.trans except_map_eq_ok_iff

variable {members : List (String × Json)} {v : Json}

theorem TaskDraft.ofMembers_eq_ok_iff {draft : TaskDraft} : ofMembers members = .ok draft ↔
    ∃ v, Json.get? "description" (.obj members) = some v ∧
      Description.ofJson v = .ok draft.description := by
  cases hget : Json.get? "description" (.obj members) with
  | none => simp [ofMembers, hget]
  | some v =>
    simp only [ofMembers, hget, field_eq_ok_iff, Option.some.injEq, exists_eq_left']
    exact ⟨fun ⟨_, h, hdraft⟩ => hdraft ▸ h, fun h => ⟨_, h, rfl⟩⟩

theorem TaskPatch.ofMembers_eq_ok_iff {patch : TaskPatch} : ofMembers members = .ok patch ↔
    (Json.get? "description" (.obj members) = none ∧ patch = ⟨none, false⟩) ∨
      ∃ v, Json.get? "description" (.obj members) = some v ∧ patch.given = true ∧
        Description.ofJson? v = .ok patch.description := by
  cases hget : Json.get? "description" (.obj members) with
  | none => simp only [ofMembers, hget, Except.ok.injEq, eq_comm, true_and, reduceCtorEq, false_and,
      exists_false, or_false]
  | some v =>
    simp only [ofMembers, hget, field_eq_ok_iff, Option.some.injEq, exists_eq_left', reduceCtorEq,
      false_and, false_or]
    constructor
    · rintro ⟨d, h, rfl⟩
      exact ⟨rfl, h⟩
    · rintro ⟨hgiven, h⟩
      exact ⟨_, h, by rw [← hgiven]⟩

/-- A change reads every description but null as a new task does. -/
theorem TaskPatch.ofMembers_of_ne_null (hget : Json.get? "description" (.obj members) = some v)
    (hnull : v ≠ .null) :
    ofMembers members = (TaskDraft.ofMembers members).map fun draft => ⟨some draft.description, true⟩ := by
  simp only [ofMembers, TaskDraft.ofMembers, hget, Description.ofJson?_of_ne_null hnull]
  cases Description.ofJson v <;> rfl

end Worklog
