import Worklog.Log.Draft
import Worklog.Proofs.Json.Written
import Worklog.Uuid

namespace Worklog.Log

/-- A member, where there is a value for it. -/
def optional (name : String) (v? : Option Json) : List (String × Json) := (v?.map (name, ·)).toList

section Optional

variable {name wanted : String} {v? : Option Json} {m : String × Json}

theorem mem_optional : m ∈ optional name v? ↔ m.1 = name ∧ v? = some m.2 := by
  cases v? <;> simp [optional, Prod.ext_iff, eq_comm]

theorem names_optional (name : String) (v? : Option Json) :
    ((optional name v?).map (·.1)).Sublist [name] := by
  cases v? <;> simp [optional]

@[simp]
theorem find?_optional :
    (optional name v?).find? (·.1 = wanted) = if name = wanted then v?.map (name, ·) else none := by
  cases v? with
  | none => simp [optional]
  | some v => by_cases h : name = wanted <;> simp [optional, h]

end Optional

/-- What a caller may say that a record is about. -/
inductive Remark where
  | nothing
  | number (n : Int)
  | truth (b : Bool)
  | text (s : String)
  | ident (u : Uuid)
  deriving DecidableEq

namespace Remark

/-- The value that a record holds for it. -/
def held : Remark → Json
  | nothing => .null
  | number n => .int n
  | truth b => .bool b
  | text s => .str s
  | ident u => .str u.text

/-- What a line tells of it: numbers and truth values as they are, and everything else as a text. -/
def told? : Remark → Option Json
  | nothing => none
  | number n => some (.int n)
  | truth b => some (.bool b)
  | text s => some (.str s)
  | ident u => some (.str u.text)

theorem plain_of_told {r : Remark} {v : Json} (h : r.told? = some v) : v.Plain := by
  cases r with
  | nothing => cases h
  | _ =>
    cases h
    trivial

theorem extra_held (name : String) (r : Remark) : extra name r.held = optional name r.told? := by
  cases r <;> rfl

end Remark

/-- A record as its caller describes it. -/
structure Account where
  level : String
  logger : String
  message : String
  user : Remark := .nothing
  task : Remark := .nothing
  interval : Remark := .nothing
  code : Remark := .nothing
  operation : Remark := .nothing
  path : Remark := .nothing
  trouble : Option Trouble := none

namespace Account

/-- The record of an account before its message is laid out; there is nothing to fill in. -/
def draft (a : Account) : Draft where
  level := .str a.level
  logger := .str a.logger
  template := .str a.message
  filling := .several []
  extras := ⟨a.user.held, a.task.held, a.interval.held, a.code.held, a.operation.held, a.path.held⟩
  trouble := a.trouble

/-- The record of an account. -/
def record (a : Account) : Record where
  level := .str a.level
  logger := .str a.logger
  message := a.message
  extras := a.draft.extras
  trouble := a.trouble

/-- What a record is about, by name. -/
def remarks (a : Account) : List (String × Remark) :=
  [("user_id", a.user), ("task_id", a.task), ("interval_id", a.interval), ("error_code", a.code),
    ("operation", a.operation), ("path", a.path)]

/-- All that a line tells, in its order. -/
def told (stamp : String) (a : Account) : List (String × Json) :=
  [("timestamp", .str stamp), ("level", .str a.level), ("logger", .str a.logger),
      ("message", .str a.message)] ++
    a.remarks.flatMap (fun r => optional r.1 r.2.told?) ++
    optional "exception" (a.trouble.map fun t => .str t.text)

/-- Two accounts tell the same, at whatever time. -/
structure SameTold (a b : Account) : Prop where
  level : a.level = b.level
  logger : a.logger = b.logger
  message : a.message = b.message
  remarks : a.remarks.map (·.2.told?) = b.remarks.map (·.2.told?)
  trouble : a.trouble.map Trouble.text = b.trouble.map Trouble.text

variable {a b : Account} {stamp : String}

/-- A message with nothing to fill in stands as it is, whatever conversions it seems to have. -/
theorem record_draft (a : Account) : a.draft.record = .ok a.record := rfl

theorem toJson_record (stamp : String) (a : Account) : a.record.toJson stamp = .obj (a.told stamp) := by
  have htrouble : a.record.troubleMembers = optional "exception" (a.trouble.map fun t => .str t.text) := by
    unfold Record.troubleMembers record
    cases a.trouble <;> rfl
  rw [Record.toJson, htrouble]
  simp [told, remarks, Record.members, Extras.members, record, draft, Remark.extra_held]

/-- The names of what is told are among the names there are, in their order. -/
theorem names_flatMap (rs : List (String × Remark)) :
    ((rs.flatMap fun r => optional r.1 r.2.told?).map (·.1)).Sublist (rs.map (·.1)) := by
  induction rs with
  | nil => exact .slnil
  | cons r rs ih =>
    rw [List.flatMap_cons, List.map_append, List.map_cons]
    exact (names_optional r.1 _).append ih

/-- No two members of a line have one name. -/
theorem nodup_told (stamp : String) (a : Account) : ((a.told stamp).map (·.1)).Nodup := by
  have hall : (["timestamp", "level", "logger", "message"] ++ a.remarks.map (·.1) ++
      ["exception"]).Nodup := by
    simp [remarks]
  refine hall.sublist ?_
  rw [told, List.map_append, List.map_append]
  exact ((List.Sublist.refl _).append (names_flatMap a.remarks)).append (names_optional _ _)

theorem plain_told (stamp : String) (a : Account) : (Json.obj (a.told stamp)).Plain := by
  refine ⟨nodup_told stamp a, Json.plainMembers_iff.mpr fun m hm => ?_⟩
  simp only [told, List.mem_append, List.mem_flatMap, mem_optional] at hm
  obtain (hm | ⟨r, -, -, hr⟩) | ⟨-, ht⟩ := hm
  · simp only [List.mem_cons, List.not_mem_nil, or_false] at hm
    obtain rfl | rfl | rfl | rfl := hm <;> trivial
  · exact Remark.plain_of_told hr
  · obtain ⟨t, -, ht⟩ := Option.map_eq_some_iff.mp ht
    rw [← ht]
    trivial

theorem parse_line (stamp : String) (a : Account) :
    Json.parse (a.record.line stamp) = .ok (.obj (a.told stamp)) := by
  rw [Record.line, toJson_record, Json.parse_text (plain_told stamp a)]

theorem get?_remark (stamp : String) {name : String} {r : Remark} (h : (name, r) ∈ a.remarks) :
    Json.get? name (.obj (a.told stamp)) = r.told? := by
  simp only [remarks, List.mem_cons, Prod.mk.injEq, List.not_mem_nil, or_false] at h
  obtain ⟨rfl, rfl⟩ | ⟨rfl, rfl⟩ | ⟨rfl, rfl⟩ | ⟨rfl, rfl⟩ | ⟨rfl, rfl⟩ | ⟨rfl, rfl⟩ := h <;>
    simp [Json.get?, told, remarks, List.find?_append, Function.comp_def]

theorem get?_exception (stamp : String) (a : Account) :
    Json.get? "exception" (.obj (a.told stamp)) = (a.trouble.map Trouble.text).map .str := by
  simp [Json.get?, told, remarks, List.find?_append, Function.comp_def]

/-- What is told says what it is told of. -/
theorem sameTold_of_told_eq {stamp' : String} (h : a.told stamp = b.told stamp') : a.SameTold b := by
  have hget (name : String) :
      Json.get? name (.obj (a.told stamp)) = Json.get? name (.obj (b.told stamp')) := by
    rw [h]
  refine ⟨?_, ?_, ?_, ?_, ?_⟩
  · exact Json.str.inj (Option.some.inj (hget "level"))
  · exact Json.str.inj (Option.some.inj (hget "logger"))
  · exact Json.str.inj (Option.some.inj (hget "message"))
  · have hnamed (name : String) (r : Account → Remark) (h : ∀ c, (name, r c) ∈ remarks c) :
        (r a).told? = (r b).told? := by
      rw [← get?_remark stamp (h a), hget, get?_remark stamp' (h b)]
    simp only [remarks, List.map_cons, List.map_nil, List.cons.injEq, and_true]
    refine ⟨hnamed "user_id" user ?_, hnamed "task_id" task ?_, hnamed "interval_id" interval ?_,
      hnamed "error_code" code ?_, hnamed "operation" operation ?_, hnamed "path" path ?_⟩ <;> simp [remarks]
  · have htrouble := hget "exception"
    rw [get?_exception, get?_exception] at htrouble
    exact (Option.map_inj_right fun _ _ => Json.str.inj).mp htrouble

theorem SameTold.told_eq (h : a.SameTold b) (stamp : String) : a.told stamp = b.told stamp := by
  have hremarks := h.remarks
  have htrouble : (a.trouble.map fun t => Json.str t.text) = b.trouble.map fun t => Json.str t.text := by
    simpa [Function.comp_def] using congrArg (Option.map Json.str) h.trouble
  simp only [Account.remarks, List.map_cons, List.map_nil, List.cons.injEq, and_true] at hremarks
  obtain ⟨huser, htask, hinterval, hcode, hoperation, hpath⟩ := hremarks
  simp only [told, Account.remarks, List.flatMap_cons, List.flatMap_nil, h.level, h.logger, h.message, huser,
    htask, hinterval, hcode, hoperation, hpath, htrouble]

/-- A record is one line of JSON: it has no control characters, it reads back as all that its account tells
in a fixed order, and two records have one line only when they tell the same at the same time. -/
theorem line_tells (stamp : String) (a : Account) :
    a.draft.record = .ok a.record ∧
      (∀ c ∈ (a.record.line stamp).toList, 0x20 ≤ c.toNat) ∧
      Json.parse (a.record.line stamp) = .ok (.obj (a.told stamp)) ∧
      ∀ (stamp' : String) (b : Account),
        a.record.line stamp = b.record.line stamp' ↔ stamp = stamp' ∧ a.SameTold b := by
  refine ⟨record_draft a, ?_, parse_line stamp a, fun stamp' b => ⟨fun h => ?_, ?_⟩⟩
  · rw [Record.line, toJson_record]
    exact Json.text_printable (plain_told stamp a)
  · have hparse := congrArg Json.parse h
    rw [parse_line, parse_line] at hparse
    have htold := Json.obj.inj (Except.ok.inj hparse)
    exact ⟨Json.str.inj (Prod.mk.inj (List.cons.inj htold).1).2, sameTold_of_told_eq htold⟩
  · rintro ⟨rfl, h⟩
    rw [Record.line, Record.line, toJson_record, toJson_record, h.told_eq]

/-- A message that looks like the rest of a line with an error in it is still only a message. -/
theorem forged_error_differs :
    let stamp := "2024-01-01T10:00:00+00:00"
    let forged : Account :=
      { level := "INFO", logger := "timetrack.x", message := "late\", \"exception\": \"E" }
    let failed : Account :=
      { level := "INFO", logger := "timetrack.x", message := "late", trouble := some ⟨"E", ""⟩ }
    (∀ c ∈ (forged.record.line stamp).toList, 0x20 ≤ c.toNat) ∧
      forged.record.line stamp ≠ failed.record.line stamp := by
  intro stamp forged failed
  obtain ⟨-, hline, -, hsame⟩ := line_tells stamp forged
  refine ⟨hline, fun h => ?_⟩
  have hmessage : "late\", \"exception\": \"E" = "late" := ((hsame stamp failed).mp h).2.message
  exact absurd hmessage (by decide)

end Account
end Worklog.Log
