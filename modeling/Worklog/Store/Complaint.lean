namespace Worklog

/-- The words of a database, with the name of the violated constraint where it gives one. -/
structure Complaint where
  message : String
  constraint : Option String := none
  deriving DecidableEq, Repr

/-- The index that allows one open interval for each key. -/
def openIndexName : String := "uq_work_intervals_open"

/-- How a database without constraint names reports a violation of that index. -/
def openIndexMessage : String :=
  "UNIQUE constraint failed: work_intervals.user_id, work_intervals.task_id"

namespace Complaint

/-- A text contains a phrase. -/
def mentions (phrase : List Char) : List Char → Bool
  | [] => phrase.isEmpty
  | c :: rest => phrase.isPrefixOf (c :: rest) || mentions phrase rest

/-- The complaint is about the index of open intervals. -/
def blamesOpenIndex (c : Complaint) : Bool :=
  c.constraint == some openIndexName || mentions openIndexMessage.toList c.message.toList

end Complaint

/-- A complaint may be passed on by an adapter, which then has the first one as its cause. -/
structure Refusal where
  complaint : Option Complaint
  cause : Option Complaint := none
  deriving DecidableEq, Repr

namespace Refusal

/-- Either of the two complaints is about the index of open intervals. -/
def blamesOpenIndex (r : Refusal) : Bool :=
  r.complaint.any Complaint.blamesOpenIndex ||
    (r.complaint.isSome && r.cause.any Complaint.blamesOpenIndex)

end Refusal
end Worklog
