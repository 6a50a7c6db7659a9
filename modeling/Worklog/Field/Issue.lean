import Worklog.Moment.Reader

namespace Worklog

/-- Why a time was not accepted. -/
inductive TimeProblem where
  /-- The value is neither text nor a number. -/
  | type
  /-- The text is no date, which a time has to begin with. -/
  | date (problem : DateProblem)
  /-- A numeric text that the calendar does not reach. -/
  | numericText (tooLate : Bool)
  /-- A number that the calendar does not reach. -/
  | tooLate
  | tooEarly
  | yearZero
  | notANumber
  /-- The time carries no offset. -/
  | naive
  deriving DecidableEq, Repr

/-- Why a field was not accepted. -/
inductive Problem where
  | missing
  /-- The value is no object, where the named model is expected. -/
  | notObject (model : String)
  /-- The body is no object. -/
  | notFields
  | notString
  | brokenString
  | tooShort
  | tooLong (limit : Nat)
  | blank
  | integerText
  | integerFraction
  | integerType
  | integerSize
  | infinite
  | below (least : Int)
  | above (greatest : Int)
  | time (problem : TimeProblem)
  | notList
  | extra
  | badJson
  deriving DecidableEq, Repr

def DateProblem.message : DateProblem → String
  | tooShort => "input is too short"
  | yearCharacter => "invalid character in year"
  | separator => "invalid date separator, expected `-`"
  | monthCharacter => "invalid character in month"
  | dayCharacter => "invalid character in day"
  | monthRange => "month value is outside expected range of 1-12"
  | dayRange => "day value is outside expected range"
  | extra => "unexpected extra characters at the end of the input"
  | yearZero => "year 0 is out of range"

namespace TimeProblem

def tooLateText : String := "dates after 9999 are not supported as unix timestamps"

def tooEarlyText : String := "dates before 0000 are not supported as unix timestamps"

/-- The word by which clients tell problems of times apart. -/
def label : TimeProblem → String
  | type => "datetime_type"
  | date _ => "datetime_from_date_parsing"
  | numericText _ => "datetime_from_date_parsing"
  | naive => "timezone_aware"
  | _ => "datetime_parsing"

def message : TimeProblem → String
  | type => "Input should be a valid datetime"
  | date problem => "Input should be a valid datetime or date, " ++ problem.message
  | numericText true => "Input should be a valid datetime or date, " ++ tooLateText
  | numericText false => "Input should be a valid datetime or date, " ++ tooEarlyText
  | tooLate => "Input should be a valid datetime, " ++ tooLateText
  | tooEarly => "Input should be a valid datetime, " ++ tooEarlyText
  | yearZero => "Input should be a valid datetime, year 0 is out of range"
  | notANumber => "Input should be a valid datetime, NaN values not permitted"
  | naive => "Input should have timezone info"

end TimeProblem

namespace Problem

/-- The word by which clients tell problems apart. -/
def label : Problem → String
  | missing => "missing"
  | notObject _ => "model_type"
  | notFields => "model_attributes_type"
  | notString => "string_type"
  | brokenString => "string_unicode"
  | tooShort => "string_too_short"
  | tooLong _ => "string_too_long"
  | blank => "value_error"
  | integerText => "int_parsing"
  | integerFraction => "int_from_float"
  | integerType => "int_type"
  | integerSize => "int_parsing_size"
  | infinite => "finite_number"
  | below _ => "greater_than_equal"
  | above _ => "less_than_equal"
  | time problem => problem.label
  | notList => "list_type"
  | extra => "extra_forbidden"
  | badJson => "json_invalid"

/-- The wording of a problem. -/
def message : Problem → String
  | missing => "Field required"
  | notObject model => "Input should be a valid dictionary or instance of " ++ model
  | notFields => "Input should be a valid dictionary or object to extract fields from"
  | notString => "Input should be a valid string"
  | brokenString =>
    "Input should be a valid string, unable to parse raw data as a unicode string"
  | tooShort => "String should have at least 1 character"
  | tooLong limit => "String should have at most " ++ Digits.text limit ++ " characters"
  | blank => "Value error, description cannot be empty or whitespace"
  | integerText =>
    "Input should be a valid integer, unable to parse string as an integer"
  | integerFraction => "Input should be a valid integer, got a number with a fractional part"
  | integerType => "Input should be a valid integer"
  | integerSize => "Unable to parse input string as an integer, exceeded maximum size"
  | infinite => "Input should be a finite number"
  | below least => "Input should be greater than or equal to " ++ Digits.text least
  | above greatest => "Input should be less than or equal to " ++ Digits.text greatest
  | time problem => problem.message
  | notList => "Input should be a valid list"
  | extra => "Extra inputs are not permitted"
  | badJson => "JSON decode error"

end Problem

/-- A problem with the place where it was found, from the outside in. -/
structure Issue where
  place : List String
  problem : Problem
  deriving DecidableEq, Repr

namespace Issue

/-- The place of an issue as one text. -/
def field (i : Issue) : String := String.intercalate "." i.place

/-- The same issue inside a larger value. -/
def within (name : String) (i : Issue) : Issue := { i with place := name :: i.place }

end Issue

/-- The outcome of a check with the issue it found at a place. -/
def issuesAt {α : Type} (place : List String) : Except Problem α → List Issue
  | .ok _ => []
  | .error problem => [⟨place, problem⟩]

end Worklog
