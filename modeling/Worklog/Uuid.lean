import Worklog.Text.Numeral

namespace Worklog

/-- How many identifiers of 128 bits there are. -/
def uuidCount : Nat := 0x100000000000000000000000000000000

/-- An identifier of 128 bits. -/
structure Uuid where
  value : Nat
  value_lt : value < uuidCount
  deriving DecidableEq

namespace Uuid

/-- The identifier with a number, which counts modulo their number. -/
def ofNat (n : Nat) : Uuid := ⟨n % uuidCount, Nat.mod_lt _ (by decide)⟩

/-- The canonical lower-case form: groups of 8, 4, 4, 4 and 12 hexadecimal digits. -/
def render (u : Uuid) : List Char :=
  let digits := Digits.fixedHex 32 u.value
  digits.take 8 ++ '-' :: (digits.drop 8).take 4 ++ '-' :: (digits.drop 12).take 4 ++
    '-' :: (digits.drop 16).take 4 ++ '-' :: digits.drop 20

/-- The text of an identifier. -/
def text (u : Uuid) : String := String.ofList u.render

/-- Drops every occurrence of a word. -/
def without (word : List Char) : List Char → List Char
  | [] => []
  | c :: rest =>
    if word ≠ [] ∧ word <+: c :: rest then without word ((c :: rest).drop word.length)
    else c :: without word rest
  termination_by cs => cs.length
  decreasing_by
    · rename_i h
      have := List.length_pos_iff.mpr h.1
      simp only [List.length_drop, List.length_cons]
      omega
    · simp

/-- Why a text is no identifier. -/
inductive Unreadable where
  /-- There are not 32 digits. -/
  | form
  | digits (numeral : Numeral.Unreadable)
  deriving DecidableEq, Repr

/-- The wording of the problem. -/
def Unreadable.message : Unreadable → String
  | form => "badly formed hexadecimal UUID string"
  | digits numeral => numeral.message

/-- The digits of an identifier, without its label, braces and hyphens. -/
def bare (cs : List Char) : List Char :=
  let isBrace := fun c : Char => c == '\x7b' || c == '\x7d'
  (Blank.trim isBrace (without ['u', 'u', 'i', 'd', ':'] (without ['u', 'r', 'n', ':'] cs))).filter
    (· != '-')

/-- Reads an identifier in any of its usual spellings: with or without hyphens, braces and a
    `urn:uuid:` label, in either case. Its 32 digits are read as a numeral. -/
def read (s : String) : Except Unreadable Uuid :=
  let digits := bare s.toList
  if digits.length = 32 then
    match Numeral.read 16 (String.ofList digits) with
    | .ok n => .ok (ofNat n.toNat)
    | .error numeral => .error (.digits numeral)
  else .error .form

end Uuid
end Worklog
