namespace Worklog.Utf8

/-- The character that stands for bytes that are no UTF-8. -/
def replacement : Char := Char.ofNat 0xfffd

/-- The bytes of a character. -/
def encodeChar (c : Char) : List Nat :=
  let n := c.toNat
  if n < 0x80 then [n]
  else if n < 0x800 then [0xc0 + n / 0x40, 0x80 + n % 0x40]
  else if n < 0x10000 then [0xe0 + n / 0x1000, 0x80 + n / 0x40 % 0x40, 0x80 + n % 0x40]
  else [0xf0 + n / 0x40000, 0x80 + n / 0x1000 % 0x40, 0x80 + n / 0x40 % 0x40, 0x80 + n % 0x40]

/-- The bytes of a text. -/
def encode (cs : List Char) : List Nat := cs.flatMap encodeChar

/-- What a first byte begins: how many bytes follow, its share of the value, and the range of the
    second byte. -/
def lead? (b : Nat) : Option (Nat × Nat × Nat × Nat) :=
  if 0xc2 ≤ b ∧ b ≤ 0xdf then some (1, b - 0xc0, 0x80, 0xbf)
  else if b = 0xe0 then some (2, 0, 0xa0, 0xbf)
  else if b = 0xed then some (2, 0xd, 0x80, 0x9f)
  else if 0xe1 ≤ b ∧ b ≤ 0xef then some (2, b - 0xe0, 0x80, 0xbf)
  else if b = 0xf0 then some (3, 0, 0x90, 0xbf)
  else if 0xf1 ≤ b ∧ b ≤ 0xf3 then some (3, b - 0xf0, 0x80, 0xbf)
  else if b = 0xf4 then some (3, 4, 0x80, 0x8f)
  else none

/-- Reads bytes. The state is the character that has been begun: how many bytes it still needs, its
    value so far, and the range of the next byte. -/
def run : Option (Nat × Nat × Nat × Nat) → List Nat → List Char
  | none, [] => []
  | some _, [] => [replacement]
  | none, b :: rest =>
    if b < 0x80 then Char.ofNat b :: run none rest
    else match lead? b with
      | some start => run (some start) rest
      | none => replacement :: run none rest
  | some (needed, value, low, high), b :: rest =>
    if low ≤ b ∧ b ≤ high then
      let value := value * 0x40 + (b - 0x80)
      if needed ≤ 1 then Char.ofNat value :: run none rest
      else run (some (needed - 1, value, 0x80, 0xbf)) rest
    else replacement ::
      if b < 0x80 then Char.ofNat b :: run none rest
      else match lead? b with
        | some start => run (some start) rest
        | none => replacement :: run none rest

/-- The characters of bytes. What is no UTF-8 is read as replacement characters, one for each longest run that
    could have begun a character. -/
def decode (bytes : List Nat) : List Char := run none bytes

end Worklog.Utf8
