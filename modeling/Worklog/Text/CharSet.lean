namespace Worklog

/-- A set of characters: the first and the last number of each of its ranges. -/
abbrev CharSet := List (Nat × Nat)

namespace CharSet

/-- The character belongs to the set. -/
def has (s : CharSet) (c : Char) : Bool := s.any fun r => r.1 ≤ c.toNat && c.toNat ≤ r.2

end CharSet
end Worklog
