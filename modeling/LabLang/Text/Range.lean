/-! # Tables of characters

A class of characters is written down as a list of closed ranges of code points, in ascending
order. Tables follow version 14.0 of the character standard. -/

namespace LabLang.Text

/-- Closed ranges of code points. -/
abbrev Ranges := List (Nat × Nat)

/-- The code point lies in one of the ranges. -/
def Ranges.holds (rs : Ranges) (n : Nat) : Bool := rs.any fun r => r.1 ≤ n && n ≤ r.2

end LabLang.Text
