import LabLang.Text.Range

/-! # Lines

A text is cut into lines at line feeds, carriage returns (a carriage return and a line feed count once),
the vertical separators and the line and paragraph separators. A tab leads to the next column that is a
multiple of the tab width. -/

namespace LabLang.Text

/-- The characters that end a line. -/
def lineBreaks : List Nat := [0x0A, 0x0B, 0x0C, 0x0D, 0x1C, 0x1D, 0x1E, 0x85, 0x2028, 0x2029]

/-- The character ends a line. -/
def isLineBreak (c : Char) : Bool := lineBreaks.contains c.toNat

/-- Puts a character in front of the first line. -/
def consFirst (c : Char) : List (List Char) → List (List Char)
  | [] => [[c]]
  | l :: ls => (c :: l) :: ls

/-- The lines of a text, without what ends them. A line end at the end of the text starts no line. -/
def lines : List Char → List (List Char)
  | [] => []
  | '\r' :: '\n' :: r => [] :: lines r
  | c :: r => if isLineBreak c then [] :: lines r else consFirst c (lines r)

/-- Columns from one tab stop to the next. -/
def tabWidth : Nat := 4

/-- Replaces tabs by spaces up to the next tab stop, for a line that starts at the given column. -/
def expandTabs (column : Nat) : List Char → List Char
  | [] => []
  | '\t' :: r =>
    let width := tabWidth - column % tabWidth
    List.replicate width ' ' ++ expandTabs (column + width) r
  | c :: r => c :: expandTabs (column + 1) r

end LabLang.Text
