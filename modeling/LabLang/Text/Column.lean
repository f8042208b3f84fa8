/-! # Columns of text

Texts are padded with spaces to the width of their column; longer texts keep their length. -/

namespace LabLang.Text

/-- The text followed by spaces up to a width. -/
def padRight (width : Nat) (s : String) : String :=
  s ++ String.ofList (List.replicate (width - s.length) ' ')

/-- The text behind spaces up to a width. -/
def padLeft (width : Nat) (s : String) : String :=
  String.ofList (List.replicate (width - s.length) ' ') ++ s

/-- A line of one character. -/
def rule (c : Char) (width : Nat) : String := String.ofList (List.replicate width c)

/-- The widths of columns: the longest cell of each. Cells beyond the headers have no column. -/
def columnWidths (headers : List String) (rows : List (List String)) : List Nat :=
  rows.foldl
    (fun widths row => widths.zipIdx.map fun (w, i) => max w ((row[i]?).elim 0 String.length))
    (headers.map String.length)

/-- The cells of a line, each padded to its column. -/
def tableLine (widths : List Nat) (cells : List String) : String :=
  "  ".intercalate ((widths.zip cells).map fun (w, cell) => padRight w cell)

/-- The lines of a table: a title with a rule below it, the headers with rules below them, and the rows. -/
def tableLines (headers : List String) (rows : List (List String)) (title : String) : List String :=
  let heading := if title.isEmpty then [] else ["", title, rule '=' title.length]
  if rows.isEmpty then heading ++ ["(empty)"]
  else
    let widths := columnWidths headers rows
    heading ++ [tableLine widths headers, tableLine widths (widths.map (rule '-'))]
      ++ rows.map (tableLine widths)

/-- The lines as they are printed. -/
def unlines (ls : List String) : String := ls.foldl (fun text l => text ++ l ++ "\n") ""

end LabLang.Text
