import LabLang.Text.Blank
import LabLang.Text.Word

/-! # Calls

A call is a name with arguments between parentheses, separated by commas. -/

namespace LabLang.Text

/-- The name of a call and what stands between its first and its last parenthesis, which must be on one
line. Blanks may follow the name and the call. -/
def splitCall (s : List Char) : Option (List Char × List Char) := do
  let (name, r) ← takeName s
  let r := trim r
  match r.head?, r.getLast? with
  | some '(', some ')' =>
    let inner := (r.drop 1).dropLast
    if inner.contains '\n' then none else some (name, inner)
  | _, _ => none

/-- The pieces between commas, without the blanks around them; a blank text has none. -/
def arguments (s : List Char) : List (List Char) :=
  if isBlankText s then [] else (s.splitOn ',').map trim

end LabLang.Text
