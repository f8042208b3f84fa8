import LabLang.Payload.Basic

/-! # Writing payloads

The text form of payloads over several lines: every item and every field stands on a line of its own, two
columns deeper than what holds it, and empty lists and objects on one line. Characters beyond the first 128
code points are written as they are, and data with an integer that is too long is not written. -/

namespace LabLang.Payload

open Text Number

/-- The characters with an escape of their own. -/
def namedEscapes : List (Char × Char) :=
  [('"', '"'), ('\\', '\\'), ('\n', 'n'), ('\r', 'r'), ('\t', 't'), ('\x08', 'b'), ('\x0c', 'f')]

/-- A character inside quotation marks. -/
def writeChar (c : Char) : List Char :=
  match namedEscapes.lookup c with
  | some e => ['\\', e]
  | none => if c.toNat < 32 then '\\' :: 'u' :: hexDigits 4 c.toNat else [c]

/-- A text between quotation marks. -/
def writeText (s : String) : String :=
  String.ofList ('"' :: (s.toList.flatMap writeChar ++ ['"']))

variable {R : Type} [Scalar R]

/-- A real number. -/
def writeReal (x : R) : String :=
  match Scalar.binary x with
  | .nan => "NaN"
  | .infinity negative => if negative then "-Infinity" else "Infinity"
  | b => shortText b

/-- A new line that is indented to a depth. -/
def newLine (depth : Nat) : String := String.ofList ('\n' :: List.replicate (2 * depth) ' ')

/-- Parts between an opening and a closing mark, each on a line of its own. -/
def writeParts (depth : Nat) (opening closing : String) (parts : List String) : String :=
  if parts.isEmpty then opening ++ closing
  else
    opening ++ newLine (depth + 1) ++ ("," ++ newLine (depth + 1)).intercalate parts ++ newLine depth ++ closing

mutual

/-- A payload at a depth. -/
def writeAt (depth : Nat) : Payload R → Except WriteFault String
  | null => .ok "null"
  | bool b => .ok (if b then "true" else "false")
  | int n => bounded intText n
  | real x => .ok (writeReal x)
  | text s => .ok (writeText s)
  | list items => (writeItems (depth + 1) items).map (writeParts depth "[" "]")
  | object fields => (writeFields (depth + 1) fields).map (writeParts depth "\x7b" "\x7d")

/-- The items of a list at a depth. -/
def writeItems (depth : Nat) : List (Payload R) → Except WriteFault (List String)
  | [] => .ok []
  | p :: ps => do
    let part ← writeAt depth p
    let parts ← writeItems depth ps
    pure (part :: parts)

/-- The fields of an object at a depth. -/
def writeFields (depth : Nat) : List (String × Payload R) → Except WriteFault (List String)
  | [] => .ok []
  | (name, p) :: fs => do
    let part ← writeAt depth p
    let parts ← writeFields depth fs
    pure ((writeText name ++ ": " ++ part) :: parts)

end

/-- The text of a payload. -/
def write (p : Payload R) : Except WriteFault String := writeAt 0 p

end LabLang.Payload
