import LabLang.Number.Numeral
import LabLang.Number.Written

/-! # Integers within the bound on digits

Texts hold integers of a bounded number of digits. What a program or a variable of the environment says was read
from a text (`readInteger`), so that it can be written again; data that is handed over as it is may hold longer
integers, and a text that needs one of these cannot be written. Seconds to wait for and the size of a circuit that a
caller makes by hand are taken to be short enough. -/

namespace LabLang.Number

/-- The integer has more digits than are written. -/
def IsTooLong (n : Int) : Prop := maxIntegerDigits < (natDigits n.natAbs).length

instance (n : Int) : Decidable (IsTooLong n) := inferInstanceAs (Decidable (_ < _))

/-- Why a text cannot be written. -/
inductive WriteFault
  /-- It needs an integer that is too long. -/
  | tooManyDigits
deriving DecidableEq, Repr

def WriteFault.message : WriteFault → String
  | tooManyDigits =>
    "Exceeds the limit (" ++ intText maxIntegerDigits
      ++ " digits) for integer string conversion; use sys.set_int_max_str_digits() to increase the limit"

/-- An integer as `write` has it, unless it is too long. -/
def bounded (write : Int → String) (n : Int) : Except WriteFault String :=
  if IsTooLong n then .error .tooManyDigits else .ok (write n)

/-- A message that names an integer. If the integer cannot be written, this is the message. -/
def naming (n : Int) (message : String → String) : String :=
  match bounded intText n with
  | .ok text => message text
  | .error fault => fault.message

end LabLang.Number
