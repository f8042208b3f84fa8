import LabLang.Scalar.Basic

/-! # Amplitudes

Complex numbers over the number type in use, with the operations that gates need. -/

namespace LabLang

/-- A complex number. -/
structure Amplitude (R : Type) where
  re : R
  im : R

namespace Amplitude

variable {R : Type} [Scalar R]

/-- A real number as an amplitude. -/
def ofReal (x : R) : Amplitude R := ⟨x, Scalar.zero⟩

/-- A real multiple of the imaginary unit. -/
def imaginary (x : R) : Amplitude R := ⟨Scalar.zero, x⟩

instance : Zero (Amplitude R) := ⟨ofReal Scalar.zero⟩

instance : One (Amplitude R) := ⟨ofReal Scalar.one⟩

instance : Add (Amplitude R) := ⟨fun a b => ⟨a.re + b.re, a.im + b.im⟩⟩

instance : Mul (Amplitude R) :=
  ⟨fun a b => ⟨a.re * b.re - a.im * b.im, a.re * b.im + a.im * b.re⟩⟩

instance : Neg (Amplitude R) := ⟨fun a => ⟨-a.re, -a.im⟩⟩

/-- The amplitude of modulus one with the given argument. -/
def phase (angle : R) : Amplitude R := ⟨Scalar.cos angle, Scalar.sin angle⟩

/-- The complex conjugate. -/
def conj (a : Amplitude R) : Amplitude R := ⟨a.re, -a.im⟩

/-- The modulus. -/
def modulus (a : Amplitude R) : R := Scalar.sqrt (a.re * a.re + a.im * a.im)

/-- The squared modulus: the weight of a basis state. -/
def weight (a : Amplitude R) : R := a.modulus * a.modulus

end Amplitude

end LabLang
