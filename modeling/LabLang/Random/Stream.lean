import LabLang.Random.Seed
import LabLang.Scalar.Basic

/-! # Random streams

A generator with a state of 128 bits: a step multiplies the state by a constant and adds an increment, and
the output is the two halves of the state combined and rotated. Uniform numbers are the upper 53 bits of an
output, as a fraction of one. -/

namespace LabLang.Random

/-! ### Words of 128 bits -/

/-- A word of 128 bits. -/
structure Wide where
  high : UInt64
  low : UInt64
deriving DecidableEq, Repr

/-- The upper half of the product of two 64-bit words. -/
def mulHigh (a b : UInt64) : UInt64 :=
  let mask : UInt64 := 0xFFFFFFFF
  let (a0, a1) := (a &&& mask, a >>> 32)
  let (b0, b1) := (b &&& mask, b >>> 32)
  let p01 := a0 * b1
  let p10 := a1 * b0
  let middle := ((a0 * b0) >>> 32) + (p01 &&& mask) + (p10 &&& mask)
  a1 * b1 + (p01 >>> 32) + (p10 >>> 32) + (middle >>> 32)

/-- The product, without what exceeds 128 bits. -/
def Wide.mul (a b : Wide) : Wide :=
  ⟨mulHigh a.low b.low + a.high * b.low + a.low * b.high, a.low * b.low⟩

/-- The sum, without what exceeds 128 bits. -/
def Wide.add (a b : Wide) : Wide :=
  let low := a.low + b.low
  ⟨a.high + b.high + (if low < a.low then 1 else 0), low⟩

/-! ### The generator -/

/-- The state of a generator and its increment, which is odd. -/
structure Stream where
  state : Wide
  increment : Wide
deriving DecidableEq, Repr

namespace Stream

def multiplier : Wide := ⟨0x2360ED051FC65DA4, 0x4385DF649FCCF645⟩

/-- One step. -/
def step (g : Stream) : Stream := { g with state := (g.state.mul multiplier).add g.increment }

/-- The generator of a seed. -/
def ofSeed (s : Seed) : Stream :=
  let w := s.state
  let start : Wide := ⟨w.getD 0 0, w.getD 1 0⟩
  let (high, low) := (w.getD 2 0, w.getD 3 0)
  let g : Stream := step ⟨⟨0, 0⟩, ⟨high <<< 1 ||| low >>> 63, low <<< 1 ||| 1⟩⟩
  step { g with state := g.state.add start }

/-- The word turned to the right. -/
def rotate (w places : UInt64) : UInt64 := w >>> places ||| w <<< ((64 - places) % 64)

/-- The next 64 bits. -/
def next (g : Stream) : UInt64 × Stream :=
  let g := g.step
  (rotate (g.state.high ^^^ g.state.low) (g.state.high >>> 58), g)

/-- The next uniform number in `[0, 1)`. -/
def uniform {R : Type} [Scalar R] (g : Stream) : R × Stream :=
  let (w, g) := g.next
  (Scalar.nat (w >>> 11).toNat / Scalar.nat (twoPow 53), g)

end Stream

end LabLang.Random
