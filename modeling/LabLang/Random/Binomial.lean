import LabLang.Random.Stream

/-! # Binomial and multinomial draws

The number of successes in `n` independent trials: by inverting the distribution function where few
successes are expected, otherwise by acceptance and rejection under a triangle, a parallelogram and two
exponential tails. A multinomial draw gives each category a binomial share of what the categories before it
have left, and the last one the rest, so that its counts add up to the number of trials.

Both algorithms repeat until a number is accepted; the number of repetitions is bounded by a fuel that is
far beyond what a draw needs, and a draw is never more than `n`. -/

namespace LabLang.Random

open Scalar

variable {R : Type} [Scalar R]

/-- A decimal constant. -/
def constant (digits : Nat) (places : Nat) : R := decimal digits (-places)

/-- One half. -/
def half : R := constant 5 1

/-! ### Inversion -/

/-- The chances that the search for a draw by inversion goes through. -/
structure Search (R : Type) where
  trials : Nat
  success : R
  failure : R
  /-- The chance of no success at all. -/
  none : R
  /-- Counts beyond this bound start the search again. -/
  bound : Int

/-- Goes up from zero successes until the chances passed reach the uniform number `u`. -/
def Search.go (s : Search R) : Nat → Nat → R → R → Stream → Nat × Stream
  | 0, x, _, _, g => (x, g)
  | fuel + 1, x, chance, u, g =>
    if lt chance u then
      let x := x + 1
      if s.bound < x then
        let (u, g) : R × Stream := g.uniform
        s.go fuel 0 s.none u g
      else
        let u := u - chance
        let chance := nat (s.trials - x + 1) * s.success * chance / (nat x * s.failure)
        s.go fuel x chance u g
    else (x, g)

/-- A draw by inversion. -/
def inversion (n : Nat) (p : R) (g : Stream) : Nat × Stream :=
  let q := one - p
  let expected := nat n * p
  let reach := expected + nat 10 * sqrt (expected * q + one)
  let s : Search R := ⟨n, p, q, exp (nat n * log q), floor (if lt (nat n) reach then nat n else reach)⟩
  let (u, g) : R × Stream := g.uniform
  s.go (1000 * (s.bound.toNat + 2)) 0 s.none u g

/-! ### Rejection -/

/-- Counts are machine words of 64 bits with a sign. -/
def word (n : Int) : Int := n.bmod (twoPow 64)

/-- The regions that candidates for a draw of `n` trials are taken from. -/
structure Regions (R : Type) where
  trials : Nat
  success : R
  failure : R
  mode : Int
  middle : R
  left : R
  right : R
  slope : R
  leftRate : R
  rightRate : R
  triangle : R
  parallelogram : R
  leftTail : R
  all : R
  variance : R

/-- The regions for a chance of success of at most one half. -/
def regions (n : Nat) (r : R) : Regions R :=
  let q := one - r
  let peak := nat n * r + r
  let mode := floor peak
  let triangle :=
    (int (floor (constant 2195 3 * sqrt (nat n * r * q) - constant 46 1 * q)) : R) + half
  let middle := int mode + half
  let left := middle - triangle
  let right := middle + triangle
  let slope := constant 134 3 + constant 205 1 / (constant 153 1 + int mode)
  let rate (a : R) : R := a * (one + a / nat 2)
  let leftRate := rate ((peak - left) / (peak - left * r))
  let rightRate := rate ((right - peak) / (right * q))
  let parallelogram := triangle * (one + nat 2 * slope)
  let leftTail := parallelogram + slope / leftRate
  let all := leftTail + slope / rightRate
  ⟨n, r, q, mode, middle, left, right, slope, leftRate, rightRate, triangle, parallelogram, leftTail, all,
    nat n * r * q⟩

/-- A candidate: refused, accepted at once, or to be tested against a height. -/
inductive Candidate (R : Type)
  | refused
  | accepted (y : Int)
  | tested (y : Int) (height : R)

/-- The candidate at a point of the regions. -/
def Regions.candidate (a : Regions R) (u v : R) : Candidate R :=
  if le u a.triangle then .accepted (floor (a.middle - a.triangle * v + u))
  else if le u a.parallelogram then
    let x := a.left + (u - a.triangle) / a.slope
    let v := v * a.slope + one - abs (int a.mode - x + half) / a.triangle
    if lt one v then .refused else .tested (floor x) v
  else if le u a.leftTail then
    let y := floor (a.left + log v / a.leftRate)
    if y < 0 || eq v zero then .refused else .tested y (v * (u - a.parallelogram) * a.leftRate)
  else
    let y := floor (a.right - log v / a.rightRate)
    if a.trials < y || eq v zero then .refused else .tested y (v * (u - a.leftTail) * a.rightRate)

/-- The remainder of the logarithm of a factorial. -/
def remainder (d : R) : R :=
  let s := d * d
  (nat 13680 - (nat 462 - (nat 132 - (nat 99 - nat 140 / s) / s) / s) / s) / d / nat 166320

/-- The height at `y` as a product of ratios from the mode, for candidates near it. -/
def Regions.ratioHeight (a : Regions R) (y : Int) : R :=
  let s := a.success / a.failure
  let c := s * int (word (a.trials + 1))
  if a.mode < y then
    (List.range (y - a.mode).toNat).foldl (fun f (i : Nat) => f * (c / int (a.mode + 1 + i) - s)) one
  else
    (List.range (a.mode - y).toNat).foldl (fun f (i : Nat) => f / (c / int (y + 1 + i) - s)) one

/-- The logarithm of the height at `y`, for candidates far from the mode. -/
def Regions.logHeight (a : Regions R) (y : Int) : R :=
  let n : Int := a.trials
  let x1 : R := int (y + 1)
  let f1 : R := int (a.mode + 1)
  let z : R := int (n + 1 - a.mode)
  let w : R := int (n - y + 1)
  a.middle * log (f1 / x1) + (int (n - a.mode) + half) * log (z / w)
    + int (y - a.mode) * log (w * a.success / (x1 * a.failure))
    + remainder f1 + remainder z + remainder x1 + remainder w

/-- The candidate is accepted under the given height: bounds on the logarithm settle most cases. -/
def Regions.accepts (a : Regions R) (y : Int) (v : R) : Bool :=
  let k : Int := (y - a.mode).natAbs
  if 20 < k && lt (int k) (a.variance / nat 2 - one) then
    let kr : R := int k
    let rho := kr / a.variance
      * ((kr * (kr / nat 3 + constant 625 3) + constant 16666666666666666 17) / a.variance + half)
    let t := int (word (-(k * k))) / (nat 2 * a.variance)
    let height := log v
    if lt height (t - rho) then true
    else if lt (t + rho) height then false
    else !lt (a.logHeight y) height
  else !lt (a.ratioHeight y) v

/-- Draws candidates until one is accepted. -/
def Regions.draw (a : Regions R) : Nat → Stream → Int × Stream
  | 0, g => (a.mode, g)
  | fuel + 1, g =>
    let (u, g) : R × Stream := g.uniform
    let (v, g) : R × Stream := g.uniform
    match a.candidate (u * a.all) v with
    | .refused => a.draw fuel g
    | .accepted y => (y, g)
    | .tested y height => if a.accepts y height then (y, g) else a.draw fuel g

/-- A draw by rejection. -/
def rejection (n : Nat) (p : R) (g : Stream) : Nat × Stream :=
  let (y, g) := (regions n p).draw 100000 g
  (y.toNat, g)

/-! ### Draws -/

/-- A draw for a chance of success of at most one half. -/
def smallBinomial (n : Nat) (p : R) (g : Stream) : Nat × Stream :=
  let (x, g) := if le (p * nat n) (nat 30) then inversion n p g else rejection n p g
  (min x n, g)

/-- The number of successes in `n` trials with chance `p`. Without trials or chances nothing is drawn. -/
def binomial (n : Nat) (p : R) (g : Stream) : Nat × Stream :=
  if n = 0 || eq p zero then (0, g)
  else if le p half then smallBinomial n p g
  else
    let (x, g) := smallBinomial n (one - p) g
    (n - x, g)

/-- The counts of the categories, given their chances and the chance that is left for them together. -/
def multinomial : List R → R → Nat → Stream → List Nat × Stream
  | [], _, _, g => ([], g)
  | [_], _, n, g => ([n], g)
  | p :: ps, rest, n, g =>
    if n = 0 then ((p :: ps).map fun _ => 0, g)
    else
      let (x, g) := binomial n (p / rest) g
      let (xs, g) := multinomial ps (rest - p) (n - x) g
      (x :: xs, g)

end LabLang.Random
