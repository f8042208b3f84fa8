import LabLang.Proofs.Propagation
import LabLang.Expression
import LabLang.Scalar.Machine

/-! # Sampling in batches

`Stream.draw n` are the next `n` uniform numbers of a stream, with what is left of it.  Points take two of them each, and
`hitsIn n` counts the points in the circle among the next `n` (`countHits_eq`).  A round of the loop draws as many points
as a batch has room for; whatever the size of the batches, the points that are still to be drawn, the hits so far and the
place in the stream belong together (`Sampling.IsAt`), and a round keeps that (`isAt_round`).  So the loop ends after as
many rounds as batches are needed, and has counted the same points in the same order as if they had been drawn at once
(`estimate_in_batches`). -/

namespace LabLang

/-! ### Draws -/

namespace Random.Stream

variable (R : Type) [Scalar R]

/-- The next uniform numbers of a stream, with the stream behind them. -/
def draw : ℕ → Stream → List R × Stream
  | 0, g => ([], g)
  | n + 1, g => ((g.uniform (R := R)).1 :: (draw n (g.uniform (R := R)).2).1, (draw n (g.uniform (R := R)).2).2)

theorem draw_add (m n : ℕ) (g : Stream) :
    draw R (m + n) g = ((draw R m g).1 ++ (draw R n (draw R m g).2).1, (draw R n (draw R m g).2).2) := by
  induction m generalizing g with
  | zero => rw [Nat.zero_add, draw, List.nil_append]
  | succ m ih => rw [Nat.succ_add, draw, ih, draw, List.cons_append]

theorem length_draw (n : ℕ) (g : Stream) : (draw R n g).1.length = n := by
  induction n generalizing g with
  | zero => rfl
  | succ n ih => rw [draw, List.length_cons, ih]

end Random.Stream

namespace Expression

open LabLang.Random Scalar

/-! ### Points -/

/-- The elements of a list in pairs, one pair behind the other. -/
def pairs {α : Type} : List α → List (α × α)
  | x :: y :: rest => (x, y) :: pairs rest
  | _ => []

theorem pairs_append {α : Type} {n : ℕ} {xs : List α} (h : xs.length = 2 * n) (ys : List α) :
    pairs (xs ++ ys) = pairs xs ++ pairs ys := by
  induction n generalizing xs with
  | zero =>
      rw [List.length_eq_zero_iff.mp h]
      rfl
  | succ n ih =>
      match xs, h with
      | x :: y :: rest, h =>
          have hrest : rest.length = 2 * n := by simpa [Nat.mul_succ] using h
          rw [List.cons_append, List.cons_append, pairs, ih hrest, pairs, List.cons_append]

theorem length_pairs {α : Type} {n : ℕ} {xs : List α} (h : xs.length = 2 * n) : (pairs xs).length = n := by
  induction n generalizing xs with
  | zero =>
      rw [List.length_eq_zero_iff.mp h]
      rfl
  | succ n ih =>
      match xs, h with
      | x :: y :: rest, h =>
          have hrest : rest.length = 2 * n := by simpa [Nat.mul_succ] using h
          rw [pairs, List.length_cons, ih hrest]

section

variable (R : Type) [Scalar R]

/-- The point lies in the unit circle. -/
def inCircle (point : R × R) : Bool := le (point.1 * point.1 + point.2 * point.2) one

/-- The number of points in the circle among the next `n` of a stream. -/
def hitsIn (n : ℕ) (g : Stream) : ℕ := (pairs (g.draw R (2 * n)).1).countP (inCircle R)

/-- The stream behind the next `n` points. -/
def behind (n : ℕ) (g : Stream) : Stream := (g.draw R (2 * n)).2

theorem hitsIn_le (n : ℕ) (g : Stream) : hitsIn R n g ≤ n := by
  have h := List.countP_le_length (p := inCircle R) (l := pairs (g.draw R (2 * n)).1)
  rwa [length_pairs (Stream.length_draw R _ g)] at h

theorem hitsIn_add (m n : ℕ) (g : Stream) : hitsIn R (m + n) g = hitsIn R m g + hitsIn R n (behind R m g) := by
  unfold hitsIn behind
  rw [Nat.mul_add, Stream.draw_add, pairs_append (Stream.length_draw R _ g), List.countP_append]

theorem behind_add (m n : ℕ) (g : Stream) : behind R (m + n) g = behind R n (behind R m g) := by
  unfold behind
  rw [Nat.mul_add, Stream.draw_add]

variable {R}

/-- The recursion of `countHits` over any source of numbers. -/
def countHitsFrom (source : Stream → R × Stream) : ℕ → ℕ → Stream → ℕ × Stream
  | 0, hits, g => (hits, g)
  | n + 1, hits, g =>
    let (x, g) : R × Stream := source g
    let (y, g) : R × Stream := source g
    countHitsFrom source n (if le (x * x + y * y) one then hits + 1 else hits) g

theorem countHits_eq_from : countHits (R := R) = countHitsFrom fun g => g.uniform (R := R) := by
  delta countHits countHitsFrom
  rfl

theorem countHitsFrom_succ (source : Stream → R × Stream) (n hits : ℕ) (g : Stream) :
    countHitsFrom source (n + 1) hits g = countHitsFrom source n
      (hits + if inCircle R ((source g).1, (source (source g).2).1) then 1 else 0) (source (source g).2).2 := by
  show countHitsFrom source n (if inCircle R ((source g).1, (source (source g).2).1) then hits + 1 else hits) _ = _
  by_cases h : inCircle R ((source g).1, (source (source g).2).1) = true
  · rw [if_pos h, if_pos h]
  · rw [if_neg h, if_neg h, Nat.add_zero]

/-- The first point is drawn, and then the others. -/
theorem countHits_succ (n hits : ℕ) (g : Stream) :
    countHits (R := R) (n + 1) hits g = countHits (R := R) n (hits + hitsIn R 1 g) (behind R 1 g) := by
  have hfirst : hitsIn R 1 g = if inCircle R ((g.uniform (R := R)).1, ((g.uniform (R := R)).2.uniform (R := R)).1)
      then 1 else 0 := List.countP_singleton
  rw [countHits_eq_from, countHitsFrom_succ, hfirst]
  rfl

/-- The points of a batch are counted one by one. -/
theorem countHits_eq (n hits : ℕ) (g : Stream) :
    countHits (R := R) n hits g = (hits + hitsIn R n g, behind R n g) := by
  induction n generalizing hits g with
  | zero => rfl
  | succ n ih => rw [countHits_succ, ih, Nat.add_comm n 1, hitsIn_add, behind_add, Nat.add_assoc]

end

/-! ### Rounds -/

/-- How far the loop has come: the points that are still to be drawn, the hits so far and the stream. -/
structure Sampling where
  remaining : ℕ
  hits : ℕ
  stream : Stream

namespace Sampling

variable (R : Type) [Scalar R] (batch : ℕ)

/-- A round of the loop: a batch, or what is left of the points if that is less. -/
def round (s : Sampling) : Sampling :=
  let counted := countHits (R := R) (min s.remaining batch) s.hits s.stream
  ⟨s.remaining - min s.remaining batch, counted.1, counted.2⟩

/-- The loop over `n` points after a number of rounds. -/
def rounds (n : ℕ) (g : Stream) (j : ℕ) : Sampling := (round R batch)^[j] ⟨n, 0, g⟩

/-- The points that are not to be drawn any more are those at the start of the stream, and their hits are counted. -/
structure IsAt (n : ℕ) (g : Stream) (s : Sampling) : Prop where
  remaining : s.remaining ≤ n
  hits : s.hits = hitsIn R (n - s.remaining) g
  stream : s.stream = behind R (n - s.remaining) g

variable {R batch} {n : ℕ} {g : Stream}

theorem isAt_start : IsAt R n g ⟨n, 0, g⟩ := by
  refine ⟨le_refl n, ?_, ?_⟩
  · show 0 = hitsIn R (n - n) g
    rw [Nat.sub_self]
    rfl
  · show g = behind R (n - n) g
    rw [Nat.sub_self]
    rfl

/-- Batches of any size move on in the same stream. -/
theorem isAt_round {s : Sampling} (h : IsAt R n g s) : IsAt R n g (s.round R batch) := by
  have hdone : n - (s.remaining - min s.remaining batch) = n - s.remaining + min s.remaining batch := by
    have := h.remaining
    omega
  unfold round
  refine ⟨(Nat.sub_le _ _).trans h.remaining, ?_, ?_⟩
  · dsimp only
    rw [countHits_eq, hdone, hitsIn_add, h.hits, h.stream]
  · dsimp only
    rw [countHits_eq, hdone, behind_add, h.stream]

theorem isAt_rounds (n : ℕ) (g : Stream) (j : ℕ) : IsAt R n g (rounds R batch n g j) := by
  induction j with
  | zero => exact isAt_start
  | succ j ih =>
      unfold rounds
      rw [Function.iterate_succ_apply']
      exact isAt_round ih

theorem remaining_rounds (n : ℕ) (g : Stream) (j : ℕ) : (rounds R batch n g j).remaining = n - j * batch := by
  induction j with
  | zero => rw [Nat.zero_mul, Nat.sub_zero]; rfl
  | succ j ih =>
      unfold rounds at ih ⊢
      rw [Function.iterate_succ_apply', round]
      dsimp only
      rw [ih, Nat.succ_mul]
      omega

/-- At the end of the loop all points have been counted. -/
theorem IsAt.eq_of_remaining {s : Sampling} (h : IsAt R n g s) (hzero : s.remaining = 0) :
    s = ⟨0, hitsIn R n g, behind R n g⟩ := by
  obtain ⟨remaining, hits, stream⟩ := s
  obtain rfl : remaining = 0 := hzero
  obtain rfl : hits = hitsIn R n g := h.hits
  obtain rfl : stream = behind R n g := h.stream
  rfl

/-- While points remain, the loop goes on with a round. -/
theorem countInBatches_round (hbatch : 0 < batch) {s : Sampling} (hs : s.remaining ≠ 0) :
    countInBatches (R := R) batch s.remaining s.hits s.stream =
      countInBatches (R := R) batch (s.round R batch).remaining (s.round R batch).hits (s.round R batch).stream := by
  rw [countInBatches, if_neg (by simpa [hs] using hbatch.ne')]
  rfl

/-- When no points remain, the loop ends. -/
theorem countInBatches_zero (hits : ℕ) (g : Stream) : countInBatches (R := R) batch 0 hits g = (hits, g) := by
  rw [countInBatches, if_pos (by simp)]

/-- Wherever the loop goes on, it comes to the same end. -/
theorem countInBatches_of_isAt (hbatch : 0 < batch) {s : Sampling} (h : IsAt R n g s) :
    countInBatches (R := R) batch s.remaining s.hits s.stream = (hitsIn R n g, behind R n g) := by
  induction hremaining : s.remaining using Nat.strongRecOn generalizing s with
  | ind remaining ih =>
      subst hremaining
      by_cases hzero : s.remaining = 0
      · rw [h.eq_of_remaining hzero, countInBatches_zero]
      · have hless : (s.round R batch).remaining < s.remaining := by
          show s.remaining - min s.remaining batch < s.remaining
          omega
        rw [countInBatches_round hbatch hzero]
        exact ih _ hless (isAt_round h) rfl

end Sampling

/-! ### Estimates -/

/-- A share of points makes an estimate. -/
theorem exists_estimate {hits n : ℕ} (hn : 0 < n) (h : hits ≤ n) : ∃ q : Quantity ℝ,
    estimate hits n = .ok (.uncertain q none) ∧ q.nominal = 4 * (hits / n) ∧
      q.uncertainty = 4 * √((hits / n) * (1 - hits / n) / n) ∧ 0 ≤ (hits / n : ℝ) * (1 - hits / n) / n ∧
      0 ≤ q.nominal ∧ q.nominal ≤ 4 := by
  have hpos : (0 : ℝ) < n := by exact_mod_cast hn
  have hshare : (0 : ℝ) ≤ hits / n ∧ (hits / n : ℝ) ≤ 1 :=
    ⟨by positivity, (div_le_one hpos).mpr (by exact_mod_cast h)⟩
  have hroot : 0 ≤ (hits / n : ℝ) * (1 - hits / n) / n :=
    div_nonneg (mul_nonneg hshare.1 (sub_nonneg.mpr hshare.2)) hpos.le
  obtain ⟨q, hq, hnominal, huncertainty⟩ := Quantity.exists_make (4 * (hits / n))
    (mul_nonneg zero_le_four (Real.sqrt_nonneg ((hits / n : ℝ) * (1 - hits / n) / n))) none
  refine ⟨q, ?_, hnominal, huncertainty, hroot, ?_, ?_⟩
  · have hmake : Quantity.make (nat 4 * ratio hits n) (nat 4 * Scalar.sqrt (ratio hits n * (one - ratio hits n) / nat n)) =
        .ok q := by
      rw [ratio_real, Int.cast_natCast, nat_real, nat_real, one_real, Nat.cast_ofNat]
      exact hq
    unfold estimate
    dsimp only
    rw [hmake]
    rfl
  · rw [hnominal]
    linarith [hshare.1]
  · rw [hnominal]
    linarith [hshare.2]

/-- The number of samples that is asked for is admissible, and is the integer. -/
structure IsSampleCount {R : Type} [Scalar R] (samples : R) (n : ℕ) : Prop where
  admissible : (isInteger samples && lt zero samples && le samples (nat maxSamples)) = true
  floor : (floor samples).toNat = n

theorem isSampleCount_natCast {n : ℕ} (hn : 1 ≤ n) (hmax : n ≤ maxSamples) : IsSampleCount (n : ℝ) n := by
  have hfloor : floor (n : ℝ) = n := Int.floor_natCast n
  have hinteger : isInteger (n : ℝ) = true := by
    unfold isInteger
    rw [hfloor, Bool.and_eq_true, eq_real, int_real, Int.cast_natCast]
    exact ⟨rfl, rfl⟩
  have hrange : lt zero (n : ℝ) = true ∧ le (n : ℝ) (nat maxSamples) = true := by
    rw [lt_real, le_real, zero_real, nat_real]
    exact ⟨by exact_mod_cast hn, by exact_mod_cast hmax⟩
  exact ⟨by simp only [hinteger, hrange, Bool.and_self], by rw [hfloor, Int.toNat_natCast]⟩

/-- The estimate is that of all points, whatever batches they come in. -/
theorem IsSampleCount.estimatePi_eq {R : Type} [Scalar R] {samples : R} {n : ℕ} (h : IsSampleCount samples n)
    (g : Stream) : estimatePi g [.number samples] = estimate (hitsIn R n g) n := by
  have hbatch : 0 < batchSize := by decide
  have hcount := Sampling.countInBatches_of_isAt (R := R) hbatch (Sampling.isAt_start (n := n) (g := g))
  unfold estimatePi
  dsimp only
  rw [if_pos h.admissible, h.floor, hcount]

/-- **Sampling in batches is sampling at once.**  The loop over an admissible number of points ends as soon as the batches
have room for all points, and not earlier.  It has then drawn the next numbers of the stream, two for each point, and has
counted the points in the circle among them; so there are no more hits than points.  The estimate is that of these hits.
In exact arithmetic it has a value from 0 to 4, and no root is taken of a negative number. -/
theorem estimate_in_batches {R : Type} [Scalar R] {n batch : ℕ} (one_le : 1 ≤ n) (le_max : n ≤ maxSamples)
    (batch_pos : 0 < batch) (g : Stream) : ∃ (hits : ℕ) (rest : Stream),
      hits = (pairs (g.draw R (2 * n)).1).countP (fun (x, y) => le (x * x + y * y) one) ∧ hits ≤ n ∧
      rest = (g.draw R (2 * n)).2 ∧ countInBatches (R := R) batch n 0 g = (hits, rest) ∧
      (∀ j, (Sampling.rounds R batch n g j).remaining = 0 ↔ n ≤ j * batch) ∧
      (∀ j, n ≤ j * batch → Sampling.rounds R batch n g j = ⟨0, hits, rest⟩) ∧
      (∀ samples : R, IsSampleCount samples n → estimatePi g [.number samples] = estimate hits n) ∧
      (∃ q : Quantity ℝ, estimate hits n = .ok (.uncertain q none) ∧ q.nominal = 4 * (hits / n) ∧
        q.uncertainty = 4 * √((hits / n) * (1 - hits / n) / n) ∧ 0 ≤ (hits / n : ℝ) * (1 - hits / n) / n ∧
        0 ≤ q.nominal ∧ q.nominal ≤ 4) ∧
      ∃ q : Quantity ℝ, estimatePi g [.number (n : ℝ)] = .ok (.uncertain q none) ∧ 0 ≤ q.nominal ∧ q.nominal ≤ 4 := by
  have hend (j : ℕ) : (Sampling.rounds R batch n g j).remaining = 0 ↔ n ≤ j * batch := by
    rw [Sampling.remaining_rounds, Nat.sub_eq_zero_iff_le]
  refine ⟨hitsIn R n g, behind R n g, rfl, hitsIn_le R n g, rfl, Sampling.countInBatches_of_isAt batch_pos Sampling.isAt_start,
    hend, fun j hj => (Sampling.isAt_rounds n g j).eq_of_remaining ((hend j).mpr hj), fun samples h => h.estimatePi_eq g,
    exists_estimate one_le (hitsIn_le R n g), ?_⟩
  obtain ⟨q, hq, -, -, -, hlow, hhigh⟩ := exists_estimate one_le (hitsIn_le ℝ n g)
  exact ⟨q, ((isSampleCount_natCast one_le le_max).estimatePi_eq g).trans hq, hlow, hhigh⟩

/-- Five points in batches of two take three rounds, and are counted like five points at once. -/
theorem estimate_in_batches_five : 1 ≤ 5 ∧ 5 ≤ maxSamples ∧ 0 < 2 ∧
    (Sampling.rounds Float 2 5 (.ofSeed ⟨7, []⟩) 2).remaining ≠ 0 ∧
    (Sampling.rounds Float 2 5 (.ofSeed ⟨7, []⟩) 3).remaining = 0 ∧
    countInBatches (R := Float) 2 5 0 (.ofSeed ⟨7, []⟩) = countInBatches (R := Float) 5 5 0 (.ofSeed ⟨7, []⟩) := by
  have hmax : 5 ≤ maxSamples := by decide
  have hbatches {batch : ℕ} (h : 0 < batch) :=
    estimate_in_batches (R := Float) (n := 5) (by decide) hmax h (.ofSeed ⟨7, []⟩)
  have htwo : 0 < 2 := by decide
  have hfive : 0 < 5 := by decide
  obtain ⟨hits, rest, hhits, -, hrest, hcount, hend, -⟩ := hbatches htwo
  obtain ⟨hits', rest', hhits', -, hrest', honce, -⟩ := hbatches hfive
  refine ⟨by decide, hmax, htwo, fun h => absurd ((hend 2).mp h) (by decide), (hend 3).mpr (by decide), ?_⟩
  rw [hcount, honce, hhits, hhits', hrest, hrest']

end Expression

end LabLang
