import LabLang.Proofs.Readers
import LabLang.Random.Sample
import Mathlib.Algebra.GroupWithZero.Nat

/-! # Counts of a measurement

A binomial draw is at most the number of trials, so a multinomial draw hands out every trial exactly once
(`sum_multinomial`).  Leaving out the outcomes that were not observed loses none of them (`sum_observed`), and hence
the counts of a measurement add up to its shots (`measure_shots`). -/

namespace LabLang.Random

open Scalar

variable {R : Type} [Scalar R]

theorem smallBinomial_le (n : Nat) (p : R) (g : Stream) : (smallBinomial n p g).1 ≤ n := by
  unfold smallBinomial
  exact Nat.min_le_right _ _

theorem binomial_le (n : Nat) (p : R) (g : Stream) : (binomial n p g).1 ≤ n := by
  unfold binomial
  split
  · exact Nat.zero_le n
  · split
    · exact smallBinomial_le n p g
    · exact Nat.sub_le n _

/-- Every trial falls into exactly one of the categories. -/
theorem sum_multinomial (probs : List R) (rest : R) (n : Nat) (g : Stream) (h : probs ≠ []) :
    (multinomial probs rest n g).1.sum = n := by
  induction probs, rest, n, g using multinomial.induct with
  | case1 => exact absurd rfl h
  | case2 => simp [multinomial]
  | case3 p ps rest g hps =>
      rw [multinomial.eq_3 _ _ _ _ _ hps, if_pos rfl]
      simp [List.map_const']
  | case4 p ps rest n g hps hn x g' hx xs g'' hxs ih =>
      rw [multinomial.eq_3 _ _ _ _ _ hps, if_neg hn, hx]
      dsimp only
      rw [hxs]
      have hle : x ≤ n := by
        have := binomial_le n (p / rest) g
        rwa [hx] at this
      have htail : xs.sum = n - x := by
        have := ih hps
        rwa [hxs] at this
      rw [List.sum_cons, htail]
      omega

theorem sum_observed (width : Nat) (counts : List Nat) : ((observed width counts).map (·.2)).sum = counts.sum := by
  have h (start : Nat) : (((counts.zipIdx start).filter (0 < ·.1)).map (·.1)).sum = counts.sum := by
    induction counts generalizing start with
    | nil => rfl
    | cons n rest ih =>
        rw [List.zipIdx_cons, List.filter_cons, List.sum_cons, ← ih (start + 1)]
        by_cases hn : 0 < n
        · simp [hn]
        · simp only [hn, decide_false, Bool.false_eq_true, if_false]
          omega
  unfold observed
  rw [List.map_map]
  exact h 0

theorem checkChances_ok {probs : List R} {shots : Int} (h : checkChances probs shots = .ok ()) :
    0 < shots ∧ probs ≠ [] := by
  unfold checkChances at h
  obtain ⟨hshots, h⟩ := ok_of_test h
  obtain ⟨_, h⟩ := ok_of_test h
  obtain ⟨hprobs, _⟩ := ok_of_test h
  exact ⟨Int.not_le.mp hshots, fun hnil => hprobs (by rw [hnil]; rfl)⟩

/-- The counts of a sample add up to its shots. -/
theorem sample_shots {probs : List R} {width : Nat} {shots : Int} {g : Stream} {result : Table Nat × Stream}
    (h : sample probs width shots g = .ok result) : (((result.1.map (·.2)).sum : Nat) : Int) = shots := by
  obtain ⟨_, hcheck, h⟩ := ok_of_bind h
  obtain ⟨hpos, hprobs⟩ := checkChances_ok hcheck
  cases h
  rw [sum_observed, sum_multinomial _ _ _ _ hprobs]
  omega

/-- The counts of a measurement add up to its shots. -/
theorem measure_shots {c : Circuit R} {shots : Int} {g : Stream} {counts : Table Nat}
    (h : measure c shots g = .ok counts) : (((counts.map (·.2)).sum : Nat) : Int) = shots := by
  obtain ⟨probs, _, h⟩ := ok_of_bind h
  cases hsample : sample probs c.measured.length shots g with
  | error fault => rw [hsample] at h; cases h
  | ok result =>
      rw [hsample] at h
      cases h
      exact sample_shots hsample

end LabLang.Random
