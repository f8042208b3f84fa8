import Mathlib.Algebra.BigOperators.Field
import Mathlib.Algebra.Order.BigOperators.Group.Finset
import Mathlib.Analysis.SpecialFunctions.Trigonometric.Basic
import LabLang.Proofs.CountTables
import LabLang.Proofs.ExactArithmetic

/-! # Distances of counts

In exact arithmetic the distance of two distributions is half the sum of the differences of their shares, taken over any
finite set that has all their outcomes (`distance_eq_sum`), so that several tables can be compared over one set.  The shares
of counts with a total add up to one (`sum_share`), and two of their tables are at the distance of what their shares do not
have in common (`countsDistance_add_common`).  The distance of counts is hence a pseudometric with values from zero to one,
zero for tables with the same shares and one for tables without a common outcome (`countsDistance_pseudometric`). -/

namespace LabLang.Counts

open Scalar

/-! ### Distances as sums -/

/-- A sum over a set that has all the keys is a sum over the keys if nothing is added elsewhere. -/
theorem sum_keys {M : Type} [AddCommMonoid M] {keys : List String} (distinct : keys.Nodup) {outcomes : Finset String}
    (hkeys : ∀ k ∈ keys, k ∈ outcomes) {f : String → M} (hf : ∀ k, k ∉ keys → f k = 0) :
    ∑ k ∈ outcomes, f k = (keys.map f).sum := by
  rw [← List.sum_toFinset f distinct]
  refine (Finset.sum_subset (fun k hk => hkeys k (List.mem_toFinset.mp hk)) fun k _ hk => hf k ?_).symm
  rwa [List.mem_toFinset] at hk

theorem mem_outcomesOf {α : Type} {p q : Table α} {outcome : String} :
    outcome ∈ outcomesOf p q ↔ outcome ∈ p.keys ∨ outcome ∈ q.keys := by
  unfold outcomesOf
  simp only [List.mem_append, List.mem_filter, Bool.not_eq_true', Table.has_eq_false_iff]
  tauto

theorem nodup_outcomesOf {α : Type} {p q : Table α} (hp : p.keys.Nodup) (hq : q.keys.Nodup) :
    (outcomesOf p q).Nodup := by
  refine List.nodup_append.mpr ⟨hp, hq.filter _, fun k hk l hl hkl => ?_⟩
  have hnew := List.of_mem_filter hl
  rw [Bool.not_eq_true', Table.has_eq_false_iff] at hnew
  exact hnew (hkl ▸ hk)

theorem shareOf_of_notMem {R : Type} [Scalar R] {p : Table R} {outcome : String} (h : outcome ∉ p.keys) :
    shareOf p outcome = zero := by
  unfold shareOf
  rw [Table.get?_eq_none_iff.mpr h]
  rfl

theorem plainSum_eq_sum (terms : List ℝ) : plainSum terms = terms.sum := by
  unfold plainSum
  rw [zero_real, List.sum_eq_foldl]

theorem oneHalf_mul (x : ℝ) : oneHalf * x = x / 2 := by
  unfold oneHalf
  rw [ratio_real, Int.cast_one, Nat.cast_ofNat]
  ring

/-- The distance is a sum over any set that has all outcomes: where neither has a share nothing is added. -/
theorem distance_eq_sum {p q : Table ℝ} (hp : p.keys.Nodup) (hq : q.keys.Nodup) {outcomes : Finset String}
    (hpo : ∀ k ∈ p.keys, k ∈ outcomes) (hqo : ∀ k ∈ q.keys, k ∈ outcomes) :
    distance p q = (∑ k ∈ outcomes, |shareOf p k - shareOf q k|) / 2 := by
  have houtcomes : ∀ k ∈ outcomesOf p q, k ∈ outcomes := fun k hk => (mem_outcomesOf.mp hk).elim (hpo k) (hqo k)
  unfold distance
  rw [plainSum_eq_sum, oneHalf_mul, sum_keys (nodup_outcomesOf hp hq) houtcomes]
  · simp only [abs_real]
  · intro k hk
    rw [mem_outcomesOf, not_or] at hk
    rw [shareOf_of_notMem hk.1, shareOf_of_notMem hk.2, sub_self, abs_zero]

/-! ### Shares of counts -/

/-- The counts are a mapping from outcomes to numbers of observations. -/
structure IsProper (c : Counts) : Prop where
  distinct : c.keys.Nodup
  nonneg : ∀ entry ∈ c, 0 ≤ entry.2

instance (c : Counts) : Decidable c.IsProper :=
  decidable_of_iff (c.keys.Nodup ∧ ∀ entry ∈ c, 0 ≤ entry.2)
    ⟨fun ⟨distinct, nonneg⟩ => ⟨distinct, nonneg⟩, fun h => ⟨h.distinct, h.nonneg⟩⟩

/-- How often an outcome has been observed; one that is not listed has not been. -/
def observations (c : Counts) (outcome : String) : Int := (c.get? outcome).getD 0

/-- The exact share of an outcome. -/
noncomputable def share (c : Counts) (outcome : String) : ℝ := shareOf (shares c) outcome

section

variable {c : Counts}

theorem mem_keys_of_mem_shares {R : Type} [Scalar R] {outcome : String}
    (h : outcome ∈ (shares c : Table R).keys) : outcome ∈ c.keys := by
  unfold shares at h
  split at h
  · cases h
  · rwa [Table.keys_mapValues] at h

theorem nodup_keys_shares {R : Type} [Scalar R] (distinct : c.keys.Nodup) : (shares c : Table R).keys.Nodup := by
  unfold shares
  split
  · exact List.nodup_nil
  · rwa [Table.keys_mapValues]

theorem observations_nonneg (h : c.IsProper) (outcome : String) : 0 ≤ c.observations outcome := by
  unfold observations
  cases hget : c.get? outcome with
  | none => exact le_rfl
  | some n => exact h.nonneg _ (Table.mem_of_get? hget)

theorem observations_le_total (h : c.IsProper) (outcome : String) : c.observations outcome ≤ c.total := by
  unfold observations
  cases hget : c.get? outcome with
  | none => exact total_nonneg h.nonneg
  | some n => exact le_total_of_mem h.nonneg (Table.mem_of_get? hget)

theorem mem_keys_of_observations {outcome : String} (h : 0 < c.observations outcome) : outcome ∈ c.keys := by
  by_contra hnone
  unfold observations at h
  rw [Table.get?_eq_none_iff.mpr hnone] at h
  exact h.false

theorem total_eq_sum (distinct : c.keys.Nodup) {outcomes : Finset String} (hc : ∀ k ∈ c.keys, k ∈ outcomes) :
    c.total = ∑ k ∈ outcomes, c.observations k := by
  have hlist : c.total = (List.map (·.2) c).sum := by
    unfold total
    rw [List.sum_eq_foldr, List.foldr_map]
  rw [hlist, sum_keys distinct hc]
  · unfold Table.keys
    rw [List.map_map]
    refine congrArg List.sum (List.map_congr_left fun entry hentry => ?_)
    show entry.2 = (c.get? entry.1).getD 0
    rw [Table.get?_of_mem distinct hentry, Option.getD_some]
  · intro k hk
    unfold observations
    rw [Table.get?_eq_none_iff.mpr hk, Option.getD_none]

/-- The share is the quotient of the observations and the total, also where there is no total to divide by. -/
theorem share_eq (h : c.IsProper) (outcome : String) : c.share outcome = c.observations outcome / c.total := by
  unfold share shareOf observations
  rcases (total_nonneg h.nonneg).eq_or_lt with hzero | hpositive
  · have hnone : (shares c : Table ℝ) = [] := if_pos hzero.ge
    rw [hnone, ← hzero, Int.cast_zero, div_zero]
    exact zero_real
  · rw [shares_eq hpositive, Table.get?_mapValues]
    cases c.get? outcome with
    | none => rw [Option.map_none, Option.getD_none, Option.getD_none, Int.cast_zero, zero_div, zero_real]
    | some n =>
        have htotal : ((c.total.toNat : ℕ) : ℝ) = (c.total : ℝ) := by
          rw [← Int.cast_natCast, Int.toNat_of_nonneg hpositive.le]
        rw [Option.map_some, Option.getD_some, Option.getD_some, ratio_real, htotal]

theorem share_of_notMem {outcome : String} (h : outcome ∉ c.keys) : c.share outcome = 0 := by
  unfold share
  rw [shareOf_of_notMem fun hshares => h (mem_keys_of_mem_shares hshares), zero_real]

theorem share_nonneg (h : c.IsProper) (outcome : String) : 0 ≤ c.share outcome := by
  rw [share_eq h]
  exact div_nonneg (Int.cast_nonneg (observations_nonneg h outcome)) (Int.cast_nonneg (total_nonneg h.nonneg))

theorem share_pos_iff (h : c.IsProper) (positive : 0 < c.total) {outcome : String} :
    0 < c.share outcome ↔ 0 < c.observations outcome := by
  rw [share_eq h, div_pos_iff_of_pos_right (Int.cast_pos.mpr positive), Int.cast_pos]

/-- The shares of counts with a total add up to one. -/
theorem sum_share (h : c.IsProper) {outcomes : Finset String} (hc : ∀ k ∈ c.keys, k ∈ outcomes) :
    ∑ k ∈ outcomes, c.share k = if 0 < c.total then 1 else 0 := by
  simp only [share_eq h]
  rw [← Finset.sum_div, ← Int.cast_sum, ← total_eq_sum h.distinct hc]
  split
  case isTrue hpositive => exact div_self (Int.cast_ne_zero.mpr hpositive.ne')
  case isFalse hzero =>
    rw [le_antisymm (not_lt.mp hzero) (total_nonneg h.nonneg), Int.cast_zero, div_zero]

theorem sum_share_le (h : c.IsProper) {outcomes : Finset String} (hc : ∀ k ∈ c.keys, k ∈ outcomes) :
    ∑ k ∈ outcomes, c.share k ≤ 1 := by
  rw [sum_share h hc]
  split
  · exact le_rfl
  · exact zero_le_one

end

/-! ### The pseudometric -/

section

variable {a b c : Counts} {outcomes : Finset String}

theorem countsDistance_eq_sum (ha : a.IsProper) (hb : b.IsProper) (hao : ∀ k ∈ a.keys, k ∈ outcomes)
    (hbo : ∀ k ∈ b.keys, k ∈ outcomes) :
    (countsDistance a b : ℝ) = (∑ k ∈ outcomes, |a.share k - b.share k|) / 2 :=
  distance_eq_sum (nodup_keys_shares ha.distinct) (nodup_keys_shares hb.distinct)
    (fun k hk => hao k (mem_keys_of_mem_shares hk)) fun k hk => hbo k (mem_keys_of_mem_shares hk)

/-- Three tables can be compared over one set of outcomes. -/
theorem exists_outcomes (a b c : Counts) : ∃ outcomes : Finset String,
    (∀ k ∈ a.keys, k ∈ outcomes) ∧ (∀ k ∈ b.keys, k ∈ outcomes) ∧ ∀ k ∈ c.keys, k ∈ outcomes := by
  refine ⟨(a.keys ++ b.keys ++ c.keys).toFinset, fun k hk => ?_, fun k hk => ?_, fun k hk => ?_⟩
  all_goals
    simp only [List.mem_toFinset, List.mem_append]
    tauto

/-- What two tables have in common and their distance make up the mean of the sums of their shares. -/
theorem countsDistance_add_common (ha : a.IsProper) (hb : b.IsProper) (hao : ∀ k ∈ a.keys, k ∈ outcomes)
    (hbo : ∀ k ∈ b.keys, k ∈ outcomes) :
    (countsDistance a b : ℝ) + ∑ k ∈ outcomes, min (a.share k) (b.share k) =
      (∑ k ∈ outcomes, a.share k + ∑ k ∈ outcomes, b.share k) / 2 := by
  have hterm (k : String) : |a.share k - b.share k| = a.share k + b.share k - 2 * min (a.share k) (b.share k) := by
    rcases le_total (a.share k) (b.share k) with hle | hle
    · rw [abs_of_nonpos (sub_nonpos.mpr hle), min_eq_left hle]
      ring
    · rw [abs_of_nonneg (sub_nonneg.mpr hle), min_eq_right hle]
      ring
  rw [countsDistance_eq_sum ha hb hao hbo]
  simp only [hterm]
  rw [Finset.sum_sub_distrib, Finset.sum_add_distrib, ← Finset.mul_sum]
  ring

/-- Exact distances of counts are rational numbers. -/
theorem exists_ratCast_countsDistance (ha : a.IsProper) (hb : b.IsProper) : ∃ q : ℚ, (countsDistance a b : ℝ) = q := by
  obtain ⟨outcomes, hao, hbo, -⟩ := exists_outcomes a b b
  refine ⟨(∑ k ∈ outcomes, |(a.observations k : ℚ) / a.total - (b.observations k : ℚ) / b.total|) / 2, ?_⟩
  rw [countsDistance_eq_sum ha hb hao hbo]
  simp only [share_eq ha, share_eq hb]
  push_cast
  rfl

theorem countsDistance_comm (ha : a.IsProper) (hb : b.IsProper) :
    (countsDistance a b : ℝ) = countsDistance b a := by
  obtain ⟨outcomes, hao, hbo, -⟩ := exists_outcomes a b b
  rw [countsDistance_eq_sum ha hb hao hbo, countsDistance_eq_sum hb ha hbo hao]
  simp only [abs_sub_comm (a.share _)]

theorem countsDistance_triangle (ha : a.IsProper) (hb : b.IsProper) (hc : c.IsProper) :
    (countsDistance a c : ℝ) ≤ countsDistance a b + countsDistance b c := by
  obtain ⟨outcomes, hao, hbo, hco⟩ := exists_outcomes a b c
  rw [countsDistance_eq_sum ha hb hao hbo, countsDistance_eq_sum hb hc hbo hco, countsDistance_eq_sum ha hc hao hco,
    ← add_div, ← Finset.sum_add_distrib]
  exact div_le_div_of_nonneg_right (Finset.sum_le_sum fun _ _ => abs_sub_le _ _ _) zero_le_two

theorem countsDistance_nonneg (ha : a.IsProper) (hb : b.IsProper) : (0 : ℝ) ≤ countsDistance a b := by
  obtain ⟨outcomes, hao, hbo, -⟩ := exists_outcomes a b b
  rw [countsDistance_eq_sum ha hb hao hbo]
  exact div_nonneg (Finset.sum_nonneg fun _ _ => abs_nonneg _) zero_le_two

theorem countsDistance_le_one (ha : a.IsProper) (hb : b.IsProper) : (countsDistance a b : ℝ) ≤ 1 := by
  obtain ⟨outcomes, hao, hbo, -⟩ := exists_outcomes a b b
  have hcommon : 0 ≤ ∑ k ∈ outcomes, min (a.share k) (b.share k) :=
    Finset.sum_nonneg fun k _ => le_min (share_nonneg ha k) (share_nonneg hb k)
  have hsum := countsDistance_add_common ha hb hao hbo
  have hsa := sum_share_le ha hao
  have hsb := sum_share_le hb hbo
  linarith

/-- Tables are at distance zero exactly if they give every outcome the same share. -/
theorem countsDistance_eq_zero_iff (ha : a.IsProper) (hb : b.IsProper) :
    (countsDistance a b : ℝ) = 0 ↔ ∀ k, a.share k = b.share k := by
  obtain ⟨outcomes, hao, hbo, -⟩ := exists_outcomes a b b
  rw [countsDistance_eq_sum ha hb hao hbo, div_eq_zero_iff, or_iff_left two_ne_zero,
    Finset.sum_eq_zero_iff_of_nonneg fun _ _ => abs_nonneg _]
  simp only [abs_eq_zero, sub_eq_zero]
  refine ⟨fun h k => ?_, fun h k _ => h k⟩
  by_cases hk : k ∈ outcomes
  · exact h k hk
  · rw [share_of_notMem fun hka => hk (hao k hka), share_of_notMem fun hkb => hk (hbo k hkb)]

/-- Tables with totals are at distance one exactly if nothing has been observed in both. -/
theorem countsDistance_eq_one_iff (ha : a.IsProper) (hb : b.IsProper) (hpa : 0 < a.total) (hpb : 0 < b.total) :
    (countsDistance a b : ℝ) = 1 ↔ ∀ k, ¬ (0 < a.observations k ∧ 0 < b.observations k) := by
  obtain ⟨outcomes, hao, hbo, -⟩ := exists_outcomes a b b
  have hnonneg : ∀ k ∈ outcomes, 0 ≤ min (a.share k) (b.share k) := fun k _ =>
    le_min (share_nonneg ha k) (share_nonneg hb k)
  have hsum := countsDistance_add_common ha hb hao hbo
  rw [sum_share ha hao, sum_share hb hbo, if_pos hpa, if_pos hpb] at hsum
  have hcommon : (countsDistance a b : ℝ) = 1 ↔ ∑ k ∈ outcomes, min (a.share k) (b.share k) = 0 := by
    constructor <;> intro h <;> linarith
  rw [hcommon, Finset.sum_eq_zero_iff_of_nonneg hnonneg]
  have hboth (k : String) : min (a.share k) (b.share k) = 0 ↔ ¬ (0 < a.observations k ∧ 0 < b.observations k) := by
    rw [← share_pos_iff ha hpa, ← share_pos_iff hb hpb, ← lt_min_iff, not_lt]
    exact ⟨le_of_eq, fun h => le_antisymm h (le_min (share_nonneg ha k) (share_nonneg hb k))⟩
  simp only [hboth]
  exact ⟨fun h k hk => h k (hao k (mem_keys_of_observations hk.1)) hk, fun h k _ => h k⟩

/-- **Distances of counts.**  They are rational numbers between zero and one, symmetric, and meet the triangle inequality.
Two tables are at distance zero exactly if they give every outcome the same share, an outcome that is not listed having
none; if both have a total, they are at distance one exactly if no outcome has been observed in both. -/
theorem countsDistance_pseudometric (ha : a.IsProper) (hb : b.IsProper) (hc : c.IsProper) :
    (∃ q : ℚ, (countsDistance a b : ℝ) = q) ∧
    (countsDistance a b : ℝ) = countsDistance b a ∧
    (countsDistance a c : ℝ) ≤ countsDistance a b + countsDistance b c ∧
    (0 : ℝ) ≤ countsDistance a b ∧ (countsDistance a b : ℝ) ≤ 1 ∧
    ((countsDistance a b : ℝ) = 0 ↔ ∀ k, a.share k = b.share k) ∧
    (0 < a.total → 0 < b.total →
      ((countsDistance a b : ℝ) = 1 ↔ ∀ k, ¬ (0 < a.observations k ∧ 0 < b.observations k))) :=
  ⟨exists_ratCast_countsDistance ha hb, countsDistance_comm ha hb, countsDistance_triangle ha hb hc,
    countsDistance_nonneg ha hb, countsDistance_le_one ha hb, countsDistance_eq_zero_iff ha hb,
    countsDistance_eq_one_iff ha hb⟩

end

/-- Three observations and six of the same outcome are not told apart, and two of another one are as far away from the
first as from the second. -/
theorem countsDistance_pseudometric_scaled :
    ∃ a b c : Counts, a = [("00", 3), ("01", 0)] ∧ b = [("00", 6)] ∧ c = [("11", 2)] ∧
      a.IsProper ∧ b.IsProper ∧ c.IsProper ∧ 0 < a.total ∧ 0 < c.total ∧
      (countsDistance a b : ℝ) = 0 ∧ (countsDistance a c : ℝ) = 1 ∧ (countsDistance b c : ℝ) = 1 := by
  obtain ⟨a, ha⟩ : ∃ a : Counts, a = [("00", 3), ("01", 0)] := ⟨_, rfl⟩
  obtain ⟨b, hb⟩ : ∃ b : Counts, b = [("00", 6)] := ⟨_, rfl⟩
  obtain ⟨c, hc⟩ : ∃ c : Counts, c = [("11", 2)] := ⟨_, rfl⟩
  have hproper : a.IsProper ∧ b.IsProper ∧ c.IsProper := by
    rw [ha, hb, hc]
    decide
  obtain ⟨hpa, hpb, hpc⟩ := hproper
  have htotals : a.total = 3 ∧ b.total = 6 ∧ c.total = 2 := by
    rw [ha, hb, hc]
    decide
  obtain ⟨hta, htb, htc⟩ := htotals
  have hsame : ∀ k, a.share k = b.share k := by
    intro k
    rw [share_eq hpa, share_eq hpb, hta, htb, ha, hb]
    by_cases hk : "00" = k
    · subst hk
      norm_num [observations, Table.get?]
    · by_cases hk' : "01" = k <;> simp [observations, Table.get?, hk, hk']
  have hapart : ∀ k, ¬ (0 < a.observations k ∧ 0 < c.observations k) := by
    rintro k ⟨hka, hkc⟩
    have hka' := mem_keys_of_observations hka
    have hkc' := mem_keys_of_observations hkc
    rw [ha] at hka hka'
    rw [hc] at hkc'
    obtain rfl : k = "11" := List.mem_singleton.mp hkc'
    exact absurd hka' (by decide)
  obtain ⟨-, -, htriangle, -, -, hzero, -⟩ := countsDistance_pseudometric hpa hpb hpc
  obtain ⟨-, -, -, -, -, -, hone⟩ := countsDistance_pseudometric hpa hpc hpb
  obtain ⟨-, -, -, -, hle, -⟩ := countsDistance_pseudometric hpb hpc hpa
  have hab := hzero.mpr hsame
  have hac := (hone (by omega) (by omega)).mpr hapart
  rw [hab, hac, zero_add] at htriangle
  exact ⟨a, b, c, ha, hb, hc, hpa, hpb, hpc, by omega, by omega, hab, hac, le_antisymm hle htriangle⟩

end LabLang.Counts
