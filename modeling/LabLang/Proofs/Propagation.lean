import Mathlib.Analysis.SpecialFunctions.Trigonometric.Basic
import LabLang.Proofs.ExactArithmetic
import LabLang.Proofs.Readers
import LabLang.Quantity

/-! # First-order propagation

Over the real numbers every operation on quantities has a value wherever it is defined, and its uncertainty is given by
squares: those of absolute uncertainties add up in sums and differences (`exists_combineAbsolute`), those of relative ones in
products and quotients (`exists_combineRelative`).  A `Formula` is a tree of operations.  The roots that its nodes take are
undone by the squares of the nodes above them, so that only the leaves count: not how they are grouped or ordered, nor which
of the two operations combines them (`uncertainty_of_formula`). -/

namespace LabLang

namespace Quantity

/-! ### Single operations -/

theorem uncertainty_nonneg (q : Quantity ℝ) : 0 ≤ q.uncertainty := by
  have h : ¬ Scalar.lt q.uncertainty Scalar.zero = true := Bool.eq_false_iff.mp q.nonnegative
  rw [Scalar.lt_real, Scalar.zero_real] at h
  exact not_lt.mp h

/-- Two real numbers make a quantity if the second one is not negative. -/
theorem exists_make (nominal : ℝ) {uncertainty : ℝ} (h : 0 ≤ uncertainty) (derivation : Option (Derivation ℝ)) :
    ∃ q, make nominal uncertainty derivation = .ok q ∧ q.nominal = nominal ∧ q.uncertainty = uncertainty := by
  have hlt : ¬ Scalar.lt uncertainty Scalar.zero = true := by
    rw [Scalar.lt_real, Scalar.zero_real]
    exact not_lt.mpr h
  have hfinite : (Scalar.isFinite nominal && Scalar.isFinite uncertainty) = true := rfl
  unfold make
  rw [dif_pos hfinite, dif_neg hlt]
  exact ⟨_, rfl, rfl, rfl⟩

theorem total_eq_sum (terms : List ℝ) : total terms = .ok terms.sum := rfl

theorem quadrature_eq_sqrt (terms : List ℝ) : quadrature terms = .ok √(terms.map (· ^ 2)).sum := by
  simp only [pow_two]
  rfl

/-- Absolute uncertainties are combined by adding up their squares. -/
theorem exists_combineAbsolute (operation : Operation) (nominal : ℝ) (a b : Quantity ℝ) :
    ∃ q, combineAbsolute operation nominal a b = .ok q ∧ q.nominal = nominal ∧
      q.uncertainty ^ 2 = a.uncertainty ^ 2 + b.uncertainty ^ 2 := by
  obtain ⟨q, hq, hnominal, huncertainty⟩ := exists_make nominal
    (Real.sqrt_nonneg (a.uncertainty ^ 2 + b.uncertainty ^ 2)) (some ⟨operation, [a.operand, b.operand]⟩)
  refine ⟨q, ?_, hnominal, ?_⟩
  · unfold combineAbsolute
    rw [quadrature_eq_sqrt, List.map_cons, List.map_singleton, List.sum_pair]
    exact hq
  · rw [huncertainty]
    exact Real.sq_sqrt (add_nonneg (sq_nonneg _) (sq_nonneg _))

/-- If both operands carry the squares of some quantities, the result carries those of all. -/
theorem exists_combineAbsolute_of_squares (operation : Operation) (nominal : ℝ) {a b : Quantity ℝ}
    {ls rs : List (Quantity ℝ)} (ha : a.uncertainty ^ 2 = (ls.map fun l => l.uncertainty ^ 2).sum)
    (hb : b.uncertainty ^ 2 = (rs.map fun l => l.uncertainty ^ 2).sum) :
    ∃ q, combineAbsolute operation nominal a b = .ok q ∧
      q.uncertainty ^ 2 = ((ls ++ rs).map fun l => l.uncertainty ^ 2).sum := by
  obtain ⟨q, hq, -, hsquare⟩ := exists_combineAbsolute operation nominal a b
  refine ⟨q, hq, ?_⟩
  rw [hsquare, ha, hb, List.map_append, List.sum_append]

/-- The uncertainty in proportion to the magnitude of a nominal value that is not zero. -/
noncomputable def relativeUncertainty (q : Quantity ℝ) : ℝ := q.uncertainty / |q.nominal|

theorem relative_eq {q : Quantity ℝ} (h : q.nominal ≠ 0) : q.relative = .ok q.relativeUncertainty := by
  have heq : ¬ Scalar.eq q.nominal Scalar.zero = true := by rwa [Scalar.eq_real, Scalar.zero_real]
  unfold relative
  rw [if_neg heq, Scalar.abs_real]
  rfl

theorem relativeUncertainty_nonneg (q : Quantity ℝ) : 0 ≤ q.relativeUncertainty :=
  div_nonneg q.uncertainty_nonneg (abs_nonneg _)

theorem uncertainty_eq {q : Quantity ℝ} (h : q.nominal ≠ 0) : q.uncertainty = q.relativeUncertainty * |q.nominal| :=
  (div_mul_cancel₀ _ (abs_ne_zero.mpr h)).symm

/-- Relative uncertainties are combined by adding up their squares, whatever the new nominal value is, unless it is zero. -/
theorem exists_combineRelative (operation : Operation) {nominal : ℝ} (hnominal : nominal ≠ 0) {a b : Quantity ℝ}
    (ha : a.nominal ≠ 0) (hb : b.nominal ≠ 0) :
    ∃ q, combineRelative operation nominal a b = .ok q ∧ q.nominal = nominal ∧
      q.relativeUncertainty ^ 2 = a.relativeUncertainty ^ 2 + b.relativeUncertainty ^ 2 := by
  obtain ⟨r, hr⟩ : ∃ r, r = √(a.relativeUncertainty ^ 2 + b.relativeUncertainty ^ 2) := ⟨_, rfl⟩
  have hnonneg : 0 ≤ r * |nominal| := mul_nonneg (hr ▸ Real.sqrt_nonneg _) (abs_nonneg _)
  obtain ⟨q, hq, rfl, huncertainty⟩ := exists_make nominal hnonneg (some ⟨operation, [a.operand, b.operand]⟩)
  refine ⟨q, ?_, rfl, ?_⟩
  · unfold combineRelative
    rw [relative_eq ha, relative_eq hb]
    show (quadrature [a.relativeUncertainty, b.relativeUncertainty] >>= fun r =>
      make q.nominal (r * Scalar.abs q.nominal) _) = _
    rw [quadrature_eq_sqrt, List.map_cons, List.map_singleton, List.sum_pair, ← hr, Scalar.abs_real]
    exact hq
  · have hratio : q.relativeUncertainty = r := by
      unfold relativeUncertainty
      rw [huncertainty, mul_div_cancel_right₀ _ (abs_ne_zero.mpr hnominal)]
    rw [hratio, hr]
    exact Real.sq_sqrt (add_nonneg (sq_nonneg _) (sq_nonneg _))

/-- The same for the squares of relative uncertainties. -/
theorem exists_combineRelative_of_squares (operation : Operation) {nominal : ℝ} (hnominal : nominal ≠ 0)
    {a b : Quantity ℝ} (ha : a.nominal ≠ 0) (hb : b.nominal ≠ 0) {ls rs : List (Quantity ℝ)}
    (hls : a.relativeUncertainty ^ 2 = (ls.map fun l => l.relativeUncertainty ^ 2).sum)
    (hrs : b.relativeUncertainty ^ 2 = (rs.map fun l => l.relativeUncertainty ^ 2).sum) :
    ∃ q, combineRelative operation nominal a b = .ok q ∧ q.nominal ≠ 0 ∧
      q.relativeUncertainty ^ 2 = ((ls ++ rs).map fun l => l.relativeUncertainty ^ 2).sum := by
  obtain ⟨q, hq, rfl, hsquare⟩ := exists_combineRelative operation hnominal ha hb
  refine ⟨q, hq, hnominal, ?_⟩
  rw [hsquare, hls, hrs, List.map_append, List.sum_append]

/-- A quotient is formed like a product, since its second check for zero is passed with the first one. -/
theorem divide_eq {a b : Quantity ℝ} (hb : b.nominal ≠ 0) :
    a.divide b = combineRelative .divide (a.nominal / b.nominal) a b := by
  have heq : ¬ Scalar.eq b.nominal Scalar.zero = true := by rwa [Scalar.eq_real, Scalar.zero_real]
  unfold divide
  rw [if_neg heq]

end Quantity

/-! ### Trees of operations -/

/-- An expression over quantities. -/
inductive Formula (R : Type) [Scalar R]
  | quantity (q : Quantity R)
  | sum (left right : Formula R)
  | difference (left right : Formula R)
  | product (left right : Formula R)
  | quotient (left right : Formula R)

namespace Formula

section

variable {R : Type} [Scalar R]

/-- Evaluates the expression, the left operand of an operation first. -/
def value : Formula R → Except (Cause R) (Quantity R)
  | quantity q => .ok q
  | sum left right => do (← left.value).add (← right.value)
  | difference left right => do (← left.value).subtract (← right.value)
  | product left right => do (← left.value).multiply (← right.value)
  | quotient left right => do (← left.value).divide (← right.value)

/-- The quantities that the expression is made of, from left to right. -/
def leaves : Formula R → List (Quantity R)
  | quantity q => [q]
  | sum left right | difference left right | product left right | quotient left right => left.leaves ++ right.leaves

/-- The expression is built by adding and subtracting only. -/
inductive IsSum : Formula R → Prop
  | quantity (q : Quantity R) : IsSum (.quantity q)
  | sum {left right : Formula R} : left.IsSum → right.IsSum → IsSum (.sum left right)
  | difference {left right : Formula R} : left.IsSum → right.IsSum → IsSum (.difference left right)

/-- The expression is built by multiplying and dividing only. -/
inductive IsProduct : Formula R → Prop
  | quantity (q : Quantity R) : IsProduct (.quantity q)
  | product {left right : Formula R} : left.IsProduct → right.IsProduct → IsProduct (.product left right)
  | quotient {left right : Formula R} : left.IsProduct → right.IsProduct → IsProduct (.quotient left right)

end

theorem exists_value_of_isSum {e : Formula ℝ} (h : e.IsSum) :
    ∃ q, e.value = .ok q ∧ q.uncertainty ^ 2 = (e.leaves.map fun l => l.uncertainty ^ 2).sum := by
  induction h with
  | quantity q => exact ⟨q, rfl, by simp [leaves]⟩
  | sum _ _ left right =>
      obtain ⟨a, hleft, ha⟩ := left
      obtain ⟨b, hright, hb⟩ := right
      obtain ⟨q, hq, hsquares⟩ := Quantity.exists_combineAbsolute_of_squares .add (a.nominal + b.nominal) ha hb
      refine ⟨q, ?_, hsquares⟩
      rw [value, hleft, hright]
      exact hq
  | difference _ _ left right =>
      obtain ⟨a, hleft, ha⟩ := left
      obtain ⟨b, hright, hb⟩ := right
      obtain ⟨q, hq, hsquares⟩ := Quantity.exists_combineAbsolute_of_squares .subtract (a.nominal - b.nominal) ha hb
      refine ⟨q, ?_, hsquares⟩
      rw [value, hleft, hright]
      exact hq

theorem exists_value_of_isProduct {e : Formula ℝ} (h : e.IsProduct) (nonzero : ∀ l ∈ e.leaves, l.nominal ≠ 0) :
    ∃ q, e.value = .ok q ∧ q.nominal ≠ 0 ∧
      q.relativeUncertainty ^ 2 = (e.leaves.map fun l => l.relativeUncertainty ^ 2).sum := by
  induction h with
  | quantity q => exact ⟨q, rfl, nonzero q (by simp [leaves]), by simp [leaves]⟩
  | product _ _ left right =>
      rw [leaves, List.forall_mem_append] at nonzero
      obtain ⟨a, hleft, ha, hls⟩ := left nonzero.1
      obtain ⟨b, hright, hb, hrs⟩ := right nonzero.2
      obtain ⟨q, hq, hnominal, hsquares⟩ :=
        Quantity.exists_combineRelative_of_squares .multiply (mul_ne_zero ha hb) ha hb hls hrs
      refine ⟨q, ?_, hnominal, hsquares⟩
      rw [value, hleft, hright]
      exact hq
  | quotient _ _ left right =>
      rw [leaves, List.forall_mem_append] at nonzero
      obtain ⟨a, hleft, ha, hls⟩ := left nonzero.1
      obtain ⟨b, hright, hb, hrs⟩ := right nonzero.2
      obtain ⟨q, hq, hnominal, hsquares⟩ :=
        Quantity.exists_combineRelative_of_squares .divide (div_ne_zero ha hb) ha hb hls hrs
      refine ⟨q, ?_, hnominal, hsquares⟩
      rw [value, hleft, hright]
      exact (Quantity.divide_eq hb).trans hq

/-- **Only the leaves count.**  Every expression built by adding and subtracting has a value, and the square of its
uncertainty is the sum of the squares of those of its leaves; every expression built by multiplying and dividing quantities
whose nominal values are not zero has one, too, and the same holds of the relative uncertainties.  So another expression of
the same kind whose leaves have the same uncertainties in any order, however it is grouped and whichever of the two
operations it uses, has the same uncertainty, or the same relative one; in the second case the uncertainties themselves
agree as soon as the magnitudes of the nominal values do. -/
theorem uncertainty_of_formula (e : Formula ℝ) :
    (e.IsSum → ∃ q, e.value = .ok q ∧ q.uncertainty ^ 2 = (e.leaves.map fun l => l.uncertainty ^ 2).sum ∧
      ∀ e' : Formula ℝ, e'.IsSum →
        (e'.leaves.map Quantity.uncertainty).Perm (e.leaves.map Quantity.uncertainty) →
        ∃ q', e'.value = .ok q' ∧ q'.uncertainty = q.uncertainty) ∧
    (e.IsProduct → (∀ l ∈ e.leaves, l.nominal ≠ 0) → ∃ q, e.value = .ok q ∧ q.nominal ≠ 0 ∧
      q.relativeUncertainty ^ 2 = (e.leaves.map fun l => l.relativeUncertainty ^ 2).sum ∧
      ∀ e' : Formula ℝ, e'.IsProduct → (∀ l ∈ e'.leaves, l.nominal ≠ 0) →
        (e'.leaves.map Quantity.relativeUncertainty).Perm (e.leaves.map Quantity.relativeUncertainty) →
        ∃ q', e'.value = .ok q' ∧ q'.relativeUncertainty = q.relativeUncertainty ∧
          (|q'.nominal| = |q.nominal| → q'.uncertainty = q.uncertainty)) := by
  -- the squares of rearranged numbers have the same sum
  have sum_squares {f : Quantity ℝ → ℝ} {ls ls' : List (Quantity ℝ)} (h : (ls'.map f).Perm (ls.map f)) :
      (ls'.map fun l => f l ^ 2).sum = (ls.map fun l => f l ^ 2).sum := by
    have hsquares := (h.map (· ^ 2)).sum_eq
    rwa [List.map_map, List.map_map] at hsquares
  refine ⟨fun h => ?_, fun h nonzero => ?_⟩
  · obtain ⟨q, hq, hsquare⟩ := exists_value_of_isSum h
    refine ⟨q, hq, hsquare, fun e' h' hperm => ?_⟩
    obtain ⟨q', hq', hsquare'⟩ := exists_value_of_isSum h'
    refine ⟨q', hq', ?_⟩
    rw [← sq_eq_sq₀ q'.uncertainty_nonneg q.uncertainty_nonneg, hsquare', hsquare]
    exact sum_squares hperm
  · obtain ⟨q, hq, hnominal, hsquare⟩ := exists_value_of_isProduct h nonzero
    refine ⟨q, hq, hnominal, hsquare, fun e' h' nonzero' hperm => ?_⟩
    obtain ⟨q', hq', hnominal', hsquare'⟩ := exists_value_of_isProduct h' nonzero'
    have hrelative : q'.relativeUncertainty = q.relativeUncertainty := by
      rw [← sq_eq_sq₀ q'.relativeUncertainty_nonneg q.relativeUncertainty_nonneg, hsquare', hsquare]
      exact sum_squares hperm
    refine ⟨q', hq', hrelative, fun hmagnitude => ?_⟩
    rw [Quantity.uncertainty_eq hnominal', Quantity.uncertainty_eq hnominal, hrelative, hmagnitude]

/-- Three quantities added, subtracted, multiplied and divided in two ways each; one of the nominal values is negative. -/
theorem uncertainty_of_formula_rearranged :
    ∃ a b c : Quantity ℝ, (a.nominal = 2 ∧ a.uncertainty = 4) ∧ (b.nominal = -4 ∧ b.uncertainty = 12) ∧
      (c.nominal = 1 / 2 ∧ c.uncertainty = 3) ∧
      (∃ q q' : Quantity ℝ, (difference (sum (.quantity a) (.quantity b)) (.quantity c)).value = .ok q ∧
        (sum (.quantity c) (difference (.quantity b) (.quantity a))).value = .ok q' ∧
        q.uncertainty ^ 2 = 13 ^ 2 ∧ q'.uncertainty = q.uncertainty) ∧
      ∃ q q' : Quantity ℝ, (quotient (product (.quantity a) (.quantity b)) (.quantity c)).value = .ok q ∧
        (product (.quantity b) (quotient (.quantity c) (.quantity a))).value = .ok q' ∧
        q.relativeUncertainty ^ 2 = 7 ^ 2 ∧ q'.relativeUncertainty = q.relativeUncertainty := by
  obtain ⟨a, -, ha, hua⟩ := Quantity.exists_make 2 (by norm_num : (0 : ℝ) ≤ 4) none
  obtain ⟨b, -, hb, hub⟩ := Quantity.exists_make (-4) (by norm_num : (0 : ℝ) ≤ 12) none
  obtain ⟨c, -, hc, huc⟩ := Quantity.exists_make (1 / 2) (by norm_num : (0 : ℝ) ≤ 3) none
  refine ⟨a, b, c, ⟨ha, hua⟩, ⟨hb, hub⟩, ⟨hc, huc⟩, ?_, ?_⟩
  · obtain ⟨q, hq, hsquare, hagree⟩ :=
      (uncertainty_of_formula (difference (sum (.quantity a) (.quantity b)) (.quantity c))).1
        (.difference (.sum (.quantity a) (.quantity b)) (.quantity c))
    obtain ⟨q', hq', hsame⟩ := hagree (sum (.quantity c) (difference (.quantity b) (.quantity a)))
      (.sum (.quantity c) (.difference (.quantity b) (.quantity a))) ((List.reverse_perm [a, b, c]).map _)
    refine ⟨q, q', hq, hq', ?_, hsame⟩
    rw [hsquare]
    simp [leaves, hua, hub, huc]
    norm_num
  · have nonzero : ∀ l ∈ [a, b, c], l.nominal ≠ 0 := by simp [ha, hb, hc]
    have hrotated : ([b, c, a] : List (Quantity ℝ)).Perm [a, b, c] := @List.perm_append_comm _ [b, c] [a]
    obtain ⟨q, hq, -, hsquare, hagree⟩ :=
      (uncertainty_of_formula (quotient (product (.quantity a) (.quantity b)) (.quantity c))).2
        (.quotient (.product (.quantity a) (.quantity b)) (.quantity c)) nonzero
    obtain ⟨q', hq', hsame, -⟩ := hagree (product (.quantity b) (quotient (.quantity c) (.quantity a)))
      (.product (.quantity b) (.quotient (.quantity c) (.quantity a))) (fun l hl => nonzero l (hrotated.subset hl))
      (hrotated.map _)
    refine ⟨q, q', hq, hq', ?_, hsame⟩
    rw [hsquare]
    simp [leaves, Quantity.relativeUncertainty, ha, hb, hc, hua, hub, huc]
    norm_num

end Formula

end LabLang
