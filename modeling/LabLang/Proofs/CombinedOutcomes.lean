import LabLang.Proofs.Propagation
import LabLang.Parallel.Aggregate
import LabLang.Proofs.SummationFaults

/-! # Combined outcomes

A numeric outcome of a branch is an estimate: a nominal value with an uncertainty, which is zero for a plain number
(`Outcome.estimate?`).  Over the real numbers each way of combining outcomes gives an estimate that is determined by those of
the branches (`Combines`): the sum, by adding them up from the left, the mean, at once, and the least and the greatest, by
going through them.  That is so for plain numbers as for quantities (`exists_ofValues`).  Hence the four results fit
together, and outcomes that are not numeric have no part in them (`aggregates_coherent`). -/

namespace LabLang

/-! ### Estimates -/

/-- A nominal value with an uncertainty. -/
structure Estimate (R : Type) where
  nominal : R
  uncertainty : R

section estimates

variable {R : Type} [Scalar R]

/-- The numbers of a quantity. -/
def Estimate.ofQuantity (q : Quantity R) : Estimate R := ⟨q.nominal, q.uncertainty⟩

/-- A number without uncertainty. -/
def Estimate.ofNumber (x : R) : Estimate R := ⟨x, Scalar.zero⟩

/-- The estimate of a numeric value. -/
def Value.estimate? : Value R → Option (Estimate R)
  | number x => some (.ofNumber x)
  | uncertain q _ => some (.ofQuantity q)
  | _ => none

/-- The estimate of a numeric outcome; a failure has none. -/
def Outcome.estimate? (o : Outcome R) : Option (Estimate R) := o.value?.bind Value.estimate?

/-- The number, of an outcome that is a plain number. -/
def Outcome.number? (o : Outcome R) : Option R := o.value?.bind Value.number?

namespace Aggregation

/-- The estimates of the numeric branches, in the order of the branches. -/
def estimates (outcomes : Table (Outcome R)) : List (Estimate R) := outcomes.filterMap (·.2.estimate?)

theorem isSome_estimate? (v : Value R) : v.estimate?.isSome = v.isNumeric := by cases v <;> rfl

theorem numeric_failed (label : String) (report : Report R) (outcomes : Table (Outcome R)) :
    numeric ((label, .failed report) :: outcomes) = numeric outcomes := rfl

theorem numeric_value (label : String) (v : Value R) (outcomes : Table (Outcome R)) :
    numeric ((label, .value v) :: outcomes) = if v.isNumeric then v :: numeric outcomes else numeric outcomes :=
  List.filter_cons

/-- The plain numbers among the values that are combined are those among the outcomes. -/
theorem forall_number_iff (outcomes : Table (Outcome R)) :
    (∀ v ∈ numeric outcomes, v.number?.isSome = true) ↔
      ∀ slot ∈ outcomes, slot.2.estimate?.isSome = true → slot.2.number?.isSome = true := by
  induction outcomes with
  | nil => exact iff_of_true (fun v hv => nomatch hv) (fun slot hslot => nomatch hslot)
  | cons slot outcomes ih =>
      obtain ⟨label, o⟩ := slot
      rw [List.forall_mem_cons, ← ih]
      cases o with
      | failed report => exact (and_iff_right fun h => nomatch h).symm
      | value v =>
          rw [numeric_value]
          cases v with
          | number x | uncertain q source =>
              exact List.forall_mem_cons.trans (and_congr_left fun _ => (imp_iff_right rfl).symm)
          | text _ | circuit _ | raw _ => exact (and_iff_right fun h => nomatch h).symm

/-- Only numeric outcomes are combined. -/
theorem numeric_filter (outcomes : Table (Outcome R)) :
    numeric (outcomes.filter (·.2.estimate?.isSome)) = numeric outcomes := by
  induction outcomes with
  | nil => rfl
  | cons slot outcomes ih =>
      obtain ⟨label, o⟩ := slot
      cases o with
      | failed report =>
          rw [List.filter_cons_of_neg (by rintro ⟨⟩), numeric_failed]
          exact ih
      | value v =>
          have hkept : (Outcome.value v).estimate?.isSome = v.isNumeric := isSome_estimate? v
          rw [numeric_value, List.filter_cons]
          cases hv : v.isNumeric with
          | true =>
              rw [if_pos (hkept.trans hv), numeric_value, ih, hv]
          | false =>
              rw [if_neg (Bool.eq_false_iff.mp (hkept.trans hv)), ih, if_neg Bool.false_ne_true]

/-- The estimates of the branches are those of the values that are combined. -/
theorem estimates_eq (outcomes : Table (Outcome R)) :
    estimates outcomes = (numeric outcomes).filterMap Value.estimate? := by
  induction outcomes with
  | nil => rfl
  | cons slot outcomes ih =>
      obtain ⟨label, o⟩ := slot
      cases o with
      | failed report => exact ih
      | value v =>
          rw [numeric_value]
          cases v with
          | number x => exact congrArg (Estimate.ofNumber x :: ·) ih
          | uncertain q source => exact congrArg (Estimate.ofQuantity q :: ·) ih
          | text _ | circuit _ | raw _ => exact ih

end Aggregation

end estimates

namespace Aggregation

/-! ### The first of the least elements -/

variable {α : Type} {precedes : α → α → Bool}

theorem first_cons (x y : α) (xs : List α) :
    first precedes x (y :: xs) = first precedes (if precedes y x then y else x) xs := rfl

theorem first_mem (x : α) (xs : List α) : first precedes x xs ∈ x :: xs := by
  induction xs generalizing x with
  | nil => exact List.mem_singleton.mpr rfl
  | cons y xs ih =>
      rw [first_cons]
      split
      · exact List.mem_cons_of_mem x (ih y)
      · rcases List.mem_cons.mp (ih x) with h | h
        · rw [h]
          exact List.mem_cons_self
        · exact List.mem_cons_of_mem x (List.mem_cons_of_mem y h)

/-- No element has a lower key, if an element precedes another one by having a lower key. -/
theorem first_le (key : α → ℝ) (h : ∀ a b, precedes a b = true ↔ key a < key b) (x : α) (xs : List α) :
    ∀ y ∈ x :: xs, key (first precedes x xs) ≤ key y := by
  induction xs generalizing x with
  | nil => exact List.forall_mem_singleton.mpr (le_refl _)
  | cons y xs ih =>
      rw [first_cons]
      by_cases hyx : precedes y x = true
      · rw [if_pos hyx]
        have hlt := (h y x).mp hyx
        have hrest := List.forall_mem_cons.mp (ih y)
        refine List.forall_mem_cons.mpr ⟨hrest.1.trans hlt.le, List.forall_mem_cons.mpr hrest⟩
      · rw [if_neg hyx]
        have hle := not_lt.mp fun hlt => hyx ((h y x).mpr hlt)
        have hrest := List.forall_mem_cons.mp (ih x)
        exact List.forall_mem_cons.mpr ⟨hrest.1, List.forall_mem_cons.mpr ⟨hrest.1.trans hle, hrest.2⟩⟩

/-! ### What a combination gives -/

/-- How the estimate that a way of combining gives is determined by those that are combined. -/
def Combines (es : List (Estimate ℝ)) : Aggregation → Estimate ℝ → Prop
  | mean, e => e.nominal = (es.map (·.nominal)).sum / es.length ∧
      e.uncertainty = √(es.map (·.uncertainty ^ 2)).sum / es.length
  | sum, e => e.nominal = (es.map (·.nominal)).sum ∧ e.uncertainty = √(es.map (·.uncertainty ^ 2)).sum
  | least, e => e ∈ es ∧ ∀ e' ∈ es, e.nominal ≤ e'.nominal
  | greatest, e => e ∈ es ∧ ∀ e' ∈ es, e'.nominal ≤ e.nominal

theorem extreme_least (key : α → ℝ) (x : α) (xs : List α) :
    extreme false key x xs ∈ x :: xs ∧ ∀ y ∈ x :: xs, key (extreme false key x xs) ≤ key y :=
  ⟨first_mem x xs, first_le key (fun a b => Scalar.lt_real (key a) (key b)) x xs⟩

theorem extreme_greatest (key : α → ℝ) (x : α) (xs : List α) :
    extreme true key x xs ∈ x :: xs ∧ ∀ y ∈ x :: xs, key y ≤ key (extreme true key x xs) := by
  refine ⟨first_mem x xs, fun y hy => neg_le_neg_iff.mp (first_le (fun a => -key a) (fun a b => ?_) x xs y hy)⟩
  exact (Scalar.lt_real (key b) (key a)).trans neg_lt_neg_iff.symm

/-- Quantities that are added up: each step keeps the sum of the squares. -/
theorem exists_addAll (q : Quantity ℝ) (qs : List (Quantity ℝ)) :
    ∃ t, addAll q qs = .ok t ∧ t.nominal = ((q :: qs).map (·.nominal)).sum ∧
      t.uncertainty ^ 2 = ((q :: qs).map (·.uncertainty ^ 2)).sum := by
  induction qs generalizing q with
  | nil => exact ⟨q, rfl, by simp, by simp⟩
  | cons b qs ih =>
      obtain ⟨s, hs, hnominal, hsquare⟩ := Quantity.exists_combineAbsolute .add (q.nominal + b.nominal) q b
      obtain ⟨t, ht, htotal, hsquares⟩ := ih s
      refine ⟨t, ?_, ?_, ?_⟩
      · have hadd : q.add b = .ok s := hs
        unfold addAll at ht ⊢
        rw [List.foldlM_cons, hadd]
        exact ht
      · rw [htotal, List.map_cons, List.sum_cons, hnominal]
        simp [add_assoc]
      · rw [hsquares, List.map_cons, List.sum_cons, hsquare]
        simp [add_assoc]

theorem exists_mean {qs : List (Quantity ℝ)} (h : qs ≠ []) :
    ∃ t, Quantity.mean qs = .ok t ∧ t.nominal = (qs.map (·.nominal)).sum / qs.length ∧
      t.uncertainty = √(qs.map (·.uncertainty ^ 2)).sum / qs.length := by
  obtain ⟨t, ht, hnominal, huncertainty⟩ := Quantity.exists_make ((qs.map (·.nominal)).sum / qs.length)
    (div_nonneg (Real.sqrt_nonneg (qs.map (·.uncertainty ^ 2)).sum) (Nat.cast_nonneg qs.length))
    (some ⟨.mean, qs.map Quantity.operand⟩)
  refine ⟨t, ?_, hnominal, huncertainty⟩
  unfold Quantity.mean
  rw [if_neg (by simpa using h), Quantity.total_eq_sum, Quantity.quadrature_eq_sqrt, List.map_map]
  exact ht

theorem exists_ofQuantities (a : Aggregation) (q : Quantity ℝ) (qs : List (Quantity ℝ)) :
    ∃ t, a.ofQuantities q qs = .ok t ∧ Combines ((q :: qs).map Estimate.ofQuantity) a (.ofQuantity t) := by
  cases a with
  | mean =>
      obtain ⟨t, ht, hnominal, huncertainty⟩ := exists_mean (List.cons_ne_nil q qs)
      refine ⟨t, ht, ?_, ?_⟩
      · rw [List.map_map, List.length_map]
        exact hnominal
      · rw [List.map_map, List.length_map]
        exact huncertainty
  | sum =>
      obtain ⟨t, ht, hnominal, hsquare⟩ := exists_addAll q qs
      refine ⟨t, ht, ?_, ?_⟩
      · rw [List.map_map]
        exact hnominal
      · rw [List.map_map]
        show t.uncertainty = √((q :: qs).map (·.uncertainty ^ 2)).sum
        rw [← hsquare, Real.sqrt_sq t.uncertainty_nonneg]
  | least =>
      obtain ⟨hmem, hle⟩ := extreme_least Quantity.nominal q qs
      exact ⟨_, rfl, List.mem_map_of_mem hmem, List.forall_mem_map.mpr hle⟩
  | greatest =>
      obtain ⟨hmem, hle⟩ := extreme_greatest Quantity.nominal q qs
      exact ⟨_, rfl, List.mem_map_of_mem hmem, List.forall_mem_map.mpr hle⟩

/-- Plain numbers are combined like quantities without uncertainty. -/
theorem exists_ofNumbers (a : Aggregation) (x : ℝ) (xs : List ℝ) :
    ∃ y, a.ofNumbers x xs = .ok y ∧ Combines ((x :: xs).map Estimate.ofNumber) a (.ofNumber y) := by
  have hnominals : (((x :: xs).map Estimate.ofNumber).map (·.nominal)).sum = (x :: xs).sum := by
    rw [List.map_map]
    exact congrArg List.sum (List.map_id (x :: xs))
  have hsquares : (((x :: xs).map Estimate.ofNumber).map (·.uncertainty ^ 2)).sum = 0 := by
    refine List.sum_eq_zero (List.forall_mem_map.mpr (List.forall_mem_map.mpr fun y _ => ?_))
    simp [Estimate.ofNumber]
  cases a with
  | mean =>
      refine ⟨_, rfl, ?_, ?_⟩
      · rw [hnominals, List.length_map]
        rfl
      · rw [hsquares]
        simp [Estimate.ofNumber]
  | sum =>
      refine ⟨_, rfl, ?_, ?_⟩
      · rw [hnominals]
        rfl
      · rw [hsquares]
        simp [Estimate.ofNumber]
  | least =>
      obtain ⟨hmem, hle⟩ := extreme_least id x xs
      exact ⟨_, rfl, List.mem_map_of_mem hmem, List.forall_mem_map.mpr hle⟩
  | greatest =>
      obtain ⟨hmem, hle⟩ := extreme_greatest id x xs
      exact ⟨_, rfl, List.mem_map_of_mem hmem, List.forall_mem_map.mpr hle⟩

/-- Numeric values are quantities with the same numbers. -/
theorem exists_quantities {values : List (Value ℝ)} (numeric : ∀ v ∈ values, v.isNumeric = true) :
    ∃ qs, values.mapM Value.quantity = .ok qs ∧ qs.map Estimate.ofQuantity = values.filterMap Value.estimate? := by
  induction values with
  | nil => exact ⟨[], rfl, rfl⟩
  | cons v values ih =>
      obtain ⟨hv, hrest⟩ := List.forall_mem_cons.mp numeric
      obtain ⟨qs, hqs, hestimates⟩ := ih hrest
      obtain ⟨q, hq, hestimate⟩ : ∃ q, v.quantity = .ok q ∧ v.estimate? = some (.ofQuantity q) := by
        cases v with
        | number x =>
            obtain ⟨q, hq, rfl, huncertainty⟩ := Quantity.exists_make x Scalar.zero_real.ge none
            exact ⟨q, hq, by rw [Value.estimate?, Estimate.ofNumber, Estimate.ofQuantity, huncertainty]⟩
        | uncertain q source => exact ⟨q, rfl, rfl⟩
        | text _ | circuit _ | raw _ => cases hv
      refine ⟨q :: qs, ?_, ?_⟩
      · rw [List.mapM_cons, hq, hqs]
        rfl
      · rw [List.map_cons, hestimates, List.filterMap_cons_some hestimate]

theorem exists_of_mapM_number {values : List (Value ℝ)} (h : values.mapM Value.number? = none) :
    ∃ v ∈ values, v.number? = none := by
  induction values with
  | nil => cases h
  | cons v values ih =>
      cases hv : v.number? with
      | none => exact ⟨v, List.mem_cons_self, hv⟩
      | some x =>
          cases hrest : values.mapM Value.number? with
          | none =>
              obtain ⟨w, hw, hnone⟩ := ih hrest
              exact ⟨w, List.mem_cons_of_mem v hw, hnone⟩
          | some xs =>
              rw [List.mapM_cons, hv, hrest] at h
              cases h

/-- Numeric values are combined to a numeric value, which is a plain number exactly if all of them are. -/
theorem exists_ofValues (a : Aggregation) {values : List (Value ℝ)} (nonempty : values ≠ [])
    (numeric : ∀ v ∈ values, v.isNumeric = true) :
    ∃ v e, a.ofValues values = .ok v ∧ v.estimate? = some e ∧ Combines (values.filterMap Value.estimate?) a e ∧
      (v.number?.isSome = true ↔ ∀ w ∈ values, w.number?.isSome = true) := by
  unfold ofValues
  cases hnumbers : values.mapM Value.number? with
  | some xs =>
      obtain rfl := Expression.eq_map_number hnumbers
      cases xs with
      | nil => exact absurd rfl nonempty
      | cons x xs =>
          obtain ⟨y, hy, hcombines⟩ := exists_ofNumbers a x xs
          refine ⟨.number y, .ofNumber y, ?_, rfl, ?_, ?_⟩
          · show (a.ofNumbers x xs).map Value.number = _
            rw [hy]
            rfl
          · have hestimates : ((x :: xs).map Value.number).filterMap Value.estimate? =
                (x :: xs).map Estimate.ofNumber := by
              rw [List.filterMap_map]
              exact congrFun List.filterMap_eq_map _
            rwa [hestimates]
          · exact iff_of_true rfl (List.forall_mem_map.mpr fun _ _ => rfl)
  | none =>
      obtain ⟨qs, hqs, hestimates⟩ := exists_quantities numeric
      cases qs with
      | nil => exact absurd (List.length_eq_zero_iff.mp (ok_of_mapM hqs).1.symm) nonempty
      | cons q qs =>
          obtain ⟨t, ht, hcombines⟩ := exists_ofQuantities a q qs
          obtain ⟨w, hw, hother⟩ := exists_of_mapM_number hnumbers
          refine ⟨.uncertain t none, .ofQuantity t, ?_, rfl, hestimates ▸ hcombines, ?_⟩
          · rw [hqs]
            show (a.ofQuantities q qs).map (Value.uncertain · none) = _
            rw [ht]
            rfl
          · refine iff_of_false Bool.false_ne_true fun hall => ?_
            have hsome := hall w hw
            rw [hother] at hsome
            cases hsome

/-! ### The four combinations -/

/-- The estimates of the four combinations fit together. -/
structure AreCoherent (es : List (Estimate ℝ)) (mean sum least greatest : Estimate ℝ) : Prop where
  least_mem : least ∈ es
  greatest_mem : greatest ∈ es
  least_le_mean : least.nominal ≤ mean.nominal
  mean_le_greatest : mean.nominal ≤ greatest.nominal
  sum_eq_mul_mean : sum.nominal = es.length * mean.nominal
  sum_eq_total : sum.nominal = (es.map (·.nominal)).sum
  sum_square : sum.uncertainty ^ 2 = (es.map (·.uncertainty ^ 2)).sum
  mean_uncertainty : mean.uncertainty = sum.uncertainty / es.length

theorem Combines.coherent {es : List (Estimate ℝ)} (nonempty : es ≠ []) {m s l g : Estimate ℝ} (hm : Combines es mean m)
    (hs : Combines es sum s) (hl : Combines es least l) (hg : Combines es greatest g) : AreCoherent es m s l g := by
  obtain ⟨hnominal, huncertainty⟩ := hm
  have hlength : (0 : ℝ) < es.length := by exact_mod_cast List.length_pos_iff.mpr nonempty
  have hnonneg : 0 ≤ (es.map (·.uncertainty ^ 2)).sum :=
    List.sum_nonneg (List.forall_mem_map.mpr fun e _ => sq_nonneg e.uncertainty)
  refine ⟨hl.1, hg.1, ?_, ?_, ?_, hs.1, ?_, ?_⟩
  · have hle := List.card_nsmul_le_sum (es.map (·.nominal)) l.nominal (List.forall_mem_map.mpr hl.2)
    rw [hnominal, le_div_iff₀ hlength]
    rw [List.length_map, nsmul_eq_mul] at hle
    linarith
  · have hle := List.sum_le_card_nsmul (es.map (·.nominal)) g.nominal (List.forall_mem_map.mpr hg.2)
    rw [hnominal, div_le_iff₀ hlength]
    rw [List.length_map, nsmul_eq_mul] at hle
    linarith
  · rw [hs.1, hnominal, mul_div_cancel₀ _ hlength.ne']
  · rw [hs.2, Real.sq_sqrt hnonneg]
  · rw [huncertainty, hs.2]

/-- **Combined outcomes fit together.**  Of every table of outcomes with at least one numeric branch, over the real numbers,
the mean, the sum, the least and the greatest exist.  They are plain numbers exactly if all numeric branches are.  The least
and the greatest have the nominal value and the uncertainty of one of the numeric branches, and the mean lies between them;
the sum of the nominal values is as many times the mean as there are numeric branches; the uncertainty of the sum combines
those of the branches in quadrature, and the mean has its share of it (both are zero for plain numbers).  Other tables with
the same numeric branches give the same results, whichever branches have failed or have other values there. -/
theorem aggregates_coherent (outcomes : Table (Outcome ℝ)) (nonempty : estimates outcomes ≠ []) :
    (∃ mean sum least greatest : Value ℝ,
      (aggregate outcomes "mean" = .ok mean ∧ aggregate outcomes "sum" = .ok sum ∧
        aggregate outcomes "min" = .ok least ∧ aggregate outcomes "max" = .ok greatest) ∧
      (∀ v ∈ [mean, sum, least, greatest], v.number?.isSome = true ↔
        ∀ slot ∈ outcomes, slot.2.estimate?.isSome = true → slot.2.number?.isSome = true) ∧
      ∃ m s l g : Estimate ℝ, (mean.estimate? = some m ∧ sum.estimate? = some s ∧ least.estimate? = some l ∧
        greatest.estimate? = some g) ∧ AreCoherent (estimates outcomes) m s l g) ∧
    ∀ others : Table (Outcome ℝ),
      others.filter (·.2.estimate?.isSome) = outcomes.filter (·.2.estimate?.isSome) →
      ∀ how, aggregate others how = aggregate outcomes how := by
  have numeric_values : ∀ v ∈ numeric outcomes, v.isNumeric = true := fun v hv => (List.mem_filter.mp hv).2
  have hne : numeric outcomes ≠ [] := by
    intro hnil
    rw [estimates_eq, hnil] at nonempty
    exact nonempty rfl
  refine ⟨?_, fun others hsame how => ?_⟩
  · obtain ⟨vm, m, hm, hm', combinesMean, numberMean⟩ := exists_ofValues mean hne numeric_values
    obtain ⟨vs, s, hs, hs', combinesSum, numberSum⟩ := exists_ofValues sum hne numeric_values
    obtain ⟨vl, l, hl, hl', combinesLeast, numberLeast⟩ := exists_ofValues least hne numeric_values
    obtain ⟨vg, g, hg, hg', combinesGreatest, numberGreatest⟩ := exists_ofValues greatest hne numeric_values
    rw [← estimates_eq] at combinesMean combinesSum combinesLeast combinesGreatest
    rw [forall_number_iff] at numberMean numberSum numberLeast numberGreatest
    refine ⟨vm, vs, vl, vg, ⟨hm, hs, hl, hg⟩, ?_, m, s, l, g, ⟨hm', hs', hl', hg'⟩,
      combinesMean.coherent nonempty combinesSum combinesLeast combinesGreatest⟩
    simp only [List.forall_mem_cons]
    exact ⟨numberMean, numberSum, numberLeast, numberGreatest, by simp⟩
  · have hvalues : numeric others = numeric outcomes := by rw [← numeric_filter others, hsame, numeric_filter]
    unfold aggregate apply
    rw [hvalues]

/-- A number and two quantities, among them a failure and a text; the number is as great as one of the nominal values. -/
theorem aggregates_coherent_mixed :
    ∃ (a b : Quantity ℝ) (outcomes : Table (Outcome ℝ)),
      (a.nominal = 1 ∧ a.uncertainty = 3) ∧ (b.nominal = 4 ∧ b.uncertainty = 4) ∧
      outcomes = [("A", .value (.number 4)), ("B", .failed ⟨"NumericError", "Division by zero", .int 3⟩),
        ("C", .value (.uncertain a none)), ("D", .value (.text "x")), ("E", .value (.uncertain b none))] ∧
      estimates outcomes ≠ [] ∧
      ∃ (mean sum : Value ℝ) (m s : Estimate ℝ), aggregate outcomes "mean" = .ok mean ∧ mean.estimate? = some m ∧
        aggregate outcomes "sum" = .ok sum ∧ sum.estimate? = some s ∧ sum.number?.isSome = false ∧
        s.nominal = 9 ∧ s.uncertainty ^ 2 = 5 ^ 2 ∧ s.nominal = 3 * m.nominal ∧ m.uncertainty = s.uncertainty / 3 := by
  obtain ⟨a, -, ha, hua⟩ := Quantity.exists_make 1 (by norm_num : (0 : ℝ) ≤ 3) none
  obtain ⟨b, -, hb, hub⟩ := Quantity.exists_make 4 (by norm_num : (0 : ℝ) ≤ 4) none
  obtain ⟨outcomes, houtcomes⟩ : ∃ outcomes : Table (Outcome ℝ), outcomes =
      [("A", .value (.number 4)), ("B", .failed ⟨"NumericError", "Division by zero", .int 3⟩),
        ("C", .value (.uncertain a none)), ("D", .value (.text "x")), ("E", .value (.uncertain b none))] := ⟨_, rfl⟩
  have hestimates : estimates outcomes = [.ofNumber 4, .ofQuantity a, .ofQuantity b] := by
    rw [houtcomes]
    rfl
  have nonempty : estimates outcomes ≠ [] := by simp [hestimates]
  obtain ⟨⟨mean, sum, least, greatest, ⟨hmean, hsum, -, -⟩, hnumber, m, s, l, g, ⟨hm, hs, -, -⟩, coherent⟩, -⟩ :=
    aggregates_coherent outcomes nonempty
  refine ⟨a, b, outcomes, ⟨ha, hua⟩, ⟨hb, hub⟩, houtcomes, nonempty, mean, sum, m, s, hmean, hm, hsum, hs, ?_, ?_, ?_, ?_,
    ?_⟩
  · rw [Bool.eq_false_iff]
    intro hall
    have hother := (hnumber sum (by simp)).mp hall ("C", .value (.uncertain a none)) (by simp [houtcomes]) rfl
    cases hother
  · rw [coherent.sum_eq_total, hestimates]
    simp [Estimate.ofNumber, Estimate.ofQuantity, ha, hb]
    norm_num
  · rw [coherent.sum_square, hestimates]
    simp [Estimate.ofNumber, Estimate.ofQuantity, hua, hub]
    norm_num
  · rw [coherent.sum_eq_mul_mean, hestimates]
    norm_num
  · rw [coherent.mean_uncertainty, hestimates]
    norm_num

end Aggregation

end LabLang
