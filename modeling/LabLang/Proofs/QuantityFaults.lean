import LabLang.Parallel.Aggregate
import LabLang.Proofs.Doubles
import LabLang.Proofs.SummationFaults

/-! # How calculations with quantities fail

Calculations with uncertain quantities are meant to fail in one way only: an operation is undefined for its operands
(`Cause.IsNumeric`).  Beside that they fail where one of their sums has no value.  They sum up nominal values, which are
finite, and squares; over doubles such a sum fails by overflow only.  So calculations with quantities, and the combinations
of the outcomes of branches, give a value or a numeric failure unless one of their sums overflows
(`calculations_fail_by_overflow`). -/

namespace LabLang

variable {R : Type} [Scalar R] {α : Type}

/-! ### Calculations -/

/-- A calculation with quantities. -/
inductive Calculation (R : Type) [Scalar R]
  | add (a b : Quantity R)
  | subtract (a b : Quantity R)
  | multiply (a b : Quantity R)
  | divide (a b : Quantity R)
  | scale (q : Quantity R) (factor : R)
  | mean (qs : List (Quantity R))

namespace Calculation

/-- Carries out the calculation. -/
def result : Calculation R → Except (Cause R) (Quantity R)
  | add a b => a.add b
  | subtract a b => a.subtract b
  | multiply a b => a.multiply b
  | divide a b => a.divide b
  | scale q factor => q.scale factor
  | mean qs => Quantity.mean qs

/-- The terms that a calculation sums: the squares of two uncertainties, absolute or relative ones, or the nominal values
of several quantities and then the squares of their uncertainties. -/
inductive Sums : Calculation R → List R → Prop
  | add (a b : Quantity R) : Sums (.add a b) [a.uncertainty * a.uncertainty, b.uncertainty * b.uncertainty]
  | subtract (a b : Quantity R) : Sums (.subtract a b) [a.uncertainty * a.uncertainty, b.uncertainty * b.uncertainty]
  | multiply {a b : Quantity R} {ra rb : R} (ratio : a.relative = .ok ra) (ratio' : b.relative = .ok rb) :
      Sums (.multiply a b) [ra * ra, rb * rb]
  | divide {a b : Quantity R} {ra rb : R} (ratio : a.relative = .ok ra) (ratio' : b.relative = .ok rb) :
      Sums (.divide a b) [ra * ra, rb * rb]
  | nominals {qs : List (Quantity R)} (nonempty : qs ≠ []) : Sums (.mean qs) (qs.map (·.nominal))
  | squares {qs : List (Quantity R)} {x : R} (nonempty : qs ≠ []) (nominal : Quantity.total (qs.map (·.nominal)) = .ok x) :
      Sums (.mean qs) (qs.map fun q => q.uncertainty * q.uncertainty)

theorem failsBySum_result (c : Calculation R) : FailsBySum Cause.IsNumeric c.Sums c.result := by
  cases c with
  | add a b =>
      refine (Quantity.failsBySum_combineAbsolute ..).congr fun terms => ⟨fun h => ?_, ?_⟩
      · cases h
        rfl
      · rintro rfl
        exact .add a b
  | subtract a b =>
      refine (Quantity.failsBySum_combineAbsolute ..).congr fun terms => ⟨fun h => ?_, ?_⟩
      · cases h
        rfl
      · rintro rfl
        exact .subtract a b
  | multiply a b =>
      refine (Quantity.failsBySum_combineRelative ..).congr fun terms => ⟨fun h => ?_, ?_⟩
      · cases h with
        | multiply ratio ratio' => exact ⟨_, _, ratio, ratio', rfl⟩
      · rintro ⟨ra, rb, ratio, ratio', rfl⟩
        exact .multiply ratio ratio'
  | divide a b =>
      refine (Quantity.failsBySum_divide a b).congr fun terms => ⟨fun h => ?_, ?_⟩
      · cases h with
        | divide ratio ratio' => exact ⟨_, _, ratio, ratio', rfl⟩
      · rintro ⟨ra, rb, ratio, ratio', rfl⟩
        exact .divide ratio ratio'
  | scale q factor =>
      refine (Quantity.failsBySum_make ..).congr fun terms => ⟨fun h => ?_, False.elim⟩
      cases h
  | mean qs =>
      refine (Quantity.failsBySum_mean qs).congr fun terms => ⟨fun h => ?_, ?_⟩
      · cases h with
        | nominals nonempty => exact ⟨nonempty, .inl rfl⟩
        | squares nonempty nominal => exact ⟨nonempty, .inr ⟨_, nominal, rfl⟩⟩
      · rintro ⟨nonempty, rfl | ⟨x, nominal, rfl⟩⟩
        · exact .nominals nonempty
        · exact .squares nonempty nominal

end Calculation

/-! ### Combinations of outcomes -/

namespace Aggregation

/-- The terms that are summed while quantities are added up, each to the sum of those before it. -/
inductive AddAllSums : Quantity R → List (Quantity R) → List R → Prop
  | head {a b : Quantity R} {rest : List (Quantity R)} {terms : List R} (sums : (Calculation.add a b).Sums terms) :
      AddAllSums a (b :: rest) terms
  | tail {a b sum : Quantity R} {rest : List (Quantity R)} {terms : List R} (added : a.add b = .ok sum)
      (sums : AddAllSums sum rest terms) : AddAllSums a (b :: rest) terms

/-- The terms that a combination of values sums: plain numbers, or what a mean of quantities or their addition sums. -/
inductive Sums (values : List (Value R)) : Aggregation → List R → Prop
  | numbers {a : Aggregation} {xs : List R} (summed : a = mean ∨ a = sum) (nonempty : xs ≠ [])
      (numbers : values.mapM Value.number? = some xs) : Sums values a xs
  | mean {qs : List (Quantity R)} {terms : List R} (uncertain : values.mapM Value.number? = none)
      (quantities : values.mapM Value.quantity = .ok qs) (sums : (Calculation.mean qs).Sums terms) :
      Sums values mean terms
  | added {q : Quantity R} {qs : List (Quantity R)} {terms : List R} (uncertain : values.mapM Value.number? = none)
      (quantities : values.mapM Value.quantity = .ok (q :: qs)) (sums : AddAllSums q qs terms) : Sums values sum terms

theorem failsBySum_addAll (q : Quantity R) (qs : List (Quantity R)) :
    FailsBySum Cause.IsNumeric (AddAllSums q qs) (addAll q qs) := by
  induction qs generalizing q with
  | nil => exact (failsBySum_ok q).congr fun terms => ⟨fun h => (by cases h), False.elim⟩
  | cons b rest ih =>
      unfold addAll
      rw [List.foldlM_cons]
      refine ((Calculation.add q b).failsBySum_result.bind _ fun sum _ => ih sum).congr fun terms => ⟨fun h => ?_, ?_⟩
      · cases h with
        | head sums => exact .inl sums
        | tail added sums => exact .inr ⟨_, added, sums⟩
      · rintro (sums | ⟨sum, added, sums⟩)
        · exact .head sums
        · exact .tail added sums

theorem failsBySum_ofNumbers (a : Aggregation) (x : R) (xs : List R) :
    FailsBySum Cause.IsNumeric (fun terms => (a = mean ∨ a = sum) ∧ terms = x :: xs) (a.ofNumbers x xs) := by
  cases a with
  | mean => exact ((Quantity.failsBySum_total _).map _).congr fun terms => by simp
  | sum => exact (Quantity.failsBySum_total _).congr fun terms => by simp
  | least | greatest => exact (failsBySum_ok _).congr fun terms => by simp

theorem failsBySum_ofQuantities (a : Aggregation) (q : Quantity R) (qs : List (Quantity R)) :
    FailsBySum Cause.IsNumeric
      (fun terms => (a = mean ∧ (Calculation.mean (q :: qs)).Sums terms) ∨ (a = sum ∧ AddAllSums q qs terms))
      (a.ofQuantities q qs) := by
  cases a with
  | mean => exact (Calculation.mean (q :: qs)).failsBySum_result.congr fun terms => by simp
  | sum => exact (failsBySum_addAll q qs).congr fun terms => by simp
  | least | greatest => exact (failsBySum_ok _).congr fun terms => by simp

theorem failsBySum_ofValues (a : Aggregation) {values : List (Value R)}
    (numeric : ∀ v ∈ values, v.isNumeric = true) : FailsBySum Cause.IsNumeric (Sums values a) (a.ofValues values) := by
  unfold ofValues
  cases hnumbers : values.mapM Value.number? with
  | some xs =>
      -- all values are plain numbers, and nothing but these is ever summed
      have hsums {terms : List R} : Sums values a terms ↔ ((a = mean ∨ a = sum) ∧ xs ≠ []) ∧ terms = xs := by
        constructor
        · intro h
          cases h with
          | numbers summed nonempty numbers =>
              obtain rfl := Option.some.inj (numbers.symm.trans hnumbers)
              exact ⟨⟨summed, nonempty⟩, rfl⟩
          | mean uncertain _ _ | added uncertain _ _ => rw [hnumbers] at uncertain; cases uncertain
        · rintro ⟨⟨summed, nonempty⟩, rfl⟩
          exact .numbers summed nonempty hnumbers
      cases xs with
      | nil => exact (failsBySum_numeric _).congr fun terms => by simp [hsums]
      | cons x xs => exact ((failsBySum_ofNumbers a x xs).map _).congr fun terms => by simp [hsums]
  | none =>
      refine ((failsBySum_mapM fun v hv => Expression.failsBySum_quantity (numeric v hv)).bind
        (fun qs terms => (a = mean ∧ (Calculation.mean qs).Sums terms) ∨
          ∃ q rest, qs = q :: rest ∧ a = sum ∧ AddAllSums q rest terms) fun qs _ => ?_).congr fun terms => ⟨fun h => ?_, ?_⟩
      · cases qs with
        | nil =>
            -- no values at all would have counted as plain numbers
            refine (failsBySum_numeric _).congr fun terms => ⟨?_, False.elim⟩
            rintro (⟨-, sums⟩ | ⟨q, rest, hqs, -⟩)
            · cases sums with
              | nominals nonempty | squares nonempty _ => exact nonempty rfl
            · cases hqs
        | cons q qs => exact ((failsBySum_ofQuantities a q qs).map _).congr fun terms => by simp
      · refine .inr ?_
        cases h with
        | numbers summed nonempty numbers => rw [hnumbers] at numbers; cases numbers
        | mean uncertain quantities sums => exact ⟨_, quantities, .inl ⟨rfl, sums⟩⟩
        | added uncertain quantities sums => exact ⟨_, quantities, .inr ⟨_, _, rfl, rfl, sums⟩⟩
      · rintro (h | ⟨qs, quantities, ⟨rfl, sums⟩ | ⟨q, rest, rfl, rfl, sums⟩⟩)
        · exact h.elim
        · exact .mean hnumbers quantities sums
        · exact .added hnumbers quantities sums

end Aggregation

theorem Aggregation.exists_ofName? {how : String} (h : how ∈ aggregationNames) :
    ∃ a, Aggregation.ofName? how = some a := by
  simp only [aggregationNames, List.mem_cons, List.not_mem_nil, or_false] at h
  rcases h with rfl | rfl | rfl | rfl
  · exact ⟨.mean, by decide⟩
  · exact ⟨.sum, by decide⟩
  · exact ⟨.least, by decide⟩
  · exact ⟨.greatest, by decide⟩

theorem Aggregation.isNumeric_of_mem_numeric {outcomes : Table (Outcome R)} {v : Value R} (h : v ∈ numeric outcomes) :
    v.isNumeric = true ∧ ∃ label, (label, Outcome.value v) ∈ outcomes := by
  unfold numeric at h
  obtain ⟨h, hnumeric⟩ := List.mem_filter.mp h
  obtain ⟨⟨label, o⟩, hmem, hvalue⟩ := List.mem_filterMap.mp h
  cases o with
  | failed report => cases hvalue
  | value w =>
      cases hvalue
      exact ⟨hnumeric, label, hmem⟩

/-! ### Calculations with doubles -/

open Number (Binary)

/-- Nominal values are finite, and the other terms are squares. -/
theorem Calculation.Sums.ofFloat_ne {c : Calculation Float} {terms : List Float} (h : c.Sums terms) :
    ∀ t ∈ terms, Binary.ofFloat t ≠ .infinity true := by
  have pair (x y : Float) : ∀ t ∈ [x * x, y * y], Binary.ofFloat t ≠ .infinity true := by
    intro t ht
    rcases List.mem_pair.mp ht with rfl | rfl
    · exact Machine.ofFloat_mul_self x
    · exact Machine.ofFloat_mul_self y
  cases h with
  | add a b | subtract a b | multiply ratio ratio' | divide ratio ratio' => exact pair _ _
  | nominals nonempty =>
      intro t ht
      obtain ⟨q, -, rfl⟩ := List.mem_map.mp ht
      obtain ⟨s, m, e, hfinite⟩ := Machine.ofFloat_of_isFinite (Bool.and_eq_true_iff.mp q.finite).1
      rw [hfinite]
      simp
  | squares nonempty nominal =>
      intro t ht
      obtain ⟨q, -, rfl⟩ := List.mem_map.mp ht
      exact Machine.ofFloat_mul_self q.uncertainty

theorem Aggregation.AddAllSums.ofFloat_ne {q : Quantity Float} {qs : List (Quantity Float)} {terms : List Float}
    (h : AddAllSums q qs terms) : ∀ t ∈ terms, Binary.ofFloat t ≠ .infinity true := by
  induction h with
  | head sums => exact sums.ofFloat_ne
  | tail _ _ ih => exact ih

theorem Aggregation.Sums.ofFloat_ne {a : Aggregation} {values : List (Value Float)}
    (finite : ∀ x, Value.number x ∈ values → x.isFinite = true) {terms : List Float} (h : Sums values a terms) :
    ∀ t ∈ terms, Binary.ofFloat t ≠ .infinity true := by
  cases h with
  | numbers summed nonempty numbers =>
      intro t ht
      have hmem : Value.number t ∈ values := Expression.eq_map_number numbers ▸ List.mem_map_of_mem ht
      obtain ⟨s, m, e, hfinite⟩ := Machine.ofFloat_of_isFinite (finite t hmem)
      rw [hfinite]
      simp
  | mean uncertain quantities sums => exact sums.ofFloat_ne
  | added uncertain quantities sums => exact sums.ofFloat_ne

/-- There is a value, or an operation is undefined for its operands, or a sum overflows and this escapes as it is; the
last is the case exactly if one of the given sums overflows. -/
structure FailsByOverflow (sums : List Float → Prop) (x : Except (Cause Float) α) : Prop where
  outcome : (∃ a, x = .ok a) ∨ (∃ fault, x = .error (.numeric fault)) ∨ x = .error (.internal (.sum .overflow))
  overflow : x = .error (.internal (.sum .overflow)) ↔ ∃ terms, sums terms ∧ Scalar.sum terms = .error .overflow

theorem FailsBySum.byOverflow {sums : List Float → Prop} {x : Except (Cause Float) α}
    (h : FailsBySum Cause.IsNumeric sums x)
    (ne : ∀ terms, sums terms → ∀ t ∈ terms, Binary.ofFloat t ≠ .infinity true) : FailsByOverflow sums x := by
  -- any other failure is a sum that has no value, and such a sum overflows
  have fault (cause : Cause Float) (hx : x = .error cause) : cause.IsNumeric ∨
      cause = .internal (.sum .overflow) ∧ ∃ terms, sums terms ∧ Scalar.sum terms = .error .overflow := by
    refine (h.fault cause hx).imp id fun ⟨terms, fault, hsums, hfault, hcause⟩ => ?_
    obtain rfl := Machine.sum_eq_overflow (ne terms hsums) hfault
    exact ⟨hcause, terms, hsums, hfault⟩
  refine ⟨?_, fun hx => ?_, fun ⟨terms, hsums, hfault⟩ => h.escapes terms _ hsums hfault⟩
  · cases hx : x with
    | ok a => exact .inl ⟨a, rfl⟩
    | error cause =>
        rcases fault cause hx with ⟨⟨fault⟩⟩ | ⟨rfl, -⟩
        · exact .inr (.inl ⟨fault, rfl⟩)
        · exact .inr (.inr rfl)
  · rcases fault _ hx with hnumeric | ⟨-, hsum⟩
    · cases hnumeric
    · exact hsum

/-- **Calculations with quantities fail numerically, except for sums that overflow.**  Whatever the operands and the
factor, a calculation with doubles gives a quantity of two finite numbers, the second one not below zero, or an operation
is undefined for its operands, or one of the sums that it computes overflows; in the last case, and in no other, the
overflow escapes as it is.  The same holds for every combination of the outcomes of branches under a known name if the
plain numbers among them are finite. -/
theorem calculations_fail_by_overflow (c : Calculation Float) (outcomes : Table (Outcome Float)) (how : String) :
    (FailsByOverflow c.Sums c.result ∧
      ∀ q, c.result = .ok q → q.nominal.isFinite = true ∧ q.uncertainty.isFinite = true ∧
        Scalar.le Scalar.zero q.uncertainty = true) ∧
    (how ∈ aggregationNames → (∀ label x, (label, Outcome.value (.number x)) ∈ outcomes → x.isFinite = true) →
      ∃ a, Aggregation.ofName? how = some a ∧
        FailsByOverflow (Aggregation.Sums (Aggregation.numeric outcomes) a) (aggregate outcomes how) ∧
        ∀ q source, aggregate outcomes how = .ok (.uncertain q source) → q.nominal.isFinite = true ∧
          q.uncertainty.isFinite = true ∧ Scalar.le Scalar.zero q.uncertainty = true) := by
  have proper (q : Quantity Float) : q.nominal.isFinite = true ∧ q.uncertainty.isFinite = true ∧
      Scalar.le Scalar.zero q.uncertainty = true := by
    obtain ⟨nominal, uncertainty⟩ := Bool.and_eq_true_iff.mp q.finite
    exact ⟨nominal, uncertainty, Machine.le_of_not_lt uncertainty q.nonnegative⟩
  refine ⟨⟨?_, fun q _ => proper q⟩, fun known finite => ?_⟩
  · exact c.failsBySum_result.byOverflow fun terms hsums => hsums.ofFloat_ne
  · obtain ⟨a, ha⟩ := Aggregation.exists_ofName? known
    have numeric : ∀ v ∈ Aggregation.numeric outcomes, v.isNumeric = true := fun v hv =>
      (Aggregation.isNumeric_of_mem_numeric hv).1
    have finite_numeric : ∀ x, Value.number x ∈ Aggregation.numeric outcomes → x.isFinite = true := by
      intro x hx
      obtain ⟨-, label, hmem⟩ := Aggregation.isNumeric_of_mem_numeric hx
      exact finite label x hmem
    refine ⟨a, ha, ?_, fun q source _ => proper q⟩
    unfold aggregate
    rw [ha]
    exact (a.failsBySum_ofValues numeric).byOverflow fun terms hsums => hsums.ofFloat_ne finite_numeric

/-- Two quantities whose squared uncertainties can be represented while the sum of the squares cannot, and the mean of two
large numbers. -/
theorem calculations_fail_by_overflow_at_limit :
    ∃ (a b : Quantity Float) (outcomes : Table (Outcome Float)),
      (a.nominal = Scalar.decimal 1 154 ∧ a.uncertainty = Scalar.decimal 12 153 ∧ b = a) ∧
      outcomes = [("A", .value (.number (Scalar.decimal 1 308))), ("B", .value (.number (Scalar.decimal 1 308)))] ∧
      (Calculation.add a b).result = .error (.internal (.sum .overflow)) ∧ "mean" ∈ aggregationNames ∧
      (∀ label x, (label, Outcome.value (.number x)) ∈ outcomes → x.isFinite = true) ∧
      aggregate outcomes "mean" = .error (.internal (.sum .overflow)) := by
  have limits : (Scalar.isFinite (Scalar.decimal 1 154 : Float) && Scalar.isFinite (Scalar.decimal 12 153 : Float)) =
      true := by decide +kernel
  have nonnegative : Scalar.lt (Scalar.decimal 12 153 : Float) Scalar.zero = false := by decide +kernel
  have squares : Scalar.sum [(Scalar.decimal 12 153 : Float) * Scalar.decimal 12 153,
      Scalar.decimal 12 153 * Scalar.decimal 12 153] = .error .overflow := by decide +kernel
  obtain ⟨large, hlarge⟩ : ∃ x : Float, x = Scalar.decimal 1 308 := ⟨_, rfl⟩
  have hfinite : large.isFinite = true := by
    rw [hlarge]
    decide +kernel
  have numbers : Scalar.sum [large, large] = .error .overflow := by
    rw [hlarge]
    decide +kernel
  have finite : ∀ label x, (label, Outcome.value (.number x)) ∈
      ([("A", .value (.number large)), ("B", .value (.number large))] : Table (Outcome Float)) → x.isFinite = true := by
    intro label x hmem
    rcases List.mem_pair.mp hmem with h | h
    · cases h
      exact hfinite
    · cases h
      exact hfinite
  rw [← hlarge]
  obtain ⟨q, hnominal, huncertainty⟩ : ∃ q : Quantity Float,
      q.nominal = Scalar.decimal 1 154 ∧ q.uncertainty = Scalar.decimal 12 153 :=
    ⟨⟨Scalar.decimal 1 154, Scalar.decimal 12 153, none, limits, nonnegative⟩, rfl, rfl⟩
  rw [← huncertainty] at squares
  obtain ⟨⟨calculation, -⟩, combination⟩ := calculations_fail_by_overflow (.add q q)
    [("A", .value (.number large)), ("B", .value (.number large))] "mean"
  obtain ⟨a, ha, combined, -⟩ := combination (by decide) finite
  cases ha
  exact ⟨q, q, _, ⟨hnominal, huncertainty, rfl⟩, rfl, calculation.overflow.mpr ⟨_, .add _ _, squares⟩, by decide,
    finite, combined.overflow.mpr ⟨_, .numbers (.inl rfl) (List.cons_ne_nil _ _) rfl, numbers⟩⟩

end LabLang
