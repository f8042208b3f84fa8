import LabLang.Proofs.Schedules
import Mathlib.Tactic.SplitIfs

/-! # How expressions fail

Evaluation is meant to fail in two ways only: a name is not defined, or an operation is undefined for its operands
(`Cause.IsMeant`).  There is one more: the sum of several terms may have no value, and this fault escapes as it is.
`FailsBySum sums x` says that `x` has this failure exactly if one of the sums that are computed on the way to it has no
value; it is kept by sequencing (`FailsBySum.bind`), so that every operation on quantities, every built-in function and
every expression comes with the sums that it computes (`Sums`). -/

namespace LabLang

open Text Expression

variable {R : Type} {α β : Type}

/-- The failures that expressions are meant to have: a name is not defined, or an operation is undefined for its
operands. -/
inductive Cause.IsMeant : Cause R → Prop
  | variableUse (name : String) : IsMeant (.undefined .variableUse name)
  | functionUse (name : String) : IsMeant (.undefined .functionUse name)
  | numeric (fault : NumericFault R) : IsMeant (.numeric fault)

/-- An operation is undefined for its operands. -/
inductive Cause.IsNumeric : Cause R → Prop
  | numeric (fault : NumericFault R) : IsNumeric (.numeric fault)

theorem Cause.IsNumeric.isMeant {cause : Cause R} (h : cause.IsNumeric) : cause.IsMeant := by
  cases h with
  | numeric fault => exact .numeric fault

/-! ### Failing by a sum -/

variable [Scalar R]

/-- Apart from the failures that are meant, `x` fails exactly if one of the given sums has no value. -/
structure FailsBySum (meant : Cause R → Prop) (sums : List R → Prop) (x : Except (Cause R) α) : Prop where
  fault : ∀ cause, x = .error cause → meant cause ∨
    ∃ terms fault, sums terms ∧ Scalar.sum terms = .error fault ∧ cause = .internal (.sum fault)
  escapes : ∀ terms fault, sums terms → Scalar.sum terms = .error fault → x = .error (.internal (.sum fault))

section combinators

variable {meant : Cause R → Prop} {sums : List R → Prop} {x : Except (Cause R) α}

/-- What computes no sum has the failures that are meant. -/
theorem failsBySum_of_meant (h : ∀ cause, x = .error cause → meant cause) : FailsBySum meant (fun _ => False) x :=
  ⟨fun cause hx => .inl (h cause hx), fun _ _ hsums _ => hsums.elim⟩

theorem failsBySum_ok (a : α) : FailsBySum meant (fun _ => False) (.ok a : Except (Cause R) α) :=
  failsBySum_of_meant fun _ h => by cases h

theorem failsBySum_numeric (fault : NumericFault R) :
    FailsBySum Cause.IsNumeric (fun _ => False) (.error (.numeric fault) : Except (Cause R) α) :=
  failsBySum_of_meant fun _ h => by cases h; exact .numeric fault

/-- More failures may be meant. -/
theorem FailsBySum.mono {meant' : Cause R → Prop} (h : FailsBySum meant sums x)
    (hle : ∀ {cause}, meant cause → meant' cause) : FailsBySum meant' sums x :=
  ⟨fun cause hx => (h.fault cause hx).imp hle id, h.escapes⟩

theorem FailsBySum.congr {sums' : List R → Prop} (h : FailsBySum meant sums x)
    (hsums : ∀ terms, sums' terms ↔ sums terms) : FailsBySum meant sums' x := by
  obtain rfl : sums' = sums := funext fun terms => propext (hsums terms)
  exact h

theorem FailsBySum.bind {f : α → Except (Cause R) β} (hx : FailsBySum meant sums x) (after : α → List R → Prop)
    (hf : ∀ a, x = .ok a → FailsBySum meant (after a) (f a)) :
    FailsBySum meant (fun terms => sums terms ∨ ∃ a, x = .ok a ∧ after a terms) (x >>= f) := by
  cases x with
  | error cause =>
      refine ⟨fun cause' h => ?_, fun terms fault hsums hfault => ?_⟩
      · cases h
        exact (hx.fault cause rfl).imp id fun ⟨terms, fault, h⟩ => ⟨terms, fault, .inl h.1, h.2⟩
      · rcases hsums with hsums | ⟨a, ha, -⟩
        · cases hx.escapes terms fault hsums hfault
          rfl
        · cases ha
  | ok a =>
      refine ⟨fun cause h => ?_, fun terms fault hsums hfault => ?_⟩
      · exact ((hf a rfl).fault cause h).imp id fun ⟨terms, fault, h⟩ => ⟨terms, fault, .inr ⟨a, rfl, h.1⟩, h.2⟩
      · rcases hsums with hsums | ⟨a', ha', hsums⟩
        · cases hx.escapes terms fault hsums hfault
        · cases ha'
          exact (hf a rfl).escapes terms fault hsums hfault

/-- The last step computes no sum. -/
theorem FailsBySum.bind_meant {f : α → Except (Cause R) β} (hx : FailsBySum meant sums x)
    (hf : ∀ a, FailsBySum meant (fun _ => False) (f a)) : FailsBySum meant sums (x >>= f) :=
  (hx.bind _ fun a _ => hf a).congr fun terms => by simp

theorem FailsBySum.map (h : FailsBySum meant sums x) (g : α → β) : FailsBySum meant sums (x.map g) := by
  have hbind : x.map g = x >>= fun a => .ok (g a) := by cases x <;> rfl
  rw [hbind]
  exact h.bind_meant fun a => failsBySum_ok (g a)

theorem failsBySum_mapM {f : α → Except (Cause R) β} {xs : List α}
    (h : ∀ x ∈ xs, FailsBySum meant (fun _ => False) (f x)) : FailsBySum meant (fun _ => False) (xs.mapM f) := by
  induction xs with
  | nil => exact failsBySum_ok []
  | cons x xs ih =>
      rw [List.forall_mem_cons] at h
      rw [List.mapM_cons]
      exact h.1.bind_meant fun y => (ih h.2).bind_meant fun ys => failsBySum_ok (y :: ys)

end combinators

/-! ### Quantities -/

namespace Quantity

theorem failsBySum_make (nominal uncertainty : R) (derivation : Option (Derivation R)) :
    FailsBySum Cause.IsNumeric (fun _ => False) (make nominal uncertainty derivation) := by
  unfold make
  split
  · split
    · exact failsBySum_numeric _
    · exact failsBySum_ok _
  · exact failsBySum_numeric _

theorem failsBySum_total (terms : List R) : FailsBySum Cause.IsNumeric (fun summed => summed = terms) (total terms) := by
  unfold total
  cases h : Scalar.sum terms with
  | ok x =>
      refine ⟨fun cause hx => (nomatch hx), fun summed fault hs hf => ?_⟩
      rw [hs, h] at hf
      cases hf
  | error fault =>
      refine ⟨fun cause hx => ?_, fun summed fault' hs hf => ?_⟩
      · cases hx
        exact .inr ⟨terms, fault, rfl, h, rfl⟩
      · rw [hs, h] at hf
        cases hf
        rfl

theorem failsBySum_quadrature (terms : List R) :
    FailsBySum Cause.IsNumeric (fun summed => summed = terms.map fun t => t * t) (quadrature terms) :=
  (failsBySum_total _).bind_meant fun _ => failsBySum_ok _

theorem failsBySum_relative (q : Quantity R) : FailsBySum Cause.IsNumeric (fun _ => False) q.relative := by
  unfold relative
  split
  · exact failsBySum_numeric _
  · exact failsBySum_ok _

theorem failsBySum_combineAbsolute (operation : Operation) (nominal : R) (a b : Quantity R) :
    FailsBySum Cause.IsNumeric (fun summed => summed = [a.uncertainty * a.uncertainty, b.uncertainty * b.uncertainty])
      (combineAbsolute operation nominal a b) :=
  (failsBySum_quadrature [a.uncertainty, b.uncertainty]).bind_meant fun uncertainty =>
    failsBySum_make nominal uncertainty (some ⟨operation, [a.operand, b.operand]⟩)

theorem failsBySum_combineRelative (operation : Operation) (nominal : R) (a b : Quantity R) :
    FailsBySum Cause.IsNumeric (fun summed => ∃ ra rb, a.relative = .ok ra ∧ b.relative = .ok rb ∧ summed = [ra * ra, rb * rb])
      (combineRelative operation nominal a b) := by
  have h := a.failsBySum_relative.bind _ fun ra (_ : a.relative = .ok ra) =>
    b.failsBySum_relative.bind _ fun rb (_ : b.relative = .ok rb) =>
      (failsBySum_quadrature [ra, rb]).bind_meant fun r =>
        failsBySum_make nominal (r * Scalar.abs nominal) (some ⟨operation, [a.operand, b.operand]⟩)
  exact h.congr fun summed => by simp

theorem failsBySum_divide (a b : Quantity R) :
    FailsBySum Cause.IsNumeric
      (fun summed => ∃ ra rb, a.relative = .ok ra ∧ b.relative = .ok rb ∧ summed = [ra * ra, rb * rb]) (divide a b) := by
  unfold divide
  by_cases hzero : Scalar.eq b.nominal Scalar.zero = true
  · rw [if_pos hzero]
    refine (failsBySum_numeric _).congr fun summed => ?_
    -- without a relative uncertainty of the divisor nothing is summed
    simp [relative, hzero]
  · rw [if_neg hzero]
    exact failsBySum_combineRelative ..

theorem failsBySum_mean (qs : List (Quantity R)) :
    FailsBySum Cause.IsNumeric (fun summed => qs ≠ [] ∧ (summed = qs.map (·.nominal) ∨
        ∃ x, total (qs.map (·.nominal)) = .ok x ∧ summed = qs.map fun q => q.uncertainty * q.uncertainty))
      (mean qs) := by
  unfold mean
  by_cases hne : qs.isEmpty = true
  · rw [if_pos hne]
    exact (failsBySum_numeric _).congr fun summed => by simp [List.isEmpty_iff.mp hne]
  · rw [if_neg hne]
    have h := (failsBySum_total (qs.map (·.nominal))).bind _ fun nominal _ =>
      (failsBySum_quadrature (qs.map (·.uncertainty))).bind_meant fun uncertainty =>
        failsBySum_make (nominal / Scalar.nat qs.length) (uncertainty / Scalar.nat qs.length)
          (some ⟨.mean, qs.map operand⟩)
    exact h.congr fun summed => by simp [List.isEmpty_iff.not.mp hne, Function.comp_def]

end Quantity

/-! ### Operators and averages -/

/-- The terms that an operator sums: the squares of the uncertainties of two quantities, or of their relative
uncertainties; plain numbers are combined without a sum. -/
inductive OperatorSums (op : Char) (left right : Value R) : List R → Prop
  | absolute {a b : Quantity R} (uncertain : left.number? = none ∨ right.number? = none)
      (additive : op = '+' ∨ op = '-') (first : left.quantity = .ok a) (second : right.quantity = .ok b) :
      OperatorSums op left right [a.uncertainty * a.uncertainty, b.uncertainty * b.uncertainty]
  | relative {a b : Quantity R} {ra rb : R} (uncertain : left.number? = none ∨ right.number? = none)
      (multiplicative : op ≠ '+' ∧ op ≠ '-') (first : left.quantity = .ok a) (second : right.quantity = .ok b)
      (ratio : a.relative = .ok ra) (ratio' : b.relative = .ok rb) :
      OperatorSums op left right [ra * ra, rb * rb]

/-- The terms that an average sums: plain numbers, or the nominal values of quantities, and then the squares of their
uncertainties. -/
inductive AverageSums (args : List (Value R)) : List R → Prop
  | numbers {xs : List R} (numbers : args.mapM Value.number? = some xs) : AverageSums args xs
  | nominals {qs : List (Quantity R)} (uncertain : args.mapM Value.number? = none)
      (quantities : args.mapM Value.quantity = .ok qs) : AverageSums args (qs.map (·.nominal))
  | squares {qs : List (Quantity R)} {x : R} (uncertain : args.mapM Value.number? = none)
      (quantities : args.mapM Value.quantity = .ok qs) (nominal : Quantity.total (qs.map (·.nominal)) = .ok x) :
      AverageSums args (qs.map fun q => q.uncertainty * q.uncertainty)

namespace Expression

theorem isNumeric_of_quantity {v : Value R} {q : Quantity R} (h : v.quantity = .ok q) : v.isNumeric = true := by
  cases v <;> first | rfl | cases h

theorem failsBySum_quantity {v : Value R} (h : v.isNumeric = true) : FailsBySum Cause.IsNumeric (fun _ => False) v.quantity := by
  cases v with
  | number x => exact Quantity.failsBySum_make ..
  | uncertain q source => exact failsBySum_ok q
  | text _ | circuit _ | raw _ => cases h

theorem failsBySum_combine (op : Char) (a b : Quantity R) :
    FailsBySum Cause.IsNumeric (fun terms =>
        ((op = '+' ∨ op = '-') ∧ terms = [a.uncertainty * a.uncertainty, b.uncertainty * b.uncertainty]) ∨
        ((op ≠ '+' ∧ op ≠ '-') ∧ ∃ ra rb, a.relative = .ok ra ∧ b.relative = .ok rb ∧ terms = [ra * ra, rb * rb]))
      (combine op a b) := by
  unfold combine
  by_cases hadd : op = '+'
  · rw [if_pos hadd]
    exact (Quantity.failsBySum_combineAbsolute ..).congr fun terms => by simp [hadd]
  rw [if_neg hadd]
  by_cases hsub : op = '-'
  · rw [if_pos hsub]
    exact (Quantity.failsBySum_combineAbsolute ..).congr fun terms => by simp [hsub]
  rw [if_neg hsub]
  by_cases hmul : op = '*'
  · rw [if_pos hmul]
    exact (Quantity.failsBySum_combineRelative ..).congr fun terms => by simp [hadd, hsub]
  rw [if_neg hmul]
  exact (Quantity.failsBySum_divide a b).congr fun terms => by simp [hadd, hsub]

theorem failsBySum_arithmetic (op : Char) (a b : R) : FailsBySum Cause.IsNumeric (fun _ => False) (arithmetic op a b) := by
  unfold arithmetic
  split_ifs
  · exact failsBySum_ok _
  · exact failsBySum_ok _
  · exact failsBySum_ok _
  · exact failsBySum_numeric _
  · exact failsBySum_ok _

/-- What an operator sums up belongs to two quantities, or to a quantity and a number. -/
theorem isNumeric_of_operatorSums {op : Char} {left right : Value R} {terms : List R}
    (h : OperatorSums op left right terms) : left.isNumeric = true ∧ right.isNumeric = true := by
  rcases h with ⟨-, -, first, second⟩ | ⟨-, -, first, second, -, -⟩
  · exact ⟨isNumeric_of_quantity first, isNumeric_of_quantity second⟩
  · exact ⟨isNumeric_of_quantity first, isNumeric_of_quantity second⟩

theorem failsBySum_quantities (op : Char) {left right : Value R} (hleft : left.isNumeric = true)
    (hright : right.isNumeric = true) (uncertain : left.number? = none ∨ right.number? = none) :
    FailsBySum Cause.IsNumeric (OperatorSums op left right) (do
      let a ← left.quantity
      let b ← right.quantity
      let q ← combine op a b
      pure (Value.uncertain q none)) := by
  have h := (failsBySum_quantity hleft).bind _ fun a (_ : left.quantity = .ok a) =>
    (failsBySum_quantity hright).bind _ fun b (_ : right.quantity = .ok b) =>
      (failsBySum_combine op a b).bind_meant fun q => failsBySum_ok (Value.uncertain q none)
  refine h.congr fun terms => ⟨fun hsums => ?_, fun hsums => ?_⟩
  · refine .inr ?_
    cases hsums with
    | absolute uncertain additive first second => exact ⟨_, first, .inr ⟨_, second, .inl ⟨additive, rfl⟩⟩⟩
    | relative uncertain multiplicative first second ratio ratio' =>
        exact ⟨_, first, .inr ⟨_, second, .inr ⟨multiplicative, _, _, ratio, ratio', rfl⟩⟩⟩
  · obtain h | ⟨a, ha, h | ⟨b, hb, ⟨hop, rfl⟩ | ⟨hop, ra, rb, hra, hrb, rfl⟩⟩⟩ := hsums
    · exact h.elim
    · exact h.elim
    · exact .absolute uncertain hop ha hb
    · exact .relative uncertain hop ha hb hra hrb

theorem failsBySum_applyOperator (op : Char) (left right : Value R) :
    FailsBySum Cause.IsNumeric (OperatorSums op left right) (applyOperator op left right) := by
  have meant {x : Except (Cause R) (Value R)} (hx : FailsBySum Cause.IsNumeric (fun _ => False) x)
      (h : ∀ terms, ¬ OperatorSums op left right terms) : FailsBySum Cause.IsNumeric (OperatorSums op left right) x :=
    hx.congr fun terms => ⟨fun hsums => h terms hsums, False.elim⟩
  cases left <;> cases right
  case number.number a b =>
    refine meant ((failsBySum_arithmetic op a b).map Value.number) fun terms hsums => ?_
    rcases hsums with ⟨h | h, -, -, -⟩ | ⟨h | h, -, -, -, -, -⟩ <;> cases h
  case number.uncertain => exact failsBySum_quantities op rfl rfl (.inr rfl)
  case uncertain.number => exact failsBySum_quantities op rfl rfl (.inl rfl)
  case uncertain.uncertain => exact failsBySum_quantities op rfl rfl (.inl rfl)
  case text.text a b =>
    refine meant ?_ fun terms hsums => by cases (isNumeric_of_operatorSums hsums).1
    show FailsBySum Cause.IsNumeric _ (if op = '+' then _ else _)
    split
    · exact failsBySum_ok _
    · exact failsBySum_numeric _
  -- what is left has an operand that is neither a number nor a quantity, and a text on one side at most
  all_goals
    exact meant (failsBySum_numeric _) fun terms hsums => by simpa [Value.isNumeric] using isNumeric_of_operatorSums hsums

/-- Values that are all plain numbers. -/
theorem eq_map_number {values : List (Value R)} {xs : List R} (h : values.mapM Value.number? = some xs) :
    values = xs.map Value.number := by
  induction values generalizing xs with
  | nil =>
      rw [List.mapM_nil] at h
      cases h
      rfl
  | cons v values ih =>
      rw [List.mapM_cons] at h
      obtain ⟨x, hx, h⟩ := Option.bind_eq_some_iff.mp h
      obtain ⟨xs, hxs, h⟩ := Option.bind_eq_some_iff.mp h
      cases h
      cases v <;> cases hx
      rw [List.map_cons, ih hxs]

/-- What an average sums up are numbers and quantities. -/
theorem isNumeric_of_averageSums {args : List (Value R)} {terms : List R} (h : AverageSums args terms) :
    ∀ v ∈ args, v.isNumeric = true := by
  have quantities {qs : List (Quantity R)} (h : args.mapM Value.quantity = .ok qs) :
      ∀ v ∈ args, v.isNumeric = true := by
    intro v hv
    obtain ⟨q, hq⟩ := (ok_of_mapM h).2 v hv
    exact isNumeric_of_quantity hq
  cases h with
  | numbers numbers =>
      intro v hv
      rw [eq_map_number numbers] at hv
      obtain ⟨x, -, rfl⟩ := List.mem_map.mp hv
      rfl
  | nominals uncertain h => exact quantities h
  | squares uncertain h nominal => exact quantities h

theorem failsBySum_meanValue {args : List (Value R)} (hne : args ≠ []) (numeric : ∀ v ∈ args, v.isNumeric = true) :
    FailsBySum Cause.IsNumeric (AverageSums args) (meanValue args) := by
  unfold meanValue
  cases hnumbers : args.mapM Value.number? with
  | some xs =>
      have h := (Quantity.failsBySum_total xs).bind_meant fun x =>
        failsBySum_ok (Value.number (x / Scalar.nat xs.length))
      refine h.congr fun terms => ⟨fun hsums => ?_, ?_⟩
      · cases hsums with
        | numbers numbers => exact Option.some.inj (numbers.symm.trans hnumbers)
        | nominals uncertain _ => rw [hnumbers] at uncertain; cases uncertain
        | squares uncertain _ _ => rw [hnumbers] at uncertain; cases uncertain
      · rintro rfl
        exact .numbers hnumbers
  | none =>
      have h := (failsBySum_mapM fun v hv => failsBySum_quantity (numeric v hv)).bind _
        fun qs (_ : args.mapM Value.quantity = .ok qs) =>
          (Quantity.failsBySum_mean qs).bind_meant fun q => failsBySum_ok (Value.uncertain q none)
      refine h.congr fun terms => ⟨fun hsums => ?_, ?_⟩
      · have nonempty {qs : List (Quantity R)} (hqs : args.mapM Value.quantity = .ok qs) : qs ≠ [] := by
          rintro rfl
          exact hne (List.length_eq_zero_iff.mp (ok_of_mapM hqs).1.symm)
        cases hsums with
        | numbers numbers => rw [hnumbers] at numbers; cases numbers
        | nominals uncertain hqs => exact .inr ⟨_, hqs, nonempty hqs, .inl rfl⟩
        | squares uncertain hqs nominal => exact .inr ⟨_, hqs, nonempty hqs, .inr ⟨_, nominal, rfl⟩⟩
      · rintro (h | ⟨qs, hqs, -, rfl | ⟨x, hx, rfl⟩⟩)
        · exact h.elim
        · exact .nominals hnumbers hqs
        · exact .squares hnumbers hqs hx

theorem failsBySum_average (args : List (Value R)) :
    FailsBySum Cause.IsNumeric (fun terms => args ≠ [] ∧ AverageSums args terms) (average args) := by
  unfold average
  by_cases hne : args.isEmpty = true
  · rw [if_pos hne]
    exact (failsBySum_numeric _).congr fun terms => by simp [List.isEmpty_iff.mp hne]
  rw [if_neg hne]
  have hne' : args ≠ [] := List.isEmpty_iff.not.mp hne
  by_cases hnumeric : (!args.all Value.isNumeric) = true
  · rw [if_pos hnumeric]
    refine (failsBySum_numeric _).congr fun terms => ⟨fun hsums => ?_, False.elim⟩
    rw [List.all_eq_true.mpr (isNumeric_of_averageSums hsums.2)] at hnumeric
    cases hnumeric
  · rw [if_neg hnumeric]
    have numeric : ∀ v ∈ args, v.isNumeric = true := by simpa using hnumeric
    exact (failsBySum_meanValue hne' numeric).congr fun terms => by simp [hne']

/-! ### Texts -/

theorem failsBySum_literal (s : List Char) : FailsBySum Cause.IsNumeric (fun _ => False) (Literal.read? (R := R) s) := by
  unfold Literal.read?
  split
  · exact ((Quantity.failsBySum_make ..).bind_meant fun q => failsBySum_ok _).map _
  · split
    · exact failsBySum_ok _
    · exact failsBySum_ok _

theorem failsBySum_operand? (vars : Table (Value R)) (text : List Char) :
    FailsBySum Cause.IsMeant (fun _ => False) (operand? vars text) := by
  unfold operand?
  refine ((failsBySum_literal (trim text)).mono Cause.IsNumeric.isMeant).bind_meant fun literal => ?_
  cases literal with
  | some v => exact failsBySum_ok _
  | none =>
      dsimp only
      split
      · cases vars.get? (String.ofList (trim text)) with
        | some v => exact failsBySum_ok _
        | none => exact failsBySum_of_meant fun cause h => by cases h; exact .variableUse _
      · exact failsBySum_ok _

theorem failsBySum_operands? (vars : Table (Value R)) (texts : List (List Char)) :
    FailsBySum Cause.IsMeant (fun _ => False) (operands? vars texts) := by
  induction texts with
  | nil => exact failsBySum_ok _
  | cons text rest ih =>
      unfold operands?
      refine (failsBySum_operand? vars text).bind_meant fun value => ?_
      cases value with
      | none => exact failsBySum_ok _
      | some v => exact ih.bind_meant fun vs => failsBySum_ok _

theorem failsBySum_estimatePi (g : Random.Stream) (args : List (Value R)) :
    FailsBySum Cause.IsNumeric (fun _ => False) (estimatePi g args) := by
  unfold estimatePi
  split
  · split
    · exact (Quantity.failsBySum_make ..).bind_meant fun q => failsBySum_ok _
    · exact failsBySum_numeric _
  · exact failsBySum_numeric _

/-- The terms that are summed on the way to the value of a text: those of an average, if the text calls it on operands,
or those of an operator between two operands. -/
inductive Sums (vars : Table (Value R)) (text : String) : List R → Prop
  | call {name inner : List Char} {args : List (Value R)} {terms : List R}
      (operand : operand? vars (trim text.toList) = .ok none) (call : splitCall (trim text.toList) = some (name, inner))
      (builtin : Builtin.ofName? name = some .average) (read : operands? vars (arguments inner) = .ok (some args))
      (nonempty : args ≠ []) (sums : AverageSums args terms) : Sums vars text terms
  | operation {left right : List Char} {op : Char} {a b : Value R} {terms : List R}
      (operand : operand? vars (trim text.toList) = .ok none) (call : splitCall (trim text.toList) = none)
      (split : splitOperator [] (trim text.toList) = some (left, op, right))
      (first : operand? vars left = .ok (some a)) (second : operand? vars right = .ok (some b))
      (sums : OperatorSums op a b terms) : Sums vars text terms

theorem failsBySum_evaluateCall (vars : Table (Value R)) (g : Random.Stream) (s name inner : List Char) :
    FailsBySum Cause.IsMeant (fun terms => Builtin.ofName? name = some .average ∧
        ∃ args, operands? vars (arguments inner) = .ok (some args) ∧ args ≠ [] ∧ AverageSums args terms)
      (evaluateCall vars g s name inner) := by
  unfold evaluateCall
  cases hname : Builtin.ofName? name with
  | none =>
      exact (failsBySum_of_meant fun cause h => by cases h; exact .functionUse _).congr fun terms => by simp
  | some b =>
      refine FailsBySum.congr ((failsBySum_operands? vars (arguments inner)).bind
        (fun args? terms => b = .average ∧ ∃ args, args? = some args ∧ args ≠ [] ∧ AverageSums args terms)
        fun args? _ => ?_) fun terms => by simp [and_left_comm]
      cases args? with
      | none => exact (failsBySum_ok _).congr fun terms => by simp
      | some args =>
          cases b with
          | estimatePi => exact ((failsBySum_estimatePi g args).mono Cause.IsNumeric.isMeant).congr fun terms => by simp
          | average => exact ((failsBySum_average args).mono Cause.IsNumeric.isMeant).congr fun terms => by simp

theorem failsBySum_evaluateBinary (vars : Table (Value R)) (s : List Char) :
    FailsBySum Cause.IsMeant (fun terms => ∃ left op right a b, splitOperator [] s = some (left, op, right) ∧
        operand? vars left = .ok (some a) ∧ operand? vars right = .ok (some b) ∧ OperatorSums op a b terms)
      (evaluateBinary vars s) := by
  unfold evaluateBinary
  cases hsplit : splitOperator [] s with
  | none => exact (failsBySum_ok _).congr fun terms => by simp
  | some split =>
      obtain ⟨left, op, right⟩ := split
      refine FailsBySum.congr ((failsBySum_operand? vars left).bind
        (fun a? terms => ∃ a b, a? = some a ∧ operand? vars right = .ok (some b) ∧ OperatorSums op a b terms)
        fun a? _ => ?_) fun terms => by simp
      refine FailsBySum.congr ((failsBySum_operand? vars right).bind
        (fun b? terms => ∃ a b, a? = some a ∧ b? = some b ∧ OperatorSums op a b terms)
        fun b? _ => ?_) fun terms => by simp [and_left_comm]
      cases a? with
      | none => exact (failsBySum_ok _).congr fun terms => by simp
      | some a =>
          cases b? with
          | none => exact (failsBySum_ok _).congr fun terms => by simp
          | some b => exact ((failsBySum_applyOperator op a b).mono Cause.IsNumeric.isMeant).congr fun terms => by simp

theorem failsBySum_evaluate (vars : Table (Value R)) (g : Random.Stream) (text : String) :
    FailsBySum Cause.IsMeant (Sums vars text) (evaluate vars g text) := by
  refine FailsBySum.congr ((failsBySum_operand? vars (trim text.toList)).bind
    (fun v? terms => v? = none ∧ Sums vars text terms) fun v? hoperand => ?_) fun terms => ⟨fun hsums => ?_, ?_⟩
  · cases v? with
    | some v => exact (failsBySum_ok v).congr fun terms => by simp
    | none =>
        dsimp only
        cases hcall : splitCall (trim text.toList) with
        | some call =>
            obtain ⟨name, inner⟩ := call
            refine (failsBySum_evaluateCall vars g (trim text.toList) name inner).congr fun terms => ⟨?_, ?_⟩
            · rintro ⟨-, hsums⟩
              cases hsums with
              | call operand call builtin read nonempty sums =>
                  cases hcall.symm.trans call
                  exact ⟨builtin, _, read, nonempty, sums⟩
              | operation operand call split first second sums => cases hcall.symm.trans call
            · rintro ⟨builtin, args, read, nonempty, sums⟩
              exact ⟨rfl, .call hoperand hcall builtin read nonempty sums⟩
        | none =>
            refine (failsBySum_evaluateBinary vars (trim text.toList)).congr fun terms => ⟨?_, ?_⟩
            · rintro ⟨-, hsums⟩
              cases hsums with
              | call operand call builtin read nonempty sums => cases hcall.symm.trans call
              | operation operand call split first second sums => exact ⟨_, _, _, _, _, split, first, second, sums⟩
            · rintro ⟨left, op, right, a, b, split, first, second, sums⟩
              exact ⟨rfl, .operation hoperand hcall split first second sums⟩
  · cases hsums with
    | call operand call builtin read nonempty sums =>
        exact .inr ⟨none, operand, rfl, .call operand call builtin read nonempty sums⟩
    | operation operand call split first second sums =>
        exact .inr ⟨none, operand, rfl, .operation operand call split first second sums⟩
  · rintro (h | ⟨_, _, _, hsums⟩)
    · exact h.elim
    · exact hsums

/-- The outcome is reported as a failure for which programs have no word. -/
def IsInternal (o : Outcome R) : Prop := ∃ report, o = .failed report ∧ report.kind = Kind.internal.name

theorem isInternal_iff {vars : Table (Value R)} {j : Parallel.Job} :
    IsInternal (j.run vars) ↔
      ∃ fault, evaluate vars j.stream j.branch.expression = .error (.internal fault) := by
  unfold IsInternal Parallel.Job.run
  cases evaluate vars j.stream j.branch.expression with
  | ok v => simp
  | error cause =>
      cases cause with
      | internal fault => simp [Report.ofFailure, Cause.kind]
      | malformed _ | undefined _ _ | circuit _ | numeric _ => simp [Report.ofFailure, Cause.kind, Kind.name]

/-- **Expressions fail as they are meant to, except for sums without a value.**  Whatever the bindings and the random
stream, an expression has a value, or a name in it is not defined, or an operation is undefined for its operands, or one
of the sums on the way to its value has none.  In the last case, and in no other, this fault escapes as it is; and the
slot of a branch of a parallel block holds an internal error exactly if this happens in its expression. -/
theorem evaluate_fails_by_sum (vars : Table (Value R)) (text : String) :
    (∀ g, (∃ v, evaluate vars g text = .ok v) ∨ (∃ cause, evaluate vars g text = .error cause ∧ cause.IsMeant) ∨
      ∃ terms fault, Sums vars text terms ∧ Scalar.sum terms = .error fault ∧
        evaluate vars g text = .error (.internal (.sum fault))) ∧
    (∀ g terms fault, Sums vars text terms → Scalar.sum terms = .error fault →
      evaluate vars g text = .error (.internal (.sum fault))) ∧
    (∀ (b : Parallel.Block) (seed : Random.Seed) (i : Nat) (branch : Parallel.Branch), b.labels.Nodup →
      b.branches[i]? = some branch → branch.expression = text →
      ∃ o, (Parallel.run vars seed b)[i]? = some (branch.label, o) ∧
        (IsInternal o ↔ ∃ terms fault, Sums vars text terms ∧ Scalar.sum terms = .error fault)) := by
  refine ⟨fun g => ?_, fun g => (failsBySum_evaluate vars g text).escapes,
    fun b seed i branch hnodup hbranch htext => ?_⟩
  · have h := failsBySum_evaluate vars g text
    cases heval : evaluate vars g text with
    | ok v => exact .inl ⟨v, rfl⟩
    | error cause =>
        rcases h.fault cause heval with hmeant | ⟨terms, fault, hsums, hfault, rfl⟩
        · exact .inr (.inl ⟨cause, rfl, hmeant⟩)
        · exact .inr (.inr ⟨terms, fault, hsums, hfault, rfl⟩)
  · have h := failsBySum_evaluate vars (.ofSeed (seed.child i)) text
    rw [Parallel.run_eq_slotsOf vars seed hnodup]
    refine ⟨_, Parallel.getElem?_slotsOf vars seed hbranch, isInternal_iff.trans ?_⟩
    rw [htext]
    constructor
    · rintro ⟨fault, heval⟩
      rcases h.fault _ heval with hmeant | ⟨terms, fault', hsums, hfault, -⟩
      · cases hmeant
      · exact ⟨terms, fault', hsums, hfault⟩
    · rintro ⟨terms, fault, hsums, hfault⟩
      exact ⟨.sum fault, h.escapes terms fault hsums hfault⟩

/-- The mean of two large numbers, which is the same number: their sum is beyond the largest one. -/
theorem evaluate_average_overflow :
    (∃ terms fault, Sums ([] : Table (Value Float)) "average(1e308, 1e308)" terms ∧
        Scalar.sum terms = .error fault ∧
        ∀ g, evaluate ([] : Table (Value Float)) g "average(1e308, 1e308)" = .error (.internal (.sum fault))) ∧
      ∃ o, (Parallel.run ([] : Table (Value Float)) ⟨7, []⟩ ⟨[⟨"A", "average(1e308, 1e308)", 2⟩], 1⟩)[0]? =
        some ("A", o) ∧ IsInternal o := by
  obtain ⟨terms, hterms⟩ : ∃ terms : List Float, terms = [Scalar.decimal 1 308, Scalar.decimal 1 308] := ⟨_, rfl⟩
  have call : splitCall "average(1e308, 1e308)".toList = some ("average".toList, "1e308, 1e308".toList) := rfl
  have read : operands? ([] : Table (Value Float)) (arguments "1e308, 1e308".toList) =
      .ok (some [.number (Scalar.decimal 1 308), .number (Scalar.decimal 1 308)]) := rfl
  have hsums : Sums ([] : Table (Value Float)) "average(1e308, 1e308)" terms :=
    .call rfl call rfl read (by simp) (.numbers (by rw [hterms]; rfl))
  have shown : ((Scalar.sum [Scalar.decimal 1 308, Scalar.decimal 1 308] :
      Except SumFault Float).toOption.isNone) = true := by decide +kernel
  cases hfault : Scalar.sum terms with
  | ok x =>
      rw [← hterms, hfault] at shown
      cases shown
  | error fault =>
      have overflow := evaluate_fails_by_sum ([] : Table (Value Float)) "average(1e308, 1e308)"
      obtain ⟨o, hslot, hinternal⟩ := overflow.2.2 ⟨[⟨"A", "average(1e308, 1e308)", 2⟩], 1⟩ ⟨7, []⟩ 0
        ⟨"A", "average(1e308, 1e308)", 2⟩ (by decide) rfl rfl
      exact ⟨⟨terms, fault, hsums, hfault, fun g => overflow.2.1 g terms fault hsums hfault⟩, o, hslot,
        hinternal.mpr ⟨terms, fault, hsums, hfault⟩⟩

end Expression

end LabLang
