import LabLang.Parallel.Aggregate
import LabLang.Proofs.BlockEffects
import LabLang.Proofs.SummationFaults
import LabLang.Proofs.WrittenCalls

/-! # Averages of branches

The values of branches can be averaged in two ways: behind the block, by a call of the built-in function with the labels
as arguments, and by combining the outcomes of the block.  The call is read as the names of the labels, whatever else they
look like (`evaluate_writeCall`), and these are bound to the values of the branches; both ways then take the mean of the
same values (`average_eq_ofValues`). -/

namespace LabLang

open Text

variable {R : Type} [Scalar R]

namespace Expression

/-! ### Calls with names as arguments -/

/-- A written call is no operand: it starts like a name, and no name has a parenthesis in it. -/
theorem not_isOperand_callText {name : List Char} (hname : isName name = true) (args : List (List Char)) :
    ¬ IsOperand (callText name args) := by
  intro h
  obtain ⟨c, r, rfl, hstart, -⟩ := isName_iff.mp hname
  rcases h.isName_or with hall | hfirst
  · have hparenthesis : isWord '(' = true := isWord_of_mem_name hall '(' (by simp [callText])
    exact absurd hparenthesis (by decide)
  · rw [hfirst c rfl] at hstart
    cases hstart

theorem isName_of_ofName? {name : List Char} {b : Builtin} (h : Builtin.ofName? name = some b) : isName name = true := by
  unfold Builtin.ofName? at h
  split at h
  · rename_i heq
    rw [heq]
    rfl
  · split at h
    · rename_i heq
      rcases Bool.or_eq_true_iff.mp heq with heq | heq
      · rw [of_decide_eq_true heq]
        rfl
      · rw [of_decide_eq_true heq]
        rfl
    · cases h

section bound

variable {vars bound : Table (Value R)} (names : ∀ entry ∈ bound, isName entry.1.toList = true)
  (values : ∀ entry ∈ bound, vars.get? entry.1 = some entry.2)
include names values

/-- Names are operands with the values that they are bound to. -/
theorem operands?_of_bound : operands? vars (bound.keys.map String.toList) = .ok (some (bound.map (·.2))) := by
  induction bound with
  | nil => rfl
  | cons entry bound ih =>
      rw [List.forall_mem_cons] at names values
      have hentry : operand? vars entry.1.toList = .ok (some entry.2) := by
        rw [operand?_of_isName vars names.1, String.ofList_toList, values.1]
      show operands? vars (entry.1.toList :: (Table.keys bound).map String.toList) = _
      unfold operands?
      rw [hentry, ih names.2 values.2]
      rfl

/-- A call of a built-in function with names as arguments gets the values that they are bound to. -/
theorem evaluate_writeCall {name : String} {b : Builtin} (hb : Builtin.ofName? name.toList = some b)
    (hbound : bound ≠ []) (g : Random.Stream) :
    evaluate vars g (writeCall name bound.keys) = b.call g (bound.map (·.2)) := by
  have hname := isName_of_ofName? hb
  have hargs : ∀ a ∈ bound.keys.map String.toList, IsArgument a := by
    intro a ha
    obtain ⟨label, hlabel, rfl⟩ := List.mem_map.mp ha
    obtain ⟨entry, hentry, rfl⟩ := List.mem_map.mp hlabel
    have hword := isWord_of_mem_name (names entry hentry)
    refine isArgument_of_isWord ?_ hword
    obtain ⟨c, r, heq, -⟩ := isName_iff.mp (names entry hentry)
    rw [heq]
    exact List.cons_ne_nil c r
  have hcontent := isContent_callText hname hargs
  have htrim : trim (callText name.toList (bound.keys.map String.toList)) =
      callText name.toList (bound.keys.map String.toList) := trim_of_ends hcontent.nonempty hcontent.first hcontent.last
  have hoperand : operand? vars (callText name.toList (bound.keys.map String.toList)) = .ok none :=
    operand?_eq_none (by rw [htrim]; exact not_isOperand_callText hname _)
  unfold evaluate
  dsimp only
  rw [toList_writeCall, htrim, hoperand]
  simp only [splitCall_callText hname hargs]
  show evaluateCall vars g _ name.toList (argumentText ((Table.keys bound).map String.toList)) = _
  unfold evaluateCall
  rw [hb, arguments_argumentText (by simpa [Table.keys] using hbound) hargs]
  dsimp only
  rw [operands?_of_bound names values]
  rfl

end bound

/-! ### Means of values -/

/-- The built-in function takes the mean of numeric values in the same way as outcomes are combined. -/
theorem average_eq_ofValues {values : List (Value R)} (hvalues : values ≠ [])
    (numeric : ∀ v ∈ values, v.isNumeric = true) : average values = Aggregation.mean.ofValues values := by
  have hall : values.all Value.isNumeric = true := List.all_eq_true.mpr numeric
  have hempty : values.isEmpty = false := List.isEmpty_eq_false_iff.mpr hvalues
  have hmean : average values = meanValue values := by
    unfold average
    rw [hempty, hall]
    rfl
  rw [hmean]
  unfold meanValue Aggregation.ofValues
  cases hnumbers : values.mapM Value.number? with
  | some xs =>
      cases xs with
      | nil => exact absurd (eq_map_number hnumbers) hvalues
      | cons x xs =>
          dsimp only [Aggregation.ofNumbers]
          cases Quantity.total (x :: xs) <;> rfl
  | none =>
      dsimp only
      cases hquantities : values.mapM Value.quantity with
      | error cause => rfl
      | ok qs =>
          cases qs with
          | nil => exact absurd (List.length_eq_zero_iff.mp (ok_of_mapM hquantities).1.symm) hvalues
          | cons q qs =>
              show (Quantity.mean (q :: qs) >>= fun m => .ok (Value.uncertain m none)) =
                (Quantity.mean (q :: qs)).map fun m => Value.uncertain m none
              cases Quantity.mean (q :: qs) <;> rfl

end Expression

/-! ### Outcomes that are all numeric -/

/-- Outcomes that are all numeric values. -/
theorem exists_mapValues_of_isNumeric {outcomes : Table (Outcome R)}
    (numeric : ∀ slot ∈ outcomes, slot.2.value?.any Value.isNumeric = true) :
    ∃ bound : Table (Value R), outcomes = bound.mapValues .value ∧ ∀ entry ∈ bound, entry.2.isNumeric = true := by
  induction outcomes with
  | nil => exact ⟨[], rfl, by simp⟩
  | cons slot outcomes ih =>
      obtain ⟨hslot, hrest⟩ := List.forall_mem_cons.mp numeric
      obtain ⟨bound, rfl, hbound⟩ := ih hrest
      obtain ⟨label, o⟩ := slot
      cases o with
      | failed report => cases hslot
      | value v => exact ⟨(label, v) :: bound, rfl, List.forall_mem_cons.mpr ⟨hslot, hbound⟩⟩

/-- All of them are combined. -/
theorem Aggregation.numeric_mapValues {bound : Table (Value R)} (h : ∀ entry ∈ bound, entry.2.isNumeric = true) :
    Aggregation.numeric (bound.mapValues .value) = bound.map (·.2) := by
  unfold Aggregation.numeric Table.mapValues
  rw [List.filterMap_map]
  have hvalues := congrFun (List.filterMap_eq_map (f := fun entry : String × Value R => entry.2)) bound
  refine (congrArg (List.filter _) hvalues).trans (List.filter_eq_self.mpr fun v hv => ?_)
  obtain ⟨entry, hentry, rfl⟩ := List.mem_map.mp hv
  exact h entry hentry

namespace Interpreter

/-- **The two ways of averaging branches agree.**  If no branch of a block fails and all have numeric values, a call of
`mean` or `average` with the labels as arguments has on the store after the block the same value, or the same fault, as
the mean of the outcomes. -/
theorem average_of_labels_eq_aggregate {s : Statement} {b : Parallel.Block}
    (parsed : Parallel.Block.ofStatement (R := R) s = .ok b) (nonempty : b.branches ≠ []) (root : Random.Seed)
    (shots : Int) (st : State R) :
    ∃ (outcomes : Table (Outcome R)) (st' : State R),
      (carryOut root shots s).run st = .ok (Parallel.result outcomes) st' ∧
      ((∀ slot ∈ outcomes, slot.2.value?.any Value.isNumeric = true) → ∀ word ∈ ["mean", "average"], ∀ g : Random.Stream,
        Expression.evaluate st'.store.vars g (writeCall word b.labels) = aggregate outcomes "mean") := by
  refine ⟨_, _, run_of_ofStatement parsed st, fun numeric word hword g => ?_⟩
  have hkeys := Parallel.keys_slotsOf st.store.vars (root.child st.drawn) b
  have hdistinct := hkeys ▸ Parallel.nodup_labels_of_ofStatement parsed
  obtain ⟨bound, hbound, hnumeric⟩ := exists_mapValues_of_isNumeric numeric
  rw [hbound] at hkeys hdistinct ⊢
  have hlabels : Table.keys bound = b.labels := (Table.keys_mapValues _ bound).symm.trans hkeys
  have hne : bound ≠ [] := by
    rintro rfl
    exact nonempty (List.map_eq_nil_iff.mp hlabels.symm)
  have names : ∀ entry ∈ bound, isName entry.1.toList = true := fun entry hentry =>
    Parallel.isName_of_mem_labels parsed _ (hlabels ▸ List.mem_map_of_mem hentry)
  have values : ∀ entry ∈ bound, (bindOutcomes st.store (bound.mapValues .value)).vars.get? entry.1 = some entry.2 := by
    intro entry hentry
    have hget : (bound.mapValues Outcome.value).get? entry.1 = some (.value entry.2) :=
      Table.get?_of_mem hdistinct (List.mem_map.mpr ⟨entry, hentry, rfl⟩)
    have hlookup := lookup_bindOutcomes st.store hdistinct entry.1
    rw [hget] at hlookup
    exact hlookup
  have hb : Expression.Builtin.ofName? word.toList = some .average := by
    simp only [List.mem_cons, List.not_mem_nil, or_false] at hword
    rcases hword with rfl | rfl <;> rfl
  calc Expression.evaluate _ g (writeCall word b.labels)
      = Expression.average (bound.map (·.2)) := by
        rw [← hlabels]
        exact Expression.evaluate_writeCall names values hb hne g
    _ = Aggregation.mean.ofValues (bound.map (·.2)) :=
        Expression.average_eq_ofValues (by simpa using hne) (List.forall_mem_map.mpr hnumeric)
    _ = aggregate (bound.mapValues .value) "mean" := by
        rw [← Aggregation.numeric_mapValues hnumeric]
        rfl

/-- A block whose labels look like numbers; one of its values is uncertain. -/
def measuredBlock : Statement :=
  ⟨1, "parallel:", [⟨2, 1, "branch e1: 1"⟩, ⟨3, 1, "branch nan: 2 ± 0.5"⟩, ⟨4, 1, "branch inf: x"⟩], true⟩

/-- Before the block one of the labels is bound to a text. -/
def measuredBefore : State Float := { store := { vars := [("x", .number 4), ("nan", .text "old")] } }

/-- The mean over the labels `e1`, `nan` and `inf`. -/
theorem average_of_labels_eq_aggregate_measured :
    ∃ (outcomes : Table (Outcome Float)) (st' : State Float),
      (carryOut ⟨11, []⟩ 1000 measuredBlock).run measuredBefore = .ok (Parallel.result outcomes) st' ∧
      Expression.evaluate st'.store.vars (.ofSeed ⟨7, []⟩) "mean(e1, nan, inf)" = aggregate outcomes "mean" ∧
      Expression.evaluate st'.store.vars (.ofSeed ⟨8, []⟩) "average(e1, nan, inf)" = aggregate outcomes "mean" := by
  have parsed : Parallel.Block.ofStatement (R := Float) measuredBlock =
      .ok ⟨[⟨"e1", "1", 2⟩, ⟨"nan", "2 ± 0.5", 3⟩, ⟨"inf", "x", 4⟩], 1⟩ := rfl
  obtain ⟨outcomes, st', hrun, hagree⟩ := average_of_labels_eq_aggregate parsed (List.cons_ne_nil _ _) ⟨11, []⟩ 1000
    measuredBefore
  have houtcomes := (Result.parallel.inj (EStateM.Result.ok.inj (hrun.symm.trans (run_of_ofStatement parsed _))).1).1
  have numeric : (outcomes.all fun slot => slot.2.value?.any Value.isNumeric) = true := by
    rw [houtcomes]
    decide +kernel
  have agree := hagree (List.all_eq_true.mp numeric)
  exact ⟨outcomes, st', hrun, agree "mean" (by simp) _, agree "average" (by simp) _⟩

end Interpreter

end LabLang
