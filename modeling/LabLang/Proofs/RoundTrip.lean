import LabLang.Proofs.Decoding
import LabLang.Proofs.Draws
import LabLang.Proofs.Execution
import LabLang.Result.Encode

/-! # Results and their protocol form

`Result.decode` after `Result.encode` gives `Result.asSent`: the protocol form has no place for the tokens of an
uncertain literal, for the derivation of a quantity and for a number of shots without counts, and keeps everything else
(`decode_encode`).  Executions give no such number of shots, and derivations are not compared, so that a result of theirs
comes back unless one of its branches shows a value by its tokens (`decode_encode_execute`). -/

namespace LabLang

variable {R : Type} [Scalar R]

/-! ### What is lost on the way -/

/-- The quantity without its derivation. -/
def Quantity.underived (q : Quantity R) : Quantity R := { q with derivation := none }

/-- The value without the derivation of its quantity; values are compared in this form. -/
def Value.underived : Value R → Value R
  | .uncertain q source => .uncertain q.underived source
  | v => v

/-- The value without the tokens of its literal. -/
def Value.unwritten : Value R → Value R
  | .uncertain q _ => .uncertain q none
  | v => v

/-- The value is shown by the tokens of its literal. -/
def Value.HasTokens : Value R → Prop
  | .uncertain _ source => source ≠ none
  | _ => False

/-- Changes the value of a branch that has not failed. -/
def Outcome.onValue (f : Value R → Value R) : Outcome R → Outcome R
  | .value v => .value (f v)
  | .failed report => .failed report

/-- Changes the values of all branches. -/
def Result.onValues (f : Value R → Value R) : Result R → Result R
  | .parallel branches message => .parallel (branches.mapValues (Outcome.onValue f)) message
  | r => r

/-- The results are equal but for derivations. -/
def Result.Agrees (r r' : Result R) : Prop := r.onValues Value.underived = r'.onValues Value.underived

/-- The measurements without a number of shots, unless they have counts. -/
def Measurements.asSent : Measurements R → Measurements R
  | .tallied t => .tallied t
  | .uncounted _ => .uncounted .null

/-- The result as its protocol form gives it. -/
def Result.asSent : Result R → Result R
  | .circuit name qubits measured message => .circuit name qubits measured.asSent message
  | r => r.onValues fun v => v.underived.unwritten

/-- Some branch is shown by the tokens of its literal. -/
def Result.HasTokens : Result R → Prop
  | .parallel branches _ => ∃ label v, (label, Outcome.value v) ∈ branches ∧ v.HasTokens
  | _ => False

/-! ### Values and branches -/

/-- The numbers of a quantity make it again. -/
theorem Quantity.make_underived (q : Quantity R) : Quantity.make q.nominal q.uncertainty = .ok q.underived := by
  unfold Quantity.make
  rw [dif_pos q.finite, dif_neg (by rw [q.nonnegative]; exact Bool.false_ne_true)]
  rfl

theorem Fields.quantity_eq {fields : Fields} {q : Quantity Float}
    (nominal : fields.get? "nominal" = some (.real q.nominal))
    (uncertainty : fields.get? "uncertainty" = some (.real q.uncertainty)) :
    fields.quantity = .ok (.uncertain q.underived none) := by
  unfold Fields.quantity Fields.real Fields.need
  rw [nominal, uncertainty]
  simp only [bind, Except.bind, Payload.toReal, q.make_underived]
  rfl

theorem Value.decode_encode (v : Value Float) : Value.decode v.encode = .ok v.underived.unwritten := by
  cases v with
  | number x => rfl
  | text s => rfl
  | circuit name => rfl
  | raw s => rfl
  | uncertain q source => exact Fields.quantity_eq rfl rfl

/-- The fields of a report give it again; a line that is null is left out. -/
theorem Report.ofFields_encode (r : Report Float) :
    ∃ fields, r.encode = .object fields ∧ Table.get? fields "type" = some (.text "error") ∧
      Report.ofFields fields = .ok r := by
  obtain ⟨kind, message, line⟩ := r
  refine ⟨_, rfl, rfl, ?_⟩
  cases line <;> rfl

theorem Outcome.decode_encode (o : Outcome Float) :
    Outcome.decode o.encode = .ok (o.onValue fun v => v.underived.unwritten) := by
  cases o with
  | failed r =>
      obtain ⟨fields, hencode, htype, hfields⟩ := r.ofFields_encode
      simp only [Outcome.encode, hencode, Outcome.decode, htype, hfields, Outcome.onValue, Except.map]
  | value v =>
      have h := v.decode_encode
      have hdecode : Outcome.decode (Outcome.value v).encode = (Value.decode v.encode).map .value := by
        cases v <;> rfl
      rw [hdecode, h]
      rfl

/-! ### Results -/

/-- The counts are not negative and add up to the shots. -/
structure Tally.Consistent (t : Tally R) : Prop where
  nonnegative : ∀ entry ∈ t.counts, 0 ≤ entry.2
  shots : t.shots = .int (Counts.total t.counts)

/-- The tally of a measured circuit is consistent, and a circuit without one has no shots. -/
def Result.Consistent : Result R → Prop
  | .circuit _ _ (.tallied t) _ => t.Consistent
  | .circuit _ _ (.uncounted shots) _ => shots = .null
  | _ => True

/-- The counts are not negative, and the number of shots is read as their sum. -/
structure Tally.IsAccepted (t : Tally Float) : Prop where
  nonnegative : ∀ entry ∈ t.counts, 0 ≤ entry.2
  shots : t.shots.toInteger = .ok (Counts.total t.counts)

theorem Tally.Consistent.isAccepted {t : Tally Float} (h : t.Consistent) : t.IsAccepted :=
  ⟨h.nonnegative, by rw [h.shots]; rfl⟩

theorem Tally.decode_fields (t : Tally Float) (h : t.IsAccepted) :
    Result.decodeTally (.object (t.counts.mapValues .int)) (some t.shots) = .ok t := by
  have hint (n : Int) : Payload.toInteger (.int n) = .ok (id n) := rfl
  have hread := Table.readValues_mapValues hint t.counts
  rw [Table.mapValues_id] at hread
  exact Result.decodeTally_object.mpr ⟨t.counts, hread, h.nonnegative, .inr ⟨h.shots, rfl⟩⟩

omit [Scalar R] in
/-- An empty message is left out, and a message that is left out is empty. -/
theorem messageField_cases (message : String) :
    (messageField message = ([] : List (String × Payload R)) ∧ message = "") ∨
      messageField message = [("message", (Payload.text message : Payload R))] := by
  unfold messageField
  cases hm : message.isEmpty with
  | true => exact .inl ⟨rfl, String.isEmpty_iff.mp hm⟩
  | false => exact .inr rfl

theorem Result.decode_object {fields : Fields} {name : String} {reader : Fields → Except Misfit (Result Float)}
    {r : Result Float} (data : fields.get? "data" = none) (type : fields.get? "type" = some (.text name))
    (hreader : Result.decoder? name = some reader) (h : reader fields = .ok r) :
    Result.decode (.object fields) = .ok r := by
  rw [Result.decode_object_eq data type hreader, h]
  rfl

theorem Result.decode_encode_circuit (name : String) (qubits : Int) (measured : Measurements Float) (message : String)
    (h : ∀ t, measured = .tallied t → t.IsAccepted) :
    Result.decode (Result.circuit name qubits measured message).encode =
      .ok (.circuit name qubits measured.asSent message) := by
  rw [Result.encode]
  cases measured with
  | uncounted shots =>
      rcases messageField_cases (R := Float) message with ⟨hm, rfl⟩ | hm
      · rw [hm]; rfl
      · rw [hm]; rfl
  | tallied t =>
      have ht := t.decode_fields (h t rfl)
      rcases messageField_cases (R := Float) message with ⟨hm, rfl⟩ | hm
      all_goals
        rw [hm]
        refine Result.decode_object rfl rfl rfl ?_
        show (do
          let measured ← (Result.decodeTally _ (some t.shots)).map Measurements.tallied
          pure (Result.circuit name qubits measured _)) = _
        rw [ht]
        rfl

theorem Result.decode_encode_parallel (branches : Table (Outcome Float)) (message : String) :
    Result.decode (Result.parallel branches message).encode = .ok (Result.parallel branches message).asSent := by
  have hread : Table.readValues Outcome.decode (branches.mapValues Outcome.encode) =
      .ok (branches.mapValues (Outcome.onValue fun v => v.underived.unwritten)) :=
    Table.readValues_mapValues Outcome.decode_encode branches
  -- an object without fields counts as absent and gives no branches
  have hfields (fields : Fields)
      (hbranches : fields.get? "branches" = some (.object (branches.mapValues Outcome.encode)))
      (hmessage : fields.textOr ["message"] "" = .ok message) :
      Result.decodeParallel fields = .ok (Result.parallel branches message).asSent := by
    unfold Result.decodeParallel
    rw [hbranches, hmessage]
    cases branches with
    | nil => rfl
    | cons branch rest =>
        exact congrArg (fun x => x >>= fun outcomes => pure (Result.parallel outcomes message)) hread
  rw [Result.encode]
  rcases messageField_cases (R := Float) message with ⟨hm, rfl⟩ | hm
  · rw [hm]
    exact Result.decode_object rfl rfl rfl (hfields _ rfl rfl)
  · rw [hm]
    exact Result.decode_object rfl rfl rfl (hfields _ rfl rfl)

/-- The tally of a measured circuit is accepted. -/
def Result.IsAccepted : Result Float → Prop
  | .circuit _ _ (.tallied t) _ => t.IsAccepted
  | _ => True

theorem Result.Consistent.isAccepted {r : Result Float} (h : r.Consistent) : r.IsAccepted := by
  unfold Result.IsAccepted
  split
  · exact Tally.Consistent.isAccepted h
  · trivial

/-- **Decoding after encoding.**  A result with an accepted tally comes back as it was sent. -/
theorem Result.decode_encode_of_isAccepted (r : Result Float) (h : r.IsAccepted) :
    Result.decode r.encode = .ok r.asSent := by
  cases r with
  | success value => rfl
  | uncertain value nominal uncertainty => rfl
  | failure report =>
      obtain ⟨kind, message, line⟩ := report
      cases line <;> rfl
  | circuit name qubits measured message =>
      refine Result.decode_encode_circuit name qubits measured message fun t ht => ?_
      subst ht
      exact h
  | parallel branches message => exact Result.decode_encode_parallel branches message

theorem Result.decode_encode (r : Result Float) (h : r.Consistent) : Result.decode r.encode = .ok r.asSent :=
  r.decode_encode_of_isAccepted h.isAccepted

/-! ### Tokens -/

theorem Value.underived_asSent (v : Value R) :
    v.underived.unwritten.underived = v.underived ↔ ¬ v.HasTokens := by
  cases v with
  | uncertain q source =>
      cases source with
      | none => exact ⟨fun _ h => h rfl, fun _ => rfl⟩
      | some tokens =>
          refine ⟨fun h => ?_, fun h => absurd (Option.some_ne_none tokens) h⟩
          injection h with _ h
          cases h
  | _ => exact ⟨fun _ h => h, fun _ => rfl⟩

theorem Value.display_asSent {v : Value R} (h : ¬ v.HasTokens) : v.underived.unwritten.display = v.display := by
  cases v with
  | uncertain q source =>
      obtain rfl : source = none := Classical.not_not.mp h
      rfl
  | _ => rfl

/-- A consistent result agrees with what is sent of it unless it has tokens. -/
theorem Result.Consistent.asSent_agrees {r : Result R} (h : r.Consistent) : r.asSent.Agrees r ↔ ¬ r.HasTokens := by
  cases r with
  | circuit name qubits measured message =>
      refine ⟨fun _ h => h, fun _ => ?_⟩
      cases measured with
      | tallied t => rfl
      | uncounted shots =>
          obtain rfl : shots = .null := h
          rfl
  | parallel branches message =>
      have hbranch (o : Outcome R) :
          (o.onValue fun v => v.underived.unwritten).onValue Value.underived = o.onValue Value.underived ↔
            ∀ v, o = .value v → ¬ v.HasTokens := by
        cases o with
        | failed report => exact ⟨fun _ v hv => (by cases hv), fun _ => rfl⟩
        | value v =>
            simp only [Outcome.onValue, Outcome.value.injEq, forall_eq', Value.underived_asSent]
      unfold Result.Agrees Result.asSent
      simp only [Result.onValues, Table.mapValues, List.map_map, Result.parallel.injEq, and_true, List.map_inj_left,
        Function.comp_apply, Prod.mk.injEq, true_and, hbranch, Result.HasTokens, not_exists, not_and]
      exact ⟨fun h label v hv => h _ hv v rfl, fun h branch hbranch v hv => h branch.1 v (hv ▸ hbranch)⟩
  | _ => exact ⟨fun _ h => h, fun _ => rfl⟩

/-- Branches are shown alike if their outcomes are. -/
theorem Result.branchParts_mapValues {f : Outcome R → Outcome R} {branches : Table (Outcome R)}
    (h : ∀ branch ∈ branches, (f branch.2).display = branch.2.display) :
    Result.branchParts (branches.mapValues f) = Result.branchParts branches := by
  unfold Result.branchParts Table.mapValues
  induction branches with
  | nil => rfl
  | cons branch rest ih =>
      rw [List.forall_mem_cons] at h
      rw [List.map_cons, List.mapM_cons, List.mapM_cons, ih h.2]
      dsimp only
      rw [h.1]

theorem Result.display_asSent {r : Result R} (h : ¬ r.HasTokens) : r.asSent.display = r.display := by
  cases r with
  | parallel branches message =>
      have hbranch : ∀ branch ∈ branches,
          (branch.2.onValue fun v => v.underived.unwritten).display = branch.2.display := by
        rintro ⟨label, o⟩ hmem
        cases o with
        | failed report => rfl
        | value v => exact congrArg Except.ok (Value.display_asSent fun hv => h ⟨label, v, hmem, hv⟩)
      show (do
        let parts ← Result.branchParts (branches.mapValues _)
        pure _) = Result.display (.parallel branches message)
      rw [Result.branchParts_mapValues hbranch]
      rfl
  | circuit name qubits measured message => cases measured <;> rfl
  | _ => rfl

/-! ### Results of executions -/

namespace Interpreter

open LabLang.Interpreter.Action

variable {root : Random.Seed} {shots : Int}

theorem total_ofNat (counts : Table Nat) : Counts.total (counts.mapValues Int.ofNat) = (counts.map (·.2)).sum := by
  unfold Table.mapValues Counts.total
  induction counts with
  | nil => rfl
  | cons entry rest ih =>
      rw [List.map_cons, List.map_cons, List.foldr_cons, List.sum_cons, ih]
      exact (Int.natCast_add _ _).symm

/-- The counts of a measurement make a consistent tally. -/
theorem consistent_measurement {c : Circuit R} {g : Random.Stream} {counts : Table Nat}
    (h : Random.measure c shots g = .ok counts) : (measurement c shots counts).Consistent := by
  refine ⟨?_, ?_⟩
  · intro entry hentry
    obtain ⟨entry', _, rfl⟩ := List.mem_map.mp hentry
    exact Int.natCast_nonneg entry'.2
  · dsimp only
    rw [total_ofNat, Random.measure_shots h]

/-- What a statement gives is consistent. -/
theorem Given.consistent {r : Result R} (h : Given r) : r.Consistent := by
  obtain ⟨root, shots, s, st, st', h⟩ := h
  cases h with
  | run kind read runnable measured => exact consistent_measurement measured
  | assignment kind read =>
      unfold bindingResult
      split <;> trivial
  | _ => trivial

theorem consistent_of_execute {settings : Settings} {fresh : Nat} {store final : Store R} {source : String}
    {r : Result R} (h : execute settings fresh store source = .ok (r, final)) : r.Consistent := by
  rcases execute_result h with ⟨f, rfl⟩ | given | rfl
  · trivial
  · exact given.consistent
  · trivial

/-- **What becomes of a result on its way.**  The protocol form of every result that an execution gives can be
decoded, and what comes back differs from the result at most in the tokens that its branches are shown with.  It
is equal to the result and has its display exactly if no branch has tokens. -/
theorem decode_encode_execute {settings : Settings} {fresh : Nat} {store final : Store Float} {source : String}
    {r : Result Float} (h : execute settings fresh store source = .ok (r, final)) :
    Result.decode r.encode = .ok r.asSent ∧
      (r.asSent.Agrees r ∧ r.asSent.display = r.display ↔ ¬ r.HasTokens) := by
  refine ⟨Result.decode_encode r (consistent_of_execute h), fun hsame => ?_, fun ht => ⟨?_, ?_⟩⟩
  · exact (consistent_of_execute h).asSent_agrees.mp hsame.1
  · exact (consistent_of_execute h).asSent_agrees.mpr ht
  · exact Result.display_asSent ht

/-- A program with a branch that has no tokens. -/
theorem decode_encode_text_branch :
    ∃ r final, execute (R := Float) ⟨some 7, 1000, none⟩ 0 .empty "parallel \x7b\n  branch a: \"x\"\n\x7d" =
        .ok (r, final) ∧ r.display = .ok "a: \"x\"" ∧ Result.decode r.encode = .ok r.asSent ∧
      (r.asSent.Agrees r ∧ r.asSent.display = r.display ↔ ¬ r.HasTokens) := by
  have shown : (execute (R := Float) ⟨some 7, 1000, none⟩ 0 .empty
      "parallel \x7b\n  branch a: \"x\"\n\x7d").toOption.map (·.1.display) = some (.ok "a: \"x\"") := by decide +kernel
  cases h : execute (R := Float) ⟨some 7, 1000, none⟩ 0 .empty "parallel \x7b\n  branch a: \"x\"\n\x7d" with
  | error e => rw [h] at shown; cases shown
  | ok p =>
      rw [h] at shown
      exact ⟨p.1, p.2, rfl, Option.some.inj shown, decode_encode_execute h⟩

end Interpreter

end LabLang
