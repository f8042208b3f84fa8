import LabLang.Proofs.DecodedTallies
import LabLang.Proofs.RoundTrip

/-! # Results that come back as they are

Decoding accepts far more than encoding gives.  What it makes of a payload has neither number tokens nor derivations, in no
branch at any depth, and its tally is accepted as it stands: the result is `Normal`.  Such results are all that decoding
gives (`exists_decode_eq_ok_iff`).  They come back from their protocol form as they are, but for a number of shots that was
sent without counts, which is neither shown nor encoded; so one decoding reaches a fixed point of everything that is
(`decode_encode_of_decode`). -/

namespace LabLang

/-! ### Values and branches -/

/-- The value has neither tokens nor a derivation. -/
def Value.IsPlain (v : Value Float) : Prop := v.underived.unwritten = v

/-- The value of a branch is plain; a report has nothing to lose. -/
def Outcome.IsPlain (o : Outcome Float) : Prop := o.onValue (fun v => v.underived.unwritten) = o

theorem Outcome.isPlain_value {v : Value Float} (h : v.IsPlain) : (Outcome.value v).IsPlain := congrArg Outcome.value h

theorem Quantity.derivation_of_make {nominal uncertainty : Float} {q : Quantity Float}
    (h : make nominal uncertainty = .ok q) : q.derivation = none := by
  unfold make at h
  split at h
  · split at h
    · cases h
    · cases h
      rfl
  · cases h

theorem Value.isPlain_of_ofFields {fields : Fields} {v : Value Float} (h : Value.ofFields fields = .ok v) :
    v.IsPlain := by
  unfold Value.ofFields at h
  split at h
  case h_1 =>
    obtain ⟨x, -, h⟩ := ok_of_bind h
    cases h
    rfl
  case h_2 =>
    obtain ⟨p, -, h⟩ := ok_of_bind h
    obtain ⟨text, -, h⟩ := ok_of_bind h
    cases h
    rfl
  case h_3 =>
    obtain ⟨nominal, -, h⟩ := ok_of_bind h
    obtain ⟨uncertainty, -, h⟩ := ok_of_bind h
    split at h
    case h_1 q hq =>
      cases h
      have hnone := Quantity.derivation_of_make hq
      obtain ⟨x, u, derivation, hfinite, hnonneg⟩ := q
      cases hnone
      rfl
    case h_2 => cases h
  case h_4 =>
    obtain ⟨p, -, h⟩ := ok_of_bind h
    obtain ⟨name, -, h⟩ := ok_of_bind h
    cases h
    rfl
  case h_5 =>
    obtain ⟨text, -, h⟩ := ok_of_bind h
    cases h
    rfl

theorem Outcome.isPlain_of_ofRaw {p : Payload Float} {o : Outcome Float} (h : Outcome.ofRaw p = .ok o) : o.IsPlain := by
  obtain ⟨text, -, rfl⟩ := ok_of_map h
  exact isPlain_value rfl

mutual

/-- Branches are plain at whatever depth their value was found. -/
theorem Outcome.isPlain_of_decode : ∀ (p : Payload Float) (o : Outcome Float), Outcome.decode p = .ok o → o.IsPlain
  | .object fields, o, h => by
      rw [Outcome.decode] at h
      split at h
      · obtain ⟨report, -, rfl⟩ := ok_of_map h
        rfl
      · obtain ⟨v, hv, rfl⟩ := ok_of_map h
        exact isPlain_value (Value.isPlain_of_ofFields hv)
      · split at h
        case h_1 outcome houtcome => exact isPlain_of_decodeResult? fields outcome houtcome o h
        case h_2 => exact isPlain_of_ofRaw h
  | .int n, o, h => by
      obtain ⟨x, -, rfl⟩ := ok_of_map h
      exact isPlain_value rfl
  | .real x, o, h => by
      cases h
      exact isPlain_value rfl
  | .bool b, o, h => by
      cases h
      exact isPlain_value rfl
  | .text s, o, h => by
      cases h
      exact isPlain_value rfl
  | .null, o, h => isPlain_of_ofRaw h
  | .list items, o, h => isPlain_of_ofRaw h

theorem Outcome.isPlain_of_decodeResult? : ∀ (fields : List (String × Payload Float)) (x : Except Misfit (Outcome Float)),
    Outcome.decodeResult? fields = some x → ∀ o, x = .ok o → o.IsPlain
  | [], x, h, o, hx => by cases h
  | (name, p) :: rest, x, h, o, hx => by
      rw [Outcome.decodeResult?] at h
      split at h
      · cases h
        exact Outcome.isPlain_of_decode p o hx
      · exact Outcome.isPlain_of_decodeResult? rest x h o hx

end

/-! ### Results -/

namespace Result

/-- The result without a number of shots that has no counts. -/
def withoutIdleShots : Result Float → Result Float
  | circuit name qubits measured message => circuit name qubits measured.asSent message
  | r => r

/-- Nothing else of the result is lost in its protocol form, and its tally is accepted. -/
structure IsNormal (r : Result Float) : Prop where
  asSent : r.asSent = r.withoutIdleShots
  accepted : r.IsAccepted

theorem isNormal_parallel {branches : Table (Outcome Float)} (message : String)
    (h : ∀ branch ∈ branches, branch.2.IsPlain) : (parallel branches message).IsNormal := by
  refine ⟨?_, trivial⟩
  have hbranches : branches.mapValues (Outcome.onValue fun v => v.underived.unwritten) = branches.mapValues id :=
    List.map_congr_left fun branch hbranch => congrArg (Prod.mk branch.1) (h branch hbranch)
  show parallel (branches.mapValues _) message = _
  rw [hbranches, Table.mapValues_id]
  rfl

theorem isAccepted_of_decodeTally {sent : Fields} {shots : Option (Payload Float)} {t : Tally Float}
    (h : decodeTally (.object sent) shots = .ok t) : t.IsAccepted := by
  obtain ⟨counts, -, hsign, ⟨-, rfl⟩ | ⟨hshots, rfl⟩⟩ := decodeTally_object.mp h
  · exact ⟨hsign, rfl⟩
  · exact ⟨hsign, hshots⟩

/-- The outcomes of decoded branches are plain. -/
theorem isPlain_of_decodeParallel {fields : Fields} {branches : Table (Outcome Float)} {message : String}
    (h : decodeParallel fields = .ok (.parallel branches message)) : ∀ branch ∈ branches, branch.2.IsPlain := by
  obtain ⟨outcomes, _, houtcomes, heq⟩ := exists_of_decodeParallel h
  cases heq
  intro branch hbranch
  rcases houtcomes with rfl | ⟨entries, hentries⟩
  · cases hbranch
  · obtain ⟨p, -, hp⟩ := Table.exists_of_mem_readValues hentries hbranch
    exact Outcome.isPlain_of_decode p branch.2 hp

/-- What is decoded is normal. -/
theorem isNormal_of_decode {p : Payload Float} {r : Result Float} (h : decode p = .ok r) : r.IsNormal := by
  cases p with
  | object fields =>
      obtain ⟨type, reader, -, hreader, hread⟩ := ofFields_eq_ok h
      cases r with
      | success | uncertain | failure => exact ⟨rfl, trivial⟩
      | circuit name qubits measured message =>
          cases measured with
          | uncounted => exact ⟨rfl, trivial⟩
          | tallied t =>
              obtain rfl := eq_decodeCircuit hreader hread
              obtain ⟨sent, -, htally⟩ := decodeTally_of_decodeCircuit hread
              exact ⟨rfl, isAccepted_of_decodeTally htally⟩
      | parallel branches message =>
          obtain rfl := eq_decodeParallel hreader hread
          exact isNormal_parallel message (isPlain_of_decodeParallel hread)
  | null | bool | int | real | text | list => cases h

theorem decode_encode_of_isNormal {r : Result Float} (h : r.IsNormal) : decode r.encode = .ok r.withoutIdleShots := by
  rw [r.decode_encode_of_isAccepted h.accepted, h.asSent]

/-- A number of shots is kept without counts, whatever it is. -/
theorem decode_uncounted (name : String) (qubits : Int) (shots : Payload Float) (message : String) :
    decode (.object [("type", .text "quantum_circuit"), ("circuit_name", .text name), ("qubits", .int qubits),
      ("shots", shots), ("message", .text message)]) = .ok (.circuit name qubits (.uncounted shots) message) := rfl

/-- The results that decoding gives are the normal ones. -/
theorem exists_decode_eq_ok_iff {r : Result Float} : (∃ p, decode p = .ok r) ↔ r.IsNormal := by
  refine ⟨fun ⟨_, h⟩ => isNormal_of_decode h, fun h => ?_⟩
  have hagain := decode_encode_of_isNormal h
  cases r with
  | success | uncertain | parallel | failure => exact ⟨_, hagain⟩
  | circuit name qubits measured message =>
      cases measured with
      | tallied t => exact ⟨_, hagain⟩
      | uncounted shots => exact ⟨_, decode_uncounted name qubits shots message⟩

/-- **Decoding once more.**  What has been decoded from any payload is decoded again from its own protocol form, as a result
with the same type, the same display and the same protocol form.  It is the same result, unless a number of shots was sent
without counts, which the protocol form has no place for. -/
theorem decode_encode_of_decode {p : Payload Float} {r : Result Float} (h : decode p = .ok r) :
    decode r.encode = .ok r.withoutIdleShots ∧ r.withoutIdleShots.typeName = r.typeName ∧
      r.withoutIdleShots.display = r.display ∧ r.withoutIdleShots.encode = r.encode ∧
      (r.withoutIdleShots = r ∨ ∃ name qubits shots message, r = .circuit name qubits (.uncounted shots) message ∧
        r.withoutIdleShots = .circuit name qubits (.uncounted .null) message) := by
  refine ⟨decode_encode_of_isNormal (isNormal_of_decode h), ?_⟩
  cases r with
  | success | uncertain | parallel | failure => exact ⟨rfl, rfl, rfl, .inl rfl⟩
  | circuit name qubits measured message =>
      cases measured with
      | tallied t => exact ⟨rfl, rfl, rfl, .inl rfl⟩
      | uncounted shots => exact ⟨rfl, rfl, rfl, .inr ⟨name, qubits, shots, message, rfl, rfl⟩⟩

/-- An envelope with bare branches: a NaN two results deep, null, a truth value, and a report with a text for its line. -/
theorem decode_encode_of_decode_service :
    ∃ (p : Payload Float) (r : Result Float),
      p = .object [("type", .text "parallel"), ("message", .null), ("data", .object [("branches", .object
        [("a", .object [("result", .object [("result", .real Machine.nan)])]), ("b", .null), ("c", .bool true),
          ("d", .object [("type", .text "error"), ("line", .text "two")])])])] ∧
      r = .parallel [("a", .value (.number Machine.nan)), ("b", .value (.raw "None")), ("c", .value (.raw "true")),
        ("d", .failed ⟨"InternalError", "", .text "two"⟩)] "None" ∧
      decode p = .ok r ∧ decode r.encode = .ok r := by
  refine ⟨_, _, rfl, rfl, ?decoded, (decode_encode_of_decode ?decoded).1⟩
  rfl

end Result

end LabLang
