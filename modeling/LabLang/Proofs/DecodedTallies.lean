import LabLang.Proofs.Decoding
import LabLang.Proofs.ScaledNumbers
import Mathlib.Data.Rat.Floor
import Mathlib.Tactic.Linarith
import Mathlib.Tactic.NormNum

/-! # Tallies that were sent

The counts and the number of shots of a circuit arrive as untyped data.  `Payload.number?` is the exact number that the
data stands for, and reading it as an integer cuts off its fraction (`toInteger_eq_ok_iff`).  The signs of the counts and
their sum are checked on integers, after the fractions are gone, while the number of shots is kept as it was sent.
`decodeTally_eq_ok_iff` says exactly which tallies are accepted, and `decoded_tally_consistent` which of them
agree with what was sent: all but those with a count between minus one and zero, or a fraction of a shot. -/

namespace LabLang

/-! ### Numbers without their fractions -/

namespace Number

/-- The number without its fraction. -/
def cutOff (x : ℚ) : ℤ := if x < 0 then ⌈x⌉ else ⌊x⌋

theorem cutOff_of_nonneg {x : ℚ} (h : 0 ≤ x) : cutOff x = ⌊x⌋ := if_neg (not_lt.mpr h)

theorem cutOff_neg (x : ℚ) : cutOff (-x) = -cutOff x := by
  rcases lt_trichotomy x 0 with h | rfl | h
  · rw [cutOff_of_nonneg (neg_nonneg.mpr h.le), cutOff, if_pos h, Int.floor_neg]
  · decide
  · rw [cutOff_of_nonneg h.le, cutOff, if_pos (neg_lt_zero.mpr h), Int.ceil_neg]

@[simp]
theorem cutOff_intCast (n : ℤ) : cutOff n = n := by
  unfold cutOff
  rw [Int.ceil_intCast, Int.floor_intCast, ite_self]

/-- Numbers down to minus one, which is left out, lose their sign with their fraction. -/
theorem cutOff_nonneg_iff {x : ℚ} : 0 ≤ cutOff x ↔ -1 < x := by
  unfold cutOff
  split
  case isTrue => rw [Int.le_ceil_iff, Int.cast_zero, zero_sub]
  case isFalse h =>
    rw [not_lt] at h
    exact iff_of_true (Int.floor_nonneg.mpr h) (by linarith)

/-- The number that a machine number stands for, unless it is a NaN or an infinity. -/
def Binary.value? : Binary → Option ℚ
  | .finite negative m e => some (if negative then -(m * 2 ^ e) else m * 2 ^ e)
  | _ => none

theorem Binary.truncate_eq_cutOff {b : Binary} {x : ℚ} (h : b.value? = some x) : b.truncate = cutOff x := by
  cases b with
  | nan | infinity => cases h
  | finite negative m e =>
      have hmantissa : cutOff ((m : ℚ) * 2 ^ e) = (m * twoPow e.toNat / twoPow (-e).toNat : ℕ) := by
        rw [cutOff_of_nonneg (mul_nonneg m.cast_nonneg (zpow_nonneg zero_le_two e)), mul_two_zpow]
        exact Rat.floor_natCast_div_natCast _ _
      cases h
      unfold Binary.truncate
      dsimp only
      cases negative with
      | false => exact hmantissa.symm
      | true =>
          rw [if_pos rfl, if_pos rfl, cutOff_neg, hmantissa]

end Number

/-! ### Numbers in payloads -/

namespace Payload

/-- The number that the payload stands for; a text stands for the integer that it writes. -/
def number? : Payload Float → Option ℚ
  | int n => some n
  | bool b => some (if b then 1 else 0)
  | real x => (Number.Binary.ofFloat x).value?
  | text s =>
    match Number.readInteger s.toList with
    | .ok n => some n
    | .error _ => none
  | _ => none

/-- The payload is infinite. -/
def IsInfinite (p : Payload Float) : Prop :=
  ∃ x negative, p = real x ∧ Number.Binary.ofFloat x = .infinity negative

/-- Reading an integer cuts off the fraction of the number, and fails where there is no number. -/
theorem toInteger_eq_ok_iff {p : Payload Float} {n : ℤ} :
    p.toInteger = .ok n ↔ ∃ x, p.number? = some x ∧ Number.cutOff x = n := by
  cases p with
  | int m => simp [toInteger, number?]
  | bool b => cases b <;> simp [toInteger, number?, Number.cutOff]
  | real x =>
      unfold toInteger number?
      dsimp only
      cases hx : Number.Binary.ofFloat x with
      | nan | infinity => simp [Number.Binary.value?]
      | finite negative m e =>
          have hvalue : ∃ v, (Number.Binary.finite negative m e).value? = some v := ⟨_, rfl⟩
          obtain ⟨v, hv⟩ := hvalue
          simp [hv, Number.Binary.truncate_eq_cutOff hv]
  | text s =>
      unfold toInteger number?
      dsimp only
      cases Number.readInteger s.toList <;> simp
  | null | list | object => simp [toInteger, number?]

/-- Only what is infinite is out of range as an integer. -/
theorem isInfinite_of_toInteger_error {p : Payload Float} {fault : Misfit} (h : p.toInteger = .error fault)
    (hrange : fault.isRange = true) : fault = .infiniteInteger ∧ p.IsInfinite := by
  cases p with
  | int | bool => cases h
  | null | list | object =>
      cases h
      cases hrange
  | real x =>
      unfold toInteger at h
      dsimp only at h
      split at h
      case h_1 =>
        cases h
        cases hrange
      case h_2 negative hx =>
        cases h
        exact ⟨rfl, x, negative, rfl, hx⟩
      case h_3 => cases h
  | text s =>
      unfold toInteger at h
      dsimp only at h
      split at h
      · cases h
      · cases h
        cases hrange

end Payload

/-! ### Accepted tallies -/

/-- The tally is the one that was sent, with the fractions of the counts cut off and the number of shots kept as it is.
No count is left below zero, and without its fraction the number of shots is their sum; where it was not sent, it is
their sum. -/
structure Tally.CutFrom (sent : Fields) (shots : Option (Payload Float)) (t : Tally Float) : Prop where
  counts : List.Forall₂ (fun p q => p.1 = q.1 ∧ ∃ x, p.2.number? = some x ∧ Number.cutOff x = q.2) sent t.counts
  nonnegative : ∀ entry ∈ t.counts, 0 ≤ entry.2
  total : ∃ x, t.shots.number? = some x ∧ Number.cutOff x = Counts.total t.counts
  shots : t.shots = shots.getD .null ∨ shots.getD .null = .null ∧ t.shots = .int (Counts.total t.counts)

/-- No count that was sent is negative, none that was kept is, and the number of shots is exactly their sum. -/
structure Tally.AgreesWith (sent : Fields) (t : Tally Float) : Prop where
  sent : ∀ entry ∈ sent, ∃ x, entry.2.number? = some x ∧ 0 ≤ x
  counts : ∀ entry ∈ t.counts, 0 ≤ entry.2
  total : t.shots.number? = some (Counts.total t.counts : ℚ)

section

variable {sent : Fields} {shots : Option (Payload Float)} {t : Tally Float}

/-- Every count of an accepted tally is a number above minus one. -/
theorem Tally.CutFrom.number_gt (h : t.CutFrom sent shots) {entry : String × Payload Float} (hentry : entry ∈ sent) :
    ∃ x, entry.2.number? = some x ∧ -1 < x := by
  have hread : Table.readValues Payload.toInteger sent = .ok t.counts := by
    simpa only [Table.readValues_eq_ok_iff, Payload.toInteger_eq_ok_iff] using h.counts
  obtain ⟨n, hn, hmem⟩ := Table.exists_mem_of_readValues hread hentry
  obtain ⟨x, hx, rfl⟩ := Payload.toInteger_eq_ok_iff.mp hn
  exact ⟨x, hx, Number.cutOff_nonneg_iff.mp (h.nonnegative _ hmem)⟩

/-- An accepted tally agrees with what was sent unless a negative count was cut off to zero or there is a fraction of a shot. -/
theorem Tally.CutFrom.agreesWith_iff (h : t.CutFrom sent shots) :
    t.AgreesWith sent ↔ (∀ entry ∈ sent, ∀ x, entry.2.number? = some x → ¬ (-1 < x ∧ x < 0)) ∧
      ∃ n : ℤ, t.shots.number? = some (n : ℚ) := by
  constructor
  · rintro ⟨hsent, -, htotal⟩
    refine ⟨fun entry hentry x hx hbetween => ?_, _, htotal⟩
    obtain ⟨x', hx', hsign⟩ := hsent entry hentry
    obtain rfl : x' = x := Option.some.inj (hx'.symm.trans hx)
    exact not_le.mpr hbetween.2 hsign
  · rintro ⟨hsent, n, hn⟩
    refine ⟨fun entry hentry => ?_, h.nonnegative, ?_⟩
    · obtain ⟨x, hx, habove⟩ := h.number_gt hentry
      exact ⟨x, hx, not_lt.mp fun hx0 => hsent entry hentry x hx ⟨habove, hx0⟩⟩
    · obtain ⟨x, hx, htotal⟩ := h.total
      obtain rfl : x = n := Option.some.inj (hx.symm.trans hn)
      rw [hn, ← htotal, Number.cutOff_intCast]

end

namespace Result

/-- **The accepted tallies.** -/
theorem decodeTally_eq_ok_iff {sent : Fields} {shots : Option (Payload Float)} {t : Tally Float} :
    decodeTally (.object sent) shots = .ok t ↔ t.CutFrom sent shots := by
  rw [decodeTally_object]
  simp only [Table.readValues_eq_ok_iff, Payload.toInteger_eq_ok_iff]
  constructor
  · rintro ⟨counts, hcounts, hsign, ⟨hnull, rfl⟩ | ⟨htotal, rfl⟩⟩
    · exact ⟨hcounts, hsign, ⟨_, rfl, Number.cutOff_intCast _⟩, .inr ⟨hnull, rfl⟩⟩
    · exact ⟨hcounts, hsign, htotal, .inl rfl⟩
  · obtain ⟨counts, given⟩ := t
    rintro ⟨hcounts, hsign, htotal, hshots⟩
    refine ⟨counts, hcounts, hsign, ?_⟩
    rcases hshots with hgiven | ⟨hnull, hgiven⟩
    · exact .inr ⟨hgiven ▸ htotal, by rw [← hgiven]⟩
    · exact .inl ⟨hnull, by rw [← hgiven]⟩

/-- A count that is no number above minus one is refused; the fault is one of shape unless some count is infinite. -/
theorem decodeTally_refuses {sent : Fields} (shots : Option (Payload Float)) {entry : String × Payload Float}
    (hentry : entry ∈ sent) (h : ∀ x, entry.2.number? = some x → x ≤ -1) :
    ∃ fault, decodeTally (.object sent) shots = .error fault ∧
      (fault.isRange = true → fault = .infiniteInteger ∧ ∃ entry ∈ sent, entry.2.IsInfinite) := by
  cases hcounts : Table.readValues Payload.toInteger sent with
  | error fault =>
      refine ⟨fault, ?_, fun hrange => ?_⟩
      · unfold decodeTally
        simp only [hcounts]
        rfl
      · obtain ⟨entry, hmem, herror⟩ := Table.error_of_readValues hcounts
        obtain ⟨hfault, hinfinite⟩ := Payload.isInfinite_of_toInteger_error herror hrange
        exact ⟨hfault, entry, hmem, hinfinite⟩
  | ok counts =>
      -- all counts could be read, and this one is below zero
      have hany : counts.any (·.2 < 0) = true := by
        obtain ⟨n, hn, hmem⟩ := Table.exists_mem_of_readValues hcounts hentry
        obtain ⟨x, hx, hcut⟩ := Payload.toInteger_eq_ok_iff.mp hn
        have hnegative : n < 0 := by
          rw [← hcut, ← not_le, Number.cutOff_nonneg_iff, not_lt]
          exact h x hx
        exact List.any_eq_true.mpr ⟨_, hmem, decide_eq_true hnegative⟩
      refine ⟨.negativeCount, ?_, fun hrange => by cases hrange⟩
      unfold decodeTally
      simp only [hcounts, bind, Except.bind, hany, if_true]
      rfl

/-! ### Decoded circuits -/

/-- What has been decoded was read by the reader of its type. -/
theorem ofFields_eq_ok {fields : Fields} {r : Result Float} (h : ofFields fields = .ok r) :
    ∃ name reader, fields.get? "type" = some (.text name) ∧ decoder? name = some reader ∧ reader fields = .ok r := by
  unfold ofFields at h
  dsimp only at h
  split at h
  case h_1 name htype =>
    rcases Option.getD_eq_iff.mp htype with htype | ⟨-, hnull⟩
    case inr => cases hnull
    split at h
    case h_1 => cases h
    case h_2 reader hreader =>
      split at h
      case h_1 r' hread =>
        cases h
        exact ⟨name, reader, htype, hreader, hread⟩
      case h_2 => cases h
  case h_2 => cases h

/-- The type of a result by the name that it is sent with. -/
def typeName : Result Float → String
  | success _ => "success"
  | uncertain _ _ _ => "uncertain"
  | circuit _ _ _ _ => "quantum_circuit"
  | parallel _ _ => "parallel"
  | failure _ => "error"

/-- The measurements of a circuit are read apart from its other fields. -/
theorem exists_of_decodeCircuit {fields : Fields} {r : Result Float} (h : decodeCircuit fields = .ok r) :
    ∃ name qubits measured message, decodeMeasurements fields = .ok measured ∧
      r = .circuit name qubits measured message := by
  obtain ⟨measured, hmeasured, h⟩ := ok_of_bind h
  obtain ⟨sent, -, h⟩ := ok_of_bind h
  obtain ⟨name, -, h⟩ := ok_of_bind h
  obtain ⟨qubits, -, h⟩ := ok_of_bind h
  obtain ⟨message, -, h⟩ := ok_of_bind h
  cases h
  exact ⟨name, qubits, measured, message, hmeasured, rfl⟩

/-- The outcomes of branches are read one by one. -/
theorem exists_of_decodeParallel {fields : Fields} {r : Result Float} (h : decodeParallel fields = .ok r) :
    ∃ (outcomes : Table (Outcome Float)) (message : String),
      (outcomes = [] ∨ ∃ entries, Table.readValues Outcome.decode entries = .ok outcomes) ∧
      r = .parallel outcomes message := by
  unfold decodeParallel at h
  dsimp only at h
  split at h
  case isTrue =>
    obtain ⟨outcomes, hnone, h⟩ := ok_of_bind h
    obtain ⟨message, -, h⟩ := ok_of_bind h
    cases h
    cases hnone
    exact ⟨[], message, .inl rfl, rfl⟩
  case isFalse =>
    split at h
    case h_1 entries _ =>
      obtain ⟨outcomes, houtcomes, h⟩ := ok_of_bind h
      obtain ⟨message, -, h⟩ := ok_of_bind h
      cases h
      exact ⟨outcomes, message, .inr ⟨entries, houtcomes⟩, rfl⟩
    case h_2 => cases h

/-- Every reader gives results of its own type; a success may turn out to be an uncertain quantity. -/
theorem typeName_of_decoder {type : String} {reader : Fields → Except Misfit (Result Float)} {fields : Fields}
    {r : Result Float} (hreader : decoder? type = some reader) (h : reader fields = .ok r) :
    type = r.typeName ∨ type = "success" ∧ r.typeName = "uncertain" := by
  unfold decoder? at hreader
  split_ifs at hreader with hsuccess huncertain hcircuit hparallel hfailure <;> cases hreader
  · unfold decodeSuccess at h
    dsimp only at h
    split at h
    case h_1 =>
      split at h
      · obtain ⟨nominal, -, h⟩ := ok_of_bind h
        obtain ⟨uncertainty, -, h⟩ := ok_of_bind h
        cases h
        exact .inr ⟨hsuccess, rfl⟩
      · obtain ⟨text, -, rfl⟩ := ok_of_map h
        exact .inl hsuccess
    case h_2 =>
      obtain ⟨text, -, rfl⟩ := ok_of_map h
      exact .inl hsuccess
  · obtain ⟨value, -, h⟩ := ok_of_bind h
    obtain ⟨text, -, h⟩ := ok_of_bind h
    obtain ⟨nominal, -, h⟩ := ok_of_bind h
    obtain ⟨uncertainty, -, h⟩ := ok_of_bind h
    cases h
    exact .inl huncertain
  · obtain ⟨name, qubits, measured, message, -, rfl⟩ := exists_of_decodeCircuit h
    exact .inl hcircuit
  · obtain ⟨outcomes, message, -, rfl⟩ := exists_of_decodeParallel h
    exact .inl hparallel
  · obtain ⟨report, -, rfl⟩ := ok_of_map h
    exact .inl hfailure

/-- No other reader gives a circuit. -/
theorem eq_decodeCircuit {type name : String} {reader : Fields → Except Misfit (Result Float)} {fields : Fields}
    {qubits : ℤ} {measured : Measurements Float} {message : String} (hreader : decoder? type = some reader)
    (h : reader fields = .ok (.circuit name qubits measured message)) : reader = decodeCircuit := by
  obtain rfl | ⟨-, hother⟩ := typeName_of_decoder hreader h
  · exact (Option.some.inj hreader).symm
  · exact absurd hother (by simp [typeName])

/-- No other reader gives the outcomes of branches. -/
theorem eq_decodeParallel {type : String} {reader : Fields → Except Misfit (Result Float)} {fields : Fields}
    {branches : Table (Outcome Float)} {message : String} (hreader : decoder? type = some reader)
    (h : reader fields = .ok (.parallel branches message)) : reader = decodeParallel := by
  obtain rfl | ⟨-, hother⟩ := typeName_of_decoder hreader h
  · exact (Option.some.inj hreader).symm
  · exact absurd hother (by simp [typeName])

/-- The tally of a decoded circuit is read from its counts. -/
theorem decodeTally_of_decodeCircuit {fields : Fields} {name : String} {qubits : ℤ} {t : Tally Float}
    {message : String} (h : decodeCircuit fields = .ok (.circuit name qubits (.tallied t) message)) :
    ∃ sent, fields.get? "counts" = some (.object sent) ∧
      decodeTally (.object sent) (fields.get? "shots") = .ok t := by
  obtain ⟨_, _, measured, _, hmeasured, heq⟩ := exists_of_decodeCircuit h
  cases heq
  unfold decodeMeasurements at hmeasured
  split at hmeasured
  case h_1 | h_2 => cases hmeasured
  case h_3 counts _ hcounts =>
    obtain ⟨t', ht', htallied⟩ := ok_of_map hmeasured
    cases htallied
    cases counts with
    | object sent => exact ⟨sent, hcounts, ht'⟩
    | null | bool | int | real | text | list => cases ht'

/-- **Decoded tallies.**  The counts of a decoded circuit are the ones that were sent without their fractions: none is
left below zero, and they sum to the number of shots without its fraction.  They agree with what was sent exactly
if no count lies between minus one and zero and the number of shots is an integer.  A count of minus one or less, or one
that is no number, is refused: as malformed, unless a count is infinite. -/
theorem decoded_tally_consistent (fields : Fields) :
    (∀ name qubits t message, decode (.object fields) = .ok (.circuit name qubits (.tallied t) message) →
      ∃ sent, (merge fields).get? "counts" = some (.object sent) ∧ t.CutFrom sent ((merge fields).get? "shots") ∧
        (t.AgreesWith sent ↔ (∀ entry ∈ sent, ∀ x, entry.2.number? = some x → ¬ (-1 < x ∧ x < 0)) ∧
          ∃ n : ℤ, t.shots.number? = some (n : ℚ))) ∧
    ∀ sent, (merge fields).get? "type" = some (.text "quantum_circuit") →
      (merge fields).get? "counts" = some (.object sent) →
      (∃ entry ∈ sent, ∀ x, entry.2.number? = some x → x ≤ -1) →
      (∃ fault, decode (.object fields) = .error (.malformed "quantum_circuit" fault)) ∨
        decode (.object fields) = .error (.outside .infiniteInteger) ∧ ∃ entry ∈ sent, entry.2.IsInfinite := by
  constructor
  · intro name qubits t message h
    obtain ⟨type, reader, -, hreader, hread⟩ := ofFields_eq_ok h
    obtain rfl := eq_decodeCircuit hreader hread
    obtain ⟨sent, hsent, htally⟩ := decodeTally_of_decodeCircuit hread
    have hcut := decodeTally_eq_ok_iff.mp htally
    exact ⟨sent, hsent, hcut, hcut.agreesWith_iff⟩
  · rintro sent htype hsent ⟨entry, hentry, hrefused⟩
    obtain ⟨fault, hfault, hrange⟩ := decodeTally_refuses ((merge fields).get? "shots") hentry hrefused
    have hdecode : decode (.object fields) =
        .error (if fault.isRange then .outside fault else .malformed "quantum_circuit" fault) := by
      have hcircuit : decodeCircuit (merge fields) = .error fault := by
        unfold decodeCircuit decodeMeasurements
        simp only [hsent, hfault]
        rfl
      show ofFields (merge fields) = _
      rw [ofFields_eq htype rfl, hcircuit]
      rfl
    cases hshape : fault.isRange with
    | false => exact .inl ⟨fault, by rw [hdecode, hshape]; rfl⟩
    | true =>
        obtain ⟨rfl, hinfinite⟩ := hrange hshape
        exact .inr ⟨hdecode, hinfinite⟩

/-- Minus half a count is kept as none, and two and a half shots stand for a sum of two, while a count of minus one is
refused. -/
theorem decoded_tally_consistent_fractions :
    ∃ (x y : Float) (sent : Fields) (t : Tally Float), x = Number.ofFraction true 1 2 ∧ y = Number.ofFraction false 5 2 ∧
      sent = [("0", .real x), ("1", .bool true), ("2", .text "1")] ∧
      t = ⟨[("0", 0), ("1", 1), ("2", 1)], .real y⟩ ∧
      decode (.object [("type", .text "quantum_circuit"), ("circuit_name", .text "c"), ("counts", .object sent),
        ("shots", .real y)]) = .ok (.circuit "c" 0 (.tallied t) "") ∧
      ¬ t.AgreesWith sent ∧
      ∃ fault, decode (.object [("type", .text "quantum_circuit"), ("circuit_name", .text "c"),
        ("counts", .object [("0", .int (-1))])]) = .error (.malformed "quantum_circuit" fault) := by
  obtain ⟨x, hx⟩ : ∃ x, x = Number.ofFraction true 1 2 := ⟨_, rfl⟩
  obtain ⟨y, hy⟩ : ∃ y, y = Number.ofFraction false 5 2 := ⟨_, rfl⟩
  have hxbinary : Number.Binary.ofFloat x = .finite true (2 ^ 52) (-53) := by
    rw [hx]
    decide +kernel
  have hybinary : Number.Binary.ofFloat y = .finite false (5 * 2 ^ 50) (-51) := by
    rw [hy]
    decide +kernel
  have hcounts : Table.readValues Payload.toInteger [("0", .real x), ("1", .bool true), ("2", .text "1")] =
      .ok [("0", 0), ("1", 1), ("2", 1)] := by
    refine Table.readValues_eq_ok_iff.mpr (.cons ⟨rfl, ?_⟩ (.cons ⟨rfl, rfl⟩ (.cons ⟨rfl, rfl⟩ .nil)))
    simp only [Payload.toInteger, hxbinary]
    exact congrArg Except.ok (by decide)
  have hshots : Payload.toInteger (.real y) = .ok 2 := by
    simp only [Payload.toInteger, hybinary]
    exact congrArg Except.ok (by decide)
  have htally : decodeTally (.object [("0", .real x), ("1", .bool true), ("2", .text "1")]) (some (.real y)) =
      .ok ⟨[("0", 0), ("1", 1), ("2", 1)], .real y⟩ :=
    decodeTally_object.mpr ⟨_, hcounts, by decide, .inr ⟨hshots, rfl⟩⟩
  have hdecode : decode (.object [("type", .text "quantum_circuit"), ("circuit_name", .text "c"),
      ("counts", .object [("0", .real x), ("1", .bool true), ("2", .text "1")]), ("shots", .real y)]) =
      .ok (.circuit "c" 0 (.tallied ⟨[("0", 0), ("1", 1), ("2", 1)], .real y⟩) "") := by
    rw [decode_object_eq rfl rfl rfl]
    unfold decodeCircuit
    show Except.mapError _ ((decodeTally _ (some (.real y))).map Measurements.tallied >>= _) = _
    rw [htally]
    rfl
  obtain ⟨sent, hsent, -, hagrees⟩ := (decoded_tally_consistent _).1 _ _ _ _ hdecode
  cases hsent
  refine ⟨x, y, _, _, hx, hy, rfl, rfl, hdecode, fun h => ?_, ?_⟩
  · have hnumber : (Payload.real x).number? = some (-(2 ^ 52 * 2 ^ (-53 : ℤ))) := by
      simp only [Payload.number?, hxbinary, Number.Binary.value?, if_true]
      push_cast
      rfl
    exact (hagrees.mp h).1 ("0", .real x) List.mem_cons_self _ hnumber (by norm_num)
  · refine ((decoded_tally_consistent _).2 _ rfl rfl ⟨_, List.mem_cons_self, ?_⟩).resolve_right ?_
    · intro x hx
      cases hx
      norm_num
    · rintro ⟨-, entry, hentry, x, negative, hx, -⟩
      rw [List.mem_singleton.mp hentry] at hx
      cases hx

end Result

end LabLang
