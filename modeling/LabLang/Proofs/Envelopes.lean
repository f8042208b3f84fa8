import LabLang.Proofs.Tables
import LabLang.Result.Decode

/-! # Envelopes

A service may put the fields of a result into an object named `data`, or some of them.  What is read from a result are its
fields by name (`ofFields_congr`), in whatever order they stand and never `data` itself, and the fields of an envelope are
those beside the nested object and behind them those in it (`get?_merge`).  However the fields of an object are divided
between the two places, the envelope is hence read as the object is, also where reading fails, and a nested field is not
seen where there is one of its name beside it (`decode_envelope`). -/

namespace LabLang

/-! ### Fields by name -/

/-- The objects have the same fields by name, `data` apart. -/
def Fields.SameContent (f g : Fields) : Prop := ∀ name, name ≠ "data" → f.get? name = g.get? name

section

variable {f g : Fields} (h : f.SameContent g)
include h

theorem Fields.SameContent.need {name : String} (hname : name ≠ "data") : f.need name = g.need name := by
  unfold Fields.need
  rw [h name hname]

theorem Fields.SameContent.findSome? {names : List String} (hnames : "data" ∉ names) :
    names.findSome? f.get? = names.findSome? g.get? := by
  induction names with
  | nil => rfl
  | cons name rest ih =>
      rw [List.mem_cons, not_or] at hnames
      rw [List.findSome?_cons, List.findSome?_cons, h name (Ne.symm hnames.1), ih hnames.2]

theorem Fields.SameContent.textOr {names : List String} (hnames : "data" ∉ names) (default : String) :
    f.textOr names default = g.textOr names default := by
  unfold Fields.textOr
  rw [h.findSome? hnames]

theorem Fields.SameContent.realOr {name : String} (hname : name ≠ "data") (default : Float) :
    f.realOr name default = g.realOr name default := by
  unfold Fields.realOr
  rw [h name hname]

theorem Report.ofFields_congr : Report.ofFields f = Report.ofFields g := by
  unfold Report.ofFields
  rw [h.textOr (by decide), h.textOr (by decide), h "line" (by decide)]

namespace Result

theorem decodeSuccess_congr : decodeSuccess f = decodeSuccess g := by
  unfold decodeSuccess
  rw [h.textOr (by decide), h "result" (by decide)]

theorem decodeUncertain_congr : decodeUncertain f = decodeUncertain g := by
  unfold decodeUncertain
  rw [h.need (by decide), h.realOr (by decide), h.realOr (by decide)]

theorem decodeMeasurements_congr : decodeMeasurements f = decodeMeasurements g := by
  unfold decodeMeasurements
  rw [h "counts" (by decide), h "shots" (by decide)]

theorem decodeCircuit_congr : decodeCircuit f = decodeCircuit g := by
  unfold decodeCircuit
  rw [decodeMeasurements_congr h, h.need (by decide), h "qubits" (by decide), h.textOr (by decide)]

theorem decodeParallel_congr : decodeParallel f = decodeParallel g := by
  unfold decodeParallel
  rw [h "branches" (by decide), h.textOr (by decide)]

/-- Every reader of results reads fields by name. -/
theorem decoder_congr {type : String} {reader : Fields → Except Misfit (Result Float)}
    (hreader : decoder? type = some reader) : reader f = reader g := by
  unfold decoder? at hreader
  split_ifs at hreader <;> cases hreader
  · exact decodeSuccess_congr h
  · exact decodeUncertain_congr h
  · exact decodeCircuit_congr h
  · exact decodeParallel_congr h
  · exact congrArg (Except.map failure) (Report.ofFields_congr h)

theorem ofFields_congr : ofFields f = ofFields g := by
  unfold ofFields
  rw [h "type" (by decide)]
  dsimp only
  split
  case h_2 => rfl
  case h_1 name _ =>
    cases hreader : decoder? name with
    | none => rfl
    | some reader =>
        dsimp only
        rw [decoder_congr h hreader]

end Result

end

namespace Result

/-! ### Envelopes -/

/-- What is found in an envelope stands beside its nested object, or else in it. -/
theorem get?_merge {envelope inner : Fields} (distinct : envelope.keys.Nodup)
    (data : envelope.get? "data" = some (.object inner)) {name : String} (hname : name ≠ "data") :
    (merge envelope).get? name = (envelope.get? name).or (inner.get? name) := by
  have hdistinct : (Table.keys (envelope.filter (·.1 != "data"))).Nodup :=
    distinct.sublist (List.filter_sublist.map Prod.fst)
  unfold merge
  rw [data]
  dsimp only
  rw [Table.get?_putAll hdistinct, Table.get?_filter (· != "data") envelope (by simpa using hname)]

/-- An object without `data` is its own content. -/
theorem merge_of_get?_eq_none {fields : Fields} (h : fields.get? "data" = none) : merge fields = fields := by
  unfold merge
  rw [h]

/-- The object has the fields `outer` and, somewhere among them, an object of the fields `inner` as its data. -/
structure IsEnvelope (envelope outer inner : Fields) : Prop where
  distinct : outer.keys.Nodup
  plain : "data" ∉ outer.keys
  fields : envelope.Perm (("data", .object inner) :: outer)

section

variable {envelope outer inner : Fields}

theorem IsEnvelope.get?_eq (h : IsEnvelope envelope outer inner) :
    envelope.keys.Nodup ∧ ∀ name, envelope.get? name = Table.get? (("data", .object inner) :: outer) name := by
  have hkeys : envelope.keys.Perm ("data" :: outer.keys) := h.fields.map Prod.fst
  have hdistinct := hkeys.nodup_iff.mpr (List.nodup_cons.mpr ⟨h.plain, h.distinct⟩)
  exact ⟨hdistinct, Table.get?_perm h.fields hdistinct⟩

theorem IsEnvelope.get?_data (h : IsEnvelope envelope outer inner) : envelope.get? "data" = some (.object inner) := by
  rw [h.get?_eq.2, Table.get?, if_pos rfl]

theorem IsEnvelope.get?_of_ne (h : IsEnvelope envelope outer inner) {name : String} (hname : name ≠ "data") :
    envelope.get? name = outer.get? name := by
  rw [h.get?_eq.2, Table.get?, if_neg (Ne.symm hname)]

/-- An envelope is read like any object without `data` that has its fields, those beside the nested object first. -/
theorem IsEnvelope.decode_eq (h : IsEnvelope envelope outer inner) {flat : Fields} (plain : "data" ∉ flat.keys)
    (hflat : ∀ name, name ≠ "data" → flat.get? name = (outer.get? name).or (inner.get? name)) :
    decode (.object envelope) = decode (.object flat) := by
  show ofFields (merge envelope) = ofFields (merge flat)
  rw [merge_of_get?_eq_none (Table.get?_eq_none_iff.mpr plain)]
  refine ofFields_congr fun name hname => ?_
  rw [get?_merge h.get?_eq.1 h.get?_data hname, h.get?_of_ne hname, hflat name hname]

/-- Where the fields of an object without `data` are divided between the two places, the order of reading does not
matter: none of them stands in both. -/
theorem IsEnvelope.decode_eq_of_perm (h : IsEnvelope envelope outer inner) {flat : Fields} (distinct : flat.keys.Nodup)
    (plain : "data" ∉ flat.keys) (hflat : flat.Perm (outer ++ inner)) :
    decode (.object envelope) = decode (.object flat) := by
  refine h.decode_eq plain fun name _ => ?_
  rw [Table.get?_perm hflat distinct, Table.get?_append]

theorem IsEnvelope.has_eq (h : IsEnvelope envelope outer inner) {name : String} (hname : name ≠ "data") :
    envelope.has name = outer.has name := by
  unfold Table.has
  rw [h.get?_of_ne hname]

/-- Nested fields that have the name of a field beside the nested object can be left out. -/
theorem IsEnvelope.decode_eq_append_filter (h : IsEnvelope envelope outer inner) :
    decode (.object envelope) = decode (.object (outer ++ inner.filter fun field => !envelope.has field.1)) := by
  refine h.decode_eq (fun hdata => ?_) fun name hname => ?_
  · obtain ⟨field, hfield, hdata⟩ := List.mem_map.mp hdata
    rcases List.mem_append.mp hfield with hfield | hfield
    · exact h.plain (hdata ▸ List.mem_map_of_mem hfield)
    · have hnew := List.of_mem_filter hfield
      rw [hdata, Table.has, h.get?_data] at hnew
      cases hnew
  · rw [Table.get?_append]
    cases houtside : outer.get? name with
    | some p => rw [Option.some_or, Option.some_or]
    | none =>
        have hnew : (!envelope.has name) = true := by
          rw [h.has_eq hname, Table.has, houtside]
          rfl
        rw [Option.none_or, Option.none_or, Table.get?_filter (!envelope.has ·) inner hnew]

end

/-- **Envelopes.**  However the fields of an object without `data` are divided into those that stay where they are and those
that are put into a nested `data`, the envelope is read like the object: both give the same result, or both are refused for
the same reason.  Where a field stands in both places the nested one is not seen: the envelope is read like the object of
the outer fields and of those nested fields that have none of the names outside. -/
theorem decode_envelope :
    (∀ flat outer inner envelope : Fields, flat.keys.Nodup → "data" ∉ flat.keys → flat.Perm (outer ++ inner) →
      envelope.Perm (("data", .object inner) :: outer) → decode (.object envelope) = decode (.object flat)) ∧
    (∀ outer inner envelope : Fields, outer.keys.Nodup → "data" ∉ outer.keys →
      envelope.Perm (("data", .object inner) :: outer) →
      decode (.object envelope) = decode (.object (outer ++ inner.filter fun field => !envelope.has field.1))) := by
  constructor
  · intro flat outer inner envelope distinct plain hflat henvelope
    have hkeys : flat.keys.Perm (outer.keys ++ inner.keys) := (hflat.map Prod.fst).trans (.of_eq List.map_append)
    have hsplit := hkeys.nodup_iff.mp distinct
    have houter : "data" ∉ outer.keys := fun h => plain (hkeys.mem_iff.mpr (List.mem_append_left _ h))
    have h : IsEnvelope envelope outer inner := ⟨hsplit.of_append_left, houter, henvelope⟩
    exact h.decode_eq_of_perm distinct plain hflat
  · intro outer inner envelope distinct houter henvelope
    have h : IsEnvelope envelope outer inner := ⟨distinct, houter, henvelope⟩
    exact h.decode_eq_append_filter

/-- Counts that do not add up to the shots: refused in every arrangement, and a nested number of shots that would have been
right is not seen.  Without counts it is the number of shots outside that the result keeps. -/
theorem decode_envelope_refused :
    ∃ flat outer inner envelope covered uncounted : Fields,
      flat = [("type", .text "quantum_circuit"), ("circuit_name", .text "c"), ("counts", .object [("0", .int 2)]),
        ("shots", .int 3)] ∧
      outer = [("type", .text "quantum_circuit"), ("shots", .int 3)] ∧
      inner = [("circuit_name", .text "c"), ("counts", .object [("0", .int 2)])] ∧
      envelope = ("data", .object inner) :: outer ∧
      covered = ("data", .object (("shots", .int 2) :: inner)) :: outer ∧
      uncounted = ("data", .object [("circuit_name", .text "c"), ("shots", .int 2)]) :: outer ∧
      flat.keys.Nodup ∧ "data" ∉ flat.keys ∧ flat.Perm (outer ++ inner) ∧ outer.keys.Nodup ∧ "data" ∉ outer.keys ∧
      decode (.object flat) = .error (.malformed "quantum_circuit" (.shots "2" "3")) ∧
      decode (.object envelope) = .error (.malformed "quantum_circuit" (.shots "2" "3")) ∧
      decode (.object covered) = .error (.malformed "quantum_circuit" (.shots "2" "3")) ∧
      decode (.object uncounted) = .ok (.circuit "c" 0 (.uncounted (.int 3)) "") := by
  obtain ⟨flat, hflat⟩ : ∃ flat : Fields, flat = [("type", .text "quantum_circuit"), ("circuit_name", .text "c"),
    ("counts", .object [("0", .int 2)]), ("shots", .int 3)] := ⟨_, rfl⟩
  obtain ⟨outer, houter⟩ : ∃ outer : Fields, outer = [("type", .text "quantum_circuit"), ("shots", .int 3)] := ⟨_, rfl⟩
  obtain ⟨inner, hinner⟩ : ∃ inner : Fields, inner = [("circuit_name", .text "c"), ("counts", .object [("0", .int 2)])] :=
    ⟨_, rfl⟩
  have hdistinct : flat.keys.Nodup ∧ "data" ∉ flat.keys ∧ outer.keys.Nodup ∧ "data" ∉ outer.keys := by
    rw [hflat, houter]
    decide
  obtain ⟨distinct, plain, distinct', plain'⟩ := hdistinct
  have hperm : flat.Perm (outer ++ inner) := by
    rw [hflat, houter, hinner]
    exact (List.perm_append_singleton ("shots", Payload.int 3)
      [("circuit_name", .text "c"), ("counts", .object [("0", .int 2)])]).cons _
  have hrefused : decode (.object flat) = .error (.malformed "quantum_circuit" (.shots "2" "3")) := by
    rw [hflat]
    rfl
  have hcovered : decode (.object (("data", .object (("shots", .int 2) :: inner)) :: outer)) =
      .error (.malformed "quantum_circuit" (.shots "2" "3")) := by
    rw [decode_envelope.2 outer _ _ distinct' plain' (.refl _), houter, hinner]
    rfl
  have huncounted : decode (.object (("data", .object [("circuit_name", .text "c"), ("shots", .int 2)]) :: outer)) =
      .ok (.circuit "c" 0 (.uncounted (.int 3)) "") := by
    rw [decode_envelope.2 outer _ _ distinct' plain' (.refl _), houter]
    rfl
  exact ⟨flat, outer, inner, _, _, _, hflat, houter, hinner, rfl, rfl, rfl, distinct, plain, hperm, distinct', plain',
    hrefused, (decode_envelope.1 flat outer inner _ distinct plain hperm (.refl _)).trans hrefused, hcovered,
    huncounted⟩

end Result

end LabLang
