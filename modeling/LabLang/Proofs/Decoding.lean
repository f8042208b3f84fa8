import LabLang.Proofs.Readers
import LabLang.Proofs.Tables
import LabLang.Result.Decode

/-! # What decoding refuses

Reading a result succeeds, or finds the payload malformed, or lets a fault through: numbers out of range and quantities
that there are not have the right shape and are not called malformed (`Misfit.isRange`).  `Blames among x` says that
such a fault of the reader `x` is provoked by one of the payloads `among`.  It is kept by sequencing and by the loop
over the fields of an object, so that every fault that is let through is provoked by a part of the payload
(`decode_malformed_or_provoked`).  Nothing that provokes a fault can be left out of the list: it stands in some object
whose reading ends with the fault (`exists_decode_eq_outside`).  What a tally has to pass is stated on its own
(`decodeTally_object`).  The payload may be nested to any depth: a bound that an interpreter sets to the depth of its calls
is not part of the model. -/

namespace LabLang

/-! ### Parts -/

/-- The payload is the other one, or it stands in one of its fields at some depth. -/
inductive Payload.Within {R : Type} : Payload R → Payload R → Prop
  | self (p : Payload R) : Within p p
  | field {p q : Payload R} {name : String} {fields : List (String × Payload R)} (member : (name, q) ∈ fields)
      (inside : Within p q) : Within p (.object fields)

theorem Payload.Within.trans {R : Type} {p q r : Payload R} (hpq : p.Within q) (hqr : q.Within r) : p.Within r := by
  induction hqr with
  | self => exact hpq
  | field member _ ih => exact .field member ih

/-- The payload has the right shape and is out of range nevertheless: it is infinite where an integer is asked for, an
integer that is too large for a real number, or an uncertain quantity that there is not. -/
inductive Payload.Provokes : Payload Float → Misfit → Prop
  | infinite {x : Float} {negative : Bool} (h : Number.Binary.ofFloat x = .infinity negative) :
      Provokes (.real x) .infiniteInteger
  | huge {n : Int} (h : Scalar.isFinite (Scalar.int n : Float) = false) : Provokes (.int n) .hugeInteger
  | quantity {fields : Fields} {nominal uncertainty : Float} {cause : Cause Float}
      (type : fields.get? "type" = some (.text "uncertain"))
      (nominal_eq : fields.real "nominal" = .ok nominal)
      (uncertainty_eq : fields.real "uncertainty" = .ok uncertainty)
      (refused : Quantity.make nominal uncertainty = .error cause) : Provokes (.object fields) (.quantity cause)

/-- The payload was found to be no result, by its type or by its shape. -/
def Result.Refusal.isMalformed : Result.Refusal → Bool
  | unknownType _ | malformed _ _ => true
  | outside _ => false

/-! ### Readers that blame a payload -/

variable {α β : Type} {among : Payload Float → Prop}

/-- If the reader fails by a number or a quantity out of range, one of the payloads provokes this. -/
def Blames (among : Payload Float → Prop) (x : Except Misfit α) : Prop :=
  ∀ fault, x = .error fault → fault.isRange = true → ∃ p, among p ∧ p.Provokes fault

section combinators

theorem blames_ok (a : α) : Blames among (.ok a) := by
  intro fault h
  cases h

/-- A misfit of shape blames nothing. -/
theorem blames_shape (fault : Misfit) (h : fault.isRange = false) : Blames (α := α) among (.error fault) := by
  intro fault' h' hrange
  cases h'
  rw [h] at hrange
  cases hrange

theorem blames_error {p : Payload Float} {fault : Misfit} (hp : among p) (h : p.Provokes fault) :
    Blames (α := α) among (.error fault) := by
  intro fault' h' _
  cases h'
  exact ⟨p, hp, h⟩

theorem blames_bind {x : Except Misfit α} {g : α → Except Misfit β} (hx : Blames among x)
    (hg : ∀ a, x = .ok a → Blames among (g a)) : Blames among (x >>= g) := by
  cases x with
  | error fault => exact fun fault' h => hx fault' (by cases h; rfl)
  | ok a => exact hg a rfl

theorem blames_map {x : Except Misfit α} {g : α → β} (hx : Blames among x) : Blames among (x.map g) := by
  cases x with
  | error fault => exact fun fault' h => hx fault' (by cases h; rfl)
  | ok a => exact blames_ok (g a)

/-- A test of shape in front of a reader. -/
theorem blames_unless {p : Prop} [Decidable p] (fault : Misfit) {x : Except Misfit α} (h : fault.isRange = false)
    (hx : Blames among x) : Blames among (if p then (throw fault : Except Misfit Unit) >>= fun _ => x else x) := by
  split
  · exact blames_shape fault h
  · exact hx

/-- A reader may blame more payloads. -/
theorem Blames.mono {among' : Payload Float → Prop} {x : Except Misfit α} (hx : Blames among x)
    (h : ∀ p, among p → among' p) : Blames among' x := by
  intro fault hfault hrange
  obtain ⟨p, hp, hprovokes⟩ := hx fault hfault hrange
  exact ⟨p, h p hp, hprovokes⟩

theorem blames_readValues {read : Payload Float → Except Misfit β} {entries : Fields}
    (h : ∀ entry ∈ entries, Blames among (read entry.2)) : Blames among (Table.readValues read entries) := by
  unfold Table.readValues
  induction entries with
  | nil => exact blames_ok []
  | cons entry rest ih =>
      rw [List.mapM_cons]
      refine blames_bind (blames_map (h entry List.mem_cons_self)) fun value _ => ?_
      have hrest := ih fun entry' hentry' => h entry' (List.mem_cons_of_mem entry hentry')
      exact blames_bind hrest fun values _ => blames_ok (value :: values)

end combinators

/-! ### Numbers and texts -/

/-- A payload that cannot be written is not out of range. -/
theorem Payload.isRange_of_toText {p : Payload Float} {fault : Misfit} (h : p.toText = .error fault) :
    fault.isRange = false := by
  unfold Payload.toText at h
  cases hdisplay : p.display with
  | ok text =>
      rw [hdisplay] at h
      cases h
  | error fault =>
      rw [hdisplay] at h
      cases h
      rfl

theorem Payload.blames_toText (p : Payload Float) : Blames among p.toText := by
  intro fault h hrange
  rw [Payload.isRange_of_toText h] at hrange
  cases hrange

theorem Payload.blames_toReal {p : Payload Float} (hp : among p) : Blames among p.toReal := by
  cases p with
  | real x => exact blames_ok x
  | bool b => exact blames_ok _
  | int n =>
      unfold Payload.toReal
      dsimp only
      split
      case isTrue => exact blames_ok _
      case isFalse hfinite => exact blames_error hp (.huge (Bool.eq_false_iff.mpr hfinite))
  | text s =>
      unfold Payload.toReal
      dsimp only
      split
      · exact blames_ok _
      · exact blames_shape _ rfl
  | null | list items | object fields => exact blames_shape _ rfl

theorem Payload.blames_toInteger {p : Payload Float} (hp : among p) : Blames among p.toInteger := by
  cases p with
  | int n => exact blames_ok n
  | bool b => exact blames_ok _
  | real x =>
      unfold Payload.toInteger
      dsimp only
      split
      case h_1 => exact blames_shape _ rfl
      case h_2 hinfinite => exact blames_error hp (.infinite hinfinite)
      case h_3 => exact blames_ok _
  | text s =>
      unfold Payload.toInteger
      dsimp only
      split
      · exact blames_ok _
      · exact blames_shape _ rfl
  | null | list items | object fields => exact blames_shape _ rfl

/-! ### Fields -/

section fields

variable {fields : Fields} (hfields : ∀ entry ∈ fields, among entry.2)
include hfields

theorem Fields.among_of_get? {name : String} {p : Payload Float} (h : fields.get? name = some p) : among p :=
  hfields (name, p) (Table.mem_of_get? h)

theorem Fields.blames_realOr (name : String) (default : Float) : Blames among (fields.realOr name default) := by
  unfold Fields.realOr
  split
  case h_1 h => exact Payload.blames_toReal (Fields.among_of_get? hfields h)
  case h_2 => exact blames_ok default

omit hfields in
theorem Fields.blames_need (name : String) : Blames among (fields.need name) := by
  unfold Fields.need
  split
  · exact blames_ok _
  · exact blames_shape _ rfl

omit hfields in
theorem Fields.blames_textOr (names : List String) (default : String) : Blames among (fields.textOr names default) := by
  unfold Fields.textOr
  split
  · exact Payload.blames_toText _
  · exact blames_ok default

omit hfields in
theorem Report.blames_ofFields : Blames among (Report.ofFields fields) :=
  blames_bind (Fields.blames_textOr _ _) fun _ _ => blames_bind (Fields.blames_textOr _ _) fun _ _ => blames_ok _

theorem Fields.blames_real (name : String) : Blames among (fields.real name) := by
  refine blames_bind (Fields.blames_need name) fun p hp => ?_
  unfold Fields.need at hp
  split at hp
  case h_1 h =>
    cases hp
    exact Payload.blames_toReal (Fields.among_of_get? hfields h)
  case h_2 => cases hp

/-! ### Values and branches -/

theorem Value.blames_ofFields (hobject : among (.object fields)) : Blames among (Value.ofFields fields) := by
  unfold Value.ofFields
  split
  case h_1 => exact blames_bind (Fields.blames_real hfields "value") fun x _ => blames_ok _
  case h_2 =>
    exact blames_bind (Fields.blames_need "value") fun p _ => blames_bind p.blames_toText fun _ _ => blames_ok _
  case h_3 htype =>
    refine blames_bind (Fields.blames_real hfields "nominal") fun nominal hnominal => ?_
    refine blames_bind (Fields.blames_real hfields "uncertainty") fun uncertainty huncertainty => ?_
    split
    case h_1 => exact blames_ok _
    case h_2 hrefused => exact blames_error hobject (.quantity htype hnominal huncertainty hrefused)
  case h_4 =>
    exact blames_bind (Fields.blames_need "name") fun p _ => blames_bind p.blames_toText fun _ _ => blames_ok _
  case h_5 => exact blames_bind (Fields.blames_textOr _ _) fun _ _ => blames_ok _

end fields

theorem Outcome.blames_ofRaw (p : Payload Float) : Blames among (Outcome.ofRaw p) := blames_map p.blames_toText

mutual

theorem Outcome.blames_decode : ∀ p : Payload Float, Blames (·.Within p) (Outcome.decode p)
  | .object fields => by
      rw [Outcome.decode]
      split
      · exact blames_map Report.blames_ofFields
      · have hfields : ∀ entry ∈ fields, entry.2.Within (.object fields) := fun entry hentry =>
          .field hentry (.self entry.2)
        exact blames_map (Value.blames_ofFields hfields (.self _))
      · split
        case h_1 outcome h =>
          exact (Outcome.blames_decodeResult? fields outcome h).mono fun q ⟨_, hentry, hq⟩ => .field hentry hq
        case h_2 => exact blames_ofRaw _
  | .int n => blames_map (Payload.blames_toReal (.self _))
  | .real x => blames_ok _
  | .bool b => blames_ok _
  | .text s => blames_ok _
  | .null => blames_ofRaw _
  | .list items => blames_ofRaw _

theorem Outcome.blames_decodeResult? : ∀ (fields : List (String × Payload Float)) (x : Except Misfit (Outcome Float)),
    Outcome.decodeResult? fields = some x → Blames (fun q => ∃ entry, entry ∈ fields ∧ q.Within entry.2) x
  | [], x, h => by cases h
  | (name, p) :: rest, x, h => by
      rw [Outcome.decodeResult?] at h
      split at h
      · cases h
        exact (Outcome.blames_decode p).mono fun q hq => ⟨(name, p), List.mem_cons_self, hq⟩
      · refine (Outcome.blames_decodeResult? rest x h).mono fun q ⟨entry, hentry, hq⟩ => ?_
        exact ⟨entry, List.mem_cons_of_mem _ hentry, hq⟩

end

/-- A quantity that there is not is no value of a branch. -/
theorem Outcome.decode_of_provokes {fields : Fields} {cause : Cause Float}
    (h : (Payload.object fields).Provokes (.quantity cause)) :
    Outcome.decode (.object fields) = .error (.quantity cause) := by
  cases h with
  | quantity htype hnominal huncertainty hrefused =>
      have hvalue : Value.ofFields fields = .error (.quantity cause) := by
        unfold Value.ofFields Fields.quantity
        rw [htype, hnominal, huncertainty]
        simp only [bind, Except.bind, hrefused]
        rfl
      rw [Outcome.decode, htype]
      simp only [hvalue]
      rfl

/-! ### Results -/

namespace Result

/-- The fields of an envelope are parts of it. -/
theorem within_of_mem_merge {fields : Fields} {entry : String × Payload Float} (h : entry ∈ merge fields) :
    entry.2.Within (.object fields) := by
  have hself (entry : String × Payload Float) (hentry : entry ∈ fields) : entry.2.Within (.object fields) :=
    .field hentry (.self entry.2)
  unfold merge at h
  split at h
  case h_1 data hdata =>
    rcases Table.mem_of_mem_putAll h with hinner | houter
    · exact .field (Table.mem_of_get? hdata) (.field hinner (.self entry.2))
    · exact hself entry (List.mem_of_mem_filter houter)
  case h_2 | h_3 => exact hself entry h
  case h_4 data _ _ hdata =>
    split at h
    · exact hself entry h
    · rcases Table.mem_of_mem_put h with hentry | rfl
      · exact hself entry hentry
      · exact hself ("data", data) (Table.mem_of_get? hdata)

/-- A tally is accepted if its counts can be read as integers, none of them is negative, and the number of shots is
their sum where it was sent. -/
theorem decodeTally_object {sent : Fields} {shots : Option (Payload Float)} {t : Tally Float} :
    decodeTally (.object sent) shots = .ok t ↔ ∃ counts, Table.readValues Payload.toInteger sent = .ok counts ∧
      (∀ entry ∈ counts, 0 ≤ entry.2) ∧
      ((shots.getD .null = .null ∧ t = ⟨counts, .int (Counts.total counts)⟩) ∨
        ((shots.getD .null).toInteger = .ok (Counts.total counts) ∧ t = ⟨counts, shots.getD .null⟩)) := by
  have hsigns {counts : Table Int} : ¬ counts.any (·.2 < 0) = true ↔ ∀ entry ∈ counts, 0 ≤ entry.2 := by simp
  constructor
  · intro h
    obtain ⟨counts, hcounts, h⟩ := ok_of_bind h
    split at h
    case h_1 hnull =>
      obtain ⟨hsign, h⟩ := ok_of_unless h
      cases h
      exact ⟨counts, hcounts, hsigns.mp hsign, .inl ⟨hnull, rfl⟩⟩
    case h_2 hgiven =>
      obtain ⟨hsign, h⟩ := ok_of_unless h
      obtain ⟨n, hn, h⟩ := ok_of_bind h
      obtain ⟨hsum, h⟩ := ok_of_unless h
      cases h
      exact ⟨counts, hcounts, hsigns.mp hsign, .inr ⟨not_not.mp hsum ▸ hn, rfl⟩⟩
  · rintro ⟨counts, hcounts, hsign, hshots⟩
    have hany := Bool.eq_false_iff.mpr (hsigns.mpr hsign)
    unfold decodeTally
    rcases hshots with ⟨hnull, rfl⟩ | ⟨hsum, rfl⟩
    · simp only [hcounts, bind, Except.bind, hany, hnull]
      rfl
    · simp only [hcounts, bind, Except.bind, hany, Bool.false_eq_true, if_false]
      split
      case h_1 hnull => cases hnull ▸ hsum
      case h_2 =>
        simp only [hsum, ne_eq, not_true_eq_false, if_false]
        rfl

section decoders

variable {fields : Fields} (hfields : ∀ entry ∈ fields, ∀ p : Payload Float, p.Within entry.2 → among p)
include hfields

theorem blames_ofAnalysis : Blames among (ofAnalysis fields) := by
  have hvalues : ∀ entry ∈ fields, among entry.2 := fun entry hentry => hfields entry hentry _ (.self _)
  refine blames_bind (Fields.blames_real hvalues "mean") fun nominal _ => ?_
  exact blames_bind (Fields.blames_realOr hvalues "uncertainty" _) fun uncertainty _ => blames_ok _

theorem blames_decodeSuccess : Blames among (decodeSuccess fields) := by
  unfold decodeSuccess
  dsimp only
  split
  case h_1 nested hnested =>
    split
    · refine blames_ofAnalysis fun entry hentry p hp => ?_
      exact hfields _ (Table.mem_of_get? hnested) p (.field hentry hp)
    · exact blames_map (Fields.blames_textOr _ _)
  case h_2 => exact blames_map (Fields.blames_textOr _ _)

theorem blames_decodeUncertain : Blames among (decodeUncertain fields) := by
  have hvalues : ∀ entry ∈ fields, among entry.2 := fun entry hentry => hfields entry hentry _ (.self _)
  refine blames_bind (Fields.blames_need "value") fun value _ => blames_bind value.blames_toText fun _ _ => ?_
  refine blames_bind (Fields.blames_realOr hvalues "nominal" _) fun nominal _ => ?_
  exact blames_bind (Fields.blames_realOr hvalues "uncertainty" _) fun uncertainty _ => blames_ok _

omit hfields in
/-- That the number of shots is not the total is no fault of range. -/
theorem isRange_shotsMisfit (total : Int) (given : Payload Float) : (shotsMisfit total given).isRange = false := by
  unfold shotsMisfit
  split
  case h_1 => rfl
  case h_2 h => exact Payload.isRange_of_toText h
  case h_3 h _ => exact Payload.isRange_of_toText h

omit hfields in
theorem blames_decodeTally {counts : Payload Float} {shots : Option (Payload Float)}
    (hcounts : ∀ p : Payload Float, p.Within counts → among p)
    (hshots : ∀ given, shots = some given → among given) : Blames among (decodeTally counts shots) := by
  unfold decodeTally
  split
  case h_1 entries =>
    have hread : Blames among (Table.readValues Payload.toInteger entries) :=
      blames_readValues fun entry hentry => Payload.blames_toInteger (hcounts _ (.field hentry (.self _)))
    refine blames_bind hread fun counts _ => ?_
    split
    case h_1 => exact blames_unless .negativeCount rfl (blames_ok _)
    case h_2 hnull =>
      have hgiven : among (shots.getD .null) := by
        cases shots with
        | none => exact absurd rfl hnull
        | some given => exact hshots given rfl
      refine blames_unless .negativeCount rfl ?_
      refine blames_bind (Payload.blames_toInteger hgiven) fun n _ => ?_
      exact blames_unless (shotsMisfit _ _) (isRange_shotsMisfit _ _) (blames_ok _)
  case h_2 => exact blames_shape _ rfl

theorem blames_decodeMeasurements : Blames among (decodeMeasurements fields) := by
  unfold decodeMeasurements
  split
  case h_1 | h_2 => exact blames_ok _
  case h_3 counts _ hcounts =>
    exact blames_map (blames_decodeTally (hfields _ (Table.mem_of_get? hcounts)) fun given hgiven =>
      hfields _ (Table.mem_of_get? hgiven) _ (.self _))

theorem blames_decodeCircuit : Blames among (decodeCircuit fields) := by
  have hvalues : ∀ entry ∈ fields, among entry.2 := fun entry hentry => hfields entry hentry _ (.self _)
  have hqubits : Blames among ((fields.get? "qubits").getD (.int 0)).toInteger := by
    cases hqubits : fields.get? "qubits" with
    | none => exact blames_ok 0
    | some p => exact Payload.blames_toInteger (Fields.among_of_get? hvalues hqubits)
  refine blames_bind (blames_decodeMeasurements hfields) fun measured _ => ?_
  refine blames_bind (Fields.blames_need "circuit_name") fun name _ => blames_bind name.blames_toText fun _ _ => ?_
  exact blames_bind hqubits fun qubits _ => blames_bind (Fields.blames_textOr _ _) fun _ _ => blames_ok _

theorem blames_decodeParallel : Blames among (decodeParallel fields) := by
  have hmessage (outcomes : Table (Outcome Float)) : Blames among (do
      let message ← fields.textOr ["message"] ""
      pure (Result.parallel outcomes message)) :=
    blames_bind (Fields.blames_textOr _ _) fun _ _ => blames_ok _
  unfold decodeParallel
  dsimp only
  split
  · exact hmessage []
  · split
    case h_1 entries hbranches =>
      have hentries : Blames among (Table.readValues Outcome.decode entries) := by
        refine blames_readValues fun entry hentry => (Outcome.blames_decode entry.2).mono fun p hp => ?_
        cases hget : fields.get? "branches" with
        | none => rw [hget] at hbranches; cases hbranches
        | some branches =>
            rw [hget, Option.getD_some] at hbranches
            subst hbranches
            exact hfields _ (Table.mem_of_get? hget) p (.field hentry hp)
      exact blames_bind hentries fun outcomes _ => hmessage outcomes
    case h_2 => exact blames_shape _ rfl

theorem blames_decoder {name : String} {decoder : Fields → Except Misfit (Result Float)}
    (h : decoder? name = some decoder) : Blames among (decoder fields) := by
  unfold decoder? at h
  split_ifs at h <;> cases h
  · exact blames_decodeSuccess hfields
  · exact blames_decodeUncertain hfields
  · exact blames_decodeCircuit hfields
  · exact blames_decodeParallel hfields
  · exact blames_map Report.blames_ofFields

end decoders

theorem ofFields_ok_or_malformed_or_outside {fields : Fields}
    (hfields : ∀ entry ∈ fields, ∀ p : Payload Float, p.Within entry.2 → among p) :
    (∃ r, ofFields fields = .ok r) ∨ (∃ refusal, ofFields fields = .error refusal ∧ refusal.isMalformed = true) ∨
      ∃ (p : Payload Float) (fault : Misfit), among p ∧ p.Provokes fault ∧
        ofFields fields = .error (.outside fault) := by
  unfold ofFields
  dsimp only
  split
  case h_2 => exact .inr (.inl ⟨_, rfl, rfl⟩)
  case h_1 name _ =>
    split
    case h_1 => exact .inr (.inl ⟨_, rfl, rfl⟩)
    case h_2 decoder hdecoder =>
      split
      case h_1 r _ => exact .inl ⟨r, rfl⟩
      case h_2 fault hfault =>
        cases hrange : fault.isRange with
        | false => exact .inr (.inl ⟨_, rfl, rfl⟩)
        | true =>
            obtain ⟨p, hp, hprovokes⟩ := blames_decoder hfields hdecoder fault hfault hrange
            exact .inr (.inr ⟨p, fault, hp, hprovokes, rfl⟩)

/-- **Decoding is total up to numbers out of range.**  It gives a result or finds the object malformed, unless a part of
the object provokes a fault and this fault is the answer. -/
theorem decode_malformed_or_provoked (fields : Fields) :
    (∃ r, decode (.object fields) = .ok r) ∨
    (∃ refusal, decode (.object fields) = .error refusal ∧ refusal.isMalformed = true) ∨
    ∃ (p : Payload Float) (fault : Misfit), p.Within (.object fields) ∧ p.Provokes fault ∧
      decode (.object fields) = .error (.outside fault) :=
  ofFields_ok_or_malformed_or_outside fun _ hentry _ hp => hp.trans (within_of_mem_merge hentry)

/-- A fault out of range goes past the readers of an object that is no envelope. -/
theorem decode_object_outside {fields : Fields} {name : String} {decoder : Fields → Except Misfit (Result Float)}
    {fault : Misfit} (data : fields.get? "data" = none) (type : fields.get? "type" = some (.text name))
    (hdecoder : decoder? name = some decoder) (h : decoder fields = .error fault) (hrange : fault.isRange = true) :
    decode (.object fields) = .error (.outside fault) := by
  rw [decode_object_eq data type hdecoder, h]
  simp [Except.mapError, hrange]

/-- Whatever provokes a fault stands in some object whose reading the fault ends. -/
theorem exists_decode_eq_outside {p : Payload Float} {fault : Misfit} (h : p.Provokes fault) :
    ∃ fields : Fields, p.Within (.object fields) ∧ decode (.object fields) = .error (.outside fault) := by
  cases h with
  | @infinite x negative hx =>
      refine ⟨[("type", .text "quantum_circuit"), ("circuit_name", .text "c"), ("qubits", .real x)], ?_, ?_⟩
      · exact .field (List.mem_of_getElem? (i := 2) rfl) (.self _)
      · have hread : Payload.toInteger (.real x) = .error .infiniteInteger := by simp only [Payload.toInteger, hx]
        refine decode_object_outside rfl rfl rfl ?_ rfl
        show (do
          let qubits ← Payload.toInteger (.real x)
          pure (Result.circuit _ qubits (.uncounted _) _)) = _
        rw [hread]
        rfl
  | @huge n hn =>
      refine ⟨[("type", .text "uncertain"), ("value", .text ""), ("nominal", .int n)], ?_, ?_⟩
      · exact .field (List.mem_of_getElem? (i := 2) rfl) (.self _)
      · have hread : Payload.toReal (.int n) = .error .hugeInteger := by simp [Payload.toReal, hn]
        refine decode_object_outside rfl rfl rfl ?_ rfl
        show (do
          let nominal ← Payload.toReal (.int n)
          let uncertainty ← pure Machine.nan
          pure (Result.uncertain _ nominal uncertainty)) = _
        rw [hread]
        rfl
  | @quantity fields nominal uncertainty cause htype hnominal huncertainty hrefused =>
      refine ⟨[("type", .text "parallel"), ("branches", .object [("A", .object fields)])], ?_, ?_⟩
      · exact .field (List.mem_of_getElem? (i := 1) rfl) (.field List.mem_cons_self (.self _))
      · have hread := Outcome.decode_of_provokes (.quantity htype hnominal huncertainty hrefused)
        refine decode_object_outside rfl rfl rfl ?_ rfl
        show (do
          let outcomes ← (do
            let branch ← (Outcome.decode (.object fields)).map fun o => ("A", o)
            let rest ← pure []
            pure (branch :: rest))
          pure (Result.parallel outcomes _)) = _
        rw [hread]
        rfl

end Result

end LabLang
