import LabLang.Circuit.Library
import LabLang.Proofs.Names
import LabLang.Proofs.QubitChecks
import Mathlib.Data.List.Sort

/-! # Valid circuits

A circuit is valid if its gates fit its register and it measures some of its qubits, listed in ascending order.  What the
constructor accepts is valid (`isValid_of_make`), and it accepts every valid circuit as it is (`make_of_isValid`).  The
well-known circuits are valid (`isValid_of_mem_wellKnown`).  A definition that is accepted gives in addition a circuit that
is named by an identifier, is not too large and names its gates as they are registered (`isDefined_of_ofStatement`). -/

namespace LabLang

variable {R : Type} [Scalar R]

/-- The gates fit the register, and some of its qubits are measured, in ascending order. -/
structure Circuit.IsValid (c : Circuit R) : Prop where
  positive : 0 < c.qubits
  gates : ∀ g ∈ c.gates, ∃ kind, g.Fits c.qubits kind
  nonempty : c.measured ≠ []
  ascending : c.measured.Pairwise (· < ·)
  inRange : ∀ q ∈ c.measured, q < c.qubits

namespace Circuit

/-! ### The constructor -/

omit [Scalar R] in
/-- The measured qubits that the constructor takes over: some of those of the register, in ascending order. -/
theorem measured_of_checkMeasured {name : String} {count : Nat} {measured : List Int} {chosen : List Nat}
    (hcount : 0 < count) (h : checkMeasured (R := R) name count measured = .ok chosen) :
    chosen ≠ [] ∧ chosen.Pairwise (· < ·) ∧ ∀ q ∈ chosen, q < count := by
  rcases checkMeasured_parts h with ⟨-, rfl⟩ | ⟨hne, -, hrange, rfl⟩
  · refine ⟨?_, List.pairwise_lt_range, fun q hq => List.mem_range.mp hq⟩
    rw [Ne, List.range_eq_nil]
    omega
  · refine ⟨?_, List.pairwise_lt_range.filter _, fun q hq => List.mem_range.mp (List.mem_of_mem_filter hq)⟩
    obtain ⟨q, hq⟩ := List.exists_mem_of_ne_nil measured hne
    obtain ⟨hnonneg, hlt⟩ := hrange q hq
    refine List.ne_nil_of_mem (a := q.toNat) (List.mem_filter.mpr ⟨List.mem_range.mpr (by omega), ?_⟩)
    rw [List.contains_iff_mem, Int.toNat_of_nonneg hnonneg]
    exact hq

/-- The constructor makes valid circuits. -/
theorem isValid_of_make {name : String} {count : Int} {gates : List (Gate R)} {measured : List Int} {c : Circuit R}
    (h : make name count gates measured = .ok c) : c.IsValid := by
  obtain ⟨hpos, hgates, chosen, hmeasured, rfl⟩ := make_parts h
  have hcount : 0 < count.toNat := by omega
  obtain ⟨hne, hascending, hrange⟩ := measured_of_checkMeasured hcount hmeasured
  exact ⟨hcount, fun g hg => fits_of_checkGate (hgates g hg), hne, hascending, hrange⟩

omit [Scalar R] in
/-- Measured qubits in ascending order pass the check as they are. -/
theorem checkMeasured_of_ascending (name : String) {count : Nat} {measured : List Nat} (nonempty : measured ≠ [])
    (ascending : measured.Pairwise (· < ·)) (inRange : ∀ q ∈ measured, q < count) :
    checkMeasured (R := R) name count (measured.map Int.ofNat) = .ok measured := by
  have hnodup : measured.Nodup := ascending.imp Nat.ne_of_lt
  have hints : (measured.map Int.ofNat).Nodup := hnodup.map fun _ _ h => Int.ofNat.inj h
  have hrange : ∀ q ∈ measured.map Int.ofNat, 0 ≤ q ∧ q < count := by
    rw [List.forall_mem_map]
    intro q hq
    exact ⟨Int.natCast_nonneg q, Int.ofNat_lt.mpr (inRange q hq)⟩
  -- both lists are ascending, so it is enough that they have the same elements
  have hchosen : (List.range count).filter (fun q : Nat => (measured.map Int.ofNat).contains (q : Int)) = measured := by
    refine List.Pairwise.eq_of_mem_iff (List.pairwise_lt_range.filter _) ascending fun q => ?_
    have hmem : (q : Int) ∈ measured.map Int.ofNat ↔ q ∈ measured :=
      List.mem_map_of_injective fun _ _ h => Int.ofNat.inj h
    rw [List.mem_filter, List.contains_iff_mem, hmem, List.mem_range]
    exact and_iff_right_of_imp (inRange q)
  rw [checkMeasured_eq_ok name (by simpa using nonempty) hints hrange, hchosen]

/-- The constructor makes a valid circuit of its parts. -/
theorem make_of_isValid {c : Circuit R} (h : c.IsValid) :
    make c.name c.qubits c.gates (c.measured.map Int.ofNat) = .ok c := by
  have hgates : c.gates.forM (checkGate c.name c.qubits) = .ok () := forM_eq_ok fun g hg => by
    obtain ⟨kind, hfits⟩ := h.gates g hg
    exact checkGate_of_fits hfits
  have hmeasured := checkMeasured_of_ascending (R := R) c.name h.nonempty h.ascending h.inRange
  unfold make
  rw [if_neg (by have := h.positive; omega), Int.toNat_natCast, hgates, hmeasured]
  rfl

/-- Every gate is found under the name it is registered under. -/
theorem ofName?_name (kind : GateKind) : GateKind.ofName? kind.name = some kind := by
  cases kind <;> decide +kernel

/-- The well-known circuits are those that the constructor makes of their parts. -/
theorem isValid_of_mem_wellKnown {c : Circuit R} (h : c ∈ (wellKnown : List (Circuit R))) : c.IsValid := by
  have hadamard : GateKind.ofName? "H" = some .h := ofName?_name .h
  have cnot : GateKind.ofName? "CNOT" = some .cnot := ofName?_name .cnot
  have hmake : make c.name c.qubits c.gates [] = .ok c := by
    simp only [wellKnown, List.mem_cons, List.not_mem_nil, or_false] at h
    rcases h with rfl | rfl | rfl
    · simp [make, checkGate, Gate.kind?, bell, hadamard, cnot]
      rfl
    · simp [make, checkGate, Gate.kind?, ghz, hadamard, cnot]
      rfl
    · simp [make, checkGate, Gate.kind?, superposition, hadamard]
      rfl
  exact isValid_of_make hmake

/-! ### Definitions -/

/-- What holds of the circuits that programs define. -/
structure IsDefined (c : Circuit R) : Prop where
  name : Text.isName c.name.toList = true
  valid : c.IsValid
  bounded : c.qubits ≤ maxQubits
  registered : ∀ g ∈ c.gates, ∃ kind : GateKind, g.name = kind.name

/-- The kind under whose name a gate is given is the one that it is applied as. -/
theorem IsDefined.gate {c : Circuit R} (h : c.IsDefined) {g : Gate R} (hg : g ∈ c.gates) :
    ∃ kind : GateKind, g.name = kind.name ∧ g.Fits c.qubits kind := by
  obtain ⟨kind, hname⟩ := h.registered g hg
  obtain ⟨kind', hfits⟩ := h.valid.gates g hg
  have hkind : kind = kind' := by
    have hknown := hfits.known
    unfold Gate.kind? at hknown
    rw [hname, ofName?_name] at hknown
    exact Option.some.inj hknown
  exact ⟨kind, hname, hkind ▸ hfits⟩

/-- A gate line is read as a gate under the name of its kind. -/
theorem name_of_gate {l : SourceLine} {g : Gate R} (h : gate l = .ok g) : ∃ kind : GateKind, g.name = kind.name := by
  unfold gate at h
  split at h
  · cases h
  · split at h
    · cases h
    · rename_i kind _
      obtain ⟨_, h⟩ := ok_of_unless h
      obtain ⟨params, _, h⟩ := ok_of_bind h
      obtain ⟨qubits, _, h⟩ := ok_of_bind h
      cases h
      exact ⟨kind, rfl⟩

/-- What holds of the draft of a definition while its body is read. -/
structure Draft.Sound (d : Draft R) : Prop where
  bounded : ∀ n ∈ d.qubits, n ≤ maxQubits
  registered : ∀ g ∈ d.gates, ∃ kind : GateKind, g.name = kind.name

theorem Draft.Adds.sound {name : String} {d d' : Draft R} {l : SourceLine} (h : d.Adds name l d') (hd : d.Sound) :
    d'.Sound := by
  cases h with
  | count kind read =>
      refine ⟨fun n hn => ?_, hd.registered⟩
      cases hn
      exact (declaration_ok read).2.2
  | all kind read => exact ⟨hd.bounded, hd.registered⟩
  | measure kind read => exact ⟨hd.bounded, hd.registered⟩
  | gate kind read =>
      refine ⟨hd.bounded, fun g hg => ?_⟩
      rcases List.mem_append.mp hg with hg | hg
      · exact hd.registered g hg
      · rw [List.mem_singleton.mp hg]
        exact name_of_gate read

theorem Draft.sound_of_foldlM {name : String} {ls : List SourceLine} {d d' : Draft R} (hd : d.Sound)
    (h : ls.foldlM (Draft.add name) d = .ok d') : d'.Sound := by
  induction ls generalizing d with
  | nil =>
      cases h
      exact hd
  | cons l rest ih =>
      rw [List.foldlM_cons] at h
      obtain ⟨mid, hadd, h⟩ := ok_of_bind h
      exact ih ((Draft.adds_of_add hadd).sound hd) h

theorem isName_of_headName? {text name : String} (h : headName? text = some name) : Text.isName name.toList = true := by
  unfold headName? at h
  obtain ⟨r, _, h⟩ := Option.bind_eq_some_iff.mp h
  obtain ⟨r', _, h⟩ := Option.bind_eq_some_iff.mp h
  obtain ⟨⟨taken, rest⟩, htake, h⟩ := Option.bind_eq_some_iff.mp h
  have htaken : name = String.ofList taken := by
    dsimp only at h
    split at h
    · exact (Option.some.inj h).symm
    · split at h
      · exact (Option.some.inj h).symm
      · cases h
    · cases h
  rw [htaken, String.toList_ofList]
  exact Text.isName_of_takeName htake

/-- **Circuits are checked when they are defined.** -/
theorem isDefined_of_ofStatement {s : Statement} {c : Circuit R} (h : ofStatement s = .ok c) : c.IsDefined := by
  obtain ⟨name, d, hname, hbody, hcircuit⟩ := ofStatement_eq_ok_iff.mp h
  obtain ⟨count, hcount, hmake⟩ := Draft.circuit_eq_ok_iff.mp hcircuit
  have hd : d.Sound := Draft.sound_of_foldlM ⟨by simp, by simp⟩ hbody
  have hmax : count ≤ maxQubits := hd.bounded count hcount
  obtain ⟨hpos, -, chosen, -, hc⟩ := make_parts hmake
  refine ⟨?_, isValid_of_make hmake, ?_, ?_⟩
  · rw [hc]
    exact isName_of_headName? hname
  · rw [hc]
    dsimp only
    omega
  · rw [hc]
    exact hd.registered

end Circuit

end LabLang
