import LabLang.Circuit.Basic
import LabLang.Proofs.Readers
import LabLang.Proofs.Repetitions

/-! # What the check of a gate guarantees

A gate that `Circuit.checkGate` admits is known, has as many finite angles and as many qubits as its matrix asks for, and
the qubits are distinct qubits of the register (`Gate.Fits`); every gate of this kind is admitted
(`Circuit.checkGate_of_fits`). -/

namespace LabLang

theorem Circuit.distinct_iff {qs : List Int} : Circuit.distinct qs = true ↔ qs.Nodup := by
  rw [Circuit.distinct, beq_iff_eq, length_eraseDups_eq_iff]

variable {R : Type} [Scalar R]

/-- The gate is known by its name and can be applied to a register of `count` qubits. -/
structure Gate.Fits (g : Gate R) (count : Nat) (kind : GateKind) : Prop where
  known : g.kind? = some kind
  qubits : g.qubits.length = kind.qubitCount
  params : g.params.length = kind.angleCount
  finite : ∀ p ∈ g.params, Scalar.isFinite p = true
  distinct : g.qubits.Nodup
  inRange : ∀ q ∈ g.qubits, 0 ≤ q ∧ q < count

/-- The qubits of a gate that fits, as natural numbers. -/
theorem Gate.Fits.targets {g : Gate R} {count : Nat} {kind : GateKind} (h : g.Fits count kind) :
    (g.qubits.map Int.toNat).Nodup ∧ ∀ q ∈ g.qubits.map Int.toNat, q < count := by
  refine ⟨List.Nodup.map_on (fun q hq q' hq' hqq => ?_) h.distinct, fun q hq => ?_⟩
  · have := (h.inRange q hq).1
    have := (h.inRange q' hq').1
    omega
  · obtain ⟨q', hq', rfl⟩ := List.mem_map.mp hq
    have := h.inRange q' hq'
    omega

theorem Gate.Fits.length_targets {g : Gate R} {count : Nat} {kind : GateKind} (h : g.Fits count kind) :
    (g.qubits.map Int.toNat).length = kind.qubitCount := by
  rw [List.length_map, h.qubits]

/-- Gates that pass the check fit the register. -/
theorem Circuit.fits_of_checkGate {name : String} {n : Nat} {g : Gate R} (h : Circuit.checkGate name n g = .ok ()) :
    ∃ kind, g.Fits n kind := by
  unfold Circuit.checkGate at h
  cases hkind : g.kind? with
  | none => rw [hkind] at h; cases h
  | some kind =>
      rw [hkind] at h
      obtain ⟨hlength, h⟩ := ok_of_test h
      obtain ⟨hparams, h⟩ := ok_of_test h
      obtain ⟨hfinite, h⟩ := ok_of_test h
      cases hrange : g.qubits.find? fun q => !Circuit.isQubit n q with
      | some q => rw [hrange] at h; cases h
      | none =>
          rw [hrange] at h
          dsimp only at h
          by_cases hdistinct : Circuit.distinct g.qubits = true
          · refine ⟨kind, hkind, not_not.mp hlength, not_not.mp hparams, ?_, Circuit.distinct_iff.mp hdistinct, ?_⟩
            · simpa using hfinite
            · intro q hq
              have := List.find?_eq_none.mp hrange q hq
              simpa [Circuit.isQubit] using this
          · rw [if_neg hdistinct] at h
            cases h

/-- Qubits of the register are not found among those that are not. -/
theorem Circuit.find?_isQubit {count : Nat} {qs : List Int} (h : ∀ q ∈ qs, 0 ≤ q ∧ q < count) :
    qs.find? (fun q => !Circuit.isQubit count q) = none := by
  rw [List.find?_eq_none]
  intro q hq
  simp [Circuit.isQubit, h q hq]

/-- Gates that fit the register pass the check. -/
theorem Circuit.checkGate_of_fits {name : String} {n : Nat} {g : Gate R} {kind : GateKind} (h : g.Fits n kind) :
    Circuit.checkGate name n g = .ok () := by
  have hfinite : g.params.all Scalar.isFinite = true := List.all_eq_true.mpr h.finite
  unfold Circuit.checkGate
  rw [h.known]
  simp [h.qubits, h.params, hfinite, find?_isQubit h.inRange, distinct_iff.mpr h.distinct, -List.all_eq_true]

/-- A gate that passes the check acts on distinct qubits of the register, as many as its matrix is made for. -/
theorem Circuit.checkGate_ok {name : String} {n : Nat} {g : Gate R} (h : Circuit.checkGate name n g = .ok ()) :
    ∃ kind, g.kind? = some kind ∧ g.qubits.length = kind.qubitCount ∧ g.qubits.Nodup ∧
      ∀ q ∈ g.qubits, 0 ≤ q ∧ q < n := by
  obtain ⟨kind, hfits⟩ := Circuit.fits_of_checkGate h
  exact ⟨kind, hfits.known, hfits.qubits, hfits.distinct, hfits.inRange⟩

end LabLang
