import LabLang.Proofs.GateIsometry
import LabLang.Proofs.ValidCircuit
import LabLang.State.Outcome

/-! # Probabilities have a denominator

Probabilities are weights divided by the weight of the whole state (`probabilities_eq`), which is positive as soon as one
amplitude is not zero (`squaredNorm_pos`).  Gates keep it and circuits start with weight one, so that the division is
always one by a positive number, and for the state of a circuit by one (`evolution_keeps_weight`). -/

namespace LabLang.State

/-- The probabilities are the weights divided by their sum. -/
theorem probabilities_eq (state : Array (Amplitude ℝ)) :
    probabilities state = state.map fun a => a.weight / squaredNorm state := by
  have htotal : total (fun i => (state.map Amplitude.weight).getD i Scalar.zero) (state.map Amplitude.weight).size =
      squaredNorm state := by
    rw [total_eq_sum, Array.size_map]
    unfold squaredNorm
    refine Finset.sum_congr rfl fun i hi => ?_
    have hi := Finset.mem_range.mp hi
    simp [Array.getD, hi]
  unfold probabilities
  dsimp only
  rw [htotal, Array.map_map]
  rfl

theorem size_probabilities (state : Array (Amplitude ℝ)) : (probabilities state).size = state.size := by
  rw [probabilities_eq, Array.size_map]

theorem getD_probabilities (state : Array (Amplitude ℝ)) (i : ℕ) :
    (probabilities state).getD i 0 = (state.getD i 0).weight / squaredNorm state := by
  rw [probabilities_eq]
  by_cases hi : i < state.size
  · simp [Array.getD, hi]
  · simp [Array.getD, hi]

/-- A state with an amplitude that is not zero has a positive weight. -/
theorem squaredNorm_pos {state : Array (Amplitude ℝ)} (h : ∃ a ∈ state, a ≠ 0) : 0 < squaredNorm state := by
  obtain ⟨a, hmem, hne⟩ := h
  obtain ⟨i, hi, rfl⟩ := Array.getElem_of_mem hmem
  unfold squaredNorm
  rw [Array.getElem_eq_getD 0] at hne
  exact Finset.sum_pos' (fun _ _ => Amplitude.weight_nonneg _)
    ⟨i, Finset.mem_range.mpr hi, Amplitude.weight_pos hne⟩

/-- **Evolution keeps the weight of states.**  A circuit that is valid and not too large has a state, and its weights add
up to one, whatever its gates and their angles are.  A gate that fits a register keeps the weight of every state of the
register.  So the probabilities never have zero for a denominator: it is one for the state of a circuit, and positive
after any gates that are applied to a state that has an amplitude other than zero. -/
theorem evolution_keeps_weight :
    (∀ c : Circuit ℝ, c.IsValid → c.qubits ≤ maxQubits → ∃ state, ofCircuit c = .ok state ∧
      state.size = 2 ^ c.qubits ∧ squaredNorm state = 1 ∧ probabilities state = state.map (·.weight / 1)) ∧
    (∀ (n : ℕ) (g : Gate ℝ) (kind : GateKind) (state : Array (Amplitude ℝ)), g.Fits n kind → state.size = 2 ^ n →
      (applyGate g state).size = 2 ^ n ∧ squaredNorm (applyGate g state) = squaredNorm state) ∧
    (∀ (n : ℕ) (gates : List (Gate ℝ)) (state : Array (Amplitude ℝ)), (∀ g ∈ gates, ∃ kind, g.Fits n kind) →
      state.size = 2 ^ n → (∃ a ∈ state, a ≠ 0) → 0 < squaredNorm (applyGates gates state) ∧
        probabilities (applyGates gates state) =
          (applyGates gates state).map (·.weight / squaredNorm (applyGates gates state))) := by
  refine ⟨fun c valid bounded => ?_, fun n g kind state fits hsize => squaredNorm_applyGate fits hsize,
    fun n gates state fits hsize hne => ⟨?_, probabilities_eq _⟩⟩
  · obtain ⟨hsize, hnorm⟩ := squaredNorm_run valid.gates
    refine ⟨run c, if_neg (Nat.not_lt.mpr bounded), hsize, hnorm, ?_⟩
    rw [probabilities_eq, hnorm]
  · rw [(squaredNorm_applyGates fits hsize).2]
    exact squaredNorm_pos hne

/-- A rotation by the root of two with a gate that is controlled by the rotated qubit, and an exchange in a state that
does not have weight one. -/
theorem evolution_keeps_weight_rotation :
    ∃ (c : Circuit ℝ) (swap : Gate ℝ) (kind : GateKind) (state : Array (Amplitude ℝ)),
      c = ⟨"tilted", 3, [⟨"rx", [2], [√2]⟩, ⟨"CX", [2, 0], []⟩], [0, 2]⟩ ∧ swap = ⟨"SWAP", [1, 0], []⟩ ∧
      state = #[⟨1 / 2, 0⟩, ⟨0, -3⟩, ⟨√2, 1⟩, ⟨0, 0⟩] ∧ c.IsValid ∧ c.qubits ≤ maxQubits ∧
      (∃ final, ofCircuit c = .ok final ∧ squaredNorm final = 1) ∧ swap.Fits 2 kind ∧ state.size = 2 ^ 2 ∧
      squaredNorm (applyGate swap state) = squaredNorm state ∧ (∃ a ∈ state, a ≠ 0) ∧
      0 < squaredNorm (applyGates [swap, swap] state) := by
  have rx : (⟨"rx", [2], [√2]⟩ : Gate ℝ).Fits 3 .rx :=
    ⟨by decide +kernel, rfl, rfl, fun _ _ => rfl, by decide, by decide⟩
  have cx : (⟨"CX", [2, 0], []⟩ : Gate ℝ).Fits 3 .cnot :=
    ⟨by decide +kernel, rfl, rfl, fun _ _ => rfl, by decide, by decide⟩
  have swap : (⟨"SWAP", [1, 0], []⟩ : Gate ℝ).Fits 2 .swap :=
    ⟨by decide +kernel, rfl, rfl, fun _ _ => rfl, by decide, by decide⟩
  have gates : ∀ g ∈ ([⟨"rx", [2], [√2]⟩, ⟨"CX", [2, 0], []⟩] : List (Gate ℝ)), ∃ kind, g.Fits 3 kind := by
    intro g hg
    rcases List.mem_pair.mp hg with rfl | rfl
    · exact ⟨_, rx⟩
    · exact ⟨_, cx⟩
  have valid : (⟨"tilted", 3, [⟨"rx", [2], [√2]⟩, ⟨"CX", [2, 0], []⟩], [0, 2]⟩ : Circuit ℝ).IsValid :=
    ⟨by decide, gates, by decide, by decide, by decide⟩
  have bounded : 3 ≤ maxQubits := by decide
  have nonzero : ∃ a ∈ (#[⟨1 / 2, 0⟩, ⟨0, -3⟩, ⟨√2, 1⟩, ⟨0, 0⟩] : Array (Amplitude ℝ)), a ≠ 0 := by
    refine ⟨⟨1 / 2, 0⟩, by simp, fun h => ?_⟩
    have hre := congrArg Amplitude.re h
    norm_num at hre
  obtain ⟨circuits, gate, kept⟩ := evolution_keeps_weight
  obtain ⟨final, hfinal, -, hnorm, -⟩ := circuits _ valid bounded
  refine ⟨_, _, _, _, rfl, rfl, rfl, valid, bounded, ⟨final, hfinal, hnorm⟩, swap, rfl, (gate 2 _ _ _ swap rfl).2,
    nonzero, (kept 2 _ _ (fun g hg => ?_) rfl nonzero).1⟩
  rcases List.mem_pair.mp hg with rfl | rfl
  · exact ⟨_, swap⟩
  · exact ⟨_, swap⟩

end LabLang.State
