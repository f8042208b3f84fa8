import LabLang.Proofs.BornRule
import Mathlib.Algebra.BigOperators.Field

/-! # Operations on unmeasured qubits are unobservable

A gate moves weight only between basis states that differ in the bits of its qubits.  If none of these qubits is measured,
such basis states show the same outcome, and every outcome keeps its weight (`sum_readBits_applyGates`).  The weight of the
whole state is kept as well, so that the probabilities on the measured qubits stay what they are
(`marginalize_applyGates`): from a circuit alone nobody can tell that such gates have been appended to it
(`unmeasured_gates_unobservable`). -/

namespace LabLang.State

/-! ### Outcomes that do not depend on some bits -/

/-- What some qubits spell is not changed by replacing bits elsewhere. -/
theorem Replaces.readBits {qubits others : List ℕ} {i c p : ℕ} (h : Replaces qubits i c p)
    (disjoint : ∀ q ∈ others, q ∉ qubits) : readBits others p = readBits others i := by
  unfold State.readBits
  refine congrArg Tensor.place (List.map_congr_left fun q hq => ?_)
  exact testBit_eq_iff_bit.mp (h.2 q (disjoint q hq))

/-- The gate acts on qubits that are not measured. -/
def Avoids {R : Type} (g : Gate R) (measured : List ℕ) : Prop := ∀ q ∈ g.qubits, q.toNat ∉ measured

/-- To tell one outcome from the others is to ignore what a gate on unmeasured qubits changes. -/
theorem ignoresBits_outcome {g : Gate ℝ} {measured : List ℕ} (avoids : Avoids g measured) (x : ℕ) :
    IgnoresBits (g.qubits.map Int.toNat) fun i => if readBits measured.reverse i = x then 1 else 0 := by
  intro i c p replaces
  have hread : readBits measured.reverse p = readBits measured.reverse i := by
    refine replaces.readBits fun q hq hmem => ?_
    obtain ⟨q', hq', rfl⟩ := List.mem_map.mp hmem
    exact avoids q' hq' (List.mem_reverse.mp hq)
  dsimp only
  rw [hread]

section gates

variable {n : ℕ} {gates : List (Gate ℝ)} {measured : List ℕ} {state : Array (Amplitude ℝ)}

/-- Every outcome keeps the weight of the basis states that show it. -/
theorem sum_readBits_applyGates (fits : ∀ g ∈ gates, ∃ kind, g.Fits n kind) (hsize : state.size = 2 ^ n)
    (avoid : ∀ g ∈ gates, Avoids g measured) (x : ℕ) :
    ∑ i ∈ Finset.range (2 ^ n) with readBits measured.reverse i = x, ((applyGates gates state).getD i 0).weight =
      ∑ i ∈ Finset.range (2 ^ n) with readBits measured.reverse i = x, (state.getD i 0).weight := by
  have hsum := (weightedNorm_applyGates fits hsize fun g hg => ignoresBits_outcome (avoid g hg) x).2
  unfold weightedNorm at hsum
  simpa only [ite_mul, one_mul, zero_mul, ← Finset.sum_filter] using hsum

/-- The probabilities on the measured qubits are kept. -/
theorem marginalize_applyGates (fits : ∀ g ∈ gates, ∃ kind, g.Fits n kind) (hsize : state.size = 2 ^ n)
    (avoid : ∀ g ∈ gates, Avoids g measured) (ascending : measured.Pairwise (· < ·)) (inRange : ∀ q ∈ measured, q < n) :
    marginalize (probabilities (applyGates gates state)) n measured =
      marginalize (probabilities state) n measured := by
  obtain ⟨hgates, hnorm⟩ := squaredNorm_applyGates fits hsize
  obtain ⟨hlength, hentry⟩ := marginalize_eq ((size_probabilities state).trans hsize) ascending inRange
  obtain ⟨hlength', hentry'⟩ :=
    marginalize_eq ((size_probabilities (applyGates gates state)).trans hgates) ascending inRange
  apply Array.ext_getElem?
  intro x
  by_cases hx : x < 2 ^ measured.length
  · rw [hentry x hx, hentry' x hx]
    simp only [getD_probabilities, hnorm, ← Finset.sum_div]
    rw [sum_readBits_applyGates fits hsize avoid]
  · rw [Array.getElem?_eq_none (by omega), Array.getElem?_eq_none (by omega)]

end gates

end LabLang.State

namespace LabLang

/-! ### Circuits -/

/-- The circuit with further gates at its end. -/
def Circuit.append {R : Type} (c : Circuit R) (gates : List (Gate R)) : Circuit R :=
  { c with gates := c.gates ++ gates }

theorem Circuit.IsValid.append {R : Type} [Scalar R] {c : Circuit R} (valid : c.IsValid) {gates : List (Gate R)}
    (fits : ∀ g ∈ gates, ∃ kind, g.Fits c.qubits kind) : (c.append gates).IsValid := by
  refine ⟨valid.positive, fun g hg => ?_, valid.nonempty, valid.ascending, valid.inRange⟩
  rcases List.mem_append.mp hg with hg | hg
  · exact valid.gates g hg
  · exact fits g hg

theorem State.run_append (c : Circuit ℝ) (gates : List (Gate ℝ)) :
    State.run (c.append gates) = State.applyGates gates (State.run c) :=
  List.foldl_append

/-- Gates on unmeasured qubits do not change the probabilities of the outcomes, or the refusal of a circuit that is too
large. -/
theorem Random.outcomes_append {c : Circuit ℝ} (valid : c.IsValid) {gates : List (Gate ℝ)}
    (fits : ∀ g ∈ gates, ∃ kind, g.Fits c.qubits kind) (avoid : ∀ g ∈ gates, State.Avoids g c.measured) :
    Random.outcomes (c.append gates) = Random.outcomes c := by
  have hmarginal := State.marginalize_applyGates fits (State.squaredNorm_run valid.gates).1 avoid valid.ascending
    valid.inRange
  unfold Random.outcomes State.ofCircuit
  rw [State.run_append]
  by_cases hlarge : maxQubits < c.qubits
  · have hlarge' : maxQubits < (c.append gates).qubits := hlarge
    rw [if_pos hlarge, if_pos hlarge']
    rfl
  · have hlarge' : ¬ maxQubits < (c.append gates).qubits := hlarge
    rw [if_neg hlarge, if_neg hlarge']
    exact congrArg (fun probs : Array ℝ => Except.ok probs.toList) hmarginal

open State

/-- **Operations on unmeasured qubits are unobservable.**  Take any register, any state of it with an amplitude other than
zero, any of its qubits in ascending order to be measured, and any gate that fits the register and acts on other qubits.
Probabilities can be formed before and after the gate, and those on the measured qubits are the same.  Hence any list
of such gates can be appended to a valid circuit: it stays valid, its outcomes are drawn with the same probabilities
(which exist if it is not too large), and every measurement gives the same with the same random numbers. -/
theorem unmeasured_gates_unobservable :
    (∀ (n : ℕ) (g : Gate ℝ) (kind : GateKind) (measured : List ℕ) (state : Array (Amplitude ℝ)), g.Fits n kind →
      Avoids g measured → measured.Pairwise (· < ·) → (∀ q ∈ measured, q < n) → state.size = 2 ^ n →
      (∃ a ∈ state, a ≠ 0) → 0 < squaredNorm state ∧ 0 < squaredNorm (applyGate g state) ∧
        marginalize (probabilities (applyGate g state)) n measured = marginalize (probabilities state) n measured) ∧
    (∀ (c : Circuit ℝ) (gates : List (Gate ℝ)), c.IsValid → (∀ g ∈ gates, ∃ kind, g.Fits c.qubits kind) →
      (∀ g ∈ gates, Avoids g c.measured) → (c.append gates).IsValid ∧
        Random.outcomes (c.append gates) = Random.outcomes c ∧
        (c.qubits ≤ maxQubits → ∃ probs, Random.outcomes c = .ok probs ∧ probs.length = 2 ^ c.measured.length) ∧
        ∀ shots stream, Random.measure (c.append gates) shots stream = Random.measure c shots stream) := by
  refine ⟨fun n g kind measured state fits avoids ascending inRange hsize hne => ?_,
    fun c gates valid fits avoid => ?_⟩
  · have hnorm := (squaredNorm_applyGate fits hsize).2
    have hmarginal := marginalize_applyGates (List.forall_mem_singleton.mpr ⟨kind, fits⟩) hsize
      (List.forall_mem_singleton.mpr avoids) ascending inRange
    rw [applyGates_singleton] at hmarginal
    refine ⟨squaredNorm_pos hne, ?_, hmarginal⟩
    rw [hnorm]
    exact squaredNorm_pos hne
  · have houtcomes := Random.outcomes_append valid fits avoid
    refine ⟨valid.append fits, houtcomes, fun bounded => ?_, fun shots stream => ?_⟩
    · exact ⟨_, Random.outcomes_eq valid bounded, Random.length_chances c⟩
    · unfold Random.measure
      rw [houtcomes]
      rfl

/-- Of an even superposition of three qubits the outer ones are measured; the middle one is rotated, and so is a qubit
of a circuit that measures its entangled partner only. -/
theorem unmeasured_gates_unobservable_rotation :
    ∃ (g : Gate ℝ) (kind : GateKind) (state : Array (Amplitude ℝ)) (c : Circuit ℝ),
      g = ⟨"RY", [1], [√2]⟩ ∧ state = Array.replicate 8 1 ∧
      c = ⟨"pair", 2, [⟨"H", [0], []⟩, ⟨"CNOT", [0, 1], []⟩], [0]⟩ ∧ g.Fits 3 kind ∧ Avoids g [0, 2] ∧
      state.size = 2 ^ 3 ∧ (∃ a ∈ state, a ≠ 0) ∧
      marginalize (probabilities (applyGate g state)) 3 [0, 2] = marginalize (probabilities state) 3 [0, 2] ∧
      c.IsValid ∧ g.Fits c.qubits kind ∧ Avoids g c.measured ∧
      Random.outcomes (c.append [g, g]) = Random.outcomes c := by
  have fits {n : ℕ} (h : 1 < n) : (⟨"RY", [1], [√2]⟩ : Gate ℝ).Fits n .ry :=
    ⟨by decide +kernel, rfl, rfl, fun _ _ => rfl, by decide, by simpa using h⟩
  have avoids {measured : List ℕ} (h : 1 ∉ measured) : Avoids (⟨"RY", [1], [√2]⟩ : Gate ℝ) measured := by
    intro q hq
    rw [List.mem_singleton.mp hq]
    exact h
  have nonzero : ∃ a ∈ Array.replicate 8 (1 : Amplitude ℝ), a ≠ 0 := by
    refine ⟨1, by simp, fun h => ?_⟩
    have hre := congrArg Amplitude.re h
    simp at hre
  have pair : (⟨"pair", 2, [⟨"H", [0], []⟩, ⟨"CNOT", [0, 1], []⟩], [0]⟩ : Circuit ℝ).IsValid := by
    have bell := Circuit.isValid_of_mem_wellKnown (R := ℝ) (c := Circuit.bell) (by simp [Circuit.wellKnown])
    exact ⟨bell.positive, bell.gates, by decide, by decide, by decide⟩
  have both : ∀ g' ∈ [(⟨"RY", [1], [√2]⟩ : Gate ℝ), ⟨"RY", [1], [√2]⟩], g' = ⟨"RY", [1], [√2]⟩ := by simp
  obtain ⟨states, circuits⟩ := unmeasured_gates_unobservable
  obtain ⟨-, houtcomes, -⟩ := circuits _ _ pair (fun g' hg' => ⟨.ry, both g' hg' ▸ fits (by decide)⟩)
    fun g' hg' => both g' hg' ▸ avoids (by decide)
  refine ⟨_, .ry, _, _, rfl, rfl, rfl, fits (by decide), avoids (by decide), by simp, nonzero, ?_, pair,
    fits (by decide), avoids (by decide), houtcomes⟩
  exact (states 3 _ .ry [0, 2] _ (fits (by decide)) (avoids (by decide)) (by decide) (by decide) (by simp) nonzero).2.2

end LabLang
