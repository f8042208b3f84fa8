import LabLang.Proofs.GateComposition
import LabLang.Proofs.UnmeasuredQubits
import Mathlib.Tactic.IntervalCases

/-! # Every circuit can be undone

Every kind of gate has an inverse (`GateKind.inverse`), and a gate undoes another one if it is of the inverse kind, on the
same qubits and by the opposite angle (`Gate.Undoes`).  The product of the two matrices is the identity
(`isIdentity_inverse`), so that the second gate takes every state back (`applyGate_undo`), and hence the inverses in the
opposite order take back a list of gates (`applyGates_undo`).  Appended to a circuit they lead back to the state in which
it started (`undone_circuit_is_initial`). -/

namespace LabLang

/-! ### Inverse gates -/

/-- The kind whose gates undo those of a kind, with the opposite angles. -/
def GateKind.inverse : GateKind → GateKind
  | s => sdg
  | sdg => s
  | t => tdg
  | tdg => t
  | kind => kind

namespace Gate

variable {R : Type} [Scalar R]

/-- One gate undoes another one: it is of the inverse kind, on the same qubits in the same order, by the opposite angles. -/
structure Undoes (g' g : Gate R) : Prop where
  kind : g'.kind? = g.kind?.map GateKind.inverse
  qubits : g'.qubits = g.qubits
  params : g'.params = g.params.map fun angle => -angle

/-- The gate that undoes another one, under the name of its kind. -/
def inverse (g : Gate R) : Gate R :=
  ⟨(g.kind?.map fun kind => kind.inverse.name).getD g.name, g.qubits, g.params.map fun angle => -angle⟩

theorem undoes_inverse (g : Gate R) : g.inverse.Undoes g := by
  unfold inverse
  refine ⟨?_, rfl, rfl⟩
  unfold Gate.kind?
  cases hkind : GateKind.ofName? g.name with
  | none => simp [hkind]
  | some kind => simp [Circuit.ofName?_name]

/-- What undoes a gate fits the same registers. -/
theorem Undoes.fits {g g' : Gate ℝ} (h : g'.Undoes g) {n : ℕ} {kind : GateKind} (fits : g.Fits n kind) :
    g'.Fits n kind.inverse := by
  obtain ⟨hkind, hqubits, hparams⟩ := h
  have hcounts : kind.inverse.qubitCount = kind.qubitCount ∧ kind.inverse.angleCount = kind.angleCount := by
    cases kind <;> exact ⟨rfl, rfl⟩
  refine ⟨?_, ?_, ?_, fun _ _ => rfl, ?_, ?_⟩
  · rw [hkind, fits.known, Option.map_some]
  · rw [hqubits, fits.qubits, hcounts.1]
  · rw [hparams, List.length_map, fits.params, hcounts.2]
  · rw [hqubits]
    exact fits.distinct
  · rw [hqubits]
    exact fits.inRange

theorem Undoes.angle {g g' : Gate ℝ} (h : g'.Undoes g) : g'.angle = -g.angle := by
  unfold Gate.angle
  rw [h.params]
  cases g.params with
  | nil => simp
  | cons angle rest => rfl

end Gate

namespace State

/-! ### Inverse matrices -/

/-- A product of two matrices for one qubit, entry by entry. -/
theorem isIdentity_product {a b c d a' b' c' d' : Amplitude ℝ} (h₀₀ : a' * a + b' * c = 1) (h₀₁ : a' * b + b' * d = 0)
    (h₁₀ : c' * a + d' * c = 0) (h₁₁ : c' * b + d' * d = 1) :
    IsIdentity 1 (matrixProduct 1 (matrixEntry [[a', b'], [c', d']]) (matrixEntry [[a, b], [c, d]])) := by
  have hproduct (r k : ℕ) : matrixProduct 1 (matrixEntry [[a', b'], [c', d']]) (matrixEntry [[a, b], [c, d]]) r k =
      matrixEntry [[a', b'], [c', d']] r 0 * matrixEntry [[a, b], [c, d]] 0 k +
        matrixEntry [[a', b'], [c', d']] r 1 * matrixEntry [[a, b], [c, d]] 1 k := by
    unfold matrixProduct
    rw [pow_one, sumTo, sumTo, sumTo, zero_add]
  intro r hr k hk
  rw [hproduct]
  interval_cases r <;> interval_cases k
  · exact h₀₀
  · exact h₀₁
  · exact h₁₀
  · exact h₁₁

/-- Diagonal matrices are multiplied entry by entry. -/
theorem isIdentity_diagonal {a b a' b' : Amplitude ℝ} (ha : a' * a = 1) (hb : b' * b = 1) :
    IsIdentity 1 (matrixProduct 1 (matrixEntry (GateKind.diagonal a' b')) (matrixEntry (GateKind.diagonal a b))) :=
  isIdentity_product (by rw [ha, zero_mul, add_zero]) (by rw [mul_zero, zero_mul, add_zero])
    (by rw [zero_mul, mul_zero, add_zero]) (by rw [mul_zero, hb, zero_add])

theorem conj_mul_self {a : Amplitude ℝ} (h : a.weight = 1) : a.conj * a = 1 := by
  rw [Amplitude.weight_eq] at h
  refine Amplitude.eq_of_parts ?_ ?_
  · simpa using h
  · simp [mul_comm]

theorem conj_conj (a : Amplitude ℝ) : a.conj.conj = a := Amplitude.eq_of_parts rfl (neg_neg a.im)

theorem phase_neg (angle : ℝ) : Amplitude.phase (-angle) = (Amplitude.phase angle).conj :=
  Amplitude.eq_of_parts (Real.cos_neg angle) (Real.sin_neg angle)

/-- **The matrix of the inverse kind, at the opposite angle, is the inverse matrix.** -/
theorem isIdentity_inverse (kind : GateKind) (angle : ℝ) :
    IsIdentity kind.qubitCount
      (matrixProduct kind.qubitCount (matrixEntry (kind.inverse.rows (-angle))) (matrixEntry (kind.rows angle))) := by
  have hcos : Scalar.cos (-angle / 2) = Scalar.cos (angle / 2) := by
    rw [neg_div]
    exact Real.cos_neg _
  have hsin : Scalar.sin (-angle / 2) = -Scalar.sin (angle / 2) := by
    rw [neg_div]
    exact Real.sin_neg _
  have hcircle := circle (angle / 2)
  have hhalf := rootHalf_mul_self
  cases kind with
  | i => exact isIdentity_diagonal (one_mul 1) (one_mul 1)
  | z => exact isIdentity_diagonal (one_mul 1) (by ring)
  | s | sdg => exact isIdentity_diagonal (one_mul 1) (Amplitude.eq_of_parts (by simp) (by simp))
  | t => exact isIdentity_diagonal (one_mul 1) (conj_mul_self (weight_phase _))
  | tdg => exact isIdentity_diagonal (one_mul 1) ((mul_comm _ _).trans (conj_mul_self (weight_phase _)))
  | rz =>
      have hunit := conj_mul_self (weight_phase (angle / 2))
      have hopposite : Amplitude.phase (-angle / 2) = (Amplitude.phase (angle / 2)).conj := by rw [neg_div, phase_neg]
      refine isIdentity_diagonal ?_ ?_
      · show (Amplitude.phase (-angle / 2)).conj * (Amplitude.phase (angle / 2)).conj = 1
        rw [hopposite, conj_conj, mul_comm, hunit]
      · show Amplitude.phase (-angle / 2) * Amplitude.phase (angle / 2) = 1
        rw [hopposite, hunit]
  | x | y => apply isIdentity_product <;> exact Amplitude.eq_of_parts (by simp) (by simp)
  | h =>
      apply isIdentity_product <;> refine Amplitude.eq_of_parts ?_ ?_ <;> simp [hhalf]
      · norm_num
      · norm_num
  | rx | ry =>
      apply isIdentity_product <;> refine Amplitude.eq_of_parts ?_ ?_ <;> simp [hcos, hsin, mul_comm]
      · exact hcircle
      · rw [add_comm]
        exact hcircle
  | cnot | cz | swap =>
      intro r hr c hc
      have hr : r < 4 := hr
      have hc : c < 4 := hc
      interval_cases r <;> interval_cases c <;>
        simp [matrixProduct, sumTo, matrixEntry, GateKind.rows, GateKind.qubitCount, GateKind.inverse]

/-! ### Inverse gates on states -/

section gates

variable {n : ℕ} {state : Array (Amplitude ℝ)}

/-- **What undoes a gate takes every state back.** -/
theorem applyGate_undo {g g' : Gate ℝ} (h : g'.Undoes g) {kind : GateKind} (fits : g.Fits n kind)
    (hsize : state.size = 2 ^ n) : applyGate g' (applyGate g state) = state := by
  have first := applyGate_of_fits fits hsize
  have second := applyGate_of_fits (h.fits fits) first.1
  rw [h.qubits, h.angle] at second
  have hboth := first.comp second
  rw [fits.length_targets] at hboth
  refine hboth.eq_of_identity hsize ?_
  rw [fits.length_targets]
  exact isIdentity_inverse kind g.angle

theorem applyGates_append (gates gates' : List (Gate ℝ)) :
    applyGates (gates ++ gates') state = applyGates gates' (applyGates gates state) :=
  List.foldl_append

/-- Gates are taken back by what undoes each of them, the last one first. -/
theorem applyGates_undo {gates inverses : List (Gate ℝ)} (h : List.Forall₂ Gate.Undoes inverses gates)
    (fits : ∀ g ∈ gates, ∃ kind, g.Fits n kind) (hsize : state.size = 2 ^ n) :
    applyGates inverses.reverse (applyGates gates state) = state := by
  induction h generalizing state with
  | nil => rfl
  | @cons g' g inverses gates undoes _ ih =>
      obtain ⟨kind, hfit⟩ := fits g List.mem_cons_self
      have hrest := ih (fun g hg => fits g (List.mem_cons_of_mem _ hg)) (applyGate_of_fits hfit hsize).1
      rw [List.reverse_cons, applyGates_append, applyGates_singleton, applyGates_cons, hrest]
      exact applyGate_undo undoes hfit hsize

end gates

end State

/-! ### Circuits -/

/-- What undoes gates that fit a register fits it as well. -/
theorem fits_of_undoes {inverses gates : List (Gate ℝ)} (h : List.Forall₂ Gate.Undoes inverses gates) {n : ℕ}
    (fits : ∀ g ∈ gates, ∃ kind, g.Fits n kind) : ∀ g' ∈ inverses, ∃ kind, g'.Fits n kind := by
  induction h with
  | nil => simp
  | @cons g' g inverses gates undoes _ ih =>
      obtain ⟨kind, hfit⟩ := fits g List.mem_cons_self
      rw [List.forall_mem_cons]
      exact ⟨⟨kind.inverse, undoes.fits hfit⟩, ih fun g hg => fits g (List.mem_cons_of_mem _ hg)⟩

open State

/-- **Every circuit can be undone.**  The gates of a circuit have inverses, one for each of them.  If a circuit is valid
and any inverses of its gates are appended to it, the one of the last gate first, then it stays valid and its gates, taken
together, lead from the state in which all qubits are zero back to exactly this state.  So the state of the extended
circuit is the initial one, whenever the circuit is not too large to have a state at all. -/
theorem undone_circuit_is_initial (c : Circuit ℝ) (valid : c.IsValid) :
    List.Forall₂ Gate.Undoes (c.gates.map Gate.inverse) c.gates ∧
      ∀ inverses, List.Forall₂ Gate.Undoes inverses c.gates →
        (c.append inverses.reverse).IsValid ∧ run (c.append inverses.reverse) = initial c.qubits ∧
          ofCircuit (c.append inverses.reverse) = (ofCircuit c).map fun _ => initial c.qubits := by
  refine ⟨List.forall₂_map_left_iff.mpr (List.forall₂_same.mpr fun g _ => g.undoes_inverse), fun inverses h => ?_⟩
  have hfits := fits_of_undoes h valid.gates
  have hrun : run (c.append inverses.reverse) = initial c.qubits := by
    rw [run_append]
    exact applyGates_undo h valid.gates (size_initial c.qubits)
  refine ⟨valid.append fun g hg => hfits g (List.mem_reverse.mp hg), hrun, ?_⟩
  unfold ofCircuit
  rw [hrun]
  by_cases hlarge : maxQubits < c.qubits
  · rw [if_pos hlarge, if_pos (show maxQubits < (c.append inverses.reverse).qubits from hlarge)]
    rfl
  · rw [if_neg hlarge, if_neg (show ¬ maxQubits < (c.append inverses.reverse).qubits from hlarge)]
    rfl

/-- A rotation, a gate that is controlled by the rotated qubit and an eighth of a turn, undone under other spellings of the
names. -/
theorem undone_circuit_is_initial_rotation :
    ∃ (c : Circuit ℝ) (inverses : List (Gate ℝ)),
      c = ⟨"tilted", 3, [⟨"rx", [2], [√2]⟩, ⟨"CX", [2, 0], []⟩, ⟨"T", [1], []⟩], [0, 2]⟩ ∧
      inverses = [⟨"RX", [2], [-√2]⟩, ⟨"cnot", [2, 0], []⟩, ⟨"tdag", [1], []⟩] ∧ c.IsValid ∧
      List.Forall₂ Gate.Undoes inverses c.gates ∧
      ofCircuit (c.append [⟨"tdag", [1], []⟩, ⟨"cnot", [2, 0], []⟩, ⟨"RX", [2], [-√2]⟩]) = .ok (initial 3) := by
  have gates : ∀ g ∈ ([⟨"rx", [2], [√2]⟩, ⟨"CX", [2, 0], []⟩, ⟨"T", [1], []⟩] : List (Gate ℝ)), ∃ kind,
      g.Fits 3 kind := by
    simp only [List.forall_mem_cons, List.not_mem_nil, false_implies, implies_true, and_true]
    exact ⟨⟨.rx, by decide +kernel, rfl, rfl, fun _ _ => rfl, by decide, by decide⟩,
      ⟨.cnot, by decide +kernel, rfl, rfl, fun _ _ => rfl, by decide, by decide⟩,
      ⟨.t, by decide +kernel, rfl, rfl, fun _ _ => rfl, by decide, by decide⟩⟩
  have valid : (⟨"tilted", 3, [⟨"rx", [2], [√2]⟩, ⟨"CX", [2, 0], []⟩, ⟨"T", [1], []⟩], [0, 2]⟩ : Circuit ℝ).IsValid :=
    ⟨by decide, gates, by decide, by decide, by decide⟩
  have undoes : List.Forall₂ Gate.Undoes ([⟨"RX", [2], [-√2]⟩, ⟨"cnot", [2, 0], []⟩, ⟨"tdag", [1], []⟩] : List (Gate ℝ))
      [⟨"rx", [2], [√2]⟩, ⟨"CX", [2, 0], []⟩, ⟨"T", [1], []⟩] :=
    .cons ⟨by decide +kernel, rfl, rfl⟩ (.cons ⟨by decide +kernel, rfl, rfl⟩ (.cons ⟨by decide +kernel, rfl, rfl⟩ .nil))
  exact ⟨_, _, rfl, rfl, valid, undoes, ((undone_circuit_is_initial _ valid).2 _ undoes).2.2⟩

end LabLang
