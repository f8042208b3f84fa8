import LabLang.Proofs.CircuitInverse
import LabLang.Proofs.UnmeasuredQubits
import Mathlib.Logic.Relation

/-! # Gates on disjoint qubits commute

What a matrix makes of an index depends on the bits that it reads at its qubits and on the indices that have other bits
there (`ActsOnBits.getD_eq`).  A second matrix on other qubits leaves these bits alone, and bits at different places can
be replaced in either order (`Replaces.comm`): so each of the two products is the same double sum, with the sums in
another order (`ActsOnBits.comm`).  No property of the matrices is used.  Neighbours in a circuit that act on disjoint
qubits can hence change places, as often as one likes, and the state after all gates stays the same
(`disjoint_gates_commute`). -/

namespace LabLang

namespace State

/-! ### Bits at different places -/

/-- Bits at different places can be replaced in either order. -/
theorem Replaces.comm {qubits others : List ℕ} (disjoint : qubits.Disjoint others) {i c d p p' s s' : ℕ}
    (first : Replaces qubits i c p) (second : Replaces others p d s) (first' : Replaces others i d p')
    (second' : Replaces qubits p' c s') : s = s' := by
  apply Nat.eq_of_testBit_eq
  intro q
  by_cases hq : q ∈ qubits
  · rw [second.2 q (disjoint hq)]
    obtain ⟨j, hj, rfl⟩ := List.getElem_of_mem hq
    rw [first.1 j hj, second'.1 j hj]
  · rw [second'.2 q hq]
    by_cases hq' : q ∈ others
    · obtain ⟨j, hj, rfl⟩ := List.getElem_of_mem hq'
      rw [second.1 j hj, first'.1 j hj]
    · rw [second.2 q hq', first.2 q hq, first'.2 q hq']

/-! ### Matrices on different qubits -/

section matrices

variable {A : Type} [CommSemiring A] {n : ℕ} {qubits others : List ℕ} {m m' : ℕ → ℕ → A}
  {state mid mid' out out' : Array A}

/-- An amplitude of the outcome, from the bits that the matrix reads and those that it sums over. -/
theorem ActsOnBits.getD_eq (h : ActsOnBits n qubits m state out) (hnodup : qubits.Nodup) (hlt : ∀ q ∈ qubits, q < n)
    {i : ℕ} (hi : i < 2 ^ n) : out.getD i 0 =
      ∑ c ∈ Finset.range (2 ^ qubits.length), m (readBits qubits i) c * state.getD (patchBits n qubits i c) 0 := by
  obtain ⟨r, source, hr, hsource, hout⟩ := h.sum hi
  obtain rfl : r = readBits qubits i := hr.unique (reads_readBits qubits i)
  rw [Array.getD_eq_getD_getElem?, hout, Option.getD_some]
  refine Finset.sum_congr rfl fun c hc => ?_
  have hpatch : source c = patchBits n qubits i c :=
    (hsource c (Finset.mem_range.mp hc)).2.unique (replaces_place hnodup hlt hi c).2
  rw [hpatch]

/-- **Matrices that act on different qubits commute.** -/
theorem ActsOnBits.comm (disjoint : qubits.Disjoint others) (nodup : qubits.Nodup) (nodup' : others.Nodup)
    (inRange : ∀ q ∈ qubits, q < n) (inRange' : ∀ q ∈ others, q < n) (first : ActsOnBits n qubits m state mid)
    (second : ActsOnBits n others m' mid out) (first' : ActsOnBits n others m' state mid')
    (second' : ActsOnBits n qubits m mid' out') : out = out' := by
  have hentry {i : ℕ} (hi : i < 2 ^ n) : out.getD i 0 = out'.getD i 0 := by
    -- neither matrix changes the bits that the other one reads
    have hread (d : ℕ) : readBits qubits (patchBits n others i d) = readBits qubits i :=
      (replaces_place nodup' inRange' hi d).2.readBits fun q hq => disjoint hq
    have hread' (c : ℕ) : readBits others (patchBits n qubits i c) = readBits others i :=
      (replaces_place nodup inRange hi c).2.readBits fun q hq hmem => disjoint hmem hq
    have hpatch (c d : ℕ) :
        patchBits n others (patchBits n qubits i c) d = patchBits n qubits (patchBits n others i d) c := by
      obtain ⟨hp, hreplaces⟩ := replaces_place nodup inRange hi c
      obtain ⟨hp', hreplaces'⟩ := replaces_place nodup' inRange' hi d
      exact hreplaces.comm disjoint (replaces_place nodup' inRange' hp d).2 hreplaces'
        (replaces_place nodup inRange hp' c).2
    have hmid (d : ℕ) := first.getD_eq nodup inRange (replaces_place nodup' inRange' hi d).1
    have hmid' (c : ℕ) := first'.getD_eq nodup' inRange' (replaces_place nodup inRange hi c).1
    calc out.getD i 0
        = ∑ d ∈ Finset.range (2 ^ others.length), m' (readBits others i) d *
            ∑ c ∈ Finset.range (2 ^ qubits.length), m (readBits qubits i) c *
              state.getD (patchBits n qubits (patchBits n others i d) c) 0 := by
          rw [second.getD_eq nodup' inRange' hi]
          refine Finset.sum_congr rfl fun d _ => ?_
          rw [← hread d]
          exact congrArg _ (hmid d)
      _ = ∑ c ∈ Finset.range (2 ^ qubits.length), m (readBits qubits i) c *
            ∑ d ∈ Finset.range (2 ^ others.length), m' (readBits others i) d *
              state.getD (patchBits n others (patchBits n qubits i c) d) 0 := by
          simp only [Finset.mul_sum, hpatch]
          rw [Finset.sum_comm]
          refine Finset.sum_congr rfl fun c _ => Finset.sum_congr rfl fun d _ => ?_
          exact mul_left_comm _ _ _
      _ = out'.getD i 0 := by
          rw [second'.getD_eq nodup inRange hi]
          refine Finset.sum_congr rfl fun c _ => ?_
          rw [← hread' c]
          exact congrArg _ (hmid' c).symm
  apply Array.ext (second.1.trans second'.1.symm)
  intro i hi hi'
  rw [Array.getElem_eq_getD 0, Array.getElem_eq_getD 0]
  exact hentry (second.1 ▸ hi)

end matrices

/-! ### Gates -/

section gates

variable {n : ℕ} {g h : Gate ℝ} {kind kind' : GateKind} {state : Array (Amplitude ℝ)}

/-- Disjoint qubits of a register are still disjoint when they are counted as natural numbers. -/
theorem disjoint_targets (fits : g.Fits n kind) (fits' : h.Fits n kind') (disjoint : g.qubits.Disjoint h.qubits) :
    (g.qubits.map Int.toNat).Disjoint (h.qubits.map Int.toNat) := by
  rw [List.disjoint_left]
  intro q hq hq'
  obtain ⟨x, hx, rfl⟩ := List.mem_map.mp hq
  obtain ⟨y, hy, hxy⟩ := List.mem_map.mp hq'
  have := (fits.inRange x hx).1
  have := (fits'.inRange y hy).1
  obtain rfl : x = y := by omega
  exact disjoint hx hy

/-- **Gates on disjoint qubits commute** on every state. -/
theorem applyGate_comm (fits : g.Fits n kind) (fits' : h.Fits n kind') (disjoint : g.qubits.Disjoint h.qubits)
    (hsize : state.size = 2 ^ n) : applyGate g (applyGate h state) = applyGate h (applyGate g state) := by
  obtain ⟨nodup, inRange⟩ := fits.targets
  obtain ⟨nodup', inRange'⟩ := fits'.targets
  have first := applyGate_of_fits fits' hsize
  have first' := applyGate_of_fits fits hsize
  exact first.comm (disjoint_targets fits fits' disjoint).symm nodup' nodup inRange' inRange
    (applyGate_of_fits fits first.1) first' (applyGate_of_fits fits' first'.1)

/-- Two neighbours on disjoint qubits have changed places. -/
inductive SwapsNeighbours : List (Gate ℝ) → List (Gate ℝ) → Prop
  | swap (before after : List (Gate ℝ)) {g h : Gate ℝ} (disjoint : g.qubits.Disjoint h.qubits) :
      SwapsNeighbours (before ++ g :: h :: after) (before ++ h :: g :: after)

theorem SwapsNeighbours.perm {gates gates' : List (Gate ℝ)} (swaps : SwapsNeighbours gates gates') :
    gates.Perm gates' := by
  cases swaps with
  | swap before after _ => exact (List.Perm.swap _ _ after).append_left before

/-- One swap leaves the outcome as it is. -/
theorem SwapsNeighbours.applyGates_eq {gates gates' : List (Gate ℝ)} (swaps : SwapsNeighbours gates gates')
    (fits : ∀ g ∈ gates, ∃ kind, g.Fits n kind) (hsize : state.size = 2 ^ n) :
    applyGates gates' state = applyGates gates state := by
  cases swaps with
  | @swap before after g h disjoint =>
      obtain ⟨kind, hg⟩ := fits g (by simp)
      obtain ⟨kind', hh⟩ := fits h (by simp)
      have hbefore := (squaredNorm_applyGates (fun g' hg' => fits g' (List.mem_append_left _ hg')) hsize).1
      rw [applyGates_append, applyGates_append, applyGates_cons, applyGates_cons, applyGates_cons, applyGates_cons,
        applyGate_comm hg hh disjoint hbefore]

/-- So do any number of swaps. -/
theorem applyGates_eq_of_swaps {gates gates' : List (Gate ℝ)}
    (swaps : Relation.ReflTransGen SwapsNeighbours gates gates') (fits : ∀ g ∈ gates, ∃ kind, g.Fits n kind)
    (hsize : state.size = 2 ^ n) :
    (∀ g ∈ gates', ∃ kind, g.Fits n kind) ∧ applyGates gates' state = applyGates gates state := by
  induction swaps with
  | refl => exact ⟨fits, rfl⟩
  | tail _ last ih =>
      obtain ⟨hfits, hsame⟩ := ih
      exact ⟨fun g hg => hfits g (last.perm.mem_iff.mpr hg), (last.applyGates_eq hfits hsize).trans hsame⟩

end gates

end State

open State

/-- **Gates on disjoint qubits commute.**  On every state of any register two gates that fit it and have no qubit in
common give the same in either order.  Hence neighbours on disjoint qubits can change places anywhere in the gates of a
valid circuit, any number of times: the circuit stays valid, its gates lead to the same state, and it has a state exactly
if it is not too large, as before. -/
theorem disjoint_gates_commute :
    (∀ (n : ℕ) (g h : Gate ℝ) (kind kind' : GateKind) (state : Array (Amplitude ℝ)), g.Fits n kind → h.Fits n kind' →
      g.qubits.Disjoint h.qubits → state.size = 2 ^ n →
        applyGate g (applyGate h state) = applyGate h (applyGate g state)) ∧
    (∀ (c : Circuit ℝ) (gates : List (Gate ℝ)), c.IsValid → Relation.ReflTransGen SwapsNeighbours c.gates gates →
      ({ c with gates } : Circuit ℝ).IsValid ∧ run { c with gates } = run c ∧
        ofCircuit { c with gates } = ofCircuit c) := by
  refine ⟨fun n g h kind kind' state fits fits' disjoint hsize => applyGate_comm fits fits' disjoint hsize,
    fun c gates valid swaps => ?_⟩
  obtain ⟨hfits, hrun⟩ := applyGates_eq_of_swaps swaps valid.gates (size_initial c.qubits)
  have hstate : run { c with gates } = run c := hrun
  refine ⟨⟨valid.positive, hfits, valid.nonempty, valid.ascending, valid.inRange⟩, hstate, ?_⟩
  unfold ofCircuit
  rw [hstate]

/-- A gate on the outer two of three qubits and a rotation of the middle one, which is also moved to the front of a
circuit. -/
theorem disjoint_gates_commute_rotation :
    ∃ (g h k : Gate ℝ) (state : Array (Amplitude ℝ)) (c : Circuit ℝ),
      g = ⟨"CNOT", [2, 0], []⟩ ∧ h = ⟨"RX", [1], [√2]⟩ ∧ k = ⟨"H", [2], []⟩ ∧ state = Array.replicate 8 1 ∧
      c = ⟨"tilted", 3, [k, g, h], [0, 1]⟩ ∧ g.Fits 3 .cnot ∧ h.Fits 3 .rx ∧ g.qubits.Disjoint h.qubits ∧
      state.size = 2 ^ 3 ∧ applyGate g (applyGate h state) = applyGate h (applyGate g state) ∧ c.IsValid ∧
      Relation.ReflTransGen SwapsNeighbours c.gates [h, k, g] ∧
      ofCircuit { c with gates := [h, k, g] } = ofCircuit c := by
  obtain ⟨g, hg⟩ : ∃ g : Gate ℝ, g = ⟨"CNOT", [2, 0], []⟩ := ⟨_, rfl⟩
  obtain ⟨h, hh⟩ : ∃ h : Gate ℝ, h = ⟨"RX", [1], [√2]⟩ := ⟨_, rfl⟩
  obtain ⟨k, hk⟩ : ∃ k : Gate ℝ, k = ⟨"H", [2], []⟩ := ⟨_, rfl⟩
  have fitsg : g.Fits 3 .cnot := by
    rw [hg]
    exact ⟨by decide +kernel, rfl, rfl, fun _ _ => rfl, by decide, by decide⟩
  have fitsh : h.Fits 3 .rx := by
    rw [hh]
    exact ⟨by decide +kernel, rfl, rfl, fun _ _ => rfl, by decide, by decide⟩
  have fitsk : k.Fits 3 .h := by
    rw [hk]
    exact ⟨by decide +kernel, rfl, rfl, fun _ _ => rfl, by decide, by decide⟩
  have apart : g.qubits.Disjoint h.qubits := by
    rw [hg, hh]
    simp
  have apart' : k.qubits.Disjoint h.qubits := by
    rw [hk, hh]
    simp
  have valid : (⟨"tilted", 3, [k, g, h], [0, 1]⟩ : Circuit ℝ).IsValid := by
    refine ⟨Nat.succ_pos 2, ?_, List.cons_ne_nil 0 [1], by simp, by simp⟩
    simp only [List.forall_mem_cons, List.not_mem_nil, false_implies, implies_true, and_true]
    exact ⟨⟨_, fitsk⟩, ⟨_, fitsg⟩, ⟨_, fitsh⟩⟩
  have swaps : Relation.ReflTransGen SwapsNeighbours [k, g, h] [h, k, g] :=
    .tail (.single (.swap [k] [] apart)) (.swap [] [g] apart')
  obtain ⟨states, circuits⟩ := disjoint_gates_commute
  exact ⟨g, h, k, _, _, hg, hh, hk, rfl, rfl, fitsg, fitsh, apart, by simp,
    states 3 g h .cnot .rx _ fitsg fitsh apart (by simp), valid, swaps, (circuits _ _ valid swaps).2.2⟩

end LabLang
