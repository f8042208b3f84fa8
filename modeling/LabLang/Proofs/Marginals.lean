import LabLang.Proofs.BornRule

/-! # Marginal probabilities

The probabilities of all basis states, taken as a tensor with one axis for every qubit, lose the axes of the qubits that
are not measured (`Tensor.sumOut`).  What is left in place of these axes are sums over all basis states that have given
bits at the measured qubits: every such basis state is found once, by its other bits (`sum_of_reads`).  `marginalize`
lists the same basis states in another order, and none of them twice, so that it gives the same vector; if all qubits
are measured there is nothing to add up and both give the vector itself (`marginalize_exact`). -/

namespace LabLang.State

/-! ### Summing out axes -/

namespace Tensor

/-- The tensor without the listed axes: every entry is the sum of those that differ from each other in the numbers of
these axes only.  The other axes keep their order. -/
def sumOut {A : Type} [Zero A] [Add A] (axes : List ℕ) (t : Tensor A) : Tensor A :=
  let rest := otherAxes t.rank axes
  ⟨rest.length, fun index => sumTo (twoPow axes.length) fun c =>
    (t.transpose (axes ++ rest)).entry (indexAt axes.length c ++ index)⟩

/-- The entry whose index has the numbers `f` at the axes that are left. -/
theorem entry_sumOut {A : Type} [Zero A] [Add A] (t : Tensor A) {axes : List ℕ} (hnodup : axes.Nodup)
    (hlt : ∀ a ∈ axes, a < t.rank) (f : ℕ → ℕ) :
    (t.sumOut axes).entry ((otherAxes t.rank axes).map f) =
      sumTo (2 ^ axes.length) fun c => t.entry ((List.range t.rank).map (replaced axes c f)) := by
  unfold sumOut
  dsimp only
  refine congrArg _ (funext fun c => ?_)
  rw [← map_replaced hnodup]
  exact entry_transpose_front t hlt _

end Tensor

section marginal

variable {n : ℕ} {measured : List ℕ}

/-- The axes that are left when those of the unmeasured qubits are summed out: the axes of the measured ones, where the
highest qubit comes first. -/
theorem otherAxes_unmeasured (ascending : measured.Pairwise (· < ·)) (inRange : ∀ q ∈ measured, q < n) :
    Tensor.otherAxes n ((unmeasured n measured).map fun q => n - 1 - q) = measured.reverse.map fun q => n - 1 - q := by
  refine List.Pairwise.eq_of_mem_iff (List.pairwise_lt_range.filter _) ?_ fun a => ?_
  · rw [List.pairwise_map, List.pairwise_reverse]
    refine ascending.imp_of_mem fun {p q} hp hq hpq => ?_
    have := inRange p hp
    have := inRange q hq
    omega
  · rw [Tensor.mem_otherAxes]
    simp only [List.mem_map, List.mem_reverse, mem_unmeasured]
    constructor
    · rintro ⟨ha, hnot⟩
      refine ⟨n - 1 - a, ?_, by omega⟩
      by_contra hmem
      exact hnot ⟨n - 1 - a, ⟨by omega, hmem⟩, by omega⟩
    · rintro ⟨q, hq, rfl⟩
      have := inRange q hq
      refine ⟨by omega, ?_⟩
      rintro ⟨q', ⟨hq', hnot⟩, heq⟩
      obtain rfl : q' = q := by omega
      exact hnot hq

/-- Replacing the bits of the other qubits keeps what the measured ones read. -/
theorem reads_patchBits_unmeasured {i x : ℕ} (hi : i < 2 ^ n) (hread : Reads measured.reverse i x) {c : ℕ}
    (hc : c < 2 ^ (unmeasured n measured).length) :
    patchBits n (unmeasured n measured) i c < 2 ^ n ∧
      Reads measured.reverse (patchBits n (unmeasured n measured) i c) x ∧
      Reads (unmeasured n measured) (patchBits n (unmeasured n measured) i c) c := by
  obtain ⟨hlt, hreplaces⟩ := replaces_place nodup_unmeasured (fun q hq => (mem_unmeasured.mp hq).1) hi c
  refine ⟨hlt, ⟨hread.1, fun j hj => ?_⟩, hreplaces.reads hc⟩
  have hnot : measured.reverse[j] ∉ unmeasured n measured := fun hmem =>
    (mem_unmeasured.mp hmem).2 (List.mem_reverse.mp (List.getElem_mem hj))
  rw [hread.2 j hj]
  exact (hreplaces.2 _ hnot).symm

/-- The vector of the sums has one entry for each number that the measured qubits can spell. -/
theorem size_sumOut (ascending : measured.Pairwise (· < ·)) (inRange : ∀ q ∈ measured, q < n) (probs : Array ℝ) :
    ((Tensor.ofVector n probs).sumOut ((unmeasured n measured).map fun q => n - 1 - q)).toVector.size =
      2 ^ measured.length := by
  rw [Tensor.size_toVector]
  show 2 ^ (Tensor.otherAxes n ((unmeasured n measured).map fun q => n - 1 - q)).length = 2 ^ measured.length
  rw [otherAxes_unmeasured ascending inRange, List.length_map, List.length_reverse]

/-- An entry, from any basis state that has the bits of its number at the measured qubits. -/
theorem getElem?_sumOut (ascending : measured.Pairwise (· < ·)) (inRange : ∀ q ∈ measured, q < n) (probs : Array ℝ)
    {i x : ℕ} (hread : Reads measured.reverse i x) :
    ((Tensor.ofVector n probs).sumOut ((unmeasured n measured).map fun q => n - 1 - q)).toVector[x]? =
      some (∑ c ∈ Finset.range (2 ^ (unmeasured n measured).length),
        probs.getD (patchBits n (unmeasured n measured) i c) 0) := by
  have hothers : ∀ q ∈ unmeasured n measured, q < n := fun q hq => (mem_unmeasured.mp hq).1
  have hrest := otherAxes_unmeasured ascending inRange
  have hrank : ((Tensor.ofVector n probs).sumOut ((unmeasured n measured).map fun q => n - 1 - q)).rank =
      measured.length := by
    show (Tensor.otherAxes n _).length = measured.length
    rw [hrest, List.length_map, List.length_reverse]
  have hlt : x < 2 ^ measured.length := by
    have := hread.1
    rwa [List.length_reverse] at this
  -- the index of the entry lists the bits of the basis state at the axes that are left
  have hindex : Tensor.indexAt measured.length x =
      (Tensor.otherAxes n ((unmeasured n measured).map fun q => n - 1 - q)).map fun a => bit i (n - 1 - a) := by
    rw [hrest, List.map_map]
    apply List.ext_getElem
    · rw [Tensor.length_indexAt, List.length_map, List.length_reverse]
    · intro j hj hj'
      rw [List.length_map] at hj'
      have hq := inRange _ (List.mem_reverse.mp (List.getElem_mem hj'))
      have hbit := testBit_eq_iff_bit.mp (hread.2 j hj')
      rw [List.length_reverse] at hbit
      rw [Tensor.getElem_indexAt, List.getElem_map, Function.comp_apply,
        show n - 1 - (n - 1 - measured.reverse[j]) = measured.reverse[j] by omega, hbit]
  rw [Tensor.getElem?_toVector _ (by rwa [hrank]), hrank, hindex]
  have hentry := Tensor.entry_sumOut (.ofVector n probs) (nodup_axes nodup_unmeasured hothers) (axes_lt hothers)
    fun a => bit i (n - 1 - a)
  rw [sumTo_eq_sum, List.length_map] at hentry
  exact congrArg some hentry

/-- **Summing out the axes of the unmeasured qubits** adds up all basis states that agree on the measured ones. -/
theorem getElem?_sumOut_eq (ascending : measured.Pairwise (· < ·)) (inRange : ∀ q ∈ measured, q < n) (probs : Array ℝ)
    {x : ℕ} (hx : x < 2 ^ measured.length) :
    ((Tensor.ofVector n probs).sumOut ((unmeasured n measured).map fun q => n - 1 - q)).toVector[x]? =
      some (∑ i ∈ Finset.range (2 ^ n) with readBits measured.reverse i = x, probs.getD i 0) := by
  have hnodup : measured.Nodup := ascending.imp fun h => h.ne
  have hread : Reads measured.reverse (basisState n measured x 0) x := reads_basisState hnodup hx 0
  have hlt : basisState n measured x 0 < 2 ^ n := basisState_lt hnodup inRange x 0
  rw [getElem?_sumOut ascending inRange probs hread]
  exact congrArg some (sum_of_reads cover_unmeasured (fun c hc => reads_patchBits_unmeasured hlt hread hc)
    fun p => probs.getD p 0)

/-- The bits of the measured qubits, read one by one. -/
theorem readBits_eq_iff {i x : ℕ} (hx : x < 2 ^ measured.length) :
    readBits measured.reverse i = x ↔ ∀ j (h : j < measured.length), i.testBit measured[j] = x.testBit j := by
  have hread := reads_readBits measured.reverse i
  constructor
  · rintro rfl j hj
    have hbit := hread.2 (measured.length - 1 - j) (by rw [List.length_reverse]; omega)
    rw [List.getElem_reverse] at hbit
    simp only [List.length_reverse, show measured.length - 1 - (measured.length - 1 - j) = j by omega] at hbit
    exact hbit.symm
  · intro h
    refine hread.unique ⟨by rwa [List.length_reverse], fun j hj => ?_⟩
    rw [List.getElem_reverse, List.length_reverse]
    exact (h _ _).symm

/-- **Marginal probabilities are exact.**  Take the probabilities of all basis states of a register and some of its
qubits, in ascending order.  The vector that is left when the other qubits are summed out has one entry for each number
that the measured qubits can spell; entry `x` is the sum over exactly those basis states in which the `j`-th lowest
measured qubit has the value of bit `j` of `x`.  This is what is left of the tensor of the probabilities when the axes of
the other qubits are summed out, also if all qubits are measured, where the vector is returned as it is.  In the bitstring
of `x` the character of the `j`-th lowest measured qubit is the `j`-th one from the right. -/
theorem marginalize_exact {probs : Array ℝ} (hsize : probs.size = 2 ^ n) (nonempty : measured ≠ [])
    (ascending : measured.Pairwise (· < ·)) (inRange : ∀ q ∈ measured, q < n) :
    (marginalize probs n measured).size = 2 ^ measured.length ∧
    (∀ x < 2 ^ measured.length, (marginalize probs n measured)[x]? =
      some (∑ i ∈ Finset.range (2 ^ n) with ∀ j (h : j < measured.length), i.testBit measured[j] = x.testBit j,
        probs.getD i 0)) ∧
    marginalize probs n measured =
      ((Tensor.ofVector n probs).sumOut ((unmeasured n measured).map fun q => n - 1 - q)).toVector ∧
    (measured.length = n → marginalize probs n measured = probs) ∧
    ∀ x < 2 ^ measured.length, (bitstring measured.length x).length = measured.length ∧
      ∀ j < measured.length, (bitstring measured.length x).toList.reverse[j]? = some (bitChar (x.testBit j)) := by
  obtain ⟨hlength, hentry⟩ := marginalize_eq hsize ascending inRange
  refine ⟨hlength, fun x hx => ?_, ?_, fun hall => ?_, fun x hx => ?_⟩
  · rw [hentry x hx]
    exact congrArg some (Finset.sum_congr (Finset.filter_congr fun i _ => readBits_eq_iff hx) fun _ _ => rfl)
  · apply Array.ext_getElem?
    intro x
    by_cases hx : x < 2 ^ measured.length
    · rw [hentry x hx, getElem?_sumOut_eq ascending inRange probs hx]
    · rw [Array.getElem?_eq_none (by omega),
        Array.getElem?_eq_none (by rw [size_sumOut ascending inRange]; omega)]
  · unfold marginalize
    rw [if_pos hall]
  · have hbits := toList_bitstring (List.length_pos_iff.mpr nonempty) hx
    rw [bits_eq] at hbits
    refine ⟨by rw [← String.length_toList, hbits]; simp, fun j hj => ?_⟩
    rw [hbits, ← List.map_reverse, List.reverse_reverse, List.getElem?_map, List.getElem?_range hj, Option.map_some]

/-- Three qubits of which the outer ones are measured: entry 1 is the sum of the entries 1 and 3. -/
theorem marginalize_exact_outer :
    (Array.ofFn fun i : Fin 8 => (i.val : ℝ)).size = 2 ^ 3 ∧
    (marginalize (Array.ofFn fun i : Fin 8 => (i.val : ℝ)) 3 [0, 2])[1]? = some (1 + 3) := by
  have hsize : (Array.ofFn fun i : Fin 8 => (i.val : ℝ)).size = 2 ^ 3 := Array.size_ofFn
  refine ⟨hsize, ?_⟩
  obtain ⟨-, hentry, -⟩ := marginalize_exact hsize (by decide : [0, 2] ≠ []) (by decide) (by decide)
  have hstates : {i ∈ Finset.range (2 ^ 3) | ∀ j (h : j < ([0, 2] : List ℕ).length),
      i.testBit ([0, 2] : List ℕ)[j] = Nat.testBit 1 j} = {1, 3} := by decide
  rw [hentry 1 (by decide), hstates, Finset.sum_pair (by decide)]
  simp

end marginal

end LabLang.State
