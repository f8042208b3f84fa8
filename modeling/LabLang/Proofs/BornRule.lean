import LabLang.Proofs.Bitstrings
import LabLang.Proofs.Normalization
import LabLang.Random.Sample

/-! # Probabilities of outcomes

Every basis state of the register shows one outcome on the measured qubits (`outcomeOf`), and the chance of an outcome is
the sum of the weights of the basis states that show it (`chance`).  `marginalize` numbers the outcomes by the values of
the measured qubits, and lists for each of them the basis states that have these values by spreading the bits of two
numbers over the register (`testBit_spreadBits`).  So the list of probabilities that is sampled from holds the chances of
the outcomes (`outcomes_eq`); none is negative (`chances_nonneg`) and they add up to one (`sum_chances`). -/

namespace LabLang.State

/-! ### Spreading bits -/

/-- Adding a power of two where the bit is not set sets this bit only. -/
theorem testBit_two_pow_add {i q : ℕ} (h : i.testBit q = false) (p : ℕ) :
    (2 ^ q + i).testBit p = if p = q then true else i.testBit p := by
  rcases Nat.lt_trichotomy p q with hlt | rfl | hgt
  · rw [if_neg hlt.ne, Nat.testBit_two_pow_add_gt hlt]
  · rw [if_pos rfl, Nat.testBit_two_pow_add_eq, h, Bool.not_false]
  · rw [if_neg hgt.ne']
    -- no carry: behind the bit both numbers are the same
    obtain ⟨m, rfl⟩ : ∃ m, p = m + (q + 1) := ⟨p - (q + 1), by omega⟩
    have heven : i / 2 ^ q % 2 = 0 := by
      rw [Nat.testBit_eq_decide_div_mod_eq, decide_eq_false_iff_not] at h
      omega
    have hadd : (2 ^ q + i) / 2 ^ q = i / 2 ^ q + 1 := by
      rw [Nat.add_comm, Nat.add_div_right _ (Nat.two_pow_pos q)]
    rw [Nat.testBit_add, Nat.testBit_add, Nat.pow_succ, ← Nat.div_div_eq_div_mul, ← Nat.div_div_eq_div_mul, hadd]
    congr 1
    omega

theorem testBit_add_shiftLeft {i q : ℕ} (x : ℕ) (h : i.testBit q = false) (p : ℕ) :
    (i + (x % 2) <<< q).testBit p = if p = q then x.testBit 0 else i.testBit p := by
  rw [Nat.testBit_zero]
  rcases Nat.mod_two_eq_zero_or_one x with hx | hx
  · rw [hx, Nat.zero_shiftLeft, Nat.add_zero]
    split
    · rename_i hp
      rw [hp, h]
      rfl
    · rfl
  · rw [hx, Nat.shiftLeft_eq, Nat.one_mul, Nat.add_comm, testBit_two_pow_add h]
    rfl

/-- The bits of a number are spread over the listed places, if these are not taken yet. -/
theorem testBit_spreadBits {qs : List ℕ} (hnodup : qs.Nodup) (x : ℕ) {i : ℕ} (h : ∀ q ∈ qs, i.testBit q = false) :
    (∀ j (hj : j < qs.length), (spreadBits qs x i).testBit qs[j] = x.testBit j) ∧
      ∀ p, p ∉ qs → (spreadBits qs x i).testBit p = i.testBit p := by
  induction qs generalizing x i with
  | nil => exact ⟨fun j hj => absurd hj (Nat.not_lt_zero j), fun _ _ => rfl⟩
  | cons q qs ih =>
      obtain ⟨hq, hnodup⟩ := List.nodup_cons.mp hnodup
      have hset := testBit_add_shiftLeft x (h q List.mem_cons_self)
      have hfree : ∀ p ∈ qs, (i + (x % 2) <<< q).testBit p = false := by
        intro p hp
        have hne : p ≠ q := fun hpq => hq (hpq ▸ hp)
        rw [hset, if_neg hne]
        exact h p (List.mem_cons_of_mem q hp)
      obtain ⟨hbits, hothers⟩ := ih hnodup (x / 2) hfree
      rw [spreadBits]
      refine ⟨fun j hj => ?_, fun p hp => ?_⟩
      · cases j with
        | zero => rw [List.getElem_cons_zero, hothers q hq, hset, if_pos rfl]
        | succ j =>
            rw [List.getElem_cons_succ, hbits j (Nat.lt_of_succ_lt_succ hj), Nat.testBit_succ]
      · rw [List.mem_cons, not_or] at hp
        rw [hothers p hp.2, hset, if_neg hp.1]

/-- In terms of replaced bits, where the first place is the one of the highest bit. -/
theorem replaces_spreadBits {qs : List ℕ} (hnodup : qs.Nodup) (x : ℕ) {i : ℕ} (h : ∀ q ∈ qs, i.testBit q = false) :
    Replaces qs.reverse i x (spreadBits qs x i) := by
  obtain ⟨hbits, hothers⟩ := testBit_spreadBits hnodup x h
  refine ⟨fun j hj => ?_, fun p hp => hothers p (fun hmem => hp (List.mem_reverse.mpr hmem))⟩
  rw [List.getElem_reverse, List.length_reverse]
  exact hbits _ _

/-! ### Basis states with given bits -/

section reads

variable {n : ℕ} {qubits others : List ℕ}

/-- A basis state is determined by its bits, read in two parts. -/
theorem Reads.eq_of_cover (cover : ∀ q < n, q ∈ qubits ∨ q ∈ others) {i i' x y : ℕ} (hi : i < 2 ^ n) (hi' : i' < 2 ^ n)
    (hx : Reads qubits i x) (hx' : Reads qubits i' x) (hy : Reads others i y) (hy' : Reads others i' y) : i = i' := by
  apply Nat.eq_of_testBit_eq
  intro q
  by_cases hq : q < n
  · rcases cover q hq with hmem | hmem
    · obtain ⟨j, hj, rfl⟩ := List.getElem_of_mem hmem
      rw [← hx.2 j hj, ← hx'.2 j hj]
    · obtain ⟨j, hj, rfl⟩ := List.getElem_of_mem hmem
      rw [← hy.2 j hj, ← hy'.2 j hj]
  · have hle : 2 ^ n ≤ 2 ^ q := Nat.pow_le_pow_right (by decide) (Nat.le_of_not_lt hq)
    rw [Nat.testBit_lt_two_pow (hi.trans_le hle), Nat.testBit_lt_two_pow (hi'.trans_le hle)]

/-- The basis states that have the bits of `x` at some qubits, one for every number that the other qubits can spell. -/
theorem sum_of_reads (cover : ∀ q < n, q ∈ qubits ∨ q ∈ others) {x : ℕ} {state : ℕ → ℕ}
    (hstate : ∀ c < 2 ^ others.length, state c < 2 ^ n ∧ Reads qubits (state c) x ∧ Reads others (state c) c)
    (f : ℕ → ℝ) : ∑ c ∈ Finset.range (2 ^ others.length), f (state c) =
      ∑ i ∈ Finset.range (2 ^ n) with readBits qubits i = x, f i := by
  refine Finset.sum_nbij' state (readBits others) ?_ ?_ ?_ ?_ fun _ _ => rfl
  · intro c hc
    obtain ⟨hlt, hread, -⟩ := hstate c (Finset.mem_range.mp hc)
    rw [Finset.mem_filter, Finset.mem_range]
    exact ⟨hlt, (reads_readBits qubits _).unique hread⟩
  · intro i _
    rw [Finset.mem_range]
    exact (reads_readBits others i).1
  · intro c hc
    exact (reads_readBits others _).unique (hstate c (Finset.mem_range.mp hc)).2.2
  · intro i hi
    obtain ⟨hi, hread⟩ := Finset.mem_filter.mp hi
    obtain ⟨hlt, hx, hy⟩ := hstate _ (reads_readBits others i).1
    exact Reads.eq_of_cover cover hlt (Finset.mem_range.mp hi) hx (hread ▸ reads_readBits qubits i) hy
      (reads_readBits others i)

end reads

/-! ### Basis states by their bits -/

section marginal

variable {n : ℕ} {measured : List ℕ}

/-- The qubits of a register that are not measured. -/
def unmeasured (n : ℕ) (measured : List ℕ) : List ℕ := (List.range n).filter fun q => !measured.contains q

theorem mem_unmeasured {q : ℕ} : q ∈ unmeasured n measured ↔ q < n ∧ q ∉ measured := by
  simp [unmeasured]

theorem nodup_unmeasured : (unmeasured n measured).Nodup := List.nodup_range.filter _

/-- Measured qubits that are listed in ascending order are found in this order. -/
theorem filter_contains_range (ascending : measured.Pairwise (· < ·)) (inRange : ∀ q ∈ measured, q < n) :
    (List.range n).filter measured.contains = measured := by
  refine List.Pairwise.eq_of_mem_iff (List.pairwise_lt_range.filter _) ascending fun q => ?_
  simp only [List.mem_filter, List.mem_range, List.contains_iff_mem]
  exact ⟨fun h => h.2, fun h => ⟨inRange q h, h⟩⟩

/-- The basis state that has the bits of `x` at the measured qubits and those of `y` at the others. -/
def basisState (n : ℕ) (measured : List ℕ) (x y : ℕ) : ℕ :=
  spreadBits (unmeasured n measured) y (spreadBits measured x 0)

theorem basisState_replaces (hnodup : measured.Nodup) (x y : ℕ) :
    Replaces measured.reverse 0 x (spreadBits measured x 0) ∧
      Replaces (unmeasured n measured).reverse (spreadBits measured x 0) y (basisState n measured x y) := by
  have hmeasured := replaces_spreadBits hnodup x fun q _ => Nat.zero_testBit q
  refine ⟨hmeasured, replaces_spreadBits nodup_unmeasured y fun q hq => ?_⟩
  rw [hmeasured.2 q fun hmem => (mem_unmeasured.mp hq).2 (List.mem_reverse.mp hmem), Nat.zero_testBit]

/-- The measured qubits have the bits that they have been given. -/
theorem reads_basisState (hnodup : measured.Nodup) {x : ℕ} (hx : x < 2 ^ measured.length) (y : ℕ) :
    Reads measured.reverse (basisState n measured x y) x := by
  obtain ⟨hmeasured, hothers⟩ := basisState_replaces (n := n) hnodup x y
  have hread := hmeasured.reads (by rwa [List.length_reverse])
  refine ⟨hread.1, fun j hj => ?_⟩
  have hmem : measured.reverse[j] ∈ measured := List.mem_reverse.mp (List.getElem_mem hj)
  rw [hothers.2 _ fun h => (mem_unmeasured.mp (List.mem_reverse.mp h)).2 hmem]
  exact hread.2 j hj

theorem basisState_lt (hnodup : measured.Nodup) (inRange : ∀ q ∈ measured, q < n) (x y : ℕ) :
    basisState n measured x y < 2 ^ n := by
  obtain ⟨hmeasured, hothers⟩ := basisState_replaces (n := n) hnodup x y
  refine Nat.lt_pow_two_of_testBit _ fun p hp => ?_
  rw [hothers.2 p fun h => by have := (mem_unmeasured.mp (List.mem_reverse.mp h)).1; omega,
    hmeasured.2 p fun h => by have := inRange p (List.mem_reverse.mp h); omega, Nat.zero_testBit]

/-- Every qubit of the register is measured or not. -/
theorem cover_unmeasured : ∀ q < n, q ∈ measured.reverse ∨ q ∈ unmeasured n measured := by
  intro q hq
  rw [List.mem_reverse, mem_unmeasured]
  exact (em (q ∈ measured)).imp_right fun hnot => ⟨hq, hnot⟩

/-- The basis states in which the measured qubits have the bits of `x`, one for every number that the other qubits can
spell. -/
theorem sum_basisState (hnodup : measured.Nodup) (inRange : ∀ q ∈ measured, q < n) {x : ℕ}
    (hx : x < 2 ^ measured.length) (f : ℕ → ℝ) :
    ∑ y ∈ Finset.range (2 ^ (unmeasured n measured).length), f (basisState n measured x y) =
      ∑ i ∈ Finset.range (2 ^ n) with readBits measured.reverse i = x, f i := by
  have hcover : ∀ q < n, q ∈ measured.reverse ∨ q ∈ (unmeasured n measured).reverse := fun q hq =>
    (cover_unmeasured q hq).imp_right List.mem_reverse.mpr
  have hsum := sum_of_reads hcover (fun y hy => ⟨basisState_lt hnodup inRange x y, reads_basisState hnodup hx y,
    (basisState_replaces hnodup x y).2.reads hy⟩) f
  rwa [List.length_reverse] at hsum

/-! ### Marginal probabilities -/

theorem unmeasured_range : unmeasured n (List.range n) = [] := by
  rw [List.eq_nil_iff_forall_not_mem]
  intro q hq
  exact (mem_unmeasured.mp hq).2 (List.mem_range.mpr (mem_unmeasured.mp hq).1)

/-- With all qubits measured, the outcomes are the basis states. -/
theorem basisState_range {x : ℕ} (hx : x < 2 ^ n) : basisState n (List.range n) x 0 = x := by
  have hread : Reads (List.range n).reverse x x := by
    refine ⟨by rwa [List.length_reverse, List.length_range], fun j hj => ?_⟩
    rw [List.getElem_reverse, List.getElem_range, List.length_reverse]
  have hlt : basisState n (List.range n) x 0 < 2 ^ n :=
    basisState_lt List.nodup_range (fun q hq => List.mem_range.mp hq) x 0
  have hother (i : ℕ) : Reads (unmeasured n (List.range n)) i 0 := by
    rw [unmeasured_range]
    exact ⟨by simp, by simp⟩
  exact Reads.eq_of_cover cover_unmeasured hlt hx (reads_basisState List.nodup_range (by rwa [List.length_range]) 0) hread (hother _) (hother _)

/-- The probability of an outcome is the sum of those of the basis states that show it. -/
theorem marginalize_eq {probs : Array ℝ} (hsize : probs.size = 2 ^ n) (ascending : measured.Pairwise (· < ·))
    (inRange : ∀ q ∈ measured, q < n) :
    (marginalize probs n measured).size = 2 ^ measured.length ∧ ∀ x < 2 ^ measured.length,
      (marginalize probs n measured)[x]? =
        some (∑ i ∈ Finset.range (2 ^ n) with readBits measured.reverse i = x, probs.getD i 0) := by
  have hnodup : measured.Nodup := ascending.imp fun h => h.ne
  have hkept := filter_contains_range ascending inRange
  unfold marginalize
  by_cases hall : measured.length = n
  · obtain rfl : measured = List.range n := by
      have hsub : measured.Sublist (List.range n) := hkept ▸ List.filter_sublist
      exact hsub.eq_of_length (by rw [hall, List.length_range])
    rw [if_pos hall, hall]
    refine ⟨hsize, fun x hx => ?_⟩
    have hsum := sum_basisState hnodup inRange (by rwa [hall]) fun i => probs.getD i 0
    rw [unmeasured_range, List.length_nil, pow_zero, Finset.sum_range_one, basisState_range hx] at hsum
    rw [← hsum, Array.getElem?_eq_getElem (by rwa [hsize]), Array.getElem_eq_getD 0]
  · rw [if_neg hall, hkept]
    refine ⟨by rw [Array.size_ofFn, twoPow_eq], fun x hx => ?_⟩
    rw [← sum_basisState hnodup inRange hx, Array.getElem?_ofFn, dif_pos (by rwa [twoPow_eq])]
    dsimp only
    rw [total_eq_sum, twoPow_eq, Scalar.zero_real]
    rfl

end marginal

/-! ### Chances -/

/-- The outcome that a basis state shows: the bits of the measured qubits, the highest one first. -/
def outcomeOf (measured : List ℕ) (i : ℕ) : String :=
  String.ofList (measured.reverse.map fun q => bitChar (i.testBit q))

/-- The chance of an outcome: the sum of the weights of the basis states that show it. -/
noncomputable def chance (c : Circuit ℝ) (outcome : String) : ℝ :=
  ∑ i ∈ Finset.range (2 ^ c.qubits) with outcomeOf c.measured i = outcome, ((run c).getD i 0).weight

theorem outcomeOf_eq_bitstring {measured : List ℕ} (hne : measured ≠ []) (i : ℕ) :
    outcomeOf measured i = bitstring measured.length (readBits measured.reverse i) := by
  have hread := reads_readBits measured.reverse i
  rw [List.length_reverse.symm, ← String.toList_inj]
  rw [toList_bitstring (by simpa using List.length_pos_iff.mpr hne) hread.1, bits_eq]
  unfold outcomeOf
  rw [String.toList_ofList]
  apply List.ext_getElem
  · simp
  · intro j hj hj'
    rw [List.length_map] at hj
    rw [List.getElem_map, List.getElem_map, ← hread.2 j hj, List.getElem_reverse (l := List.range _),
      List.getElem_range, List.length_range]

/-- The chance of the outcome that writes `x`. -/
theorem chance_bitstring {c : Circuit ℝ} (hne : c.measured ≠ []) {x : ℕ} (hx : x < 2 ^ c.measured.length) :
    chance c (bitstring c.measured.length x) =
      ∑ i ∈ Finset.range (2 ^ c.qubits) with readBits c.measured.reverse i = x, ((run c).getD i 0).weight := by
  have hpos : 0 < c.measured.length := List.length_pos_iff.mpr hne
  unfold chance
  refine Finset.sum_congr (Finset.filter_congr fun i _ => ?_) fun _ _ => rfl
  have hread : readBits c.measured.reverse i < 2 ^ c.measured.length := by
    rw [← List.length_reverse]
    exact (reads_readBits _ i).1
  rw [outcomeOf_eq_bitstring hne, bitstring_inj hpos hread hx]

theorem chance_nonneg (c : Circuit ℝ) (outcome : String) : 0 ≤ chance c outcome :=
  Finset.sum_nonneg fun _ _ => Amplitude.weight_nonneg _

/-- Every basis state shows one outcome. -/
theorem sum_chance {c : Circuit ℝ} (valid : c.IsValid) :
    ∑ x ∈ Finset.range (2 ^ c.measured.length), chance c (bitstring c.measured.length x) = 1 := by
  obtain ⟨hsize, hnorm⟩ := squaredNorm_run valid.gates
  rw [← hnorm]
  unfold squaredNorm
  rw [hsize, Finset.sum_congr rfl fun x hx => chance_bitstring valid.nonempty (Finset.mem_range.mp hx)]
  refine Finset.sum_fiberwise_of_maps_to (fun i _ => ?_) _
  rw [Finset.mem_range, ← List.length_reverse]
  exact (reads_readBits _ i).1

/-- The probabilities of the basis states are their weights, since the state has weight one. -/
theorem probabilities_run {c : Circuit ℝ} (valid : c.IsValid) :
    (probabilities (run c)).size = 2 ^ c.qubits ∧
      ∀ i < 2 ^ c.qubits, (probabilities (run c)).getD i 0 = ((run c).getD i 0).weight := by
  obtain ⟨hsize, hnorm⟩ := squaredNorm_run valid.gates
  refine ⟨by rw [size_probabilities, hsize], fun i _ => ?_⟩
  rw [getD_probabilities, hnorm, div_one]

end LabLang.State

namespace LabLang.Random

open State

/-- The chances of the outcomes, in the order of their bitstrings. -/
noncomputable def chances (c : Circuit ℝ) : List ℝ :=
  (List.range (2 ^ c.measured.length)).map fun x => chance c (bitstring c.measured.length x)

theorem length_chances (c : Circuit ℝ) : (chances c).length = 2 ^ c.measured.length := by
  unfold chances
  rw [List.length_map, List.length_range]

theorem getElem?_chances (c : Circuit ℝ) {x : ℕ} (hx : x < 2 ^ c.measured.length) :
    (chances c)[x]? = some (chance c (bitstring c.measured.length x)) := by
  unfold chances
  rw [List.getElem?_map, List.getElem?_range hx, Option.map_some]

theorem chances_nonneg {c : Circuit ℝ} : ∀ p ∈ chances c, 0 ≤ p := by
  intro p hp
  obtain ⟨x, -, rfl⟩ := List.mem_map.mp hp
  exact chance_nonneg c _

/-- The chances of all outcomes add up to one. -/
theorem sum_chances {c : Circuit ℝ} (valid : c.IsValid) : (chances c).sum = 1 := by
  rw [← sum_chance valid]
  rfl

/-- **The outcomes of a valid circuit are drawn with their chances.** -/
theorem outcomes_eq {c : Circuit ℝ} (valid : c.IsValid) (bounded : c.qubits ≤ maxQubits) :
    outcomes c = .ok (chances c) := by
  obtain ⟨hsize, hweight⟩ := probabilities_run valid
  obtain ⟨hlength, hentry⟩ := marginalize_eq hsize valid.ascending valid.inRange
  have hstate : ofCircuit c = .ok (run c) := if_neg (Nat.not_lt.mpr bounded)
  have hlist : (marginalize (probabilities (run c)) c.qubits c.measured).toList = chances c := by
    apply List.ext_getElem?
    intro x
    rw [Array.getElem?_toList]
    by_cases hx : x < 2 ^ c.measured.length
    · rw [hentry x hx, getElem?_chances c hx, chance_bitstring valid.nonempty hx]
      refine congrArg some (Finset.sum_congr rfl fun i hi => ?_)
      exact hweight i (Finset.mem_range.mp (Finset.mem_filter.mp hi).1)
    · rw [Array.getElem?_eq_none (by omega), List.getElem?_eq_none (by rw [length_chances]; omega)]
  unfold outcomes
  rw [hstate]
  exact congrArg Except.ok hlist

end LabLang.Random
