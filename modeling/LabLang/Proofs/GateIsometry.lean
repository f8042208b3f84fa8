import Mathlib.Algebra.BigOperators.Ring.Finset
import LabLang.Proofs.ExactArithmetic
import LabLang.Proofs.GateAction

/-! # Gates keep the total weight of a state

The matrix of every gate is an isometry (`isIsometry_rows`): it keeps the sum of the weights of the amplitudes that it
is applied to.  On a register it is applied to groups of amplitudes, those whose indices differ in the bits of the
qubits of the gate only.  Going through the groups index by index, each amplitude is met once for every number that these
bits can spell (`sum_patchBits`), so that the whole state keeps its weight as well, and with it every weighted sum whose
factors are the same throughout a group (`ActsOnBits.weightedNorm`).  A circuit starts with a state of weight one and
hence ends with one (`squaredNorm_run`). -/

namespace LabLang.State

/-- The sum of the weights of all amplitudes. -/
noncomputable def squaredNorm (state : Array (Amplitude ℝ)) : ℝ :=
  ∑ i ∈ Finset.range state.size, (state.getD i 0).weight

/-! ### Indices with some bits replaced -/

theorem Reads.unique {qubits : List ℕ} {i r r' : ℕ} (h : Reads qubits i r) (h' : Reads qubits i r') : r = r' := by
  apply Nat.eq_of_testBit_eq
  intro b
  by_cases hb : b < qubits.length
  · have hj : qubits.length - 1 - b < qubits.length := by omega
    have hbit := (h.2 _ hj).trans (h'.2 _ hj).symm
    rwa [show qubits.length - 1 - (qubits.length - 1 - b) = b by omega] at hbit
  · have hle : 2 ^ qubits.length ≤ 2 ^ b := Nat.pow_le_pow_right (by decide) (by omega)
    rw [Nat.testBit_lt_two_pow (h.1.trans_le hle), Nat.testBit_lt_two_pow (h'.1.trans_le hle)]

theorem Replaces.unique {qubits : List ℕ} {i c p p' : ℕ} (h : Replaces qubits i c p) (h' : Replaces qubits i c p') :
    p = p' := by
  apply Nat.eq_of_testBit_eq
  intro q
  by_cases hq : q ∈ qubits
  · obtain ⟨j, hj, rfl⟩ := List.getElem_of_mem hq
    rw [h.1 j hj, h'.1 j hj]
  · rw [h.2 q hq, h'.2 q hq]

/-- Only the last of two replacements counts. -/
theorem Replaces.trans {qubits : List ℕ} {i c d p s : ℕ} (h : Replaces qubits i c p) (h' : Replaces qubits p d s) :
    Replaces qubits i d s :=
  ⟨h'.1, fun q hq => (h'.2 q hq).trans (h.2 q hq)⟩

/-- What has been put in place of some bits is read off them. -/
theorem Replaces.reads {qubits : List ℕ} {i c p : ℕ} (h : Replaces qubits i c p) (hc : c < 2 ^ qubits.length) :
    Reads qubits p c :=
  ⟨hc, fun j hj => (h.1 j hj).symm⟩

/-- Bits that are replaced by themselves stay. -/
theorem Reads.replaces {qubits : List ℕ} {i r : ℕ} (h : Reads qubits i r) : Replaces qubits i r i :=
  ⟨fun j hj => (h.2 j hj).symm, fun _ _ => rfl⟩

/-- The number that the bits of `i` at the listed qubits spell. -/
def readBits (qubits : List ℕ) (i : ℕ) : ℕ := Tensor.place (qubits.map (bit i))

theorem reads_readBits (qubits : List ℕ) (i : ℕ) : Reads qubits i (readBits qubits i) :=
  ⟨Tensor.place_map_lt qubits (bit_lt_two i),
    fun _ hj => testBit_eq_iff_bit.mpr (Tensor.bit_place_map qubits (bit_lt_two i) hj)⟩

/-- The index `i` of a register of `n` qubits with its bits at the listed qubits replaced by those of `c`. -/
def patchBits (n : ℕ) (qubits : List ℕ) (i c : ℕ) : ℕ :=
  Tensor.place ((List.range n).map
    (Tensor.replaced (qubits.map fun q => n - 1 - q) c fun a => bit i (n - 1 - a)))

section patch

variable {n : ℕ} {qubits : List ℕ}

/-- Every index is met once for each number that the replaced bits can spell. -/
theorem sum_patchBits (h : qubits.Nodup) (hlt : ∀ q ∈ qubits, q < n) (f : ℕ → ℝ) :
    ∑ i ∈ Finset.range (2 ^ n), ∑ c ∈ Finset.range (2 ^ qubits.length), f (patchBits n qubits i c) =
      2 ^ qubits.length * ∑ i ∈ Finset.range (2 ^ n), f i := by
  have replaces {i : ℕ} (hi : i < 2 ^ n) (c : ℕ) : Replaces qubits i c (patchBits n qubits i c) :=
    (replaces_place h hlt hi c).2
  have patch_lt {i : ℕ} (hi : i < 2 ^ n) (c : ℕ) : patchBits n qubits i c < 2 ^ n :=
    (replaces_place h hlt hi c).1
  rw [← Finset.sum_product']
  -- exchanging the bits of the index with those that replace them is its own inverse
  have hexchange : ∑ x ∈ Finset.range (2 ^ n) ×ˢ Finset.range (2 ^ qubits.length), f (patchBits n qubits x.1 x.2) =
      ∑ x ∈ Finset.range (2 ^ n) ×ˢ Finset.range (2 ^ qubits.length), f x.1 := by
    have maps : ∀ x ∈ Finset.range (2 ^ n) ×ˢ Finset.range (2 ^ qubits.length),
        (patchBits n qubits x.1 x.2, readBits qubits x.1) ∈
          Finset.range (2 ^ n) ×ˢ Finset.range (2 ^ qubits.length) := by
      rintro ⟨i, c⟩ hx
      simp only [Finset.mem_product, Finset.mem_range] at hx ⊢
      exact ⟨patch_lt hx.1 c, (reads_readBits qubits i).1⟩
    have inverse : ∀ x ∈ Finset.range (2 ^ n) ×ˢ Finset.range (2 ^ qubits.length),
        (patchBits n qubits (patchBits n qubits x.1 x.2) (readBits qubits x.1),
          readBits qubits (patchBits n qubits x.1 x.2)) = x := by
      rintro ⟨i, c⟩ hx
      simp only [Finset.mem_product, Finset.mem_range] at hx
      have hpatch := replaces hx.1 c
      have hback := hpatch.trans (replaces (patch_lt hx.1 c) (readBits qubits i))
      rw [Prod.mk.injEq]
      exact ⟨hback.unique (reads_readBits qubits i).replaces, (reads_readBits qubits _).unique (hpatch.reads hx.2)⟩
    exact Finset.sum_nbij' (fun x => (patchBits n qubits x.1 x.2, readBits qubits x.1))
      (fun x => (patchBits n qubits x.1 x.2, readBits qubits x.1)) maps maps inverse inverse fun _ _ => rfl
  rw [hexchange, Finset.sum_product, Finset.mul_sum]
  refine Finset.sum_congr rfl fun i _ => ?_
  dsimp only
  rw [Finset.sum_const, Finset.card_range, nsmul_eq_mul, Nat.cast_pow, Nat.cast_ofNat]

end patch

/-! ### Isometries -/

/-- The matrix with the entries `m`, applied to `2 ^ k` amplitudes, keeps the sum of their weights. -/
def IsIsometry (k : ℕ) (m : ℕ → ℕ → Amplitude ℝ) : Prop :=
  ∀ v : ℕ → Amplitude ℝ, ∑ r ∈ Finset.range (2 ^ k), (sumTo (2 ^ k) fun c => m r c * v c).weight =
    ∑ c ∈ Finset.range (2 ^ k), (v c).weight

/-- The weights of the amplitudes of `n` qubits, added up with factors that depend on the index. -/
noncomputable def weightedNorm (n : ℕ) (φ : ℕ → ℝ) (state : Array (Amplitude ℝ)) : ℝ :=
  ∑ i ∈ Finset.range (2 ^ n), φ i * (state.getD i 0).weight

theorem squaredNorm_eq {n : ℕ} {state : Array (Amplitude ℝ)} (hsize : state.size = 2 ^ n) :
    squaredNorm state = weightedNorm n (fun _ => 1) state := by
  unfold squaredNorm weightedNorm
  simp only [hsize, one_mul]

/-- The function of indices does not depend on the bits at the listed qubits. -/
def IgnoresBits (qubits : List ℕ) (φ : ℕ → ℝ) : Prop := ∀ i c p, Replaces qubits i c p → φ p = φ i

theorem ignoresBits_const (qubits : List ℕ) (x : ℝ) : IgnoresBits qubits fun _ => x := fun _ _ _ _ => rfl

/-- When an isometry acts on some qubits of a state, every weighted sum is kept whose factors do not depend on the bits of
these qubits. -/
theorem ActsOnBits.weightedNorm {n : ℕ} {qubits : List ℕ} {m : ℕ → ℕ → Amplitude ℝ} {state out : Array (Amplitude ℝ)}
    (h : ActsOnBits n qubits m state out) (hnodup : qubits.Nodup) (hlt : ∀ q ∈ qubits, q < n)
    (isometry : IsIsometry qubits.length m) {φ : ℕ → ℝ} (ignores : IgnoresBits qubits φ) :
    State.weightedNorm n φ out = State.weightedNorm n φ state := by
  -- the amplitudes of one group, before and after
  have hgroup {i : ℕ} (hi : i < 2 ^ n) {r : ℕ} (hr : r < 2 ^ qubits.length) :
      out.getD (patchBits n qubits i r) 0 =
        sumTo (2 ^ qubits.length) fun c => m r c * state.getD (patchBits n qubits i c) 0 := by
    obtain ⟨hp, hpatch⟩ := replaces_place hnodup hlt hi r
    obtain ⟨r', source, hr', hsource, hout⟩ := h.2 _ hp
    obtain rfl : r' = r := hr'.unique (hpatch.reads hr)
    rw [Array.getD_eq_getD_getElem?]
    unfold patchBits
    rw [hout, Option.getD_some]
    refine sumTo_congr fun c hc => ?_
    rw [(hpatch.trans (hsource c hc).2).unique (replaces_place hnodup hlt hi c).2]
  have hfactor {i : ℕ} (hi : i < 2 ^ n) (c : ℕ) : φ (patchBits n qubits i c) = φ i :=
    ignores i c _ (replaces_place hnodup hlt hi c).2
  have hpos : (0 : ℝ) < 2 ^ qubits.length := by positivity
  unfold State.weightedNorm
  apply mul_left_cancel₀ hpos.ne'
  rw [← sum_patchBits hnodup hlt fun i => φ i * (out.getD i 0).weight,
    ← sum_patchBits hnodup hlt fun i => φ i * (state.getD i 0).weight]
  refine Finset.sum_congr rfl fun i hi => ?_
  have hi := Finset.mem_range.mp hi
  simp only [hfactor hi, ← Finset.mul_sum]
  rw [← isometry fun c => state.getD (patchBits n qubits i c) 0]
  refine congrArg (φ i * ·) (Finset.sum_congr rfl fun r hr => ?_)
  rw [hgroup hi (Finset.mem_range.mp hr)]

/-! ### Matrices of gates -/

/-- A matrix for one qubit is an isometry if its columns have weight one and are orthogonal to each other. -/
theorem isIsometry_of_columns {a b c d : Amplitude ℝ} (first : a.weight + c.weight = 1)
    (second : b.weight + d.weight = 1) (re : a.re * b.re + a.im * b.im + (c.re * d.re + c.im * d.im) = 0)
    (im : a.re * b.im - a.im * b.re + (c.re * d.im - c.im * d.re) = 0) :
    IsIsometry 1 (matrixEntry [[a, b], [c, d]]) := by
  intro v
  rw [pow_one, Finset.sum_range_succ, Finset.sum_range_one, Finset.sum_range_succ, Finset.sum_range_one]
  show (0 + a * v 0 + b * v 1).weight + (0 + c * v 0 + d * v 1).weight = (v 0).weight + (v 1).weight
  simp only [Amplitude.weight_eq, Amplitude.add_re, Amplitude.add_im, Amplitude.mul_re, Amplitude.mul_im,
    Amplitude.zero_re, Amplitude.zero_im, Scalar.zero_real, zero_add] at first second ⊢
  linear_combination ((v 0).re * (v 0).re + (v 0).im * (v 0).im) * first +
    ((v 1).re * (v 1).re + (v 1).im * (v 1).im) * second + 2 * ((v 0).re * (v 1).re + (v 0).im * (v 1).im) * re +
    2 * ((v 0).im * (v 1).re - (v 0).re * (v 1).im) * im

theorem circle (angle : ℝ) : Scalar.cos angle * Scalar.cos angle + Scalar.sin angle * Scalar.sin angle = 1 := by
  rw [← Real.cos_sq_add_sin_sq angle, sq, sq]
  rfl

theorem rootHalf_mul_self : (GateKind.rootHalf : ℝ) * GateKind.rootHalf = 1 / 2 := by
  have hroot : √(2 : ℝ) * √2 = 2 := Real.mul_self_sqrt (by norm_num)
  have hhalf : (GateKind.rootHalf : ℝ) = 1 / √2 := by
    unfold GateKind.rootHalf
    rw [Scalar.one_real]
    rfl
  rw [hhalf, div_mul_div_comm, hroot, one_mul]

/-- A diagonal matrix of amplitudes of weight one is an isometry. -/
theorem isIsometry_diagonal {a b : Amplitude ℝ} (ha : a.weight = 1) (hb : b.weight = 1) :
    IsIsometry 1 (matrixEntry (GateKind.diagonal a b)) := by
  apply isIsometry_of_columns
  · rw [ha, Amplitude.weight_zero, add_zero]
  · rw [hb, Amplitude.weight_zero, zero_add]
  · simp
  · simp

theorem weight_phase (angle : ℝ) : (Amplitude.phase angle).weight = 1 := by
  rw [Amplitude.weight_eq, Amplitude.phase_re, Amplitude.phase_im, circle]

theorem weight_conj (a : Amplitude ℝ) : a.conj.weight = a.weight := by simp [Amplitude.weight_eq]

/-- **The matrices of all gates are isometries.** -/
theorem isIsometry_rows (kind : GateKind) (angle : ℝ) :
    IsIsometry kind.qubitCount (matrixEntry (kind.rows angle)) := by
  cases kind with
  | i | z | s | sdg => exact isIsometry_diagonal (by simp [Amplitude.weight_eq]) (by simp [Amplitude.weight_eq])
  | t => exact isIsometry_diagonal Amplitude.weight_one (weight_phase _)
  | tdg => exact isIsometry_diagonal Amplitude.weight_one ((weight_conj _).trans (weight_phase _))
  | rz => exact isIsometry_diagonal ((weight_conj _).trans (weight_phase _)) (weight_phase _)
  | x | y => apply isIsometry_of_columns <;> simp [Amplitude.weight_eq]
  | h =>
      have hhalf := rootHalf_mul_self
      apply isIsometry_of_columns
      · norm_num [Amplitude.weight_eq, hhalf]
      · norm_num [Amplitude.weight_eq, hhalf]
      · simp
      · simp
  | rx | ry =>
      have hcircle := circle (angle / 2)
      apply isIsometry_of_columns
      · simpa [Amplitude.weight_eq] using hcircle
      · simpa [Amplitude.weight_eq, add_comm] using hcircle
      · simp [mul_comm]
      · simp [mul_comm]
  | cnot | swap =>
      -- the rows are those of the identity in another order
      intro v
      simp [GateKind.qubitCount, GateKind.rows, Finset.sum_range_succ, sumTo, matrixEntry, Amplitude.weight_eq]
      ring
  | cz =>
      intro v
      simp [GateKind.qubitCount, GateKind.rows, Finset.sum_range_succ, sumTo, matrixEntry, Amplitude.weight_eq]

/-! ### Gates applied to states -/

section gates

variable {n : ℕ} {state : Array (Amplitude ℝ)} {φ : ℕ → ℝ}

theorem weightedNorm_applyGate {g : Gate ℝ} {kind : GateKind} (h : g.Fits n kind) (hsize : state.size = 2 ^ n)
    (ignores : IgnoresBits (g.qubits.map Int.toNat) φ) :
    (applyGate g state).size = 2 ^ n ∧ weightedNorm n φ (applyGate g state) = weightedNorm n φ state := by
  obtain ⟨hnodup, hlt⟩ := h.targets
  have hacts := applyGate_of_fits h hsize
  refine ⟨hacts.1, hacts.weightedNorm hnodup hlt ?_ ignores⟩
  rw [h.length_targets]
  exact isIsometry_rows kind g.angle

/-- **A gate keeps the weight of every state.** -/
theorem squaredNorm_applyGate {g : Gate ℝ} {kind : GateKind} (h : g.Fits n kind) (hsize : state.size = 2 ^ n) :
    (applyGate g state).size = 2 ^ n ∧ squaredNorm (applyGate g state) = squaredNorm state := by
  obtain ⟨hgate, hsum⟩ := weightedNorm_applyGate h hsize (ignoresBits_const _ 1)
  exact ⟨hgate, by rw [squaredNorm_eq hgate, squaredNorm_eq hsize, hsum]⟩

/-- Applies gates one after the other. -/
noncomputable def applyGates (gates : List (Gate ℝ)) (state : Array (Amplitude ℝ)) : Array (Amplitude ℝ) :=
  gates.foldl (fun s g => applyGate g s) state

theorem applyGates_cons (g : Gate ℝ) (gates : List (Gate ℝ)) :
    applyGates (g :: gates) state = applyGates gates (applyGate g state) := by
  unfold applyGates
  rw [List.foldl_cons]

theorem applyGates_singleton (g : Gate ℝ) : applyGates [g] state = applyGate g state := by
  unfold applyGates
  rw [List.foldl_cons, List.foldl_nil]

theorem weightedNorm_applyGates {gates : List (Gate ℝ)} (h : ∀ g ∈ gates, ∃ kind, g.Fits n kind)
    (hsize : state.size = 2 ^ n) (ignores : ∀ g ∈ gates, IgnoresBits (g.qubits.map Int.toNat) φ) :
    (applyGates gates state).size = 2 ^ n ∧ weightedNorm n φ (applyGates gates state) = weightedNorm n φ state := by
  induction gates generalizing state with
  | nil => exact ⟨hsize, rfl⟩
  | cons g rest ih =>
      obtain ⟨kind, hfit⟩ := h g List.mem_cons_self
      obtain ⟨hg, hsum⟩ := weightedNorm_applyGate hfit hsize (ignores g List.mem_cons_self)
      rw [← hsum, applyGates_cons]
      exact ih (fun g' hg' => h g' (List.mem_cons_of_mem g hg')) hg
        fun g' hg' => ignores g' (List.mem_cons_of_mem g hg')

theorem squaredNorm_applyGates {gates : List (Gate ℝ)} (h : ∀ g ∈ gates, ∃ kind, g.Fits n kind)
    (hsize : state.size = 2 ^ n) :
    (applyGates gates state).size = 2 ^ n ∧ squaredNorm (applyGates gates state) = squaredNorm state := by
  obtain ⟨hgates, hsum⟩ := weightedNorm_applyGates h hsize fun g _ => ignoresBits_const _ 1
  exact ⟨hgates, by rw [squaredNorm_eq hgates, squaredNorm_eq hsize, hsum]⟩

end gates

/-! ### Circuits -/

theorem size_initial (n : ℕ) : (initial n : Array (Amplitude ℝ)).size = 2 ^ n := by simp [initial, twoPow_eq]

theorem squaredNorm_initial (n : ℕ) : squaredNorm (initial n) = 1 := by
  have hentry {i : ℕ} (hi : i < 2 ^ n) :
      (initial n : Array (Amplitude ℝ)).getD i 0 = if i = 0 then 1 else 0 := by
    rw [← twoPow_eq] at hi
    simp [initial, hi]
  have hzero : 0 ∈ Finset.range (2 ^ n) := Finset.mem_range.mpr (Nat.two_pow_pos n)
  unfold squaredNorm
  rw [size_initial, Finset.sum_eq_single_of_mem 0 hzero]
  · rw [hentry (Finset.mem_range.mp hzero), if_pos rfl, Amplitude.weight_one]
  · intro i hi hne
    rw [hentry (Finset.mem_range.mp hi), if_neg hne, Amplitude.weight_zero]

/-- **The state after all gates of a circuit has weight one.** -/
theorem squaredNorm_run {c : Circuit ℝ} (h : ∀ g ∈ c.gates, ∃ kind, g.Fits c.qubits kind) :
    (run c).size = 2 ^ c.qubits ∧ squaredNorm (run c) = 1 := by
  obtain ⟨hrun, hnorm⟩ := squaredNorm_applyGates h (size_initial c.qubits)
  exact ⟨hrun, hnorm.trans (squaredNorm_initial c.qubits)⟩

end LabLang.State
