import LabLang.Proofs.GateCheck
import LabLang.Proofs.TensorAxes
import LabLang.Proofs.TensorIndex
import LabLang.Scalar.Machine
import LabLang.State.Evolution
import Mathlib.Algebra.BigOperators.Group.Finset.Basic
import Mathlib.Algebra.Ring.Defs

/-! # What gates do to the bits of basis states

`applyMatrix` takes the state as a tensor, contracts it with the matrix and moves the axes back.  In terms of indices,
entry `i` of the outcome is the sum over `c` of `M[r][c] * state[i_c]`: row `r` is read off the bits of `i` at the
listed qubits, the first one most significant, and `i_c` has the bits of `c` in their place (`ActsOnBits`).  No law of
arithmetic is used, so that the statement holds for exact numbers and for the numbers that programs run on. -/

namespace LabLang.State

namespace Tensor

/-! ### The contraction -/

/-- A value that is listed in some order is found by where its axis stands in this order. -/
theorem getD_map_idxOf {order : List Nat} {a : Nat} (f : Nat → Nat) (h : a ∈ order) :
    (order.map f).getD (order.idxOf a) 0 = f a := by
  have hlt : order.idxOf a < order.length := List.idxOf_lt_length_iff.mpr h
  rw [List.getD_eq_getElem _ _ (by rwa [List.length_map]), List.getElem_map, List.getElem_idxOf]

/-- Transposing by the natural order changes nothing. -/
theorem entry_transpose_range {A : Type} (t : Tensor A) {index : List Nat} (h : index.length = t.rank) :
    (t.transpose (List.range t.rank)).entry index = t.entry index := by
  have hindex : (List.range t.rank).map (fun a => index.getD a 0) = index := by
    apply List.ext_getElem
    · rw [List.length_map, List.length_range, h]
    · intro a ha ha'
      rw [List.getElem_map, List.getElem_range, List.getD_eq_getElem _ _ ha']
  unfold transpose
  dsimp only
  congr 1
  conv_rhs => rw [← hindex]
  rw [List.map_map]
  refine List.map_congr_left fun a ha => ?_
  conv_lhs => rw [Function.comp_apply, ← hindex]
  exact getD_map_idxOf _ ha

section contraction

variable {n : Nat} {axes : List Nat}

/-- The numbers of an index after those of the listed axes have been replaced by the bits of `c`. -/
def replaced (axes : List Nat) (c : Nat) (f : Nat → Nat) (a : Nat) : Nat :=
  if a ∈ axes then bit c (axes.length - 1 - axes.idxOf a) else f a

theorem map_replaced (h : axes.Nodup) (c : Nat) (f : Nat → Nat) :
    (axes ++ otherAxes n axes).map (replaced axes c f) = indexAt axes.length c ++ (otherAxes n axes).map f := by
  rw [List.map_append]
  congr 1
  · apply List.ext_getElem
    · rw [List.length_map, length_indexAt]
    · intro j hj hj'
      rw [List.length_map] at hj
      rw [List.getElem_map, getElem_indexAt]
      unfold replaced
      rw [if_pos (List.getElem_mem hj), h.idxOf_getElem j hj]
  · refine List.map_congr_left fun a ha => ?_
    exact if_neg (mem_otherAxes.mp ha).2

theorem otherAxes_range' (k : Nat) : otherAxes (k + k) (List.range' k k) = List.range k := by
  have hnone : (List.range' k k).filter (fun a => !(List.range' k k).contains a) = [] := by
    rw [List.filter_eq_nil_iff]
    intro a ha
    simpa using ha
  rw [otherAxes_of_le fun a ha => (List.mem_range'_1.mp ha).1, hnone, List.append_nil]

/-- Moving the contracted axes back: the index of an entry then lists its numbers in the order of
`axes ++ otherAxes`. -/
theorem entry_moveAxes {A : Type} (t : Tensor A) (h : axes.Nodup) (hlt : ∀ a ∈ axes, a < t.rank) (p : Nat) :
    (t.moveAxes (List.range axes.length) axes).entry (indexAt t.rank p) =
      t.entry ((axes ++ otherAxes t.rank axes).map fun a => bit p (t.rank - 1 - a)) := by
  unfold moveAxes transpose
  dsimp only
  rw [List.map_map]
  congr 1
  have hlength : (axes ++ otherAxes t.rank axes).length = t.rank := by
    rw [List.length_append, length_front h hlt]
  apply List.ext_getElem
  · rw [List.length_map, List.length_map, List.length_range, hlength]
  · intro a ha ha'
    rw [List.length_map, List.length_range] at ha
    rw [List.length_map] at ha'
    have hfront : frontAxis t.rank axes a = (axes ++ otherAxes t.rank axes)[a] := List.getD_eq_getElem _ _ ha'
    have hmem : (axes ++ otherAxes t.rank axes)[a] < t.rank := (mem_front hlt).mp (List.getElem_mem ha')
    rw [List.getElem_map, List.getElem_map, List.getElem_range, Function.comp_apply, idxOf_movedOrder h hlt ha,
      hfront, List.getD_eq_getElem _ _ (by rwa [length_indexAt]), getElem_indexAt]

/-- An entry of a tensor with some of its axes in front. -/
theorem entry_transpose_front {A : Type} (t : Tensor A) {axes : List Nat} (hlt : ∀ a ∈ axes, a < t.rank)
    (f : Nat → Nat) :
    (t.transpose (axes ++ otherAxes t.rank axes)).entry ((axes ++ otherAxes t.rank axes).map f) =
      t.entry ((List.range t.rank).map f) := by
  unfold transpose
  dsimp only
  rw [List.map_map]
  refine congrArg t.entry (List.map_congr_left fun a ha => ?_)
  exact getD_map_idxOf f ((mem_front hlt).mpr (List.mem_range.mp ha))

variable {A : Type} [Zero A] [Add A] [Mul A]

theorem rank_contract (M T : Tensor A) (hM : M.rank = axes.length + axes.length)
    (h : axes.Nodup) (hlt : ∀ a ∈ axes, a < T.rank) :
    (M.contract (List.range' axes.length axes.length) axes T).rank = T.rank := by
  unfold contract
  dsimp only
  rw [hM, otherAxes_range', List.length_range, length_front h hlt]

/-- The entry of a contraction whose index has the numbers `f` at the axes `axes ++ otherAxes`. -/
theorem entry_contract (M T : Tensor A) (hM : M.rank = axes.length + axes.length)
    (h : axes.Nodup) (hlt : ∀ a ∈ axes, a < T.rank) (f : Nat → Nat) :
    (M.contract (List.range' axes.length axes.length) axes T).entry ((axes ++ otherAxes T.rank axes).map f) =
      sumTo (2 ^ axes.length) fun c =>
        M.entry (axes.map f ++ indexAt axes.length c) *
          T.entry ((List.range T.rank).map (replaced axes c f)) := by
  have hrest : (otherAxes M.rank (List.range' axes.length axes.length)).length = axes.length := by
    rw [hM, otherAxes_range', List.length_range]
  have htake : ((axes ++ otherAxes T.rank axes).map f).take axes.length = axes.map f := by
    rw [List.map_append, List.take_left' (by rw [List.length_map])]
  have hdrop : ((axes ++ otherAxes T.rank axes).map f).drop axes.length = (otherAxes T.rank axes).map f := by
    rw [List.map_append, List.drop_left' (by rw [List.length_map])]
  have horder : otherAxes M.rank (List.range' axes.length axes.length) ++ List.range' axes.length axes.length =
      List.range M.rank := by
    rw [hM, otherAxes_range', range_append]
  unfold contract
  dsimp only
  rw [hrest, htake, hdrop, horder, List.length_range', twoPow_eq]
  congr 1
  funext c
  congr 1
  · exact entry_transpose_range M (by simp [hM])
  · rw [← map_replaced h]
    exact entry_transpose_front T hlt _

end contraction

end Tensor

/-! ### Matrices on qubits -/

/-- The entry of a matrix that is given by its rows. -/
def matrixEntry {A : Type} [Zero A] (rows : List (List A)) (r c : Nat) : A := (rows.getD r []).getD c 0

/-- The matrix has as many rows and columns as there are numbers of `k` bits. -/
def IsSquare {A : Type} (k : Nat) (rows : List (List A)) : Prop :=
  rows.length = 2 ^ k ∧ ∀ row ∈ rows, row.length = 2 ^ k

/-- `r` is the number whose bits are those of `i` at the listed qubits, the first one most significant. -/
def Reads (qubits : List Nat) (i r : Nat) : Prop :=
  r < 2 ^ qubits.length ∧ ∀ j (h : j < qubits.length), r.testBit (qubits.length - 1 - j) = i.testBit qubits[j]

/-- `i'` is `i` with its bits at the listed qubits replaced by those of `c`, the first one by the most significant. -/
def Replaces (qubits : List Nat) (i c i' : Nat) : Prop :=
  (∀ j (h : j < qubits.length), i'.testBit qubits[j] = c.testBit (qubits.length - 1 - j)) ∧
    ∀ q, q ∉ qubits → i'.testBit q = i.testBit q

/-- The state `out` of `n` qubits comes from `state` by the matrix with the entries `m` on the listed qubits. -/
def ActsOnBits {A : Type} [Zero A] [Add A] [Mul A] (n : Nat) (qubits : List Nat) (m : Nat → Nat → A)
    (state out : Array A) : Prop :=
  out.size = 2 ^ n ∧ ∀ i < 2 ^ n, ∃ (r : Nat) (source : Nat → Nat), Reads qubits i r ∧
    (∀ c < 2 ^ qubits.length, source c < 2 ^ n ∧ Replaces qubits i c (source c)) ∧
    out[i]? = some (sumTo (2 ^ qubits.length) fun c => m r c * state.getD (source c) 0)

theorem sumTo_eq_sum {A : Type} [AddCommMonoid A] (n : Nat) (f : Nat → A) :
    sumTo n f = ∑ c ∈ Finset.range n, f c := by
  induction n with
  | zero => rfl
  | succ n ih => rw [sumTo, ih, Finset.sum_range_succ]

/-- In exact arithmetic an amplitude is the sum over all columns, in whatever order. -/
theorem ActsOnBits.sum {A : Type} [CommSemiring A] {n : Nat} {qubits : List Nat} {m : Nat → Nat → A}
    {state out : Array A} (h : ActsOnBits n qubits m state out) {i : Nat} (hi : i < 2 ^ n) :
    ∃ (r : Nat) (source : Nat → Nat), Reads qubits i r ∧
      (∀ c < 2 ^ qubits.length, source c < 2 ^ n ∧ Replaces qubits i c (source c)) ∧
      out[i]? = some (∑ c ∈ Finset.range (2 ^ qubits.length), m r c * state.getD (source c) 0) := by
  obtain ⟨r, source, hr, hsource, hout⟩ := h.2 i hi
  exact ⟨r, source, hr, hsource, by rw [hout, sumTo_eq_sum]⟩

theorem sumTo_congr {A : Type} [Zero A] [Add A] {n : Nat} {f g : Nat → A} (h : ∀ c < n, f c = g c) :
    sumTo n f = sumTo n g := by
  induction n with
  | zero => rfl
  | succ n ih =>
      rw [sumTo, sumTo, ih fun c hc => h c (Nat.lt_succ_of_lt hc), h n (Nat.lt_succ_self n)]

/-- Rows of equal length stand one after the other. -/
theorem getD_flatten {A : Type} [Zero A] {rows : List (List A)} {m r c : Nat} (h : ∀ row ∈ rows, row.length = m)
    (hr : r < rows.length) (hc : c < m) : rows.flatten.getD (r * m + c) 0 = matrixEntry rows r c := by
  induction rows generalizing r with
  | nil => cases hr
  | cons row rows ih =>
      have hrow := h row (List.mem_cons_self ..)
      rw [List.flatten_cons]
      cases r with
      | zero =>
          rw [Nat.zero_mul, Nat.zero_add, List.getD_append _ _ _ _ (by omega)]
          rfl
      | succ r =>
          have hr' : r < rows.length := by
            rw [List.length_cons] at hr
            omega
          rw [Nat.succ_mul, List.getD_append_right _ _ _ _ (by omega),
            show r * m + m + c - row.length = r * m + c by omega]
          exact ih (fun row' hrow' => h row' (List.mem_cons_of_mem row hrow')) hr'

section matrix

variable {A : Type} [Zero A] [Add A] [Mul A] {n : Nat} {qubits : List Nat}

/-- The axes of distinct qubits are distinct. -/
theorem nodup_axes (h : qubits.Nodup) (hlt : ∀ q ∈ qubits, q < n) : (qubits.map fun q => n - 1 - q).Nodup := by
  refine List.Nodup.map_on (fun q hq q' hq' hqq => ?_) h
  have := hlt q hq
  have := hlt q' hq'
  omega

theorem axes_lt (hlt : ∀ q ∈ qubits, q < n) : ∀ a ∈ qubits.map (fun q => n - 1 - q), a < n := by
  intro a ha
  obtain ⟨q, hq, rfl⟩ := List.mem_map.mp ha
  have := hlt q hq
  omega

/-- The numbers that the index of a matrix entry starts with are the bits of `i` at the qubits. -/
theorem reads_place (hlt : ∀ q ∈ qubits, q < n) (i : Nat) :
    Reads qubits i (Tensor.place ((qubits.map fun q => n - 1 - q).map fun a => bit i (n - 1 - a))) := by
  have hbits : ((qubits.map fun q => n - 1 - q).map fun a => bit i (n - 1 - a)) = qubits.map (bit i) := by
    rw [List.map_map]
    refine List.map_congr_left fun q hq => ?_
    have := hlt q hq
    rw [Function.comp_apply, show n - 1 - (n - 1 - q) = q by omega]
  rw [hbits]
  refine ⟨Tensor.place_map_lt _ (bit_lt_two i), fun j hj => ?_⟩
  exact testBit_eq_iff_bit.mpr (Tensor.bit_place_map _ (bit_lt_two i) hj)

theorem replaced_lt_two (n : Nat) (axes : List Nat) (i c a : Nat) :
    Tensor.replaced axes c (fun a => bit i (n - 1 - a)) a < 2 := by
  unfold Tensor.replaced
  split
  · exact bit_lt_two _ _
  · exact bit_lt_two _ _

/-- The entry of the state that is contracted has the bits of `c` at the qubits and those of `i` elsewhere. -/
theorem replaces_place (h : qubits.Nodup) (hlt : ∀ q ∈ qubits, q < n) {i : Nat} (hi : i < 2 ^ n) (c : Nat) :
    Tensor.place ((List.range n).map
        (Tensor.replaced (qubits.map fun q => n - 1 - q) c fun a => bit i (n - 1 - a))) < 2 ^ n ∧
      Replaces qubits i c (Tensor.place ((List.range n).map
        (Tensor.replaced (qubits.map fun q => n - 1 - q) c fun a => bit i (n - 1 - a)))) := by
  obtain ⟨axes, haxes⟩ : ∃ axes, axes = qubits.map fun q => n - 1 - q := ⟨_, rfl⟩
  have hnodup : axes.Nodup := haxes ▸ nodup_axes h hlt
  have hlength : axes.length = qubits.length := by rw [haxes, List.length_map]
  rw [← haxes]
  obtain ⟨p, hp⟩ : ∃ p, p = Tensor.place ((List.range n).map
      (Tensor.replaced axes c fun a => bit i (n - 1 - a))) := ⟨_, rfl⟩
  have hsize : p < 2 ^ n := by
    have := Tensor.place_map_lt (List.range n) (replaced_lt_two n axes i c)
    rwa [List.length_range, ← hp] at this
  have hbit (q : Nat) (hq : q < n) :
      bit p q = Tensor.replaced axes c (fun a => bit i (n - 1 - a)) (n - 1 - q) := by
    have hplace : n - 1 - q < (List.range n).length := by
      rw [List.length_range]
      omega
    have := Tensor.bit_place_map (List.range n) (replaced_lt_two n axes i c) hplace
    rw [List.getElem_range, List.length_range, ← hp, show n - 1 - (n - 1 - q) = q by omega] at this
    exact this
  rw [← hp]
  refine ⟨hsize, fun j hj => ?_, fun q hq => ?_⟩
  · have hj' : j < axes.length := by rwa [hlength]
    have haxis : n - 1 - qubits[j] = axes[j] := by simp only [haxes, List.getElem_map]
    apply testBit_eq_iff_bit.mpr
    rw [hbit _ (hlt _ (List.getElem_mem hj)), haxis]
    unfold Tensor.replaced
    rw [if_pos (List.getElem_mem hj'), hnodup.idxOf_getElem j hj', hlength]
  · rcases Nat.lt_or_ge q n with hqn | hqn
    · have hnot : n - 1 - q ∉ axes := by
        rw [haxes, List.mem_map]
        rintro ⟨q', hq', hqq⟩
        have := hlt q' hq'
        obtain rfl : q' = q := by omega
        exact hq hq'
      apply testBit_eq_iff_bit.mpr
      rw [hbit q hqn]
      unfold Tensor.replaced
      rw [if_neg hnot]
      dsimp only
      rw [show n - 1 - (n - 1 - q) = q by omega]
    · have hle : 2 ^ n ≤ 2 ^ q := Nat.pow_le_pow_right (by decide) hqn
      rw [Nat.testBit_lt_two_pow (by omega), Nat.testBit_lt_two_pow (by omega)]

omit [Add A] [Mul A] in
/-- The entries of a matrix tensor. -/
theorem entry_ofVector_rows {k : Nat} {rows : List (List A)} (square : IsSquare k rows) {index : List Nat}
    (hindex : Tensor.place index < 2 ^ k) {c : Nat} (hc : c < 2 ^ k) :
    (Tensor.ofVector (2 * k) rows.flatten.toArray).entry (index ++ Tensor.indexAt k c) =
      matrixEntry rows (Tensor.place index) c := by
  rw [← getD_flatten square.2 (by rwa [square.1]) hc]
  unfold Tensor.ofVector
  dsimp only
  rw [Tensor.place_append, Tensor.place_indexAt hc, Tensor.length_indexAt, Array.getD_eq_getD_getElem?,
    List.getElem?_toArray, List.getD_eq_getElem?_getD]

/-- The entries of the outcome, as the contraction gives them. -/
theorem applyMatrix_entry (rows : List (List A)) {state : Array A} {axes : List Nat} (hstate : state.size = 2 ^ n)
    (haxes : axes = qubits.map fun q => n - 1 - q) (hnodup : axes.Nodup) (hlt : ∀ a ∈ axes, a < n) :
    (applyMatrix rows qubits state).size = 2 ^ n ∧ ∀ i < 2 ^ n, (applyMatrix rows qubits state)[i]? =
      some (sumTo (2 ^ axes.length) fun c =>
        (Tensor.ofVector (2 * axes.length) rows.flatten.toArray).entry
            ((axes.map fun a => bit i (n - 1 - a)) ++ Tensor.indexAt axes.length c) *
          (Tensor.ofVector n state).entry
            ((List.range n).map (Tensor.replaced axes c fun a => bit i (n - 1 - a)))) := by
  obtain ⟨M, hM⟩ : ∃ M : Tensor A, M = .ofVector (2 * axes.length) rows.flatten.toArray := ⟨_, rfl⟩
  obtain ⟨T, hT⟩ : ∃ T : Tensor A, T = .ofVector n state := ⟨_, rfl⟩
  have hMrank : M.rank = axes.length + axes.length := by rw [hM]; exact Nat.two_mul _
  have hTrank : T.rank = n := by rw [hT]; rfl
  obtain ⟨t, ht⟩ : ∃ t, t = M.contract (List.range' axes.length axes.length) axes T := ⟨_, rfl⟩
  have hrank : t.rank = n := by
    rw [ht, Tensor.rank_contract M T hMrank hnodup (by rwa [hTrank]), hTrank]
  have hmoved : (t.moveAxes (List.range axes.length) axes).rank = n := hrank
  have happly : applyMatrix rows qubits state = (t.moveAxes (List.range axes.length) axes).toVector := by
    unfold applyMatrix
    have hlength : axes.length = qubits.length := by rw [haxes, List.length_map]
    rw [hstate, Nat.log2_two_pow, ht, hM, hT, hlength, haxes]
  rw [happly, ← hM, ← hT]
  refine ⟨by rw [Tensor.size_toVector, hmoved], fun i hi => ?_⟩
  have hentry := Tensor.entry_contract M T hMrank hnodup (by rwa [hTrank]) fun a => bit i (n - 1 - a)
  rw [hTrank, ← ht] at hentry
  rw [Tensor.getElem?_toVector _ (by rwa [hmoved])]
  change some ((t.moveAxes (List.range axes.length) axes).entry (Tensor.indexAt t.rank i)) = _
  rw [Tensor.entry_moveAxes t hnodup (by rwa [hrank]) i, hrank, hentry]

/-- **Applying a matrix to qubits** is what it says on the bits of indices, whatever the arithmetic. -/
theorem applyMatrix_actsOnBits {rows : List (List A)} {state : Array A} (hstate : state.size = 2 ^ n)
    (h : qubits.Nodup) (hlt : ∀ q ∈ qubits, q < n) (square : IsSquare qubits.length rows) :
    ActsOnBits n qubits (matrixEntry rows) state (applyMatrix rows qubits state) := by
  obtain ⟨hsize, hentry⟩ := applyMatrix_entry rows hstate rfl (nodup_axes h hlt) (axes_lt hlt)
  refine ⟨hsize, fun i hi => ⟨_, _, reads_place hlt i, fun c _ => replaces_place h hlt hi c, ?_⟩⟩
  rw [hentry i hi, List.length_map]
  congr 1
  refine sumTo_congr fun c hc => ?_
  rw [entry_ofVector_rows square (reads_place hlt i).1 hc]
  rfl

end matrix

/-! ### Gates -/

section gates

variable {R : Type} [Scalar R]

theorem isSquare_rows (kind : GateKind) (angle : R) : IsSquare kind.qubitCount (kind.rows angle) := by
  cases kind with
  | cnot | cz | swap | i | h | x | y | z | s | sdg | t | tdg | rx | ry | rz =>
      refine ⟨rfl, fun row hrow => ?_⟩
      simp only [GateKind.rows, GateKind.diagonal, List.mem_cons, List.not_mem_nil, or_false] at hrow
      rcases hrow with rfl | rfl | rfl | rfl <;> rfl

/-- A gate that fits the register acts on the bits of its qubits by the matrix of its kind. -/
theorem applyGate_of_fits {n : Nat} {g : Gate R} {kind : GateKind} {state : Array (Amplitude R)} (fits : g.Fits n kind)
    (hstate : state.size = 2 ^ n) :
    ActsOnBits n (g.qubits.map Int.toNat) (matrixEntry (kind.rows g.angle)) state (applyGate g state) := by
  obtain ⟨hnodup, hlt⟩ := fits.targets
  have square : IsSquare (g.qubits.map Int.toNat).length (kind.rows g.angle) := by
    rw [fits.length_targets]
    exact isSquare_rows kind g.angle
  unfold applyGate
  rw [fits.known]
  exact applyMatrix_actsOnBits hstate hnodup hlt square

/-- **Gates act on the bits of basis states.**  Every gate that is valid for a register of `n` qubits takes a state to
the one that its matrix gives: entry `i` is the sum over `c` of `M[r][c] * state[i_c]`, where `r` has the bits of
`i` at the qubits of the gate, the first one most significant, and `i_c` is `i` with these bits replaced by those
of `c`. -/
theorem applyGate_actsOnBits {name : String} {n : Nat} {g : Gate R} {state : Array (Amplitude R)}
    (hstate : state.size = 2 ^ n) (valid : Circuit.checkGate name n g = .ok ()) :
    ∃ kind, g.kind? = some kind ∧ g.qubits.length = kind.qubitCount ∧
      ActsOnBits n (g.qubits.map Int.toNat) (matrixEntry (kind.rows g.angle)) state (applyGate g state) := by
  obtain ⟨kind, hkind, hlength, hnodup, hrange⟩ := Circuit.checkGate_ok valid
  refine ⟨kind, hkind, hlength, ?_⟩
  unfold applyGate
  rw [hkind]
  refine applyMatrix_actsOnBits hstate ?_ ?_ ?_
  · refine List.Nodup.map_on (fun q hq q' hq' hqq => ?_) hnodup
    have := (hrange q hq).1
    have := (hrange q' hq').1
    omega
  · intro q hq
    obtain ⟨q', hq', rfl⟩ := List.mem_map.mp hq
    have := hrange q' hq'
    omega
  · rw [List.length_map, hlength]
    exact isSquare_rows kind g.angle

/-- A gate on two qubits that do not stand side by side, the higher one first. -/
theorem applyGate_cnot_actsOnBits :
    (initial 3 : Array (Amplitude Float)).size = 2 ^ 3 ∧
      Circuit.checkGate (R := Float) "c" 3 ⟨"CNOT", [2, 0], []⟩ = .ok () ∧
      ∃ kind, (⟨"CNOT", [2, 0], []⟩ : Gate Float).kind? = some kind ∧ 2 = kind.qubitCount ∧
        ActsOnBits 3 [2, 0] (matrixEntry (kind.rows (Gate.angle ⟨"CNOT", [2, 0], []⟩)))
          (initial 3 : Array (Amplitude Float)) (applyGate ⟨"CNOT", [2, 0], []⟩ (initial 3)) := by
  have hsize : (initial 3 : Array (Amplitude Float)).size = 2 ^ 3 := by simp [initial, twoPow_eq]
  have valid : Circuit.checkGate (R := Float) "c" 3 ⟨"CNOT", [2, 0], []⟩ = .ok () := by rfl
  exact ⟨hsize, valid, applyGate_actsOnBits hsize valid⟩

end gates

end LabLang.State
