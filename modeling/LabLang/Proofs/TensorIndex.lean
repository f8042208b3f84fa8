import LabLang.State.Tensor
import Mathlib.Data.List.Induction
import Mathlib.Data.Nat.Bitwise

/-! # Indices and places

An entry of a tensor stands, in the vector of all entries, at the place whose bits are the numbers of its index
(`bit_place`), and the index of a place has the bits of the place as its numbers. -/

namespace LabLang.State

/-! ### Bits -/

theorem twoPow_eq (n : Nat) : twoPow n = 2 ^ n := rfl

theorem bit_lt_two (i q : Nat) : bit i q < 2 := Nat.mod_lt _ (by decide)

theorem bit_eq_toNat (i q : Nat) : bit i q = (i.testBit q).toNat := by
  unfold bit
  rw [Nat.toNat_testBit, Nat.shiftRight_eq_div_pow]

theorem testBit_eq_iff_bit {i i' q q' : Nat} : i.testBit q = i'.testBit q' ↔ bit i q = bit i' q' := by
  rw [bit_eq_toNat, bit_eq_toNat]
  cases i.testBit q <;> cases i'.testBit q' <;> decide

namespace Tensor

theorem place_append (xs ys : List Nat) : place (xs ++ ys) = place xs * 2 ^ ys.length + place ys := by
  have h (start : Nat) : ys.foldl (fun p b => 2 * p + b) start = start * 2 ^ ys.length + place ys := by
    unfold place
    induction ys using List.reverseRecOn with
    | nil => simp
    | append_singleton ys y ih =>
        rw [List.foldl_append, List.foldl_append, ih, List.length_append]
        simp only [List.foldl_cons, List.foldl_nil, List.length_singleton, Nat.pow_succ]
        rw [← Nat.mul_assoc]
        omega
  unfold place at h ⊢
  rw [List.foldl_append]
  exact h _

theorem place_lt (index : List Nat) (h : ∀ b ∈ index, b < 2) : place index < 2 ^ index.length := by
  induction index with
  | nil => decide
  | cons b index ih =>
      have hb := h b (List.mem_cons_self ..)
      have hrest := ih fun b' hb' => h b' (List.mem_cons_of_mem b hb')
      have happend := place_append [b] index
      have hsingle : place [b] = b := by simp [place]
      rw [List.singleton_append, hsingle] at happend
      rw [happend, List.length_cons, Nat.pow_succ]
      have : b * 2 ^ index.length ≤ 1 * 2 ^ index.length := Nat.mul_le_mul_right _ (by omega)
      omega

/-- The place of an entry has the numbers of its index as bits, the last one lowest. -/
theorem bit_place (index : List Nat) (h : ∀ b ∈ index, b < 2) {a : Nat} (ha : a < index.length) :
    bit (place index) (index.length - 1 - a) = index[a] := by
  obtain ⟨m, hm⟩ : ∃ m, index.length - 1 - a = m := ⟨_, rfl⟩
  have hdrop : (index.drop (a + 1)).length = m := by rw [List.length_drop]; omega
  have hlow : place (index.drop (a + 1)) < 2 ^ m := by
    rw [← hdrop]
    exact place_lt _ fun b hb => h b (List.mem_of_mem_drop hb)
  have hsplit : place index = (2 * place (index.take a) + index[a]) * 2 ^ m + place (index.drop (a + 1)) := by
    have hlist : index = (index.take a ++ [index[a]]) ++ index.drop (a + 1) := by simp
    conv_lhs => rw [hlist]
    rw [place_append, place_append, hdrop]
    simp [place, Nat.mul_comm]
  unfold bit
  rw [hm, hsplit, Nat.shiftRight_eq_div_pow, Nat.add_comm, Nat.add_mul_div_right _ _ (Nat.two_pow_pos m),
    Nat.div_eq_of_lt hlow]
  have := h index[a] (List.getElem_mem ha)
  omega

theorem place_map_lt (xs : List Nat) {f : Nat → Nat} (h : ∀ x, f x < 2) : place (xs.map f) < 2 ^ xs.length := by
  have := place_lt (xs.map f) fun b hb => by
    obtain ⟨x, _, rfl⟩ := List.mem_map.mp hb
    exact h x
  rwa [List.length_map] at this

theorem bit_place_map (xs : List Nat) {f : Nat → Nat} (h : ∀ x, f x < 2) {j : Nat} (hj : j < xs.length) :
    bit (place (xs.map f)) (xs.length - 1 - j) = f xs[j] := by
  have htwo : ∀ b ∈ xs.map f, b < 2 := by
    intro b hb
    obtain ⟨x, _, rfl⟩ := List.mem_map.mp hb
    exact h x
  have := bit_place (xs.map f) htwo (by rwa [List.length_map])
  simpa only [List.getElem_map, List.length_map] using this

@[simp] theorem length_indexAt (rank p : Nat) : (indexAt rank p).length = rank := by simp [indexAt]

theorem indexAt_lt_two {rank p b : Nat} (h : b ∈ indexAt rank p) : b < 2 := by
  obtain ⟨a, _, rfl⟩ := List.mem_map.mp h
  exact bit_lt_two _ _

theorem getElem_indexAt {rank p a : Nat} (h : a < (indexAt rank p).length) :
    (indexAt rank p)[a] = bit p (rank - 1 - a) := by
  simp [indexAt]

/-- The entry at a place of the vector is at this place. -/
theorem place_indexAt {rank p : Nat} (h : p < 2 ^ rank) : place (indexAt rank p) = p := by
  apply Nat.eq_of_testBit_eq
  intro q
  by_cases hq : q < rank
  · have ha : rank - 1 - q < (indexAt rank p).length := by
      rw [length_indexAt]
      omega
    have hbit := bit_place (indexAt rank p) (fun b hb => indexAt_lt_two hb) ha
    rw [getElem_indexAt, length_indexAt] at hbit
    rw [show rank - 1 - (rank - 1 - q) = q by omega] at hbit
    exact testBit_eq_iff_bit.mpr hbit
  · have hle : 2 ^ rank ≤ 2 ^ q := Nat.pow_le_pow_right (by decide) (by omega)
    have hplace : place (indexAt rank p) < 2 ^ rank := by
      have := place_lt (indexAt rank p) fun b hb => indexAt_lt_two hb
      rwa [length_indexAt] at this
    rw [Nat.testBit_lt_two_pow (by omega), Nat.testBit_lt_two_pow (by omega)]

theorem size_toVector {A : Type} (t : Tensor A) : t.toVector.size = 2 ^ t.rank := by
  unfold toVector
  rw [Array.size_ofFn, twoPow_eq]

theorem getElem?_toVector {A : Type} (t : Tensor A) {p : Nat} (h : p < 2 ^ t.rank) :
    t.toVector[p]? = some (t.entry (indexAt t.rank p)) := by
  rw [← twoPow_eq] at h
  unfold toVector
  rw [Array.getElem?_ofFn, dif_pos h]

end Tensor

end LabLang.State
