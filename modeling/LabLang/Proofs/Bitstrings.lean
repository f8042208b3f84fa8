import LabLang.Random.Sample
import Mathlib.Data.List.Basic
import Mathlib.Data.Nat.Bitwise
import Mathlib.Data.String.Basic

/-! # Bitstrings

The outcome of a measurement is written with the highest bit first (`bits_eq`), so that bitstrings of one width are in
the order of the numbers they write (`bitstring_lt`).  The outcomes that were observed are hence listed in ascending
order, each once (`ascending_observed`). -/

namespace LabLang.State

/-- The character of a bit. -/
def bitChar (b : Bool) : Char := if b then '1' else '0'

theorem bits_eq (width x : ℕ) : bits width x = (List.range width).reverse.map fun j => bitChar (x.testBit j) := by
  induction width generalizing x with
  | zero => rfl
  | succ width ih =>
      have hlow : (if x % 2 = 0 then '0' else '1') = bitChar (x.testBit 0) := by
        rw [Nat.testBit_zero]
        rcases Nat.mod_two_eq_zero_or_one x with h | h <;> simp [h, bitChar]
      rw [bits, ih, hlow, List.range_succ_eq_map, List.reverse_cons, List.map_append, List.map_singleton,
        ← List.map_reverse, List.map_map]
      congr 1
      refine List.map_congr_left fun j _ => ?_
      rw [Function.comp_apply, Nat.succ_eq_add_one, Nat.testBit_succ]

theorem bits_succ (width x : ℕ) : bits (width + 1) x = bitChar (x.testBit width) :: bits width x := by
  rw [bits_eq, bits_eq, List.range_succ, List.reverse_append, List.reverse_singleton, List.singleton_append,
    List.map_cons]

/-- Outcomes that fit the width are written in exactly this width. -/
theorem toList_bitstring {width x : ℕ} (hwidth : 0 < width) (hx : x < 2 ^ width) :
    (bitstring width x).toList = bits width x := by
  have hlog : (if x = 0 then 1 else x.log2 + 1) ≤ width := by
    split
    · exact hwidth
    · rename_i hne
      exact (Nat.log2_lt hne).mpr hx
  unfold bitstring
  rw [String.toList_ofList, Nat.max_eq_left hlog]

/-- Bits of one width are ordered like the numbers that they write. -/
theorem bits_lt {width x y : ℕ} (h : x % 2 ^ width < y % 2 ^ width) : bits width x < bits width y := by
  induction width with
  | zero => rw [pow_zero, Nat.mod_one, Nat.mod_one] at h; cases h
  | succ width ih =>
      rw [bits_succ, bits_succ, List.cons_lt_cons_iff]
      rw [Nat.mod_pow_succ, Nat.mod_pow_succ, ← Nat.toNat_testBit, ← Nat.toNat_testBit] at h
      have hx := Nat.mod_lt x (Nat.two_pow_pos width)
      have hy := Nat.mod_lt y (Nat.two_pow_pos width)
      -- the highest bit decides, unless it is the same in both
      cases hxbit : x.testBit width <;> cases hybit : y.testBit width <;> rw [hxbit, hybit] at h
      · exact .inr ⟨rfl, ih (by simpa using h)⟩
      · exact .inl (by decide)
      · simp at h
        omega
      · exact .inr ⟨rfl, ih (by simpa using h)⟩

theorem bitstring_lt {width x y : ℕ} (hwidth : 0 < width) (hxy : x < y) (hy : y < 2 ^ width) :
    bitstring width x < bitstring width y := by
  have hx : x < 2 ^ width := hxy.trans hy
  rw [String.lt_iff_toList_lt, toList_bitstring hwidth hx, toList_bitstring hwidth hy]
  exact bits_lt (by rwa [Nat.mod_eq_of_lt hx, Nat.mod_eq_of_lt hy])

theorem bitstring_inj {width x y : ℕ} (hwidth : 0 < width) (hx : x < 2 ^ width) (hy : y < 2 ^ width) :
    bitstring width x = bitstring width y ↔ x = y := by
  constructor
  · intro h
    rcases Nat.lt_trichotomy x y with hlt | heq | hgt
    · exact absurd h (bitstring_lt hwidth hlt hy).ne
    · exact heq
    · exact absurd h (bitstring_lt hwidth hgt hx).ne'
  · rintro rfl
    rfl

end LabLang.State

namespace LabLang.Random

open State

/-- The observed outcomes are those with a positive count. -/
theorem mem_observed {width : ℕ} {counts : List ℕ} {entry : String × ℕ} :
    entry ∈ observed width counts ↔
      ∃ i n, counts[i]? = some n ∧ 0 < n ∧ entry = (bitstring width i, n) := by
  unfold observed
  simp only [List.mem_map, List.mem_filter, decide_eq_true_eq, Prod.exists, List.mk_mem_zipIdx_iff_getElem?]
  constructor
  · rintro ⟨n, i, ⟨hi, hn⟩, rfl⟩
    exact ⟨i, n, hi, hn, rfl⟩
  · rintro ⟨i, n, hi, hn, rfl⟩
    exact ⟨n, i, ⟨hi, hn⟩, rfl⟩

/-- The observed outcomes are in ascending order. -/
theorem ascending_observed {width : ℕ} {counts : List ℕ} (hwidth : 0 < width) (h : counts.length ≤ 2 ^ width) :
    (observed width counts).keys.Pairwise (· < ·) := by
  have hindices : (counts.zipIdx.filter (0 < ·.1)).Pairwise fun p q => p.2 < q.2 := by
    refine List.Pairwise.filter _ ?_
    rw [← List.pairwise_map, List.zipIdx_map_snd]
    exact List.pairwise_lt_range'
  unfold observed Table.keys
  rw [List.map_map, List.pairwise_map]
  refine hindices.imp_of_mem fun {p q} hp hq hpq => ?_
  have hq' := List.mem_of_mem_filter hq
  have hlt : q.2 < counts.length := by
    have := List.snd_lt_of_mem_zipIdx hq'
    omega
  exact bitstring_lt hwidth hpq (hlt.trans_le h)

end LabLang.Random
