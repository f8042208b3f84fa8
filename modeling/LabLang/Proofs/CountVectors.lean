import Mathlib.Analysis.SpecialFunctions.Trigonometric.Basic
import LabLang.Proofs.Bitstrings
import LabLang.Proofs.CountDistances
import LabLang.Proofs.TensorIndex

/-! # Counts as vectors

The bitstrings of a width are the numbers below a power of two (`bitsValue_bits`, `bits_bitsValue`).  Counts of bitstrings
hence fill a vector with a place for every bitstring: at each place stands the exact share of the outcome that it is the
number of (`vector_eq`).  The distance of two such vectors is a sum over all bitstrings, and those that are in neither table
add nothing to it, so that it is the distance of the tables (`vectorDistance_vector`). -/

namespace LabLang.Counts

open Scalar State

/-! ### Bitstrings and numbers -/

/-- The outcome is written with as many bits as the width says. -/
structure IsBitstring (width : ℕ) (outcome : String) : Prop where
  length : outcome.toList.length = width
  bits : ∀ c ∈ outcome.toList, c = '0' ∨ c = '1'

theorem bitsValue_append (bits : List Char) (c : Char) :
    bitsValue (bits ++ [c]) = 2 * bitsValue bits + if c = '1' then 1 else 0 := by
  unfold bitsValue
  rw [List.foldl_append]
  rfl

theorem bitsValue_lt (bits : List Char) : bitsValue bits < 2 ^ bits.length := by
  induction bits using List.reverseRecOn with
  | nil => exact Nat.one_pos
  | append_singleton bits c ih =>
      rw [bitsValue_append, List.length_append, List.length_singleton, pow_succ]
      split <;> omega

theorem bits_bitsValue {cs : List Char} (h : ∀ c ∈ cs, c = '0' ∨ c = '1') : bits cs.length (bitsValue cs) = cs := by
  induction cs using List.reverseRecOn with
  | nil => rfl
  | append_singleton cs c ih =>
      have ih := ih fun d hd => h d (List.mem_append_left _ hd)
      rw [bitsValue_append, List.length_append, List.length_singleton, bits]
      rcases h c (List.mem_append_right _ List.mem_cons_self) with rfl | rfl
      · rw [if_neg (by decide), add_zero, Nat.mul_div_cancel_left _ two_pos, Nat.mul_mod_right, if_pos rfl, ih]
      · rw [if_pos rfl, Nat.mul_add_div two_pos, Nat.mul_add_mod, if_neg (by decide)]
        exact congrArg (· ++ ['1']) ih

theorem bitsValue_bits {width x : ℕ} (hx : x < 2 ^ width) : bitsValue (bits width x) = x := by
  induction width generalizing x with
  | zero =>
      rw [pow_zero, Nat.lt_one_iff] at hx
      rw [hx]
      rfl
  | succ width ih =>
      rw [pow_succ] at hx
      rw [bits, bitsValue_append, ih (by omega)]
      rcases Nat.mod_two_eq_zero_or_one x with h | h
      · rw [h, if_pos rfl, if_neg (by decide)]
        omega
      · rw [h, if_neg one_ne_zero, if_pos rfl]
        omega

theorem IsBitstring.bitsValue_lt {width : ℕ} {outcome : String} (h : IsBitstring width outcome) :
    bitsValue outcome.toList < 2 ^ width := by
  have hlt := Counts.bitsValue_lt outcome.toList
  rwa [h.length] at hlt

section

variable {width : ℕ} (hwidth : 0 < width)
include hwidth

theorem bitsValue_bitstring {x : ℕ} (hx : x < 2 ^ width) : bitsValue (bitstring width x).toList = x := by
  rw [toList_bitstring hwidth hx, bitsValue_bits hx]

/-- A bitstring is the one of the number that it writes. -/
theorem eq_bitstring_iff {outcome : String} (h : IsBitstring width outcome) {x : ℕ} (hx : x < 2 ^ width) :
    outcome = bitstring width x ↔ bitsValue outcome.toList = x := by
  constructor
  · rintro rfl
    exact bitsValue_bitstring hwidth hx
  · rintro rfl
    have hbits := bits_bitsValue h.bits
    rw [h.length] at hbits
    rw [← String.toList_inj, toList_bitstring hwidth hx, hbits]

theorem place_eq {outcome : String} (h : IsBitstring width outcome) :
    place width outcome = .ok (bitsValue outcome.toList) := by
  have hany : (outcome.toList.any fun c => c != '0' && c != '1') = false := by
    rw [List.any_eq_false]
    intro c hc
    rcases h.bits c hc with rfl | rfl <;> decide
  have hempty : outcome.toList.isEmpty = false := by
    rw [List.isEmpty_eq_false_iff_exists_mem, ← List.length_pos_iff_exists_mem, h.length]
    exact hwidth
  unfold place
  dsimp only
  rw [hany, hempty, h.length]
  simp

end

/-! ### Vectors -/

/-- The array after every count has been written at the place of its outcome. -/
def write {R : Type} [Scalar R] (c : Counts) (v : Array R) : Array R :=
  c.foldl (fun v entry => v.setIfInBounds (bitsValue entry.1.toList) (int entry.2)) v

theorem size_write {R : Type} [Scalar R] (c : Counts) (v : Array R) : (c.write v).size = v.size := by
  unfold write
  induction c generalizing v with
  | nil => rfl
  | cons entry c ih => rw [List.foldl_cons, ih, Array.size_setIfInBounds]

section

variable {width : ℕ} (hwidth : 0 < width) {c : Counts} (hbits : ∀ outcome ∈ c.keys, IsBitstring width outcome)
include hwidth hbits

/-- What stands at a place after the counts have been written: that of its outcome, or what was there before. -/
theorem getElem?_write {R : Type} [Scalar R] (distinct : c.keys.Nodup) {i : ℕ} (hi : i < 2 ^ width) (v : Array R)
    (hv : i < v.size) : (c.write v)[i]? = ((c.get? (bitstring width i)).map int).or v[i]? := by
  induction c generalizing v with
  | nil => rfl
  | cons entry c ih =>
      obtain ⟨outcome, n⟩ := entry
      obtain ⟨hnew, hrest⟩ := List.nodup_cons.mp distinct
      have hplace := eq_bitstring_iff hwidth (hbits outcome List.mem_cons_self) hi
      have hstep : write ((outcome, n) :: c) v = write c (v.setIfInBounds (bitsValue outcome.toList) (int n)) := rfl
      rw [hstep, ih (fun k hk => hbits k (List.mem_cons_of_mem _ hk)) hrest _ (by rwa [Array.size_setIfInBounds]),
        Array.getElem?_setIfInBounds, Table.get?]
      by_cases hk : outcome = bitstring width i
      · have hnone : Table.get? c (bitstring width i) = none := Table.get?_eq_none_iff.mpr (hk ▸ hnew)
        rw [if_pos hk, if_pos (hplace.mp hk), hplace.mp hk, if_pos hv, hnone, Option.map_none, Option.none_or,
          Option.map_some, Option.some_or]
      · rw [if_neg hk, if_neg fun h => hk (hplace.mpr h)]

theorem toList_write_replicate (distinct : c.keys.Nodup) :
    (c.write (Array.replicate (2 ^ width) (zero : ℝ))).toList =
      (List.range (2 ^ width)).map fun i => (c.observations (bitstring width i) : ℝ) := by
  refine List.ext_getElem? fun i => ?_
  rw [Array.getElem?_toList, List.getElem?_map]
  rcases Nat.lt_or_ge i (2 ^ width) with hi | hi
  · rw [getElem?_write hwidth hbits distinct hi _ (by rwa [Array.size_replicate]), Array.getElem?_replicate, if_pos hi,
      List.getElem?_range hi, Option.map_some]
    unfold observations
    cases c.get? (bitstring width i) with
    | none => rw [Option.map_none, Option.none_or, Option.getD_none, Int.cast_zero, zero_real]
    | some n => rw [Option.map_some, Option.some_or, Option.getD_some, int_real]
  · rw [Array.getElem?_eq_none (by rwa [size_write, Array.size_replicate]),
      List.getElem?_eq_none (by rwa [List.length_range]), Option.map_none]

/-- The vector has the share of each bitstring, in the order of the numbers that they write. -/
theorem vector_eq (h : c.IsProper) :
    vector c width = .ok ((List.range (2 ^ width)).map fun i => c.share (bitstring width i)) := by
  have hentries : c.mapM (fun entry => do pure (← place width entry.1, entry.2)) =
      (.ok (c.map fun entry => (bitsValue entry.1.toList, entry.2)) : Except WidthFault _) := by
    refine mapM_eq_ok fun entry hentry => ?_
    rw [place_eq hwidth (hbits _ (List.mem_map_of_mem hentry))]
    rfl
  have hvector : vector c width = (do
      let entries ← c.mapM (fun entry => do pure (← place width entry.1, entry.2))
      let written : Array ℝ := entries.foldl (fun v entry => v.setIfInBounds entry.1 (int entry.2))
        (Array.replicate (2 ^ width) zero)
      pure (if 0 < c.total then written.toList.map (· / int c.total) else written.toList)) := rfl
  rw [hvector, hentries]
  simp only [bind, Except.bind, List.foldl_map]
  refine congrArg Except.ok ?_
  show (if 0 < c.total then (c.write (Array.replicate (2 ^ width) zero)).toList.map (· / int c.total)
    else (c.write (Array.replicate (2 ^ width) zero)).toList) = _
  rw [toList_write_replicate hwidth hbits h.distinct]
  split
  case isTrue =>
    rw [List.map_map]
    refine List.map_congr_left fun i _ => ?_
    rw [Function.comp_apply, share_eq h, int_real]
  case isFalse hzero =>
    -- where there is no total nothing has been observed, and nothing has a share
    refine List.map_congr_left fun i _ => ?_
    have htotal : c.total = 0 := le_antisymm (not_lt.mp hzero) (total_nonneg h.nonneg)
    have hnone : c.observations (bitstring width i) = 0 :=
      le_antisymm (htotal ▸ observations_le_total h _) (observations_nonneg h _)
    rw [share_eq h, hnone, Int.cast_zero, zero_div]

end

section

variable {width : ℕ} {a b : Counts}

/-- The distance of the vectors is the distance of the tables: bitstrings that are in neither table add nothing to it. -/
theorem vectorDistance_vector (hwidth : 0 < width) (ha : a.IsProper) (hb : b.IsProper)
    (hbitsa : ∀ outcome ∈ a.keys, IsBitstring width outcome) (hbitsb : ∀ outcome ∈ b.keys, IsBitstring width outcome) :
    vectorDistance ((List.range (2 ^ width)).map fun i => a.share (bitstring width i))
        ((List.range (2 ^ width)).map fun i => b.share (bitstring width i)) =
      .ok (countsDistance a b) := by
  have hinj : Set.InjOn (bitstring width) (Finset.range (2 ^ width)) := by
    intro x hx y hy hxy
    exact (bitstring_inj hwidth (Finset.mem_range.mp hx) (Finset.mem_range.mp hy)).mp hxy
  have hall (c : Counts) (hbits : ∀ outcome ∈ c.keys, IsBitstring width outcome) :
      ∀ k ∈ c.keys, k ∈ (Finset.range (2 ^ width)).image (bitstring width) := by
    intro k hk
    have hlt := (hbits k hk).bitsValue_lt
    exact Finset.mem_image.mpr ⟨_, Finset.mem_range.mpr hlt, ((eq_bitstring_iff hwidth (hbits k hk) hlt).mpr rfl).symm⟩
  rw [countsDistance_eq_sum ha hb (hall a hbitsa) (hall b hbitsb), Finset.sum_image hinj]
  unfold vectorDistance align
  rw [if_pos (by rw [List.length_map, List.length_map]), List.zip_map']
  show Except.ok (oneHalf * plainSum _) = _
  rw [plainSum_eq_sum, oneHalf_mul, List.map_map]
  refine congrArg (fun x => Except.ok (x / 2)) ?_
  simp only [Function.comp_def, abs_real]
  rw [← List.sum_toFinset _ List.nodup_range, List.toFinset_range]

/-- The vector has a place for every bitstring.  At the place of an outcome stands its share, and everywhere else stands
zero; without a total no outcome has a share. -/
structure IsVectorOf (c : Counts) (width : ℕ) (v : List ℝ) : Prop where
  length : v.length = 2 ^ width
  share : 0 < c.total → ∀ outcome ∈ c.keys, ∃ x, (shares c).get? outcome = some x ∧ v[bitsValue outcome.toList]? = some x
  zero : ∀ i < 2 ^ width, (0 < c.total → ∀ outcome ∈ c.keys, bitsValue outcome.toList ≠ i) → v[i]? = some 0

theorem isVectorOf_map_share (hwidth : 0 < width) (ha : a.IsProper)
    (hbits : ∀ outcome ∈ a.keys, IsBitstring width outcome) :
    a.IsVectorOf width ((List.range (2 ^ width)).map fun i => a.share (bitstring width i)) := by
  refine ⟨by rw [List.length_map, List.length_range], fun hpositive outcome houtcome => ?_, fun i hi helse => ?_⟩
  · have hlt := (hbits outcome houtcome).bitsValue_lt
    obtain ⟨entry, hentry, rfl⟩ := List.mem_map.mp houtcome
    have hshare : (shares a : Table ℝ).get? entry.1 = some (ratio entry.2 a.total.toNat) := by
      rw [shares_eq hpositive, Table.get?_mapValues, Table.get?_of_mem ha.distinct hentry, Option.map_some]
    refine ⟨_, hshare, ?_⟩
    rw [List.getElem?_map, List.getElem?_range hlt, Option.map_some,
      ← (eq_bitstring_iff hwidth (hbits _ houtcome) hlt).mpr rfl, share, shareOf_shares ha.distinct hpositive hentry]
  · rw [List.getElem?_map, List.getElem?_range hi, Option.map_some]
    refine congrArg some ?_
    rcases (total_nonneg ha.nonneg).eq_or_lt with hzero | hpositive
    · rw [share_eq ha, ← hzero, Int.cast_zero, div_zero]
    · refine share_of_notMem fun hmem => helse hpositive _ hmem ?_
      exact bitsValue_bitstring hwidth hi

/-- **Tables and vectors.**  Counts of bitstrings of a width have vectors.  Each of them has the share of every outcome at
the place of the number that the outcome writes, and zero elsewhere, and their distance is the distance of the tables of
shares. -/
theorem vectorDistance_eq_distance (hwidth : 1 ≤ width) (ha : a.IsProper) (hb : b.IsProper)
    (hbitsa : ∀ outcome ∈ a.keys, IsBitstring width outcome) (hbitsb : ∀ outcome ∈ b.keys, IsBitstring width outcome) :
    ∃ p q : List ℝ, vector a width = .ok p ∧ vector b width = .ok q ∧
      vectorDistance p q = .ok (distance (shares a) (shares b)) ∧ a.IsVectorOf width p ∧ b.IsVectorOf width q :=
  ⟨_, _, vector_eq hwidth hbitsa ha, vector_eq hwidth hbitsb hb, vectorDistance_vector hwidth ha hb hbitsa hbitsb,
    isVectorOf_map_share hwidth ha hbitsa, isVectorOf_map_share hwidth hb hbitsb⟩

/-- Four observations of two outcomes of two bits beside an outcome that has not been observed. -/
theorem vectorDistance_eq_distance_unobserved :
    ∃ (a b : Counts) (p q : List ℝ), a = [("11", 3), ("01", 1)] ∧ b = [("10", 0)] ∧ a.IsProper ∧ b.IsProper ∧
      (∀ outcome ∈ a.keys, IsBitstring 2 outcome) ∧ (∀ outcome ∈ b.keys, IsBitstring 2 outcome) ∧
      vector a 2 = .ok p ∧ vector b 2 = .ok q ∧ vectorDistance p q = .ok (distance (shares a) (shares b)) ∧
      p[3]? = some (3 / 4) ∧ p[1]? = some (1 / 4) ∧ p[0]? = some 0 ∧ ∀ i < 4, q[i]? = some 0 := by
  obtain ⟨a, ha⟩ : ∃ a : Counts, a = [("11", 3), ("01", 1)] := ⟨_, rfl⟩
  obtain ⟨b, hb⟩ : ∃ b : Counts, b = [("10", 0)] := ⟨_, rfl⟩
  have hpa : a.IsProper := by
    rw [ha]
    decide
  have hpb : b.IsProper := by
    rw [hb]
    decide
  have hbitsa : ∀ outcome ∈ a.keys, IsBitstring 2 outcome := by
    rw [ha]
    simp only [Table.keys, List.map_cons, List.map_nil, List.forall_mem_cons]
    exact ⟨⟨by simp, by simp⟩, ⟨by simp, by simp⟩, by simp⟩
  have hbitsb : ∀ outcome ∈ b.keys, IsBitstring 2 outcome := by
    rw [hb]
    simp only [Table.keys, List.map_cons, List.map_nil, List.forall_mem_cons]
    exact ⟨⟨by simp, by simp⟩, by simp⟩
  obtain ⟨p, q, hp, hq, hdistance, hap, hbq⟩ := vectorDistance_eq_distance one_le_two hpa hpb hbitsa hbitsb
  have htotal : a.total = 4 := by
    rw [ha]
    rfl
  have hat {outcome : String} {n : ℤ} {i : ℕ} (hmem : (outcome, n) ∈ a) (hi : bitsValue outcome.toList = i) :
      p[i]? = some ((n : ℝ) / 4) := by
    obtain ⟨x, hx, hplace⟩ := hap.share (by omega) outcome (List.mem_map_of_mem hmem)
    rw [shares_eq (by omega), Table.get?_mapValues, Table.get?_of_mem hpa.distinct hmem, htotal] at hx
    rw [← hi, hplace, ← hx, Option.map_some, ratio_real]
    rfl
  refine ⟨a, b, p, q, ha, hb, hpa, hpb, hbitsa, hbitsb, hp, hq, hdistance, ?_, ?_, ?_, fun i hi => ?_⟩
  · have h11 : ("11", 3) ∈ a := by simp [ha]
    rw [hat h11 (by decide), Int.cast_ofNat]
  · have h01 : ("01", 1) ∈ a := by simp [ha]
    rw [hat h01 (by decide), Int.cast_one]
  · refine hap.zero 0 (by decide) fun _ => ?_
    rw [ha]
    decide
  · refine hbq.zero i hi fun hpositive => absurd hpositive ?_
    rw [hb]
    decide

end

end LabLang.Counts
