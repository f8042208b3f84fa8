import LabLang.Proofs.GateIsometry

/-! # Matrices that follow each other

Exact amplitudes are a commutative ring (`Amplitude.instCommRing`), and weights are multiplied with them
(`Amplitude.weight_mul`).  Over a ring, two matrices that act on the same qubits one after the other act like their product
(`ActsOnBits.comp`): the bits that the first one has replaced are replaced again by the second one, so that the columns
of the first and the rows of the second meet in every number that these bits can spell.  A matrix with ones on the
diagonal and zeros elsewhere leaves every state as it is (`ActsOnBits.eq_of_identity`). -/

namespace LabLang

/-! ### The ring of exact amplitudes -/

namespace Amplitude

theorem eq_of_parts {R : Type} {a b : Amplitude R} (re : a.re = b.re) (im : a.im = b.im) : a = b := by
  cases a
  cases b
  cases re
  cases im
  rfl

noncomputable instance instCommRing : CommRing (Amplitude ℝ) where
  add_assoc a b c := eq_of_parts (add_assoc a.re b.re c.re) (add_assoc a.im b.im c.im)
  zero_add a := eq_of_parts (by simp) (by simp)
  add_zero a := eq_of_parts (by simp) (by simp)
  add_comm a b := eq_of_parts (add_comm a.re b.re) (add_comm a.im b.im)
  neg_add_cancel a := eq_of_parts (by simp) (by simp)
  left_distrib a b c := eq_of_parts (by simp; ring) (by simp; ring)
  right_distrib a b c := eq_of_parts (by simp; ring) (by simp; ring)
  zero_mul a := eq_of_parts (by simp) (by simp)
  mul_zero a := eq_of_parts (by simp) (by simp)
  mul_assoc a b c := eq_of_parts (by simp; ring) (by simp; ring)
  one_mul a := eq_of_parts (by simp) (by simp)
  mul_one a := eq_of_parts (by simp) (by simp)
  mul_comm a b := eq_of_parts (by simp; ring) (by simp; ring)
  nsmul := nsmulRec
  zsmul := zsmulRec

theorem weight_mul (a b : Amplitude ℝ) : (a * b).weight = a.weight * b.weight := by
  simp only [weight_eq, mul_re, mul_im]
  ring

end Amplitude

namespace State

/-! ### Products of matrices -/

variable {A : Type} {n : ℕ} {qubits : List ℕ} {m m' : ℕ → ℕ → A} {state mid out : Array A}

/-- The entries of the product of two matrices with as many rows and columns as there are numbers of `k` bits. -/
def matrixProduct [Zero A] [Add A] [Mul A] (k : ℕ) (m m' : ℕ → ℕ → A) (r c : ℕ) : A :=
  sumTo (2 ^ k) fun d => m r d * m' d c

/-- The matrix has ones on its diagonal and zeros elsewhere. -/
def IsIdentity [Zero A] [One A] (k : ℕ) (m : ℕ → ℕ → A) : Prop :=
  ∀ r < 2 ^ k, ∀ c < 2 ^ k, m r c = if r = c then 1 else 0

/-- Two matrices that act on the same qubits one after the other act like their product. -/
theorem ActsOnBits.comp [CommSemiring A] (first : ActsOnBits n qubits m state mid)
    (second : ActsOnBits n qubits m' mid out) :
    ActsOnBits n qubits (matrixProduct qubits.length m' m) state out := by
  refine ⟨second.1, fun i hi => ?_⟩
  obtain ⟨r, source, hr, hsource, hout⟩ := second.2 i hi
  refine ⟨r, source, hr, hsource, ?_⟩
  -- an amplitude in between is found in the row that the second matrix has chosen
  have hmid {d : ℕ} (hd : d < 2 ^ qubits.length) :
      mid.getD (source d) 0 = sumTo (2 ^ qubits.length) fun c => m d c * state.getD (source c) 0 := by
    obtain ⟨hlt, hreplaces⟩ := hsource d hd
    obtain ⟨r', source', hr', hsource', hentry⟩ := first.2 _ hlt
    obtain rfl : r' = d := hr'.unique (hreplaces.reads hd)
    rw [Array.getD_eq_getD_getElem?, hentry, Option.getD_some]
    refine sumTo_congr fun c hc => ?_
    rw [(hreplaces.trans (hsource' c hc).2).unique (hsource c hc).2]
  rw [hout, sumTo_congr fun d hd => congrArg (m' r d * ·) (hmid hd)]
  unfold matrixProduct
  simp only [sumTo_eq_sum, Finset.mul_sum, Finset.sum_mul, mul_assoc]
  rw [Finset.sum_comm]

/-- The identity leaves every state as it is. -/
theorem ActsOnBits.eq_of_identity [CommSemiring A] (h : ActsOnBits n qubits m state out) (hsize : state.size = 2 ^ n)
    (identity : IsIdentity qubits.length m) : out = state := by
  apply Array.ext_getElem?
  intro i
  by_cases hi : i < 2 ^ n
  · obtain ⟨r, source, hr, hsource, hout⟩ := h.sum hi
    have hsame : source r = i := (hsource r hr.1).2.unique hr.replaces
    rw [hout, Finset.sum_eq_single_of_mem r (Finset.mem_range.mpr hr.1), identity r hr.1 r hr.1, if_pos rfl, one_mul,
      hsame, Array.getElem?_eq_getElem (by omega), Array.getElem_eq_getD 0]
    intro c hc hne
    rw [identity r hr.1 c (Finset.mem_range.mp hc), if_neg hne.symm, zero_mul]
  · rw [Array.getElem?_eq_none (by rw [h.1]; omega), Array.getElem?_eq_none (by omega)]

/-- What a matrix makes of an index of which one source only has an amplitude. -/
theorem ActsOnBits.getD_of_single [CommSemiring A] (h : ActsOnBits n qubits m state out) {i r c p : ℕ}
    (hi : i < 2 ^ n) (reads : Reads qubits i r) (hc : c < 2 ^ qubits.length) (replaces : Replaces qubits i c p)
    (others : ∀ p' ≠ p, state.getD p' 0 = 0) : out.getD i 0 = m r c * state.getD p 0 := by
  obtain ⟨r', source, hr, hsource, hout⟩ := h.sum hi
  obtain rfl : r' = r := hr.unique reads
  have hp : source c = p := (hsource c hc).2.unique replaces
  rw [Array.getD_eq_getD_getElem?, hout, Option.getD_some,
    Finset.sum_eq_single_of_mem c (Finset.mem_range.mpr hc), hp]
  intro c' hc' hne
  have hc' := Finset.mem_range.mp hc'
  have hother : source c' ≠ p := by
    intro heq
    refine hne (((hsource c' hc').2.reads hc').unique ?_)
    rw [heq]
    exact replaces.reads hc
  rw [others _ hother, mul_zero]

end State

end LabLang
