import Mathlib.Algebra.Order.BigOperators.Group.List
import LabLang.Proofs.BornRule
import LabLang.Proofs.Draws

/-! # The statistics of measurements

What is used of a sampler is said by two relations: `BinomialDraw`, and `MultinomialDraw`, in which each category but the
last takes a binomial share of the shots that are left, with its chance in proportion to the chance that is left.  As
long as there are shots left there is chance left, so that no category without a chance gets a shot and the last category
takes the rest (`MultinomialDraw.counts`).  The sampler of this library is one of them (`multinomialDraw_multinomial`).
Hence the counts of a valid circuit are well formed, whatever the sampler does within these bounds (`measure_counts`). -/

namespace LabLang.Random

/-! ### Draws -/

/-- What may come out of `n` trials with chance `q`: at most `n` successes, none without a chance and all if the chance
is one. -/
structure BinomialDraw (n : ℕ) (q : ℝ) (x : ℕ) : Prop where
  le : x ≤ n
  never : q = 0 → x = 0
  always : q = 1 → x = n

/-- The counts that may be drawn for categories with the given chances, when `rest` is what is left of the chance and `n`
what is left of the trials. -/
inductive MultinomialDraw : List ℝ → ℝ → ℕ → List ℕ → Prop
  | none (rest : ℝ) (n : ℕ) : MultinomialDraw [] rest n []
  | last (p rest : ℝ) (n : ℕ) : MultinomialDraw [p] rest n [n]
  | share {p p' rest : ℝ} {ps : List ℝ} {n x : ℕ} {xs : List ℕ} (le : x ≤ n)
      (draw : 0 < rest → BinomialDraw n (p / rest) x) (others : MultinomialDraw (p' :: ps) (rest - p) (n - x) xs) :
      MultinomialDraw (p :: p' :: ps) rest n (x :: xs)

theorem MultinomialDraw.length {ps : List ℝ} {rest : ℝ} {n : ℕ} {xs : List ℕ} (h : MultinomialDraw ps rest n xs) :
    xs.length = ps.length := by
  induction h with
  | none rest n => rfl
  | last p rest n => rfl
  | share le draw others ih => rw [List.length_cons, List.length_cons, ih]

theorem MultinomialDraw.sum {ps : List ℝ} {rest : ℝ} {n : ℕ} {xs : List ℕ} (h : MultinomialDraw ps rest n xs)
    (hne : ps ≠ []) : xs.sum = n := by
  induction h with
  | none rest n => exact absurd rfl hne
  | last p rest n => rw [List.sum_singleton]
  | share le draw others ih =>
      rw [List.sum_cons, ih (List.cons_ne_nil _ _)]
      omega

/-- A category without a chance gets nothing, if there is chance left as long as there are trials left. -/
theorem MultinomialDraw.eq_zero {ps : List ℝ} {rest : ℝ} {n : ℕ} {xs : List ℕ} (h : MultinomialDraw ps rest n xs)
    (nonneg : ∀ p ∈ ps, 0 ≤ p) (hrest : rest = ps.sum) (left : 0 < n → 0 < rest) {i : ℕ} (hp : ps[i]? = some 0) :
    xs[i]? = some 0 := by
  induction h generalizing i with
  | none rest n => simp at hp
  | last p rest n =>
      rw [List.sum_singleton] at hrest
      obtain ⟨rfl, rfl⟩ : i = 0 ∧ p = 0 := by simpa [List.getElem?_singleton] using hp
      have hn : n = 0 := by
        by_contra hne
        exact (left (Nat.pos_of_ne_zero hne)).ne' hrest
      rw [hn]
      rfl
  | @share p p' rest ps n x xs le draw others ih =>
      have hothers : 0 ≤ (p' :: ps).sum := List.sum_nonneg fun q hq => nonneg q (List.mem_cons_of_mem p hq)
      rw [List.sum_cons] at hrest
      cases i with
      | zero =>
          obtain rfl : p = 0 := by simpa using hp
          rw [List.getElem?_cons_zero, Option.some.injEq]
          by_cases hn : 0 < n
          · exact (draw (left hn)).never (zero_div rest)
          · omega
      | succ i =>
          rw [List.getElem?_cons_succ] at hp ⊢
          refine ih (fun q hq => nonneg q (List.mem_cons_of_mem p hq)) (by rw [hrest]; ring) (fun hleft => ?_) hp
          -- if this category had all the chance that is left, it has taken all trials
          have hpos : 0 < rest := left (by omega)
          refine lt_of_le_of_ne (by rw [hrest]; linarith) fun hzero => ?_
          have hall : p / rest = 1 := by
            rw [div_eq_one_iff_eq hpos.ne']
            linarith
          have := (draw hpos).always hall
          omega

/-! ### The sampler -/

theorem uniform_lt_one (g : Stream) : (g.uniform : ℝ × Stream).1 < 1 := by
  have hword : (g.next.1 >>> 11).toNat < 2 ^ 53 := by
    have hshift : (g.next.1 >>> 11).toNat = g.next.1.toNat / 2 ^ 11 := by
      rw [UInt64.toNat_shiftRight, Nat.shiftRight_eq_div_pow]
      rfl
    have := g.next.1.toNat_lt
    omega
  have hpos : (0 : ℝ) < ((2 ^ 53 : ℕ) : ℝ) := by positivity
  unfold Stream.uniform
  dsimp only
  rw [Scalar.nat_real, Scalar.nat_real, State.twoPow_eq, div_lt_one hpos, Nat.cast_lt]
  exact hword

/-- The search goes no further than a chance that the uniform number does not exceed. -/
theorem Search.go_of_le (s : Search ℝ) (fuel x : ℕ) {chance u : ℝ} (g : Stream) (h : u ≤ chance) :
    s.go fuel x chance u g = (x, g) := by
  cases fuel with
  | zero => rfl
  | succ fuel =>
      have hnot : ¬ Scalar.lt chance u = true := by rw [Scalar.lt_real]; exact not_lt.mpr h
      rw [Search.go, if_neg hnot]

/-- Without a chance there is no success: the search ends where it starts. -/
theorem smallBinomial_zero (n : ℕ) (g : Stream) : (smallBinomial n (0 : ℝ) g).1 = 0 := by
  have hsmall : Scalar.le ((0 : ℝ) * Scalar.nat n) (Scalar.nat 30) = true := by simp
  have hnone : Scalar.exp (Scalar.nat n * Scalar.log (Scalar.one - (0 : ℝ))) = 1 := by
    rw [sub_zero, Scalar.one_real]
    show Real.exp (n * Real.log 1) = 1
    rw [Real.log_one, mul_zero, Real.exp_zero]
  unfold smallBinomial
  rw [if_pos hsmall]
  unfold inversion
  dsimp only
  rw [hnone, Search.go_of_le _ _ _ _ (uniform_lt_one g).le]
  exact Nat.zero_min n

theorem binomialDraw_binomial (n : ℕ) (q : ℝ) (g : Stream) : BinomialDraw n q (binomial n q g).1 := by
  have hhalf : (half : ℝ) = 1 / 2 := by
    show (5 : ℕ) * (10 : ℝ) ^ (-(1 : ℕ) : ℤ) = 1 / 2
    norm_num
  unfold binomial
  by_cases hnone : n = 0 ∨ q = 0
  · rw [if_pos (by simpa using hnone)]
    refine ⟨Nat.zero_le n, fun _ => rfl, fun hq => ?_⟩
    rcases hnone with rfl | rfl
    · rfl
    · norm_num at hq
  · rw [if_neg (by simpa using hnone)]
    have hq : q ≠ 0 := fun h => hnone (.inr h)
    by_cases hle : q ≤ 1 / 2
    · rw [if_pos (by rw [hhalf]; simpa using hle)]
      exact ⟨smallBinomial_le n q g, fun h => absurd h hq, fun h => by rw [h] at hle; norm_num at hle⟩
    · rw [if_neg (by rw [hhalf]; simpa using hle)]
      refine ⟨Nat.sub_le _ _, fun h => absurd h hq, fun h => ?_⟩
      dsimp only
      rw [h, Scalar.one_real, sub_self, smallBinomial_zero, Nat.sub_zero]

theorem multinomialDraw_zero (ps : List ℝ) (rest : ℝ) : MultinomialDraw ps rest 0 (ps.map fun _ => 0) := by
  induction ps generalizing rest with
  | nil => exact .none rest 0
  | cons p ps ih =>
      cases ps with
      | nil => exact .last p rest 0
      | cons p' ps => exact .share le_rfl (fun _ => ⟨le_rfl, fun _ => rfl, fun _ => rfl⟩) (ih (rest - p))

/-- The sampler draws as it should, whatever the state of its generator. -/
theorem multinomialDraw_multinomial (ps : List ℝ) (rest : ℝ) (n : ℕ) (g : Stream) :
    MultinomialDraw ps rest n (multinomial ps rest n g).1 := by
  induction ps generalizing rest n g with
  | nil => exact .none rest n
  | cons p ps ih =>
      cases ps with
      | nil => exact .last p rest n
      | cons p' ps =>
          by_cases hn : n = 0
          · subst hn
            exact multinomialDraw_zero (p :: p' :: ps) rest
          · rw [multinomial, if_neg hn]
            · have hdraw := binomialDraw_binomial n (p / rest) g
              exact .share hdraw.le (fun _ => hdraw) (ih _ _ _)
            · exact List.cons_ne_nil _ _

/-! ### Counts -/

/-- Chances that are not negative and sum to one can be drawn from, up to the greatest number of shots. -/
theorem checkChances_of_sum {probs : List ℝ} {shots : ℤ} (positive : 1 ≤ shots) (limit : shots < 2 ^ 63)
    (nonneg : ∀ p ∈ probs, 0 ≤ p) (sum : probs.sum = 1) : checkChances probs shots = .ok () := by
  have hmax : ¬ maxShots < shots := by
    unfold maxShots
    rw [State.twoPow_eq]
    omega
  have hne : ¬ probs.isEmpty = true := by
    rw [List.isEmpty_iff]
    rintro rfl
    norm_num at sum
  have hrange : ¬ (!probs.all fun p => Scalar.le Scalar.zero p && Scalar.le p Scalar.one) = true := by
    simp only [Bool.not_eq_true', Bool.not_eq_false, List.all_eq_true, Bool.and_eq_true, Scalar.le_real,
      Scalar.zero_real, Scalar.one_real]
    exact fun p hp => ⟨nonneg p hp, sum ▸ List.single_le_sum nonneg p hp⟩
  have hsum : ¬ Scalar.lt (Scalar.one + constant 1 12) (compensatedSum probs.dropLast) = true := by
    have hslack : (0 : ℝ) ≤ constant 1 12 := by
      show (0 : ℝ) ≤ (1 : ℕ) * (10 : ℝ) ^ (-(12 : ℕ) : ℤ)
      positivity
    have hdrop : probs.dropLast.sum ≤ probs.sum :=
      (List.dropLast_sublist probs).sum_le_sum nonneg
    rw [Scalar.lt_real, compensatedSum_eq_sum, Scalar.one_real]
    linarith
  unfold checkChances
  rw [if_neg (by omega), if_neg hmax, if_neg hne, if_neg hrange, if_neg hsum]

/-- The counts of the outcomes that were observed when a circuit was measured. -/
structure AreCounts (c : Circuit ℝ) (shots : ℕ) (counts : Table ℕ) : Prop where
  ascending : counts.keys.Pairwise (· < ·)
  distinct : counts.keys.Nodup
  width : ∀ outcome ∈ counts.keys, outcome.length = c.measured.length
  binary : ∀ outcome ∈ counts.keys, ∀ digit ∈ outcome.toList, digit = '0' ∨ digit = '1'
  observed : ∀ entry ∈ counts, 1 ≤ entry.2
  total : (counts.map (·.2)).sum = shots
  possible : ∀ outcome ∈ counts.keys, State.chance c outcome ≠ 0

/-- A draw for the chances of the outcomes gives counts that are well formed. -/
theorem MultinomialDraw.counts {c : Circuit ℝ} (valid : c.IsValid) {shots : ℕ} {draws : List ℕ}
    (h : MultinomialDraw (chances c) 1 shots draws) : AreCounts c shots (observed c.measured.length draws) := by
  have hwidth : 0 < c.measured.length := List.length_pos_iff.mpr valid.nonempty
  have hlength : draws.length = 2 ^ c.measured.length := h.length.trans (length_chances c)
  have hascending := ascending_observed hwidth hlength.le
  -- what is known of an outcome that was observed
  have hkey {outcome : String} (houtcome : outcome ∈ (observed c.measured.length draws).keys) :
      ∃ x n, x < 2 ^ c.measured.length ∧ draws[x]? = some n ∧ 0 < n ∧
        outcome = State.bitstring c.measured.length x := by
    obtain ⟨entry, hentry, rfl⟩ := List.mem_map.mp houtcome
    obtain ⟨x, n, hx, hn, rfl⟩ := mem_observed.mp hentry
    exact ⟨x, n, hlength ▸ (List.getElem?_eq_some_iff.mp hx).1, hx, hn, rfl⟩
  refine ⟨hascending, hascending.imp fun hlt => hlt.ne, ?_, ?_, ?_, ?_, ?_⟩
  · intro outcome houtcome
    obtain ⟨x, n, hx, -, -, rfl⟩ := hkey houtcome
    rw [← String.length_toList, State.toList_bitstring hwidth hx, State.bits_eq, List.length_map, List.length_reverse,
      List.length_range]
  · intro outcome houtcome digit hdigit
    obtain ⟨x, n, hx, -, -, rfl⟩ := hkey houtcome
    rw [State.toList_bitstring hwidth hx, State.bits_eq] at hdigit
    obtain ⟨q, -, rfl⟩ := List.mem_map.mp hdigit
    unfold State.bitChar
    cases x.testBit q <;> simp
  · intro entry hentry
    obtain ⟨x, n, -, hn, rfl⟩ := mem_observed.mp hentry
    exact hn
  · rw [sum_observed, h.sum]
    exact List.ne_nil_of_length_pos (by simp [length_chances])
  · intro outcome houtcome hzero
    obtain ⟨x, n, hx, hdraw, hn, rfl⟩ := hkey houtcome
    have hnone := h.eq_zero chances_nonneg (sum_chances valid).symm (fun _ => one_pos)
      (by rw [getElem?_chances c hx, hzero])
    rw [hdraw] at hnone
    exact hn.ne' (Option.some.inj hnone)

/-- Measuring a valid circuit does not fail, and its counts are well formed. -/
theorem measure_ok {c : Circuit ℝ} (valid : c.IsValid) (bounded : c.qubits ≤ maxQubits) {shots : ℤ}
    (positive : 1 ≤ shots) (limit : shots < 2 ^ 63) (g : Stream) :
    ∃ counts, measure c shots g = .ok counts ∧ AreCounts c shots.toNat counts := by
  have hcheck := checkChances_of_sum positive limit chances_nonneg (sum_chances valid)
  have hdraw := multinomialDraw_multinomial (chances c) 1 shots.toNat g
  refine ⟨observed c.measured.length (multinomial (chances c) Scalar.one shots.toNat g).1, ?_, ?_⟩
  · unfold measure sample
    rw [outcomes_eq valid bounded]
    simp [hcheck, bind, Except.bind, pure, Except.pure]
  · rw [Scalar.one_real]
    exact hdraw.counts valid

/-- **Measurement statistics are well formed.**  The outcomes of a valid circuit of bounded size are drawn with their
exact chances; whatever a multinomial sampler makes of these, the counts are listed by distinct bitstrings of the width
of the measurement in ascending order, are positive, add up to the number of shots and leave out every outcome whose
chance is zero.  Measuring such a circuit does not fail, and its counts are of this kind whatever the state of the
generator. -/
theorem measure_counts (c : Circuit ℝ) (valid : c.IsValid) (bounded : c.qubits ≤ maxQubits) (shots : ℤ)
    (positive : 1 ≤ shots) (limit : shots < 2 ^ 63) :
    ∃ probs, outcomes c = .ok probs ∧
      (∀ x < 2 ^ c.measured.length, probs[x]? = some (State.chance c (State.bitstring c.measured.length x))) ∧
      (∀ draws, MultinomialDraw probs 1 shots.toNat draws →
        AreCounts c shots.toNat (observed c.measured.length draws)) ∧
      ∀ g, ∃ counts, measure c shots g = .ok counts ∧ AreCounts c shots.toNat counts :=
  ⟨chances c, outcomes_eq valid bounded, fun _ hx => getElem?_chances c hx, fun _ h => h.counts valid,
    measure_ok valid bounded positive limit⟩

/-- The Bell pair, measured once more often than a machine word without its sign can count. -/
theorem measure_counts_bell :
    (Circuit.bell : Circuit ℝ).IsValid ∧ (Circuit.bell : Circuit ℝ).qubits ≤ maxQubits ∧
      ∃ probs, outcomes (Circuit.bell : Circuit ℝ) = .ok probs ∧
        (∀ x < 2 ^ 2, probs[x]? = some (State.chance Circuit.bell (State.bitstring 2 x))) ∧
        (∀ draws, MultinomialDraw probs 1 4294967297 draws →
          AreCounts Circuit.bell 4294967297 (observed 2 draws)) ∧
        ∀ g, ∃ counts, measure (Circuit.bell : Circuit ℝ) 4294967297 g = .ok counts ∧
          AreCounts Circuit.bell 4294967297 counts := by
  have valid : (Circuit.bell : Circuit ℝ).IsValid := Circuit.isValid_of_mem_wellKnown (by simp [Circuit.wellKnown])
  have bounded : (Circuit.bell : Circuit ℝ).qubits ≤ maxQubits := by
    show 2 ≤ maxQubits
    decide
  exact ⟨valid, bounded, measure_counts Circuit.bell valid bounded 4294967297 (by norm_num) (by norm_num)⟩

end LabLang.Random
