import LabLang.Proofs.Literals
import LabLang.Proofs.ScaledNumbers
import LabLang.Proofs.WrittenNumbers
import Mathlib.Tactic.FieldSimp
import Mathlib.Tactic.Ring

/-! # Written numbers are read back

A decimal is written with its digits up to the zeros at their end (`value_eq`), which the layout places around the point
or in front of an exponent.  Each of the shapes is read as a number that is the decimal (`writes_write`), and so is the
number with its sign (`readNumeral_signed`). -/

namespace LabLang.Number

open Text

/-! ### Digits -/

theorem digitsValue_append (s t : List Char) :
    digitsValue (s ++ t) = digitsValue s * 10 ^ t.length + digitsValue t := by
  have hfold (start : Nat) : t.foldl (fun n c => 10 * n + (digitValue? c).getD 0) start =
      start * 10 ^ t.length + t.foldl (fun n c => 10 * n + (digitValue? c).getD 0) 0 := by
    induction t generalizing start with
    | nil => simp
    | cons c t ih =>
        rw [List.foldl_cons, ih, List.foldl_cons, ih (10 * 0 + _), List.length_cons, pow_succ]
        ring
  unfold digitsValue
  rw [List.foldl_append, hfold]

theorem digitsValue_zeros (n : Nat) : digitsValue (List.replicate n '0') = 0 := by
  induction n with
  | zero => rfl
  | succ n ih =>
      have hzero : digitsValue ['0'] = 0 := by decide +kernel
      rw [List.replicate_succ', digitsValue_append, ih, hzero, Nat.zero_mul]

/-- The zeros at the end are dropped, and nothing else. -/
theorem exists_dropEndZeros (ds : List Char) : ∃ n, ds = dropEndZeros ds ++ List.replicate n '0' := by
  obtain ⟨n, hn⟩ : ∃ n, ds.reverse.takeWhile (· == '0') = List.replicate n '0' := by
    refine ⟨_, List.eq_replicate_iff.mpr ⟨rfl, fun c hc => ?_⟩⟩
    simpa using List.mem_takeWhile_imp hc
  refine ⟨n, ?_⟩
  unfold dropEndZeros
  rw [← List.reverse_replicate, ← List.reverse_append, ← hn, List.takeWhile_append_dropWhile, List.reverse_reverse]

/-- The number that a decimal stands for, from the digits that are kept and the place of the first one. -/
theorem value_eq (d : Decimal) : d.value = digitsValue (dropEndZeros (natDigits d.digits)) *
    10 ^ (d.exponent + (natDigits d.digits).length - (dropEndZeros (natDigits d.digits)).length : ℤ) := by
  obtain ⟨n, hn⟩ := exists_dropEndZeros (natDigits d.digits)
  have hvalue : d.digits = digitsValue (dropEndZeros (natDigits d.digits)) * 10 ^ n := by
    conv_lhs => rw [← digitsValue_natDigits d.digits, hn, digitsValue_append, digitsValue_zeros, List.length_replicate]
    rfl
  have hlength : (natDigits d.digits).length = (dropEndZeros (natDigits d.digits)).length + n := by
    conv_lhs => rw [hn, List.length_append, List.length_replicate]
  have hexponent : d.exponent + (natDigits d.digits).length - (dropEndZeros (natDigits d.digits)).length =
      (n : ℤ) + d.exponent := by
    rw [hlength]
    push_cast
    ring
  have hten : (10 : ℚ) ≠ 0 := by norm_num
  unfold Decimal.value
  conv_lhs => rw [hvalue]
  rw [hexponent, zpow_add₀ hten, zpow_natCast]
  push_cast
  ring

/-! ### Reading -/

/-- All characters are decimal digits. -/
def IsDecimal (s : List Char) : Prop := ∀ c ∈ s, c.isDigit = true

theorem isDecimal_natDigits (n : Nat) : IsDecimal (natDigits n) := fun _ hc => isDigit_of_mem_natDigits hc

theorem isDecimal_zeros (n : Nat) : IsDecimal (List.replicate n '0') := by
  intro c hc
  rw [List.eq_of_mem_replicate hc]
  decide

theorem isDecimal_dropEndZeros {ds : List Char} (h : IsDecimal ds) : IsDecimal (dropEndZeros ds) :=
  fun c hc => h c (dropEndZeros_subset ds hc)

theorem IsDecimal.append {s t : List Char} (hs : IsDecimal s) (ht : IsDecimal t) : IsDecimal (s ++ t) :=
  List.forall_mem_append.mpr ⟨hs, ht⟩

theorem isDigit_of_isDecimal {s : List Char} (h : IsDecimal s) : ∀ c ∈ s, Text.isDigit c = true := by
  intro c hc
  unfold Text.isDigit
  rw [digitValue?_of_isDigit (h c hc)]
  rfl

theorem stopsDigits_nil : StopsDigits [] := fun _ _ h => by cases h

theorem stopsDigits_exponentText (e : ℤ) : StopsDigits (exponentText e) := by
  rintro c r h
  obtain rfl := (List.cons.inj h).1
  decide

/-- The exponent is read back. -/
theorem takeExponent_exponentText (e : ℤ) : takeExponent (exponentText e) = (e, []) := by
  obtain ⟨ds, hds⟩ : ∃ ds, ds = padZeros 2 (natDigits e.natAbs) := ⟨_, rfl⟩
  have hdecimal : IsDecimal ds := hds ▸ (isDecimal_zeros _).append (isDecimal_natDigits _)
  have hne : ds ≠ [] := hds ▸ List.append_ne_nil_of_right_ne_nil _ (natDigits_ne_nil _)
  have hvalue : digitsValue ds = e.natAbs := by
    rw [hds, padZeros, digitsValue_append, digitsValue_zeros, digitsValue_natDigits, Nat.zero_mul, Nat.zero_add]
  have htake : takeDigits ds = (ds, []) := by
    have h := takeDigits_append (isDigit_of_isDecimal hdecimal) stopsDigits_nil
    rwa [List.append_nil] at h
  have hsign : takeSign ((if e < 0 then '-' else '+') :: ds) = (decide (e < 0), ds) := by
    split <;> simp_all [takeSign]
  unfold exponentText takeExponent
  rw [← hds]
  dsimp only
  rw [hsign, if_pos (by decide)]
  dsimp only
  rw [htake]
  cases ds with
  | nil => exact absurd rfl hne
  | cons c r =>
      dsimp only
      rw [hvalue]
      simp only [decide_eq_true_eq]
      split <;> congr 1 <;> omega

/-! ### Layouts -/

/-- The number that the parts write. -/
def Parts.number (p : Parts) : ℚ := p.value.1 * 10 ^ p.value.2

theorem dropEndZeros_ne_nil {n : Nat} (h : n ≠ 0) : dropEndZeros (natDigits n) ≠ [] := by
  intro hnil
  obtain ⟨k, hk⟩ := exists_dropEndZeros (natDigits n)
  rw [hnil, List.nil_append] at hk
  exact h (by rw [← digitsValue_natDigits n, hk, digitsValue_zeros])

/-- The text is an unsigned decimal that stands for the number. -/
def Writes (text : List Char) (v : ℚ) : Prop := ∃ parts, takeUnsigned text = some (parts, []) ∧ parts.number = v

section

variable {kept : List Char} (hne : kept ≠ []) (hkept : IsDecimal kept) {e : ℤ}

/-- Digits on both sides of the point, and an exponent behind them. -/
theorem number_split {whole fraction : List Char} (h : whole ++ fraction = kept) (e : ℤ) :
    (Parts.mk whole fraction e).number = digitsValue kept * 10 ^ (e - fraction.length) := by
  unfold Parts.number Parts.value
  dsimp only
  rw [h]

include hkept in
/-- Zeros between the point and the digits. -/
theorem writes_below_one (he : e < 0) : Writes ('0' :: '.' :: (List.replicate (-e - 1).toNat '0' ++ kept))
    (digitsValue kept * 10 ^ (e + 1 - kept.length)) := by
  have hread : takeUnsigned (['0'] ++ '.' :: (List.replicate (-e - 1).toNat '0' ++ kept ++ [])) = _ :=
    takeUnsigned_point (isDigit_of_isDecimal (isDecimal_zeros 1))
      (isDigit_of_isDecimal ((isDecimal_zeros _).append hkept)) stopsDigits_nil (List.cons_ne_nil _ _)
  rw [List.append_nil] at hread
  refine ⟨_, hread, ?_⟩
  have hdigits : digitsValue (['0'] ++ (List.replicate (-e - 1).toNat '0' ++ kept)) = digitsValue kept := by
    rw [digitsValue_append, digitsValue_append, digitsValue_zeros, show digitsValue ['0'] = 0 by decide +kernel,
      Nat.zero_mul, Nat.zero_mul, Nat.zero_add, Nat.zero_add]
  have hexponent : (0 : ℤ) - (List.replicate (-e - 1).toNat '0' ++ kept).length = e + 1 - kept.length := by
    rw [List.length_append, List.length_replicate]
    omega
  show (digitsValue (['0'] ++ (List.replicate (-e - 1).toNat '0' ++ kept)) : ℚ) * 10 ^ _ = _
  rw [hdigits]
  exact congrArg (fun e : ℤ => (digitsValue kept : ℚ) * 10 ^ e) hexponent

include hne hkept in
/-- Zeros between the digits and the point, and possibly one behind it. -/
theorem writes_integer (n : Nat) (pointZero : Bool) :
    Writes (kept ++ List.replicate n '0' ++ if pointZero then ['.', '0'] else [])
      (digitsValue kept * 10 ^ n) := by
  have hwhole : IsDecimal (kept ++ List.replicate n '0') := hkept.append (isDecimal_zeros n)
  have hwholeNe : kept ++ List.replicate n '0' ≠ [] := List.append_ne_nil_of_left_ne_nil hne _
  have hdigits : digitsValue (kept ++ List.replicate n '0') = digitsValue kept * 10 ^ n := by
    rw [digitsValue_append, digitsValue_zeros, List.length_replicate, Nat.add_zero]
  cases pointZero with
  | false =>
      rw [if_neg Bool.false_ne_true]
      refine ⟨_, takeUnsigned_plain (isDigit_of_isDecimal hwhole) stopsDigits_nil hwholeNe (by simp), ?_⟩
      rw [number_split (List.append_nil _), hdigits]
      simp [takeExponent]
  | true =>
      rw [if_pos rfl]
      have hread : takeUnsigned (kept ++ List.replicate n '0' ++ '.' :: (['0'] ++ [])) = _ :=
        takeUnsigned_point (isDigit_of_isDecimal hwhole) (isDigit_of_isDecimal (isDecimal_zeros 1)) stopsDigits_nil hwholeNe
      refine ⟨_, hread, ?_⟩
      rw [number_split rfl, digitsValue_append, hdigits, show digitsValue ['0'] = 0 by decide +kernel]
      simp [takeExponent]

include hkept in
/-- Digits on both sides of the point. -/
theorem writes_split {n : Nat} (h : n < kept.length) : Writes (kept.take (n + 1) ++ '.' :: kept.drop (n + 1))
    (digitsValue kept * 10 ^ ((n : ℤ) + 1 - kept.length)) := by
  have hwhole : IsDecimal (kept.take (n + 1)) := fun c hc => hkept c (List.mem_of_mem_take hc)
  have hfraction : IsDecimal (kept.drop (n + 1)) := fun c hc => hkept c (List.mem_of_mem_drop hc)
  have hwholeNe : kept.take (n + 1) ≠ [] := List.ne_nil_of_length_pos (by rw [List.length_take]; omega)
  have hread : takeUnsigned (kept.take (n + 1) ++ '.' :: (kept.drop (n + 1) ++ [])) = _ :=
    takeUnsigned_point (isDigit_of_isDecimal hwhole) (isDigit_of_isDecimal hfraction) stopsDigits_nil hwholeNe
  rw [List.append_nil] at hread
  refine ⟨_, hread, ?_⟩
  have hexponent : (takeExponent []).1 - ((kept.drop (n + 1)).length : ℤ) = (n : ℤ) + 1 - kept.length := by
    rw [List.length_drop]
    show (0 : ℤ) - _ = _
    omega
  rw [number_split (List.take_append_drop _ _), hexponent]

end

/-- A single digit and the exponent. -/
theorem writes_digit_exponent {digit : Char} (h : IsDecimal [digit]) (e : ℤ) :
    Writes ([digit] ++ exponentText e) (digitsValue [digit] * 10 ^ e) := by
  have hpoint : ∀ r, exponentText e ≠ '.' :: r := fun r heq => absurd (List.cons.inj heq).1 (by decide)
  have hread := takeUnsigned_plain (isDigit_of_isDecimal h) (stopsDigits_exponentText e) (List.cons_ne_nil _ _) hpoint
  rw [takeExponent_exponentText] at hread
  refine ⟨_, hread, ?_⟩
  rw [number_split (List.append_nil _), List.length_nil, Nat.cast_zero, sub_zero]

/-- Digits around the point, one of them in front of it, and the exponent. -/
theorem writes_point_exponent {first : Char} {rest : List Char} (h : IsDecimal (first :: rest)) (e : ℤ) :
    Writes (first :: '.' :: (rest ++ exponentText e)) (digitsValue (first :: rest) * 10 ^ (e - rest.length)) := by
  obtain ⟨hfirst, hrest⟩ := List.forall_mem_cons.mp h
  have hread : takeUnsigned ([first] ++ '.' :: (rest ++ exponentText e)) = _ :=
    takeUnsigned_point (isDigit_of_isDecimal (List.forall_mem_singleton.mpr hfirst)) (isDigit_of_isDecimal hrest)
      (stopsDigits_exponentText e) (List.cons_ne_nil _ _)
  rw [takeExponent_exponentText] at hread
  exact ⟨_, hread, number_split rfl e⟩

/-- The point stands behind the digits and zeros, or among the digits. -/
theorem writes_positional {kept : List Char} (hne : kept ≠ []) (hkept : IsDecimal kept) (n : Nat) (pointZero : Bool) :
    Writes (match kept.drop (n + 1) with
      | [] =>
        if pointZero then
          kept.take (n + 1) ++ List.replicate (n + 1 - (kept.take (n + 1)).length) '0' ++ ['.', '0']
        else kept.take (n + 1) ++ List.replicate (n + 1 - (kept.take (n + 1)).length) '0'
      | fraction =>
        kept.take (n + 1) ++ List.replicate (n + 1 - (kept.take (n + 1)).length) '0' ++ '.' :: fraction)
      (digitsValue kept * 10 ^ ((n : ℤ) + 1 - kept.length)) := by
  split
  · rename_i hdrop
    have hlength := List.drop_eq_nil_iff.mp hdrop
    have hexponent : (n : ℤ) + 1 - kept.length = (n + 1 - kept.length : ℕ) := by omega
    have h := writes_integer hne hkept (n + 1 - kept.length) pointZero
    rw [List.take_of_length_le hlength, hexponent, zpow_natCast]
    cases pointZero with
    | false => simpa using h
    | true => exact h
  · rename_i hdrop
    have hlength : n + 1 < kept.length := by
      rw [← not_le, ← List.drop_eq_nil_iff]
      exact hdrop
    rw [List.length_take, Nat.min_eq_left hlength.le, Nat.sub_self, List.replicate_zero, List.append_nil]
    exact writes_split hkept (by omega)

/-- One digit stands in front of the point, if there are more of them. -/
theorem writes_scientific {kept : List Char} (e : ℤ) : kept ≠ [] → IsDecimal kept →
    Writes (match kept with
      | first :: second :: more => first :: '.' :: second :: more ++ exponentText e
      | short => short ++ exponentText e) (digitsValue kept * 10 ^ (e + 1 - kept.length)) := by
  intro hne hkept
  cases kept with
  | nil => exact absurd rfl hne
  | cons first rest =>
      cases rest with
      | nil =>
          rw [List.length_singleton, Nat.cast_one, add_sub_cancel_right]
          exact writes_digit_exponent hkept e
      | cons second more =>
          have hexponent : e + 1 - (first :: second :: more).length = e - (second :: more).length := by
            push_cast [List.length_cons]
            ring
          rw [hexponent]
          exact writes_point_exponent hkept e

/-- **Whichever layout a decimal takes, what is written is read as the decimal.** -/
theorem writes_write (l : Layout) (d : Decimal) : Writes (l.write d) d.value := by
  obtain ⟨kept, hkept⟩ : ∃ kept, kept = dropEndZeros (natDigits d.digits) := ⟨_, rfl⟩
  obtain ⟨e, he⟩ : ∃ e, e = d.exponent + (natDigits d.digits).length - 1 := ⟨_, rfl⟩
  have hvalue : d.value = digitsValue kept * 10 ^ (e + 1 - kept.length) := by
    rw [value_eq, ← hkept, he, sub_add_cancel]
  have hdecimal : IsDecimal kept := hkept ▸ isDecimal_dropEndZeros (isDecimal_natDigits _)
  unfold Layout.write
  dsimp only
  rw [← hkept, ← he]
  by_cases hzero : d.digits = 0
  · have hnumber : d.value = (digitsValue ['0'] : ℚ) * 10 ^ 0 := by
      rw [Decimal.value, hzero, show digitsValue ['0'] = 0 by decide +kernel, Nat.cast_zero, zero_mul, zero_mul]
    have h := writes_integer (List.cons_ne_nil _ _) (isDecimal_zeros 1) 0 l.pointZero
    rw [if_pos hzero, hnumber]
    cases hpoint : l.pointZero with
    | false => simpa [hpoint] using h
    | true => simpa [hpoint] using h
  · have hne : kept ≠ [] := hkept ▸ dropEndZeros_ne_nil hzero
    rw [if_neg hzero, hvalue]
    split
    · split
      · exact writes_below_one hdecimal ‹_›
      · obtain ⟨n, rfl⟩ := Int.eq_ofNat_of_zero_le (not_lt.mp ‹_›)
        exact writes_positional hne hdecimal n l.pointZero
    · exact writes_scientific e hne hdecimal

/-! ### The text of a finite number -/

theorem dropUnderscores_of_notMem {s : List Char} (h : '_' ∉ s) : dropUnderscores s = some s := by
  induction s using dropUnderscores.induct with
  | case1 r => simp at h
  | case2 a ha b r hdigit ih => simp at h
  | case3 a ha b r hdigit => simp at h
  | case4 a ha => simp at h
  | case5 a r ha hr ih =>
      rw [dropUnderscores, ih (fun hc => h (List.mem_cons_of_mem a hc)), Option.map_some]
      · exact ha
      · exact hr
  | case6 => rfl

section signed

variable {text : List Char} {parts : Parts} (marks : text.all isNumberMark = true)
  (hread : takeUnsigned text = some (parts, [])) (negative : Bool)
include hread

/-- An unsigned number starts with a digit or a point, so that the sign in front of it is the only one. -/
theorem takeSign_signed : takeSign (signed negative text).toList = (negative, text) := by
  obtain ⟨w, htext, hw, -⟩ := Literal.exists_of_takeUnsigned hread
  rw [List.append_nil] at htext
  obtain ⟨c, hfirst, hc⟩ := hw.first
  obtain ⟨r, rfl⟩ : ∃ r, text = c :: r := List.head?_eq_some_iff.mp (htext ▸ hfirst)
  rw [signed, String.toList_ofList]
  cases negative with
  | true => rfl
  | false =>
      refine takeSign_cons ?_ ?_ r
      · rintro rfl
        exact absurd hc (by decide)
      · rintro rfl
        exact absurd hc (by decide)

include marks

/-- There are no blanks around a number that is written without any. -/
theorem ends_signed : ∃ hne : (signed negative text).toList ≠ [],
    isBlank ((signed negative text).toList.head hne) = false ∧
      isBlank ((signed negative text).toList.getLast hne) = false := by
  have hmarks := List.all_eq_true.mp (all_signed marks negative)
  have hne : (signed negative text).toList ≠ [] := by
    intro hnil
    have hsign := takeSign_signed hread negative
    rw [hnil] at hsign
    obtain rfl : [] = text := congrArg Prod.snd hsign
    cases hread
  exact ⟨hne, (clean_of_isNumberMark (hmarks _ (List.head_mem hne))).1,
    (clean_of_isNumberMark (hmarks _ (List.getLast_mem hne))).1⟩

/-- A text that is read as a number without a sign is read with the sign in front. -/
theorem readNumeral_signed :
    readNumeral (signed negative text).toList = some (.decimal negative parts.value.1 parts.value.2) := by
  have hunderscores : dropUnderscores (signed negative text).toList = some (signed negative text).toList :=
    dropUnderscores_of_notMem fun h => absurd (List.all_eq_true.mp (all_signed marks negative) _ h) (by decide)
  -- the names of the infinities and of NaN start with other letters
  have hletters : ∀ c ∈ text, c.toLower ≠ 'i' ∧ c.toLower ≠ 'n' := fun c hc =>
    of_isNumberMark (p := fun c => c.toLower ≠ 'i' ∧ c.toLower ≠ 'n') (by decide +kernel)
      (List.all_eq_true.mp marks c hc)
  have hword {first : Char} {word : String} {rest : List Char} (hfirst : first = 'i' ∨ first = 'n')
      (h : word.toList = first :: rest) : isWordIgnoringCase word text = false := by
    refine beq_eq_false_iff_ne.mpr fun heq => ?_
    rw [h] at heq
    cases text with
    | nil => cases heq
    | cons c r =>
        have hc := hletters c List.mem_cons_self
        rw [(List.cons.inj heq).1] at hc
        exact hfirst.elim hc.1 hc.2
  obtain ⟨hne, hfirst, hlast⟩ := ends_signed marks hread negative
  unfold readNumeral
  rw [trimWhiteSpace_of_ends hne hfirst hlast, hunderscores]
  dsimp only
  rw [takeSign_signed hread]
  dsimp only
  rw [hword (.inl rfl) (by rfl : "inf".toList = _), hword (.inl rfl) (by rfl : "infinity".toList = _),
    hword (.inr rfl) (by rfl : "nan".toList = _), hread]
  rfl

/-- It is also read as a literal. -/
theorem number?_signed {R : Type} [Scalar R] : Literal.number? (R := R) (signed negative text).toList =
    some (if negative then -(Scalar.decimal parts.value.1 parts.value.2)
      else Scalar.decimal parts.value.1 parts.value.2) := by
  obtain ⟨hne, hfirst, hlast⟩ := ends_signed marks hread negative
  unfold Literal.number? Literal.takeToken
  rw [trim_of_ends hne hfirst hlast, if_pos rfl, takeSign_signed hread]
  dsimp only
  rw [hread]
  rfl

end signed

end LabLang.Number
