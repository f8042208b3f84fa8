import LabLang.Literal
import LabLang.Proofs.WrittenIntegers
import Mathlib.Data.List.TakeDrop

/-! # Number tokens

A number token is read as far as it goes.  Of its characters it matters that none is blank or a quotation mark
(`clean_of_isTokenMark`), that the first one starts no name and that the last one is no operator (`IsToken`).  It is read
again in front of anything that cannot continue it (`isToken_of_takeToken`). -/

namespace LabLang

open Text Number

namespace Text

/-! ### Digits -/

/-- The decimal digits as a table. -/
def digitRanges : Ranges := digitZeros.map fun z => (z, z + 9)

theorem holds_of_isDigit {c : Char} (h : isDigit c = true) : digitRanges.holds c.toNat = true := by
  unfold isDigit digitValue? at h
  split at h
  · have hascii : 48 ≤ c.toNat ∧ c.toNat ≤ 57 := by
      by_contra hnot
      rw [if_neg (by simpa using hnot)] at h
      cases h
    exact List.any_eq_true.mpr ⟨(0x30, 0x39), by decide, by simpa using hascii⟩
  · rw [Option.isSome_map, List.find?_isSome] at h
    obtain ⟨z, hz, hrange⟩ := h
    rw [Bool.and_eq_true, decide_eq_true_eq, decide_eq_true_eq] at hrange
    exact List.any_eq_true.mpr ⟨(z, z + 9), List.mem_map_of_mem hz, by simp; omega⟩

/-- A digit is none of the characters of a table that has no digits. -/
theorem holds_eq_false_of_isDigit {rs : Ranges} (hrs : digitRanges.disjoint rs = true) {c : Char}
    (h : isDigit c = true) : rs.holds c.toNat = false := Ranges.holds_eq_false hrs (holds_of_isDigit h)

end Text

namespace Number

/-! ### Digits at the start of a text -/

theorem takeDigits_eq {s ds rest : List Char} (h : takeDigits s = (ds, rest)) :
    s = ds ++ rest ∧ ∀ c ∈ ds, Text.isDigit c = true := by
  cases h
  exact ⟨List.takeWhile_append_dropWhile.symm, fun c hc => List.mem_takeWhile_imp hc⟩

/-- The text is empty or starts with something else than a digit. -/
def StopsDigits (s : List Char) : Prop := ∀ c r, s = c :: r → Text.isDigit c = false

theorem takeDigits_append {s t : List Char} (hs : ∀ c ∈ s, Text.isDigit c = true) (ht : StopsDigits t) :
    takeDigits (s ++ t) = (s, t) := by
  unfold takeDigits
  rw [List.takeWhile_append_of_pos hs, List.dropWhile_append_of_pos hs]
  cases t with
  | nil => simp
  | cons c r =>
      have hc := ht c r rfl
      rw [List.takeWhile_cons_of_neg (by simp [hc]), List.dropWhile_cons_of_neg (by simp [hc]), List.append_nil]

theorem stopsDigits_point (s : List Char) : StopsDigits ('.' :: s) := by
  rintro c r h
  obtain rfl := (List.cons.inj h).1
  decide

section unsigned

variable {whole fraction tail : List Char} (hwhole : ∀ c ∈ whole, Text.isDigit c = true)
  (hfraction : ∀ c ∈ fraction, Text.isDigit c = true) (htail : StopsDigits tail)

include hwhole hfraction htail in
/-- Digits around a point. -/
theorem takeUnsigned_point (hne : whole ≠ []) : takeUnsigned (whole ++ '.' :: (fraction ++ tail)) =
    some (⟨whole, fraction, (takeExponent tail).1⟩, (takeExponent tail).2) := by
  unfold takeUnsigned
  rw [takeDigits_append hwhole (stopsDigits_point _)]
  cases whole with
  | nil => exact absurd rfl hne
  | cons c w =>
      show some (Parts.mk (c :: w) (takeDigits (fraction ++ tail)).1 (takeExponent (takeDigits (fraction ++ tail)).2).1,
        (takeExponent (takeDigits (fraction ++ tail)).2).2) = _
      rw [takeDigits_append hfraction htail]

include hfraction htail in
/-- Digits behind a point. -/
theorem takeUnsigned_fraction (hne : fraction ≠ []) : takeUnsigned ('.' :: (fraction ++ tail)) =
    some (⟨[], fraction, (takeExponent tail).1⟩, (takeExponent tail).2) := by
  have hnone : takeDigits ('.' :: (fraction ++ tail)) = ([], '.' :: (fraction ++ tail)) :=
    takeDigits_append (s := []) (by simp) (stopsDigits_point _)
  unfold takeUnsigned
  split
  case h_1 r h =>
    rw [hnone] at h
    obtain rfl : fraction ++ tail = r := (List.cons.inj (congrArg Prod.snd h)).2
    rw [takeDigits_append hfraction htail]
    cases fraction with
    | nil => exact absurd rfl hne
    | cons c r => rfl
  case h_2 hpoint h => exact absurd (hnone.symm.trans h) (by simp_all)
  case h_3 whole r hne' h => exact absurd (congrArg Prod.fst (hnone.symm.trans h)).symm (by simpa using hne')
  case h_4 whole r _ hne' _ h => exact absurd (congrArg Prod.fst (hnone.symm.trans h)).symm (by simpa using hne')

include hwhole htail in
/-- Digits without a point. -/
theorem takeUnsigned_plain (hne : whole ≠ []) (hpoint : ∀ r, tail ≠ '.' :: r) :
    takeUnsigned (whole ++ tail) = some (⟨whole, [], (takeExponent tail).1⟩, (takeExponent tail).2) := by
  unfold takeUnsigned
  rw [takeDigits_append hwhole htail]
  cases whole with
  | nil => exact absurd rfl hne
  | cons c w =>
      split
      · rename_i h
        exact absurd (congrArg Prod.snd h) (hpoint _)
      · rename_i h
        cases h
      · rename_i h
        exact absurd (congrArg Prod.snd h) (hpoint _)
      · rename_i h
        cases h
        rfl

end unsigned

end Number

namespace Literal

/-! ### Number tokens -/

/-- The characters of number tokens. -/
def isTokenMark (c : Char) : Bool := isDigit c || ['.', '-', '+', 'e', 'E'].contains c

/-- What holds of the digits and of the other characters of number tokens. -/
theorem of_isTokenMark {p : Char → Prop} (hdigit : ∀ c, isDigit c = true → p c)
    (hmark : ∀ c ∈ ['.', '-', '+', 'e', 'E'], p c) {c : Char} (h : isTokenMark c = true) : p c := by
  rcases Bool.or_eq_true_iff.mp h with hc | hc
  · exact hdigit c hc
  · exact hmark c (List.contains_iff_mem.mp hc)

/-- No character of a number token is blank or a quotation mark. -/
theorem clean_of_isTokenMark {c : Char} (h : isTokenMark c = true) : isBlank c = false ∧ c ≠ '"' := by
  refine of_isTokenMark (p := fun c => isBlank c = false ∧ c ≠ '"') (fun c hc => ⟨?_, ?_⟩)
    (forall_mem_of_all (by decide)) h
  · have apart : digitRanges.disjoint blankRanges = true := by decide
    exact holds_eq_false_of_isDigit apart hc
  · rintro rfl
    exact absurd hc (by decide)

/-- A digit or a point, which no name starts with and which is no operator. -/
def isTokenEnd (c : Char) : Bool := isDigit c || c == '.'

theorem isNameStart_of_isTokenEnd {c : Char} (h : isTokenEnd c = true) : isNameStart c = false := by
  rcases Bool.or_eq_true_iff.mp h with hdigit | hpoint
  · rw [Bool.eq_false_iff]
    intro hstart
    have hascii : ∀ n < 128, isNameStart (Char.ofNat n) = true → digitRanges.holds n = false := by decide +kernel
    have hno := hascii _ (toNat_lt_of_isNameStart hstart) (by rwa [Char.ofNat_toNat])
    rw [holds_of_isDigit hdigit] at hno
    cases hno
  · rw [eq_of_beq hpoint]
    rfl

/-- Part of a number token: if it is not empty, the last character is a digit or a point. -/
structure IsTokenPart (s : List Char) : Prop where
  marks : ∀ c ∈ s, isTokenMark c = true
  last : ∀ c ∈ s.getLast?, isTokenEnd c = true

theorem IsTokenPart.append {s t : List Char} (hs : IsTokenPart s) (ht : IsTokenPart t) : IsTokenPart (s ++ t) := by
  refine ⟨fun c hc => (List.mem_append.mp hc).elim (hs.marks c) (ht.marks c), fun c hc => ?_⟩
  rw [List.getLast?_append, Option.mem_def, Option.or_eq_some_iff] at hc
  exact hc.elim (ht.last c) fun h => hs.last c h.2

theorem IsTokenPart.cons {c : Char} {s : List Char} (hc : isTokenMark c = true) (hs : IsTokenPart s) (hne : s ≠ []) :
    IsTokenPart (c :: s) := by
  refine ⟨List.forall_mem_cons.mpr ⟨hc, hs.marks⟩, ?_⟩
  rw [List.getLast?_cons_of_ne_nil hne]
  exact hs.last

theorem isTokenPart_of_isDigit {s : List Char} (h : ∀ c ∈ s, isDigit c = true) : IsTokenPart s :=
  ⟨fun c hc => by simp [isTokenMark, h c hc], fun c hc => by simp [isTokenEnd, h c (List.mem_of_getLast? hc)]⟩

theorem isTokenPart_point : IsTokenPart ['.'] :=
  ⟨List.forall_mem_singleton.mpr rfl, fun _ hc => Option.some.inj hc ▸ rfl⟩

/-- A number token. -/
structure IsToken (s : List Char) : Prop extends IsTokenPart s where
  nonempty : s ≠ []
  first : ∀ c ∈ s.head?, isNameStart c = false

theorem IsToken.clean {s : List Char} (h : IsToken s) : ∀ c ∈ s, isBlank c = false ∧ c ≠ '"' :=
  fun c hc => clean_of_isTokenMark (h.marks c hc)

/-! ### Signs and exponents -/

/-- The sign of a number token, or nothing. -/
structure IsSign (w : List Char) (negative : Bool) : Prop where
  written : w = [] ∨ ∃ c ∈ ['-', '+'], w = [c]
  read : ∀ t, (∀ c ∈ t.head?, c ≠ '-' ∧ c ≠ '+') → takeSign (w ++ t) = (negative, t)

theorem exists_of_takeSign {s rest : List Char} {negative : Bool} (h : takeSign s = (negative, rest)) :
    ∃ w, s = w ++ rest ∧ IsSign w negative := by
  unfold takeSign at h
  split at h
  case h_1 r =>
    cases h
    exact ⟨['-'], rfl, .inr ⟨'-', by simp, rfl⟩, fun _ _ => rfl⟩
  case h_2 r =>
    cases h
    exact ⟨['+'], rfl, .inr ⟨'+', by simp, rfl⟩, fun _ _ => rfl⟩
  case h_3 =>
    cases h
    refine ⟨[], rfl, .inl rfl, fun t ht => ?_⟩
    cases t with
    | nil => rfl
    | cons c r => exact takeSign_cons (ht c rfl).1 (ht c rfl).2 r

/-- A sign in front of a part of a number token. -/
theorem IsTokenPart.sign {w s : List Char} (hw : w = [] ∨ ∃ c ∈ ['-', '+'], w = [c]) (hs : IsTokenPart s)
    (hne : s ≠ []) : IsTokenPart (w ++ s) := by
  rcases hw with rfl | ⟨c, hc, rfl⟩
  · exact hs
  · have hmark : ∀ c ∈ ['-', '+'], isTokenMark c = true := forall_mem_of_all (by decide)
    exact hs.cons (hmark c hc) hne

/-- Nothing that could continue a number token. -/
def StopsToken (s : List Char) : Prop := ∀ c ∈ s.head?, isTokenMark c = false

theorem StopsToken.stopsDigits {s : List Char} (h : StopsToken s) : StopsDigits s := by
  rintro c r rfl
  exact (Bool.or_eq_false_iff.mp (h c rfl)).1

/-- The exponent of a number token, or nothing. -/
structure IsExponent (w : List Char) (e : Int) : Prop extends IsTokenPart w where
  first : ∀ c ∈ w.head?, c = 'e' ∨ c = 'E'
  read : ∀ t, StopsToken t → takeExponent (w ++ t) = (e, t)

theorem isExponent_nil : IsExponent [] 0 := by
  refine ⟨isTokenPart_of_isDigit (by simp), by simp, fun t ht => ?_⟩
  cases t with
  | nil => rfl
  | cons c r =>
      have hmark := ht c rfl
      have hc : (c == 'e' || c == 'E') = false := by
        simp_all [isTokenMark]
      rw [List.nil_append, takeExponent, hc]
      rfl

theorem exists_of_takeExponent {s rest : List Char} {e : Int} (h : takeExponent s = (e, rest)) :
    ∃ w, s = w ++ rest ∧ IsExponent w e := by
  unfold takeExponent at h
  split at h
  case h_2 =>
    cases h
    exact ⟨[], rfl, isExponent_nil⟩
  case h_1 c r =>
    split at h
    case isFalse =>
      cases h
      exact ⟨[], rfl, isExponent_nil⟩
    case isTrue hmark =>
      cases hsign : takeSign r with
      | mk negative digits =>
          obtain ⟨w, rfl, hw⟩ := exists_of_takeSign hsign
          rw [hsign] at h
          dsimp only at h
          split at h
          case h_1 =>
            cases h
            exact ⟨[], rfl, isExponent_nil⟩
          case h_2 ds rest' hds' hdigits =>
            cases h
            obtain ⟨rfl, hds⟩ := takeDigits_eq hdigits
            have hc : isTokenMark c = true ∧ (c = 'e' ∨ c = 'E') := by
              rcases Bool.or_eq_true_iff.mp hmark with hc | hc
              · rw [eq_of_beq hc]
                decide
              · rw [eq_of_beq hc]
                decide
            have hpart := IsTokenPart.sign hw.written (isTokenPart_of_isDigit hds) hds'
            refine ⟨c :: (w ++ ds), by simp, hpart.cons hc.1 (List.append_ne_nil_of_right_ne_nil w hds'), ?_,
              fun t ht => ?_⟩
            · exact fun d hd => Option.some.inj hd ▸ hc.2
            · -- the digits are read up to the same place again
              have hstop : StopsDigits t := ht.stopsDigits
              have hdigit : ∀ d ∈ (ds ++ t).head?, d ≠ '-' ∧ d ≠ '+' := by
                rw [List.head?_append_of_ne_nil ds hds']
                intro d hd
                refine ⟨?_, ?_⟩ <;> (rintro rfl; exact absurd (hds _ (List.mem_of_mem_head? hd)) (by decide))
              rw [List.cons_append, List.append_assoc, takeExponent, if_pos hmark, hw.read _ hdigit]
              dsimp only
              rw [takeDigits_append hds hstop]
              cases ds with
              | nil => exact absurd rfl hds'
              | cons d ds => rfl

/-! ### Tokens -/

/-- A number without a sign: it starts with a digit or a point. -/
structure IsUnsigned (s : List Char) : Prop extends IsTokenPart s where
  first : ∃ c ∈ s.head?, isTokenEnd c = true

theorem isUnsigned_of_isDigit {s : List Char} (hne : s ≠ []) (h : ∀ c ∈ s, isDigit c = true) : IsUnsigned s := by
  refine ⟨isTokenPart_of_isDigit h, s.head hne, List.head?_eq_some_head hne, ?_⟩
  rw [isTokenEnd, h _ (List.head_mem hne), Bool.true_or]

theorem IsUnsigned.append {s t : List Char} (hs : IsUnsigned s) (ht : IsTokenPart t) : IsUnsigned (s ++ t) := by
  obtain ⟨hpart, c, hc, hend⟩ := hs
  refine ⟨hpart.append ht, c, ?_, hend⟩
  rw [List.head?_append, Option.mem_def, hc, Option.some_or]

/-- What follows the digits of an unsigned number continues neither them nor its point. -/
theorem IsExponent.stops {x t : List Char} {e : Int} (hx : IsExponent x e) (ht : StopsToken t) :
    StopsDigits (x ++ t) ∧ ∀ r, x ++ t ≠ '.' :: r := by
  cases x with
  | nil =>
      refine ⟨ht.stopsDigits, ?_⟩
      rintro r rfl
      exact absurd (ht '.' rfl) (by decide)
  | cons c x =>
      have hc : Text.isDigit c = false ∧ c ≠ '.' := by
        rcases hx.first c rfl with rfl | rfl <;> decide
      exact ⟨fun d r h => (List.cons.inj h).1 ▸ hc.1, fun r h => hc.2 (List.cons.inj h).1⟩

/-- The longest unsigned number at the start of a text, which is read again wherever it ends. -/
theorem exists_of_takeUnsigned {s rest : List Char} {parts : Parts} (h : takeUnsigned s = some (parts, rest)) :
    ∃ w, s = w ++ rest ∧ IsUnsigned w ∧ ∀ t, StopsToken t → takeUnsigned (w ++ t) = some (parts, t) := by
  -- an exponent may follow what is read first
  have hjoin {w tail whole fraction : List Char} {e : Int} (hs : s = w ++ tail) (hw : IsUnsigned w)
      (he : takeExponent tail = (e, rest)) (hparts : parts = ⟨whole, fraction, e⟩)
      (hread : ∀ t, (StopsDigits t ∧ ∀ r, t ≠ '.' :: r) →
        takeUnsigned (w ++ t) = some (⟨whole, fraction, (takeExponent t).1⟩, (takeExponent t).2)) :
      ∃ w, s = w ++ rest ∧ IsUnsigned w ∧ ∀ t, StopsToken t → takeUnsigned (w ++ t) = some (parts, t) := by
    obtain ⟨x, rfl, hx⟩ := exists_of_takeExponent he
    refine ⟨w ++ x, by rw [hs, List.append_assoc], hw.append hx.toIsTokenPart, fun t ht => ?_⟩
    rw [List.append_assoc, hread (x ++ t) (hx.stops ht), hx.read t ht, hparts]
  unfold takeUnsigned at h
  split at h
  case h_1 r hdigits =>
    split at h
    case h_1 => cases h
    case h_2 fraction tail hne hfraction =>
      cases h
      obtain ⟨rfl, -⟩ := takeDigits_eq hdigits
      obtain ⟨rfl, hds⟩ := takeDigits_eq hfraction
      have hpoint : IsUnsigned ['.'] := ⟨isTokenPart_point, '.', rfl, by decide⟩
      exact hjoin (w := '.' :: fraction) rfl (hpoint.append (isTokenPart_of_isDigit hds)) rfl rfl
        fun t ht => takeUnsigned_fraction hds ht.1 hne
  case h_2 => cases h
  case h_3 whole r hne hdigits =>
    cases hfraction : takeDigits r with
    | mk fraction tail =>
        rw [hfraction] at h
        cases h
        obtain ⟨rfl, hwhole⟩ := takeDigits_eq hdigits
        obtain ⟨rfl, hds⟩ := takeDigits_eq hfraction
        have htoken := (isUnsigned_of_isDigit hne hwhole).append (isTokenPart_point.append (isTokenPart_of_isDigit hds))
        refine hjoin (by simp) htoken rfl rfl fun t ht => ?_
        rw [← takeUnsigned_point hwhole hds ht.1 hne]
        simp
  case h_4 whole r _ hne _ hdigits =>
    cases h
    obtain ⟨rfl, hwhole⟩ := takeDigits_eq hdigits
    exact hjoin rfl (isUnsigned_of_isDigit hne hwhole) rfl rfl fun t ht => takeUnsigned_plain hwhole ht.1 hne ht.2

/-- What is taken for a token is one, kept as it was written, and read again wherever it ends. -/
theorem isToken_of_takeToken {withSign : Bool} {s rest : List Char} {t : Token}
    (h : takeToken withSign s = some (t, rest)) : s = t.written ++ rest ∧ IsToken t.written ∧
      ∀ u, StopsToken u → takeToken withSign (t.written ++ u) = some (t, u) := by
  unfold takeToken at h
  cases hsign : (if withSign then takeSign s else (false, s)) with
  | mk negative r =>
      obtain ⟨w, hs, hw, hread⟩ : ∃ w, s = w ++ r ∧ (w = [] ∨ ∃ c ∈ ['-', '+'], w = [c]) ∧
          ∀ t, (∀ c ∈ t.head?, c ≠ '-' ∧ c ≠ '+') →
            (if withSign then takeSign (w ++ t) else (false, w ++ t)) = (negative, t) := by
        cases withSign with
        | true =>
            obtain ⟨w, hs, hw⟩ := exists_of_takeSign hsign
            exact ⟨w, hs, hw.written, hw.read⟩
        | false =>
            cases hsign
            exact ⟨[], rfl, .inl rfl, fun _ _ => rfl⟩
      rw [hsign] at h
      obtain ⟨⟨parts, tail⟩, htake, heq⟩ := Option.map_eq_some_iff.mp h
      obtain ⟨number, rfl, hnumber, hagain⟩ := exists_of_takeUnsigned htake
      cases heq
      have hwritten (rest : List Char) : (w ++ (number ++ rest)).take ((w ++ (number ++ rest)).length - rest.length) =
          w ++ number := by
        rw [← List.append_assoc, List.length_append, Nat.add_sub_cancel, List.take_left]
      obtain ⟨c, hc, hend⟩ := hnumber.first
      have hne : number ≠ [] := by
        rintro rfl
        cases hc
      rw [hs]
      dsimp only
      rw [hwritten]
      refine ⟨(List.append_assoc ..).symm, ⟨.sign hw hnumber.toIsTokenPart hne, List.append_ne_nil_of_right_ne_nil w hne,
        ?_⟩, fun u hu => ?_⟩
      · rcases hw with rfl | ⟨sign, hsign, rfl⟩
        · rw [List.nil_append, hc]
          exact fun d hd => Option.some.inj hd ▸ isNameStart_of_isTokenEnd hend
        · have hsigns : ∀ c ∈ ['-', '+'], isNameStart c = false := forall_mem_of_all (by decide)
          exact fun d hd => Option.some.inj hd ▸ hsigns sign hsign
      · have hnoSign : ∀ d ∈ (number ++ u).head?, d ≠ '-' ∧ d ≠ '+' := by
          rw [List.head?_append_of_ne_nil number hne, hc]
          rintro d hd
          obtain rfl := Option.some.inj hd
          refine ⟨?_, ?_⟩ <;> (rintro rfl; exact absurd hend (by decide))
        rw [List.append_assoc, takeToken, hread _ hnoSign]
        dsimp only
        rw [hagain u hu, Option.map_some, hwritten]

end Literal

end LabLang
