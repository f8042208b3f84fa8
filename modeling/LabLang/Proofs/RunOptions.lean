import LabLang.Proofs.Literals
import LabLang.Proofs.Readers
import LabLang.RunCommand

/-! # Options of a run

An item of an option list gives the number of shots if it consists of the word, a colon and a value, with blanks around
each of them (`SetsShots`).  The value is a number if it consists of decimal digits, of any script, and is positive
(`Grants`).  The list is read item by item: it gives the number of the last item if every item is of this form, and is
malformed otherwise (`options_exact`), with one gap.  Characters such as superscripts show a digit without being decimal
digits, so that a value which has one of them passes the first test, but is no integer, and the fault of the conversion
escapes (`Misread`); so does that of a value with too many digits. -/

namespace LabLang.RunCommand

open Text Number

variable {R : Type}

/-! ### Digits that are shown -/

/-- What shows a digit is no blank, sign or underscore. -/
theorem clean_of_showsDigit {c : Char} (h : showsDigit c = true) :
    isBlank c = false ∧ c ≠ '-' ∧ c ≠ '+' ∧ c ≠ '_' := by
  refine ⟨?_, ?_, ?_, ?_⟩
  · rcases Bool.or_eq_true_iff.mp h with hdigit | hshown
    · have apart : digitRanges.disjoint blankRanges = true := by decide
      exact holds_eq_false_of_isDigit apart hdigit
    · have apart : shownDigitRanges.disjoint blankRanges = true := by decide
      exact Ranges.holds_eq_false apart hshown
  all_goals
    rintro rfl
    exact absurd h (by decide)

/-- A text that shows digits only, as an integer. -/
theorem readInteger_of_showsDigit {value : List Char} (nonempty : value ≠ [])
    (shown : ∀ c ∈ value, showsDigit c = true) :
    readInteger value =
      if maxIntegerDigits < (value.takeWhile isDigit).length then
        .error (.tooManyDigits (value.takeWhile isDigit).length)
      else if value.all isDigit = true then .ok (digitsValue value) else .error .notAnInteger :=
  readInteger_eq nonempty (fun c hc => (clean_of_showsDigit (shown c hc)).1)
    fun c hc => (clean_of_showsDigit (shown c hc)).2

/-! ### Items -/

/-- The item gives the number of shots as the value: the word, a colon and the value, with blanks around each. -/
def SetsShots (item value : List Char) : Prop :=
  ∃ a b c d : List Char, (∀ x ∈ a ++ b ++ c ++ d, isBlank x = true) ∧
    item = a ++ "shots".toList ++ b ++ ':' :: (c ++ value ++ d)

/-- What is read as the number of shots has been written in this form. -/
theorem setsShots_of_option? {item value : List Char} (h : option? (trim item) = some ("shots".toList, value)) :
    SetsShots item value := by
  unfold option? at h
  obtain ⟨⟨name, r⟩, hname, h⟩ := Option.bind_eq_some_iff.mp h
  dsimp only at h
  split at h
  · rename_i r' hcolon
    split at h
    · cases h
    · obtain ⟨rfl, rfl⟩ := Prod.mk.inj (Option.some.inj h)
      obtain ⟨a, d, hitem, ha, hd⟩ := exists_trim item
      obtain ⟨b, hr, hb⟩ := exists_trimLeft r
      obtain ⟨c, hr', hc⟩ := exists_trimLeft r'
      obtain ⟨c', d', hvalue, hc', hd'⟩ := exists_trim (trimLeft r')
      refine ⟨a, b, c ++ c', d' ++ d, ?_, ?_⟩
      · simp only [List.forall_mem_append]
        exact ⟨⟨⟨ha, hb⟩, hc, hc'⟩, hd', hd⟩
      · have hbehind : trimLeft r = ':' :: (c ++ (c' ++ trim (trimLeft r') ++ d')) :=
          calc trimLeft r = ':' :: r' := hcolon
            _ = ':' :: (c ++ trimLeft r') := congrArg _ hr'
            _ = ':' :: (c ++ (c' ++ trim (trimLeft r') ++ d')) := congrArg (fun s => ':' :: (c ++ s)) hvalue
        rw [hitem, (append_of_takeName hname).1, hr, hbehind]
        simp only [List.append_assoc, List.cons_append]
  · cases h

/-- A value without blanks is read back from an item of this form. -/
theorem option?_of_setsShots {item value : List Char} (h : SetsShots item value) (nonempty : value ≠ [])
    (visible : ∀ c ∈ value, isBlank c = false) : option? (trim item) = some ("shots".toList, value) := by
  obtain ⟨a, b, c, d, hblank, rfl⟩ := h
  simp only [List.forall_mem_append] at hblank
  obtain ⟨⟨⟨ha, hb⟩, hc⟩, hd⟩ := hblank
  have hfirst := visible _ (List.head_mem nonempty)
  have hlast := visible _ (List.getLast_mem nonempty)
  have htrim : trim (a ++ "shots".toList ++ b ++ ':' :: (c ++ value ++ d)) =
      "shots".toList ++ (b ++ ':' :: (c ++ value)) := by
    have hcore := trim_append (s := "shots".toList ++ (b ++ ':' :: (c ++ value))) ha (by simp) rfl
      (by simpa [nonempty, List.getLast_append] using hlast) hd
    simpa only [List.append_assoc, List.cons_append] using hcore
  have hname : takeName ("shots".toList ++ (b ++ ':' :: (c ++ value))) =
      some ("shots".toList, b ++ ':' :: (c ++ value)) := by
    refine takeName_append (by decide) fun x hx => ?_
    cases b with
    | nil =>
        cases hx
        decide
    | cons y b =>
        cases hx
        rw [Bool.eq_false_iff]
        intro hword
        exact absurd (hb x List.mem_cons_self) (by simp [isBlank_eq_false_of_isWord hword])
  have hcolon : trimLeft (b ++ ':' :: (c ++ value)) = ':' :: (c ++ value) :=
    trimLeft_append hb (List.cons_ne_nil _ _) rfl
  have hline : value.contains '\n' = false := by
    rw [Bool.eq_false_iff]
    intro hbreak
    exact absurd (visible _ (List.contains_iff_mem.mp hbreak)) (by decide)
  unfold option?
  rw [htrim, hname]
  simp only [Option.bind_eq_bind, Option.bind_some, hcolon, trimLeft_append hc nonempty hfirst,
    trim_of_ends nonempty hfirst hlast, hline]
  simp [nonempty]

/-- The item gives the number of shots: decimal digits, of any script, that write a positive number. -/
def Grants (item : List Char) (n : Int) : Prop :=
  ∃ digits : List Char, SetsShots item digits ∧ (∀ c ∈ digits, isDigit c = true) ∧ digits.length ≤ maxIntegerDigits ∧
    n = digitsValue digits ∧ 1 ≤ n

/-- The item gives a value that shows digits only but is not converted: the conversion stops at a character that is no
decimal digit, or there are too many digits in front of it. -/
structure Misread (item value : List Char) (fault : IntegerFault) : Prop where
  written : SetsShots item value
  shown : ∀ c ∈ value, showsDigit c = true
  unread : ((value.takeWhile isDigit).length ≤ maxIntegerDigits ∧ (∃ c ∈ value, isDigit c = false) ∧ fault = .notAnInteger) ∨
    (maxIntegerDigits < (value.takeWhile isDigit).length ∧ fault = .tooManyDigits (value.takeWhile isDigit).length)

variable {item value : List Char} {line : Option Nat}

/-- Texts that show digits only are read back from items of this form. -/
theorem itemShots_of_showsDigit (written : SetsShots item value) (nonempty : value ≠ [])
    (shown : ∀ c ∈ value, showsDigit c = true) :
    itemShots (R := R) (trim item) line =
      match readInteger value with
      | .ok n => if n ≤ 0 then .error (.ofMalformed (.shots (String.ofList value)) line) else .ok n
      | .error fault => .error ⟨.internal (.integer fault (String.ofList value)), none⟩ := by
  have hpass : (value.isEmpty || !value.all showsDigit) = false := by simpa [nonempty] using shown
  unfold itemShots
  rw [option?_of_setsShots written nonempty fun c hc => (clean_of_showsDigit (shown c hc)).1]
  dsimp only
  rw [if_pos rfl]
  unfold shotsValue
  dsimp only
  rw [hpass]
  rfl

theorem itemShots_of_grants {n : Int} (h : Grants item n) : itemShots (R := R) (trim item) line = .ok n := by
  obtain ⟨digits, written, hdigits, hlength, rfl, hpos⟩ := h
  have nonempty : digits ≠ [] := by
    rintro rfl
    exact absurd hpos (by decide)
  have shown : ∀ c ∈ digits, showsDigit c = true := fun c hc => by
    unfold showsDigit
    rw [hdigits c hc, Bool.true_or]
  have hread : readInteger digits = .ok (digitsValue digits) := by
    rw [readInteger_of_showsDigit nonempty shown, List.takeWhile_eq_self_iff.mpr hdigits, if_neg (Nat.not_lt.mpr hlength),
      if_pos (List.all_eq_true.mpr hdigits)]
  rw [itemShots_of_showsDigit written nonempty shown, hread]
  exact if_neg (by omega)

theorem itemShots_of_misread {fault : IntegerFault} (h : Misread item value fault) :
    itemShots (R := R) (trim item) line = .error ⟨.internal (.integer fault (String.ofList value)), none⟩ := by
  have nonempty : value ≠ [] := by
    rintro rfl
    rcases h.unread with ⟨-, ⟨c, hc, -⟩, -⟩ | ⟨hlong, -⟩
    · cases hc
    · exact absurd hlong (by decide)
  have hread : readInteger value = .error fault := by
    rw [readInteger_of_showsDigit nonempty h.shown]
    rcases h.unread with ⟨hshort, ⟨c, hc, hnot⟩, rfl⟩ | ⟨hlong, rfl⟩
    · have hnotall : ¬ value.all isDigit = true := fun hall => absurd (List.all_eq_true.mp hall c hc) (by simp [hnot])
      rw [if_neg (Nat.not_lt.mpr hshort), if_neg hnotall]
    · rw [if_pos hlong]
  rw [itemShots_of_showsDigit h.written nonempty h.shown, hread]

/-- A value that shows digits only gives a number, is misread, or is zero. -/
theorem cases_of_showsDigit (written : SetsShots item value) (nonempty : value ≠ [])
    (shown : ∀ c ∈ value, showsDigit c = true) :
    (∃ n, Grants item n) ∨ (∃ fault, Misread item value fault) ∨ readInteger value = .ok 0 := by
  have hread := readInteger_of_showsDigit nonempty shown
  by_cases hlong : maxIntegerDigits < (value.takeWhile isDigit).length
  · exact .inr (.inl ⟨_, written, shown, .inr ⟨hlong, rfl⟩⟩)
  · rw [if_neg hlong] at hread
    by_cases hdigits : ∀ c ∈ value, isDigit c = true
    · rw [if_pos (List.all_eq_true.mpr hdigits)] at hread
      rw [List.takeWhile_eq_self_iff.mpr hdigits] at hlong
      by_cases hzero : digitsValue value = 0
      · rw [hzero] at hread
        exact .inr (.inr hread)
      · exact .inl ⟨_, value, written, hdigits, Nat.not_lt.mp hlong, rfl, by omega⟩
    · push Not at hdigits
      exact .inr (.inl ⟨_, written, shown, .inl ⟨Nat.not_lt.mp hlong, by simpa using hdigits, rfl⟩⟩)

/-- There is no other way to read an item: it gives a number, the fault of a conversion escapes, or it is malformed. -/
theorem itemShots_cases (item : List Char) (line : Option Nat) :
    (∃ n, Grants item n) ∨ (∃ value fault, Misread item value fault) ∨
      ∃ fault, itemShots (R := R) (trim item) line = .error (.ofMalformed fault line) := by
  cases hoption : option? (trim item) with
  | none =>
      unfold itemShots
      rw [hoption]
      exact .inr (.inr ⟨_, rfl⟩)
  | some option =>
      obtain ⟨name, value⟩ := option
      have hitem : itemShots (R := R) (trim item) line =
          if name = "shots".toList then shotsValue value line
          else .error (.ofMalformed (.unknownRunOption (String.ofList name)) line) := by
        unfold itemShots
        rw [hoption]
      by_cases hname : name = "shots".toList
      · rw [if_pos hname] at hitem
        subst hname
        have written := setsShots_of_option? hoption
        by_cases hbad : (value.isEmpty || !value.all showsDigit) = true
        · unfold shotsValue at hitem
          rw [if_pos hbad] at hitem
          exact .inr (.inr ⟨_, hitem⟩)
        · obtain ⟨nonempty, shown⟩ : value ≠ [] ∧ ∀ c ∈ value, showsDigit c = true := by simpa using hbad
          rcases cases_of_showsDigit written nonempty shown with hgrants | ⟨fault, hmisread⟩ | hzero
          · exact .inl hgrants
          · exact .inr (.inl ⟨value, fault, hmisread⟩)
          · have hrefused : itemShots (R := R) (trim item) line = _ := itemShots_of_showsDigit written nonempty shown
            rw [hzero] at hrefused
            exact .inr (.inr ⟨_, hrefused⟩)
      · rw [if_neg hname] at hitem
        exact .inr (.inr ⟨_, hitem⟩)

/-- An item is read as a number if and only if it gives the number. -/
theorem itemShots_eq_ok_iff {n : Int} : itemShots (R := R) (trim item) line = .ok n ↔ Grants item n := by
  refine ⟨fun h => ?_, itemShots_of_grants⟩
  rcases itemShots_cases (R := R) item line with ⟨m, hm⟩ | ⟨value, fault, hmisread⟩ | ⟨fault, hfault⟩
  · obtain rfl : m = n := Except.ok.inj ((itemShots_of_grants hm).symm.trans h)
    exact hm
  · rw [itemShots_of_misread hmisread] at h
    cases h
  · rw [hfault] at h
    cases h

/-! ### Lists of items -/

/-- The first item that gives no number is misread. -/
def FirstMisread (items : List (List Char)) (value : List Char) (fault : IntegerFault) : Prop :=
  ∃ before item after counts, items = before ++ item :: after ∧ List.Forall₂ Grants before counts ∧
    Misread item value fault

variable {items : List (List Char)}

theorem mapM_itemShots_eq_ok_iff {counts : List Int} :
    (items.mapM fun item => itemShots (R := R) (trim item) line) = .ok counts ↔ List.Forall₂ Grants items counts := by
  simp only [mapM_eq_ok_iff, itemShots_eq_ok_iff]

theorem mapM_itemShots_of_firstMisread {fault : IntegerFault} (h : FirstMisread items value fault) :
    (items.mapM fun item => itemShots (R := R) (trim item) line) =
      .error ⟨.internal (.integer fault (String.ofList value)), none⟩ := by
  obtain ⟨before, item, after, counts, hitems, hbefore, hitem⟩ := h
  exact mapM_eq_error_iff.mpr
    ⟨before, item, after, counts, hitems, mapM_itemShots_eq_ok_iff.mpr hbefore, itemShots_of_misread hitem⟩

/-- The items fail at the first one that gives no number. -/
theorem cases_of_mapM_itemShots {failure : Failure R}
    (h : (items.mapM fun item => itemShots (R := R) (trim item) line) = .error failure) :
    (∃ value fault, FirstMisread items value fault) ∨ ∃ fault, failure = .ofMalformed fault line := by
  obtain ⟨before, item, after, counts, hitems, hbefore, hitem⟩ := mapM_eq_error_iff.mp h
  rcases itemShots_cases (R := R) item line with ⟨n, hn⟩ | ⟨value, fault, hmisread⟩ | ⟨fault, hfault⟩
  · rw [itemShots_of_grants hn] at hitem
    cases hitem
  · exact .inl ⟨value, fault, before, item, after, counts, hitems, mapM_itemShots_eq_ok_iff.mp hbefore, hmisread⟩
  · exact .inr ⟨fault, Except.error.inj (hitem.symm.trans hfault)⟩

theorem options_of_items {text : List Char} (h : isBlankText text = false) (line : Option Nat) :
    options (R := R) (some text) line =
      ((text.splitOn ',').mapM fun item => itemShots (trim item) line).map List.getLast? := by
  unfold options
  dsimp only
  rw [h, List.mapM_map]
  rfl

/-- Numbers of shots are positive. -/
theorem one_le_of_mem_counts {counts : List Int} (h : List.Forall₂ Grants items counts) : ∀ n ∈ counts, 1 ≤ n := by
  induction h with
  | nil => simp
  | cons hitem _ ih =>
      obtain ⟨-, -, -, -, -, hpos⟩ := hitem
      exact List.forall_mem_cons.mpr ⟨hpos, ih⟩

/-- **What an option list gives.**  Nothing is set where nothing is written.  If every item gives a number, the last one
counts, and it is positive.  Any other list is malformed, unless its first item that gives no number is misread. -/
theorem options_exact (line : Option Nat) :
    options (R := R) none line = .ok none ∧
      ∀ text : List Char,
        (isBlankText text = true → options (R := R) (some text) line = .ok none) ∧
        (isBlankText text = false →
          (∀ counts, List.Forall₂ Grants (text.splitOn ',') counts →
            ∃ n, counts.getLast? = some n ∧ 1 ≤ n ∧ options (R := R) (some text) line = .ok (some n)) ∧
          (∀ value fault, FirstMisread (text.splitOn ',') value fault →
            options (R := R) (some text) line = .error ⟨.internal (.integer fault (String.ofList value)), none⟩) ∧
          ((¬ ∃ counts, List.Forall₂ Grants (text.splitOn ',') counts) →
            (¬ ∃ value fault, FirstMisread (text.splitOn ',') value fault) →
            ∃ fault, options (R := R) (some text) line = .error (.ofMalformed fault line))) := by
  refine ⟨rfl, fun text => ⟨fun hblank => if_pos hblank, fun hblank => ?_⟩⟩
  rw [options_of_items hblank line]
  refine ⟨fun counts hcounts => ?_, fun value fault hfirst => ?_, fun hnot hread => ?_⟩
  · have hne : counts ≠ [] := by
      rintro rfl
      exact List.splitOn_ne_nil ',' text (List.forall₂_nil_right_iff.mp hcounts)
    refine ⟨counts.getLast hne, List.getLast?_eq_some_getLast hne, ?_, ?_⟩
    · exact one_le_of_mem_counts hcounts _ (List.getLast_mem hne)
    · rw [mapM_itemShots_eq_ok_iff.mpr hcounts, ← List.getLast?_eq_some_getLast hne]
      rfl
  · rw [mapM_itemShots_of_firstMisread hfirst]
    rfl
  · cases hitems : (text.splitOn ',').mapM fun item => itemShots (R := R) (trim item) line with
    | ok counts => exact absurd ⟨counts, mapM_itemShots_eq_ok_iff.mp hitems⟩ hnot
    | error failure =>
        rcases cases_of_mapM_itemShots hitems with hfirst | ⟨fault, rfl⟩
        · exact absurd hfirst hread
        · exact ⟨fault, rfl⟩

/-- Digits of any script count, and the last item does; a superscript is no digit, but is not refused as malformed; zero
is refused. -/
theorem options_exact_superscript :
    options (R := Float) (some "shots:5, shots : ٣ ".toList) = .ok (some 3) ∧
      options (R := Float) (some "shots:5, shots: ²".toList) = .error ⟨.internal (.integer .notAnInteger "²"), none⟩ ∧
      ∃ fault, options (R := Float) (some "shots:5, shots: 0".toList) = .error (.ofMalformed fault) := by
  obtain ⟨-, hread⟩ := options_exact (R := Float) none
  have five : Grants "shots:5".toList 5 :=
    ⟨['5'], ⟨[], [], [], [], by simp, rfl⟩, forall_mem_of_all rfl, by decide, rfl, by decide⟩
  refine ⟨?_, ?_, ?_⟩
  · have three : Grants " shots : ٣ ".toList 3 :=
      ⟨['٣'], ⟨[' '], [' '], [' '], [' '], forall_mem_of_all rfl, rfl⟩, forall_mem_of_all rfl, by decide, rfl, by decide⟩
    obtain ⟨n, hlast, -, hoptions⟩ :=
      ((hread "shots:5, shots : ٣ ".toList).2 (by decide)).1 [5, 3] (.cons five (.cons three .nil))
    cases hlast
    exact hoptions
  · have hmisread : Misread " shots: ²".toList ['²'] .notAnInteger :=
      ⟨⟨[' '], [], [' '], [], forall_mem_of_all rfl, rfl⟩, forall_mem_of_all rfl,
        .inl ⟨by decide, ⟨_, List.mem_singleton_self _, by decide⟩, rfl⟩⟩
    exact ((hread "shots:5, shots: ²".toList).2 (by decide)).2.1 ['²'] .notAnInteger
      ⟨["shots:5".toList], " shots: ²".toList, [], [5], rfl, .cons five .nil, hmisread⟩
  · have hitems : (("shots:5, shots: 0".toList.splitOn ',').mapM fun item => itemShots (R := Float) (trim item) none) =
        .error (.ofMalformed (.shots "0")) := rfl
    refine ((hread "shots:5, shots: 0".toList).2 (by decide)).2.2 ?_ ?_
    · rintro ⟨counts, hcounts⟩
      rw [mapM_itemShots_eq_ok_iff.mpr hcounts] at hitems
      cases hitems
    · rintro ⟨value, fault, hfirst⟩
      rw [mapM_itemShots_of_firstMisread hfirst] at hitems
      cases hitems

end LabLang.RunCommand
