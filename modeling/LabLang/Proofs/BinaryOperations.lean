import LabLang.Proofs.Literals

/-! # Binary operations

An operation is found by the first operator between blanks in its text, whether or not it stands between quotation
marks.  Names and numbers hold no such operator (`IsOperand.exists_of_holdsOperator`), quoted texts may.  A text of two
operands splits at the operator between them or inside one of the two, which is then a quoted text (`splits_cases`); in
that case both sides have an odd number of quotation marks (`splits_odd`), and the text stands for itself.  Neither side
of a split has a line feed in it.  So the operation is performed if and only if no operand has a line feed in it and the
left one holds no operator between blanks that is found instead (`evaluate_operation`). -/

namespace LabLang.Expression

open Text

variable {R : Type} [Scalar R]

/-! ### Operators between blanks -/

/-- The text starts with an operator and a blank. -/
def startsOperator : List Char → Bool
  | op :: c :: _ => isOperator op && isBlank c
  | _ => false

/-- Somewhere in the text an operator stands between blanks. -/
def holdsOperator : List Char → Bool
  | [] => false
  | b :: s => isBlank b && startsOperator s || holdsOperator s

theorem isBlank_eq_false_of_isOperator {c : Char} (h : isOperator c = true) : isBlank c = false := by
  have hall : ∀ c ∈ ['-', '+', '*', '/'], isBlank c = false := forall_mem_of_all (by decide)
  exact hall c (List.contains_iff_mem.mp h)

theorem startsOperator_of_clean {s : List Char} (h : ∀ c ∈ s, isBlank c = false) : startsOperator s = false := by
  match s with
  | [] => rfl
  | [_] => rfl
  | op :: c :: s =>
      rw [startsOperator, h c (by simp), Bool.and_false]

theorem holdsOperator_append_of_clean {p : List Char} (hp : ∀ c ∈ p, isBlank c = false) (s : List Char) :
    holdsOperator (p ++ s) = holdsOperator s := by
  induction p with
  | nil => rfl
  | cons c p ih =>
      rw [List.forall_mem_cons] at hp
      rw [List.cons_append, holdsOperator, hp.1, Bool.false_and, Bool.false_or, ih hp.2]

theorem holdsOperator_append_of_blank {p s : List Char} (hp : ∀ c ∈ p, isBlank c = true)
    (hs : startsOperator s = false) : holdsOperator (p ++ s) = holdsOperator s := by
  induction p with
  | nil => rfl
  | cons c p ih =>
      rw [List.forall_mem_cons] at hp
      have hstart : startsOperator (p ++ s) = false := by
        match p with
        | [] => exact hs
        | d :: p =>
            have hd : isOperator d = false := by
              rw [Bool.eq_false_iff]
              intro hop
              have hblank := hp.2 d List.mem_cons_self
              rw [isBlank_eq_false_of_isOperator hop] at hblank
              cases hblank
            cases hrest : p ++ s with
            | nil => rw [List.cons_append, hrest]; rfl
            | cons e rest => rw [List.cons_append, hrest, startsOperator, hd, Bool.false_and]
      rw [List.cons_append, holdsOperator, hstart, Bool.and_false, Bool.false_or, ih hp.2]

theorem holdsOperator_of_append {s : List Char} (h : holdsOperator s = true) (p : List Char) :
    holdsOperator (p ++ s) = true := by
  induction p with
  | nil => exact h
  | cons c p ih => rw [List.cons_append, holdsOperator, ih, Bool.or_true]

/-- An operator between blanks, anywhere. -/
theorem holdsOperator_iff {s : List Char} : holdsOperator s = true ↔
    ∃ p b op c q, s = p ++ b :: op :: c :: q ∧ isBlank b = true ∧ isOperator op = true ∧ isBlank c = true := by
  constructor
  · intro h
    induction s with
    | nil => cases h
    | cons b s ih =>
        rw [holdsOperator, Bool.or_eq_true, Bool.and_eq_true] at h
        rcases h with ⟨hb, hs⟩ | hs
        · match s with
          | [] => cases hs
          | [_] => cases hs
          | op :: c :: q =>
              rw [startsOperator, Bool.and_eq_true] at hs
              exact ⟨[], b, op, c, q, rfl, hb, hs.1, hs.2⟩
        · obtain ⟨p, b', op, c, q, rfl, hparts⟩ := ih hs
          exact ⟨b :: p, b', op, c, q, rfl, hparts⟩
  · rintro ⟨p, b, op, c, q, rfl, hb, hop, hc⟩
    refine holdsOperator_of_append ?_ p
    rw [holdsOperator, startsOperator, hb, hop, hc]
    rfl

/-! ### Operands -/

/-- What holds of no operator shows that a character is none. -/
theorem isOperator_eq_false {p : Char → Prop} (hp : ∀ c ∈ ['-', '+', '*', '/'], ¬ p c) {c : Char} (hc : p c) :
    isOperator c = false :=
  Bool.eq_false_iff.mpr fun h => hp c (List.contains_iff_mem.mp h) hc

theorem isOperator_last_token {w : List Char} (h : Literal.IsToken w) : ∀ c ∈ w.getLast?, isOperator c = false :=
  fun c hc =>
    isOperator_eq_false (p := fun c => Literal.isTokenEnd c = true) (forall_mem_of_all (by decide)) (h.last c hc)

/-- No operand ends with an operator. -/
theorem IsOperand.last {s : List Char} (h : IsOperand s) : ∀ c ∈ s.getLast?, isOperator c = false := by
  cases h with
  | name h =>
      exact fun c hc => isOperator_eq_false (p := fun c => isWord c = true) (forall_mem_of_all (by decide))
        (isWord_of_mem_name h c (List.mem_of_getLast? hc))
  | @text inner h =>
      rw [Literal.getLast?_quoted]
      exact fun c hc => Option.some.inj hc ▸ rfl
  | number h => exact isOperator_last_token h
  | uncertain ha hu hsign hv hb =>
      simp only [← List.append_assoc]
      rw [List.getLast?_append_of_ne_nil _ hb.nonempty]
      exact isOperator_last_token hb

/-- No operand starts with an operator and a blank. -/
theorem IsOperand.startsOperator_eq_false {s : List Char} (h : IsOperand s) : startsOperator s = false := by
  have htoken {w : List Char} (hw : Literal.IsToken w) (t : List Char) : startsOperator (w ++ t) = false := by
    match w with
    | [] => exact absurd rfl hw.nonempty
    | [c] =>
        have hc : isOperator c = false := isOperator_last_token hw c rfl
        cases t with
        | nil => rfl
        | cons d t => rw [List.singleton_append, startsOperator, hc, Bool.false_and]
    | c :: d :: w =>
        have hd : isBlank d = false := (hw.clean d (by simp)).1
        rw [List.cons_append, List.cons_append, startsOperator, hd, Bool.and_false]
  cases h with
  | name h => exact startsOperator_of_clean fun c hc => isBlank_eq_false_of_isWord (isWord_of_mem_name h c hc)
  | @text inner h =>
      cases hrest : inner ++ ['"'] with
      | nil => simp at hrest
      | cons c rest => rw [Literal.quoted, hrest]; rfl
  | number h =>
      have hstart := htoken h []
      rwa [List.append_nil] at hstart
  | uncertain ha => exact htoken ha _

/-- Only quoted texts hold an operator between blanks. -/
theorem IsOperand.exists_of_holdsOperator {s : List Char} (h : IsOperand s) (hop : holdsOperator s = true) :
    ∃ inner, s = Literal.quoted inner ∧ '"' ∉ inner := by
  have hclean {w : List Char} (hw : ∀ c ∈ w, isBlank c = false) : holdsOperator w = false := by
    have := holdsOperator_append_of_clean hw []
    rwa [List.append_nil] at this
  cases h with
  | name h =>
      rw [hclean fun c hc => isBlank_eq_false_of_isWord (isWord_of_mem_name h c hc)] at hop
      cases hop
  | text h => exact ⟨_, rfl, h⟩
  | number h =>
      rw [hclean fun c hc => (h.clean c hc).1] at hop
      cases hop
  | @uncertain a u sign v b ha hu hsign hv hb =>
      have hbClean : ∀ c ∈ b, isBlank c = false := fun c hc => (hb.clean c hc).1
      have hsignStart : startsOperator (sign ++ (v ++ b)) = false := by
        rcases hsign with rfl | rfl
        · cases hrest : v ++ b with
          | nil => rfl
          | cons c rest => rfl
        · rfl
      have hsignClean : ∀ c ∈ sign, isBlank c = false := by
        rcases hsign with rfl | rfl
        · exact forall_mem_of_all (by decide)
        · exact forall_mem_of_all (by decide)
      rw [holdsOperator_append_of_clean fun c hc => (ha.clean c hc).1, holdsOperator_append_of_blank hu hsignStart,
        holdsOperator_append_of_clean hsignClean, holdsOperator_append_of_blank hv (startsOperator_of_clean hbClean),
        hclean hbClean] at hop
      cases hop

theorem IsOperand.nonempty {s : List Char} (h : IsOperand s) : s ≠ [] := by
  cases h with
  | name h =>
      rintro rfl
      cases h
  | text h => exact Literal.quoted_ne_nil _
  | number h => exact h.nonempty
  | uncertain ha => exact List.append_ne_nil_of_left_ne_nil ha.nonempty _

/-- An operand has an even number of quotation marks. -/
theorem IsOperand.count_quote {s : List Char} (h : IsOperand s) : s.count '"' % 2 = 0 := by
  rcases h.notMem_or with hnot | ⟨inner, rfl, hinner⟩
  · rw [List.count_eq_zero.mpr hnot]
  · rw [Literal.count_quoted hinner]

/-! ### Where a text splits -/

/-- What stands between two operands: an operator with blanks on both sides. -/
structure IsSeparator (w : List Char) (op : Char) : Prop where
  operator : isOperator op = true
  parts : ∃ u v, u ≠ [] ∧ (∀ c ∈ u, isBlank c = true) ∧ v ≠ [] ∧ (∀ c ∈ v, isBlank c = true) ∧ w = u ++ op :: v

/-- A text starts with a character that is not blank. -/
def StartsVisibly (s : List Char) : Prop := ∃ c r, s = c :: r ∧ isBlank c = false

theorem IsSeparator.exists_blank {w : List Char} {op : Char} (h : IsSeparator w op) :
    ∃ b r, w = b :: r ∧ isBlank b = true := by
  obtain ⟨u, v, hu, hublank, -, -, rfl⟩ := h.parts
  cases u with
  | nil => exact absurd rfl hu
  | cons b u => exact ⟨b, u ++ op :: v, rfl, hublank b List.mem_cons_self⟩

/-- A separator has no quotation mark in it. -/
theorem IsSeparator.count_quote {w : List Char} {op : Char} (h : IsSeparator w op) : w.count '"' = 0 := by
  obtain ⟨u, v, -, hublank, -, hvblank, rfl⟩ := h.parts
  rw [List.count_eq_zero, List.mem_append, List.mem_cons, not_or, not_or]
  refine ⟨fun hmem => absurd (hublank _ hmem) (by decide), ?_, fun hmem => absurd (hvblank _ hmem) (by decide)⟩
  rintro rfl
  exact absurd h.operator (by decide)

theorem IsSeparator.holdsOperator {w : List Char} {op : Char} (h : IsSeparator w op) (p q : List Char) :
    holdsOperator (p ++ (w ++ q)) = true := by
  obtain ⟨u, v, hu, hublank, hv, hvblank, rfl⟩ := h.parts
  obtain ⟨c, v, rfl⟩ := List.exists_cons_of_ne_nil hv
  refine holdsOperator_iff.mpr ⟨p ++ u.dropLast, u.getLast hu, op, c, v ++ q, ?_, hublank _ (List.getLast_mem hu),
    h.operator, hvblank c List.mem_cons_self⟩
  conv_lhs => rw [← List.dropLast_append_getLast hu]
  simp

/-- Trimming what follows the left operand leads to the operator. -/
theorem IsSeparator.trim_append {w r : List Char} {op : Char} (h : IsSeparator w op) (hr : r ≠ [])
    (hend : ∀ c ∈ r.getLast?, isBlank c = false) : ∃ rest, trim (w ++ r) = op :: rest := by
  obtain ⟨u, v, -, hublank, -, -, rfl⟩ := h.parts
  have hlast : isBlank ((op :: (v ++ r)).getLast (List.cons_ne_nil _ _)) = false := by
    refine hend _ ?_
    rw [Option.mem_def, ← List.getLast?_eq_some_getLast, ← List.cons_append, List.getLast?_append_of_ne_nil _ hr]
  have htrim := Text.trim_append (v := []) hublank (List.cons_ne_nil op (v ++ r))
    (isBlank_eq_false_of_isOperator h.operator) hlast (by simp)
  rw [List.append_nil] at htrim
  exact ⟨v ++ r, by rw [List.append_assoc]; exact htrim⟩

/-- A separator is read as far as it goes. -/
theorem IsSeparator.takeOperator {w right : List Char} {op : Char} (h : IsSeparator w op)
    (hstart : StartsVisibly right) (hline : '\n' ∉ right) : takeOperator (w ++ right) = some (op, right) := by
  obtain ⟨u, v, -, hublank, hv, hvblank, rfl⟩ := h.parts
  obtain ⟨d, rest, rfl, hd⟩ := hstart
  obtain ⟨c, v, rfl⟩ := List.exists_cons_of_ne_nil hv
  rw [List.forall_mem_cons] at hvblank
  have hleft : trimLeft (u ++ op :: (c :: (v ++ d :: rest))) = op :: (c :: (v ++ d :: rest)) :=
    trimLeft_append hublank (List.cons_ne_nil _ _) (isBlank_eq_false_of_isOperator h.operator)
  have hright : trimLeft (v ++ d :: rest) = d :: rest := trimLeft_append hvblank.2 (List.cons_ne_nil _ _) hd
  unfold Expression.takeOperator
  rw [List.append_assoc, List.cons_append, List.cons_append, hleft]
  dsimp only
  rw [hright, h.operator, hvblank.1]
  simp [hline]

/-- A text divides in one way only into a separator and what follows it. -/
theorem IsSeparator.append_inj {w w' r r' : List Char} {op op' : Char} (h : IsSeparator w op) (h' : IsSeparator w' op')
    (hr : StartsVisibly r) (hr' : StartsVisibly r') (heq : w ++ r = w' ++ r') : op' = op ∧ r' = r := by
  obtain ⟨u, v, -, hublank, -, hvblank, rfl⟩ := h.parts
  obtain ⟨u', v', -, hublank', -, hvblank', rfl⟩ := h'.parts
  obtain ⟨c, r, rfl, hc⟩ := hr
  obtain ⟨c', r', rfl, hc'⟩ := hr'
  rw [List.append_assoc, List.append_assoc] at heq
  obtain ⟨-, hop, hrest⟩ := append_cons_inj hublank hublank' (isBlank_eq_false_of_isOperator h.operator)
    (isBlank_eq_false_of_isOperator h'.operator) heq
  obtain ⟨-, hchar, htail⟩ := append_cons_inj hvblank hvblank' hc hc' hrest
  exact ⟨hop.symm, by rw [hchar, htail]⟩

/-- Behind the blanks of a separator stand an operator and a blank. -/
theorem IsSeparator.startsOperator {w v r right : List Char} {op : Char} (h : IsSeparator w op)
    (hv : ∀ c ∈ v, isBlank c = true) (hr : StartsVisibly r) (heq : v ++ r = w ++ right) : startsOperator r = true := by
  obtain ⟨u, v', -, hublank, hv', hvblank', rfl⟩ := h.parts
  obtain ⟨c, r, rfl, hc⟩ := hr
  obtain ⟨d, v', rfl⟩ := List.exists_cons_of_ne_nil hv'
  rw [List.append_assoc, List.cons_append, List.cons_append] at heq
  obtain ⟨-, rfl, rfl⟩ := append_cons_inj hv hublank hc (isBlank_eq_false_of_isOperator h.operator) heq
  rw [Expression.startsOperator, h.operator, hvblank' d List.mem_cons_self]
  rfl

/-- A text with an operator between blanks in it, and what stands on the two sides, each on one line. -/
structure Splits (s left : List Char) (op : Char) (right : List Char) : Prop where
  left_ne : left ≠ []
  left_end : ∀ c ∈ left.getLast?, isBlank c = false
  left_line : '\n' ∉ left
  right_start : StartsVisibly right
  right_line : '\n' ∉ right
  text : ∃ w, IsSeparator w op ∧ s = left ++ (w ++ right)

/-- Blanks in front of the operator are skipped. -/
theorem takeOperator_cons {c : Char} (hc : isBlank c = true) (s : List Char) :
    takeOperator (c :: s) = takeOperator s := by
  have htrim : trimLeft (c :: s) = trimLeft s := List.dropWhile_cons_of_pos hc
  unfold takeOperator
  rw [htrim]

/-- What is taken behind a blank is a separator. -/
theorem exists_of_takeOperator {b : Char} {s right : List Char} {op : Char} (hb : isBlank b = true)
    (h : takeOperator (b :: s) = some (op, right)) :
    StartsVisibly right ∧ '\n' ∉ right ∧ ∃ w, IsSeparator w op ∧ b :: s = w ++ right := by
  rw [takeOperator_cons hb] at h
  unfold takeOperator at h
  split at h
  case h_2 => cases h
  case h_1 op' c r htrim =>
    dsimp only at h
    split at h
    case isFalse => cases h
    case isTrue hcond =>
      cases h
      simp only [Bool.and_eq_true, Bool.not_eq_true', List.isEmpty_eq_false_iff, List.contains_eq_mem,
        decide_eq_false_iff_not] at hcond
      obtain ⟨⟨⟨hop, hc⟩, hne⟩, hline⟩ := hcond
      obtain ⟨u, hu, hublank⟩ := exists_trimLeft s
      obtain ⟨v, hv, hvblank⟩ := exists_trimLeft r
      refine ⟨⟨_, _, (List.cons_head_tail hne).symm, head_trimLeft hne⟩, hline, b :: u ++ op :: c :: v,
        ⟨hop, b :: u, c :: v, List.cons_ne_nil b u, List.forall_mem_cons.mpr ⟨hb, hublank⟩, List.cons_ne_nil c v,
          List.forall_mem_cons.mpr ⟨hc, hvblank⟩, rfl⟩, ?_⟩
      rw [List.append_assoc, List.cons_append, List.cons_append, List.cons_append, ← hv, ← htrim, ← hu]

/-- What is found is an operator between blanks.  The side that has been read so far, given in reverse, does not end
with a blank from which the operator could have been found before. -/
theorem exists_of_splitOperator {left s l r : List Char} {op : Char}
    (hfirst : left = [] → ∀ c ∈ s.head?, isBlank c = false)
    (hlast : ∀ c ∈ left.head?, isBlank c = true → takeOperator s = none)
    (h : splitOperator left s = some (l, op, r)) :
    ∃ p b q, s = p ++ b :: q ∧ l = left.reverse ++ p ∧ '\n' ∉ p ∧ l ≠ [] ∧ (∀ c ∈ l.getLast?, isBlank c = false) ∧
      isBlank b = true ∧ takeOperator (b :: q) = some (op, r) := by
  induction s generalizing left with
  | nil => cases h
  | cons c s ih =>
      rw [splitOperator] at h
      split at h
      case h_1 op' right hfound =>
        cases h
        split at hfound
        case isFalse => cases hfound
        case isTrue hcond =>
          rw [Bool.and_eq_true, Bool.not_eq_true', List.isEmpty_eq_false_iff] at hcond
          refine ⟨[], c, s, rfl, by simp, by simp, by simpa using hcond.2, fun d hd => ?_, hcond.1, hfound⟩
          rw [List.getLast?_reverse] at hd
          rw [Bool.eq_false_iff]
          intro hblank
          rw [hlast d hd hblank] at hfound
          cases hfound
      case h_2 hfound =>
        split at h
        case isTrue => cases h
        case isFalse hc =>
          have hnext : ∀ d ∈ (c :: left).head?, isBlank d = true → takeOperator s = none := by
            intro d hd hblank
            cases hd
            have hne : left ≠ [] := fun hnil => by
              rw [hfirst hnil c rfl] at hblank
              cases hblank
            have hempty : left.isEmpty = false := List.isEmpty_eq_false_iff.mpr hne
            rw [← takeOperator_cons hblank]
            simpa [hblank, hempty] using hfound
          obtain ⟨p, b, q, rfl, rfl, hline, hne, hend, hblank, htake⟩ := ih (fun hnil => by cases hnil) hnext h
          refine ⟨c :: p, b, q, rfl, by simp, ?_, hne, hend, hblank, htake⟩
          rw [List.mem_cons, not_or]
          exact ⟨fun heq => hc heq.symm, hline⟩

/-- The split that is found in a text that starts with no blank. -/
theorem splits_of_splitOperator {s left right : List Char} {op : Char} (hs : StartsVisibly s)
    (h : splitOperator [] s = some (left, op, right)) : Splits s left op right := by
  obtain ⟨c, rest, rfl, hc⟩ := hs
  obtain ⟨p, b, q, htext, rfl, hline, hne, hend, hb, htake⟩ :=
    exists_of_splitOperator (fun _ d hd => by cases hd; exact hc) (fun d hd => by cases hd) h
  obtain ⟨hstart, hright, w, hw, hq⟩ := exists_of_takeOperator hb htake
  exact ⟨hne, hend, hline, hstart, hright, w, hw, by rw [htext, hq]⟩

/-- Where an operator can be taken, one is found there or before. -/
theorem exists_splitOperator {left p s right : List Char} {b op : Char} (hne : left ≠ [] ∨ p ≠ []) (hline : '\n' ∉ p)
    (hb : isBlank b = true) (htake : takeOperator (b :: s) = some (op, right)) :
    ∃ l o r, splitOperator left (p ++ b :: s) = some (l, o, r) ∧ l.length ≤ left.length + p.length := by
  induction p generalizing left with
  | nil =>
      have hempty : left.isEmpty = false := List.isEmpty_eq_false_iff.mpr (hne.resolve_right fun h => h rfl)
      refine ⟨left.reverse, op, right, ?_, by simp⟩
      rw [List.nil_append, splitOperator, hb, hempty, Bool.not_false, Bool.and_self, if_pos rfl, htake]
  | cons c p ih =>
      rw [List.mem_cons, not_or] at hline
      rw [List.cons_append, splitOperator]
      split
      case h_1 o r hfound => exact ⟨left.reverse, o, r, rfl, by simp⟩
      case h_2 =>
        obtain ⟨l, o, r, hsplit, hlength⟩ := ih (.inl (List.cons_ne_nil c left)) hline.2
        rw [if_neg fun heq => hline.1 heq.symm]
        refine ⟨l, o, r, hsplit, hlength.trans ?_⟩
        rw [List.length_cons, List.length_cons]
        omega

/-- The same for a text from its start. -/
theorem exists_first_split {p s right : List Char} {b op : Char} (hp : p ≠ []) (hline : '\n' ∉ p)
    (hb : isBlank b = true) (htake : takeOperator (b :: s) = some (op, right)) :
    ∃ l o r, splitOperator [] (p ++ b :: s) = some (l, o, r) ∧ l.length ≤ p.length := by
  obtain ⟨l, o, r, hsplit, hlength⟩ := exists_splitOperator (.inr hp) hline hb htake
  rw [List.length_nil, Nat.zero_add] at hlength
  exact ⟨l, o, r, hsplit, hlength⟩

/-! ### Two operands -/

/-- A beginning of a separator and what follows it, not ending with a blank: it ends with the operator or behind the
start of what follows. -/
theorem IsSeparator.cases_append {w r q t : List Char} {op : Char} (hw : IsSeparator w op) (hq : q ≠ [])
    (hend : ∀ c ∈ q.getLast?, isBlank c = false) (h : w ++ r = q ++ t) :
    (q.getLast? = some op ∧ ∃ v, (∀ c ∈ v, isBlank c = true) ∧ t = v ++ r) ∨
      ∃ p, p ≠ [] ∧ q = w ++ p ∧ r = p ++ t := by
  obtain ⟨u, v, -, hublank, -, hvblank, rfl⟩ := hw.parts
  -- the beginning does not end within blanks
  have hno {a : List Char} (ha : a ≠ []) (hblank : ∀ c ∈ a, isBlank c = true) (hlast : q.getLast? = a.getLast?) :
      False := by
    have hfalse := hend (a.getLast ha) (by rw [hlast]; exact List.getLast?_eq_some_getLast ha)
    rw [hblank _ (List.getLast_mem ha)] at hfalse
    cases hfalse
  rw [List.append_assoc, List.cons_append] at h
  rcases List.append_eq_append_iff.mp h with ⟨a, rfl, ha⟩ | ⟨a, rfl, -⟩
  · cases a with
    | nil =>
        rw [List.append_nil] at hq
        exact (hno hq hublank (by rw [List.append_nil])).elim
    | cons c a =>
        obtain ⟨rfl, hrest⟩ := List.cons.inj ha
        by_cases hnil : a = []
        · subst hnil
          exact .inl ⟨List.getLast?_concat, v, hvblank, hrest.symm⟩
        · have hlast : (u ++ op :: a).getLast? = a.getLast? := by
            rw [List.getLast?_append_of_ne_nil _ (List.cons_ne_nil op a), List.getLast?_cons_of_ne_nil hnil]
          rcases List.append_eq_append_iff.mp hrest with ⟨p, rfl, hp⟩ | ⟨p, rfl, -⟩
          · refine .inr ⟨p, ?_, by simp, hp⟩
            rintro rfl
            rw [List.append_nil] at hnil hlast
            exact hno hnil hvblank (by rw [List.append_nil, hlast])
          · exact (hno hnil (fun c hc => hvblank c (List.mem_append_left p hc)) hlast).elim
  · exact (hno hq (fun c hc => hublank c (List.mem_append_left a hc)) rfl).elim

/-- Two operands with a separator between them. -/
structure IsOperation (l w r : List Char) (op : Char) : Prop where
  left : IsOperand l
  left_start : StartsVisibly l
  left_end : ∀ c ∈ l.getLast?, isBlank c = false
  separator : IsSeparator w op
  right : IsOperand r
  right_start : StartsVisibly r
  right_end : ∀ c ∈ r.getLast?, isBlank c = false

/-- Part of a quoted text, from its start or up to its end, has one quotation mark. -/
theorem count_quote_part {inner a b : List Char} (hinner : '"' ∉ inner) (ha : a ≠ []) (hb : b ≠ [])
    (h : Literal.quoted inner = a ++ b) : a.count '"' = 1 ∧ b.count '"' = 1 := by
  obtain ⟨c, a, rfl⟩ := List.exists_cons_of_ne_nil ha
  obtain ⟨b, d, rfl⟩ := (List.eq_nil_or_concat' b).resolve_left hb
  rw [Literal.quoted, List.cons_append, ← List.append_assoc] at h
  obtain ⟨rfl, hrest⟩ := List.cons.inj h
  obtain ⟨rfl, hd⟩ := List.append_inj' hrest rfl
  cases hd
  rw [List.mem_append, not_or] at hinner
  rw [List.count_cons_self, List.count_append, List.count_eq_zero.mpr hinner.1, List.count_eq_zero.mpr hinner.2]
  exact ⟨rfl, rfl⟩

namespace IsOperation

variable {l w r left right : List Char} {op op' : Char} (h : IsOperation l w r op)

include h

/-- **Where an operation splits**: at the operator between its operands, inside the left operand or inside the right
one. -/
theorem splits_cases (split : Splits (l ++ (w ++ r)) left op' right) :
    (left = l ∧ op' = op ∧ right = r) ∨
      (∃ w' p, IsSeparator w' op' ∧ p ≠ [] ∧ l = left ++ (w' ++ p) ∧ right = p ++ (w ++ r)) ∨
      ∃ w' p, IsSeparator w' op' ∧ p ≠ [] ∧ r = p ++ (w' ++ right) ∧ left = l ++ (w ++ p) := by
  obtain ⟨w', hw', htext⟩ := split.text
  rcases List.append_eq_append_iff.mp htext with ⟨q, hq, hrest⟩ | ⟨q, hq, hrest⟩
  · by_cases hnil : q = []
    · subst hnil
      obtain ⟨hop, hright⟩ := h.separator.append_inj hw' h.right_start split.right_start hrest
      exact .inl ⟨by rw [hq, List.append_nil], hop, hright⟩
    · have hend : ∀ c ∈ q.getLast?, isBlank c = false := fun c hc =>
        split.left_end c (by rw [hq, List.getLast?_append_of_ne_nil _ hnil]; exact hc)
      rcases h.separator.cases_append hnil hend hrest with ⟨-, v, hvblank, hsplit⟩ | ⟨p, hp, rfl, hsplit⟩
      · have hfalse := hw'.startsOperator hvblank h.right_start hsplit.symm
        rw [h.right.startsOperator_eq_false] at hfalse
        cases hfalse
      · exact .inr (.inr ⟨w', p, hw', hp, hsplit, hq⟩)
  · by_cases hnil : q = []
    · subst hnil
      obtain ⟨hop, hright⟩ := hw'.append_inj h.separator split.right_start h.right_start hrest
      exact .inl ⟨by rw [hq, List.append_nil], hop.symm, hright.symm⟩
    · have hlast : l.getLast? = q.getLast? := by rw [hq, List.getLast?_append_of_ne_nil _ hnil]
      rcases hw'.cases_append hnil (hlast ▸ h.left_end) hrest with ⟨hop, -⟩ | ⟨p, hp, rfl, hsplit⟩
      · have hfalse := h.left.last op' (hlast ▸ hop)
        rw [hw'.operator] at hfalse
        cases hfalse
      · exact .inr (.inl ⟨w', p, hw', hp, hq, hsplit⟩)

/-- A split inside an operand has an odd number of quotation marks on both sides. -/
theorem splits_odd (split : Splits (l ++ (w ++ r)) left op' right) :
    (left = l ∧ op' = op ∧ right = r) ∨ (left.count '"' % 2 = 1 ∧ right.count '"' % 2 = 1) := by
  have hw := h.separator.count_quote
  have hl := h.left.count_quote
  have hr := h.right.count_quote
  rcases h.splits_cases split with hsame | ⟨w', p, hw', hp, heq, hright⟩ | ⟨w', p, hw', hp, heq, hleft⟩
  · exact .inl hsame
  · have hop : holdsOperator l = true := heq ▸ hw'.holdsOperator left p
    obtain ⟨inner, hquoted, hinner⟩ := h.left.exists_of_holdsOperator hop
    obtain ⟨hcount, hcount'⟩ := count_quote_part hinner split.left_ne (List.append_ne_nil_of_right_ne_nil w' hp)
      (hquoted.symm.trans heq)
    rw [List.count_append, hw'.count_quote] at hcount'
    refine .inr ⟨by omega, ?_⟩
    rw [hright, List.count_append, List.count_append, hw]
    omega
  · have hop : holdsOperator r = true := heq ▸ hw'.holdsOperator p right
    obtain ⟨inner, hquoted, hinner⟩ := h.right.exists_of_holdsOperator hop
    obtain ⟨c, rest, hright, -⟩ := split.right_start
    have hne : right ≠ [] := hright ▸ List.cons_ne_nil c rest
    obtain ⟨hcount, hcount'⟩ := count_quote_part hinner hp (List.append_ne_nil_of_right_ne_nil w' hne)
      (hquoted.symm.trans heq)
    rw [List.count_append, hw'.count_quote] at hcount'
    refine .inr ⟨?_, by omega⟩
    rw [hleft, List.count_append, List.count_append, hw]
    omega

/-- The text of an operation starts and ends where its operands do. -/
theorem startsVisibly : StartsVisibly (l ++ (w ++ r)) := by
  obtain ⟨c, rest, hl, hc⟩ := h.left_start
  exact ⟨c, rest ++ (w ++ r), by rw [hl, List.cons_append], hc⟩

theorem right_ne : r ≠ [] := by
  obtain ⟨c, rest, rfl, -⟩ := h.right_start
  exact List.cons_ne_nil c rest

theorem left_ne : l ≠ [] := by
  obtain ⟨c, rest, rfl, -⟩ := h.left_start
  exact List.cons_ne_nil c rest

/-- An operation is not an operand itself. -/
theorem not_isOperand : ¬ IsOperand (l ++ (w ++ r)) := by
  intro hoperand
  obtain ⟨inner, hquoted, hinner⟩ := hoperand.exists_of_holdsOperator (h.separator.holdsOperator l r)
  have hcount := (count_quote_part hinner h.left_ne (List.append_ne_nil_of_right_ne_nil w h.right_ne) hquoted.symm).1
  have heven := h.left.count_quote
  omega

theorem ends : ∃ hne : l ++ (w ++ r) ≠ [],
    isBlank ((l ++ (w ++ r)).head hne) = false ∧ isBlank ((l ++ (w ++ r)).getLast hne) = false := by
  obtain ⟨c, rest, htext, hc⟩ := h.startsVisibly
  have hne : l ++ (w ++ r) ≠ [] := htext ▸ List.cons_ne_nil c rest
  refine ⟨hne, ?_, h.right_end _ ?_⟩
  · simp only [htext, List.head_cons, hc]
  · rw [Option.mem_def, ← List.getLast?_eq_some_getLast hne, ← List.append_assoc,
      List.getLast?_append_of_ne_nil _ h.right_ne]

theorem trim_eq : trim (l ++ (w ++ r)) = l ++ (w ++ r) := by
  obtain ⟨hne, hfirst, hlast⟩ := h.ends
  exact trim_of_ends hne hfirst hlast

/-- An operation is no call: what follows a name in it is no parenthesis. -/
theorem splitCall_eq_none : splitCall (l ++ (w ++ r)) = none := by
  rcases h.left.isName_or with hname | hstart
  · obtain ⟨b, w', hw, hb⟩ := h.separator.exists_blank
    have htake : takeName (l ++ (w ++ r)) = some (l, w ++ r) := by
      refine takeName_append hname fun c hc => ?_
      rw [hw] at hc
      cases hc
      rw [Bool.eq_false_iff]
      intro hword
      rw [isBlank_eq_false_of_isWord hword] at hb
      cases hb
    obtain ⟨rest, htrim⟩ := h.separator.trim_append h.right_ne h.right_end
    unfold splitCall
    rw [htake]
    simp only [Option.bind_eq_bind, Option.bind_some, htrim, List.head?_cons]
    split
    case h_2 => rfl
    case h_1 hhead _ =>
      cases hhead
      exact absurd h.separator.operator (by decide)
  · obtain ⟨c, rest, rfl, -⟩ := h.left_start
    have htake : takeName (c :: rest ++ (w ++ r)) = none := by
      rw [List.cons_append, takeName, hstart c rfl]
      rfl
    unfold splitCall
    rw [htake]
    rfl

/-- The operator is found if the operands have no line feeds in them, and no operator that is found before it. -/
theorem splitOperator_eq (hl : '\n' ∉ l) (hr : '\n' ∉ r) (hfirst : holdsOperator l = true → '\n' ∈ w) :
    splitOperator [] (l ++ (w ++ r)) = some (l, op, r) := by
  have htake := h.separator.takeOperator h.right_start hr
  obtain ⟨b, w', hw, hb⟩ := h.separator.exists_blank
  obtain ⟨left, op', right, hsplit, hlength⟩ : ∃ left op' right,
      splitOperator [] (l ++ (w ++ r)) = some (left, op', right) ∧ left.length ≤ l.length := by
    rw [hw] at htake ⊢
    exact exists_first_split h.left_ne hl hb htake
  have split := splits_of_splitOperator h.startsVisibly hsplit
  rcases h.splits_cases split with ⟨rfl, rfl, rfl⟩ | ⟨w', p, hw', -, heq, hright⟩ | ⟨w', p, -, hp, -, hleft⟩
  · exact hsplit
  · have hop : holdsOperator l = true := heq ▸ hw'.holdsOperator left p
    refine absurd ?_ split.right_line
    rw [hright]
    exact List.mem_append_right p (List.mem_append_left r (hfirst hop))
  · have hpositive := List.length_pos_iff.mpr hp
    rw [hleft, List.length_append, List.length_append] at hlength
    omega

/-- An operator inside the left operand is found before the other one, unless a line feed follows. -/
theorem splitOperator_ne (hl : '\n' ∉ l) (hr : '\n' ∉ r) (hw : '\n' ∉ w) (hop : holdsOperator l = true) :
    splitOperator [] (l ++ (w ++ r)) ≠ some (l, op', right) := by
  intro hsplit
  obtain ⟨p, b, o, c, q, hl', hb, ho, hc⟩ := holdsOperator_iff.mp hop
  have hp : p ≠ [] := by
    rintro rfl
    obtain ⟨d, rest, hstart, hd⟩ := h.left_start
    rw [hl'] at hstart
    cases hstart
    rw [hb] at hd
    cases hd
  obtain ⟨v, hv, hvblank⟩ := exists_trimLeft (q ++ (w ++ r))
  have hright : StartsVisibly (trimLeft (q ++ (w ++ r))) := by
    obtain ⟨d, rest, hr, hd⟩ := h.right_start
    have hne : trimLeft (q ++ (w ++ r)) ≠ [] := by
      intro hnil
      have hall := List.dropWhile_eq_nil_iff.mp hnil d (by simp [hr])
      rw [hd] at hall
      cases hall
    exact ⟨_, _, (List.cons_head_tail hne).symm, head_trimLeft hne⟩
  have hline : '\n' ∉ trimLeft (q ++ (w ++ r)) := by
    intro hmem
    rcases List.mem_append.mp (mem_of_mem_trimLeft hmem) with hmem | hmem
    · exact hl (by rw [hl']; simp [hmem])
    · exact (List.mem_append.mp hmem).elim hw hr
  have hseparator : IsSeparator ([b] ++ o :: (c :: v)) o :=
    ⟨ho, [b], c :: v, List.cons_ne_nil b [], by simp [hb], List.cons_ne_nil c v,
      List.forall_mem_cons.mpr ⟨hc, hvblank⟩, rfl⟩
  have htake := hseparator.takeOperator hright hline
  have htext : l ++ (w ++ r) = p ++ b :: (o :: c :: v ++ trimLeft (q ++ (w ++ r))) := by
    rw [hl', List.append_assoc, List.cons_append, List.cons_append, List.cons_append, List.cons_append,
      List.cons_append, ← hv]
  obtain ⟨l'', o', r', hfound, hlength⟩ := exists_first_split hp (fun hmem => hl (by rw [hl']; simp [hmem])) hb htake
  rw [htext] at hsplit
  have hsame := hfound.symm.trans hsplit
  cases hsame
  rw [hl', List.length_append, List.length_cons] at hlength
  omega

/-- Otherwise no split gives two operands. -/
theorem odd_of_splitOperator (hnot : ¬ ('\n' ∉ l ∧ '\n' ∉ r ∧ (holdsOperator l = true → '\n' ∈ w)))
    (hsplit : splitOperator [] (l ++ (w ++ r)) = some (left, op', right)) :
    left.count '"' % 2 = 1 ∧ right.count '"' % 2 = 1 := by
  have split := splits_of_splitOperator h.startsVisibly hsplit
  rcases h.splits_odd split with ⟨rfl, rfl, rfl⟩ | hodd
  · refine absurd ⟨split.left_line, split.right_line, fun hop => ?_⟩ hnot
    by_contra hw
    exact h.splitOperator_ne split.left_line split.right_line hw hop hsplit
  · exact hodd

end IsOperation

/-! ### Evaluation -/

/-- Two operands with an operator and single spaces between them; the blanks at their ends belong to the separator. -/
theorem exists_isOperation {left right : List Char} {op : Char} (hop : isOperator op = true)
    (hleft : IsOperand (trim left)) (hright : IsOperand (trim right)) :
    ∃ w, IsOperation (trim left) w (trim right) op ∧
      trim (left ++ ' ' :: op :: ' ' :: right) = trim left ++ (w ++ trim right) := by
  have hvisible {s : List Char} (hne : trim s ≠ []) :
      StartsVisibly (trim s) ∧ ∀ c ∈ (trim s).getLast?, isBlank c = false := by
    obtain ⟨hfirst, hlast⟩ := ends_trim hne
    refine ⟨⟨_, _, (List.cons_head_tail hne).symm, hfirst⟩, fun c hc => ?_⟩
    rw [List.getLast?_eq_some_getLast hne] at hc
    exact Option.some.inj hc ▸ hlast
  obtain ⟨u, v, hl, hu, hv⟩ := exists_trim left
  obtain ⟨u', v', hr, hu', hv'⟩ := exists_trim right
  obtain ⟨hlstart, hlend⟩ := hvisible hleft.nonempty
  obtain ⟨hrstart, hrend⟩ := hvisible hright.nonempty
  have hspace : isBlank ' ' = true := rfl
  have hw : IsSeparator ((v ++ [' ']) ++ op :: (' ' :: u')) op := by
    refine ⟨hop, v ++ [' '], ' ' :: u', by simp, fun c hc => ?_, List.cons_ne_nil _ _,
      List.forall_mem_cons.mpr ⟨hspace, hu'⟩, rfl⟩
    exact (List.mem_append.mp hc).elim (hv c) fun hmem => List.mem_singleton.mp hmem ▸ hspace
  have h : IsOperation (trim left) ((v ++ [' ']) ++ op :: (' ' :: u')) (trim right) op :=
    ⟨hleft, hlstart, hlend, hw, hright, hrstart, hrend⟩
  refine ⟨_, h, ?_⟩
  obtain ⟨hne, hfirst, hlast⟩ := h.ends
  have hsplit : left ++ ' ' :: op :: ' ' :: right =
      u ++ (trim left ++ ((v ++ [' ']) ++ op :: (' ' :: u') ++ trim right)) ++ v' := by
    conv_lhs => rw [hl, hr]
    simp
  rw [hsplit]
  exact trim_append hu hne hfirst hlast hv'

variable {R : Type} [Scalar R] {vars : Table (Value R)} {g : Random.Stream}

/-- An operation is neither an operand nor a call. -/
theorem IsOperation.evaluate_eq {l w r : List Char} {op : Char} (h : IsOperation l w r op) {text : String}
    (htext : trim text.toList = l ++ (w ++ r)) : evaluate vars g text = evaluateBinary vars (l ++ (w ++ r)) := by
  have hoperand : operand? vars (l ++ (w ++ r)) = .ok none :=
    operand?_eq_none (by rw [h.trim_eq]; exact h.not_isOperand)
  unfold evaluate
  dsimp only
  rw [htext, hoperand]
  simp only [h.splitCall_eq_none]
  rfl

/-- A text that splits into two operands has the value of the operator on them. -/
theorem evaluateBinary_of_operands {s left right : List Char} {op : Char} {a b : Value R}
    (hsplit : splitOperator [] s = some (left, op, right)) (hleft : operand? vars left = .ok (some a))
    (hright : operand? vars right = .ok (some b)) : evaluateBinary vars s = applyOperator op a b := by
  unfold evaluateBinary
  rw [hsplit]
  dsimp only
  rw [hleft, hright]
  rfl

/-- A text whose sides are no operands wherever it splits stands for itself. -/
theorem evaluateBinary_of_odd {s : List Char}
    (hodd : ∀ left op right, splitOperator [] s = some (left, op, right) →
      left.count '"' % 2 = 1 ∧ right.count '"' % 2 = 1) : evaluateBinary vars s = .ok (.raw (String.ofList s)) := by
  unfold evaluateBinary
  cases hsplit : splitOperator [] s with
  | none => rfl
  | some found =>
      obtain ⟨left, op, right⟩ := found
      obtain ⟨hleft, hright⟩ := hodd left op right hsplit
      dsimp only
      rw [operand?_of_odd hleft, operand?_of_odd hright]
      rfl

/-- The operator between two operands is the one that is found in their text: no operand has a line feed in it, and no
operator between blanks stands in the left operand, unless a line feed follows that keeps it from being found. -/
def IsFound (left right text : List Char) : Prop :=
  '\n' ∉ trim left ∧ '\n' ∉ trim right ∧ (holdsOperator (trim left) = true → '\n' ∈ trim text)

/-- **When an operation is performed.**  Take any bindings, any operator and any two texts that have values as operands,
and write the operator between them, with spaces around it.  If the operator is the one that is found, then the text has
the value, or the fault, of the operator on the two values.  If it is not, the text stands for itself, whatever is found
instead.  Only a quoted text on the left can hide the operator behind one of its own. -/
theorem evaluate_operation (vars : Table (Value R)) (g : Random.Stream) {left right text : String} {op : Char}
    {a b : Value R} (hop : isOperator op = true) (hleft : operand? vars left.toList = .ok (some a))
    (hright : operand? vars right.toList = .ok (some b))
    (htext : text = left ++ " " ++ String.singleton op ++ " " ++ right) :
    (IsFound left.toList right.toList text.toList → evaluate vars g text = applyOperator op a b) ∧
    (¬ IsFound left.toList right.toList text.toList → evaluate vars g text = .ok (.raw (trimString text))) ∧
    (holdsOperator (trim left.toList) = true → ∃ inner, trim left.toList = Literal.quoted inner ∧ '"' ∉ inner) := by
  have hoperand {s : List Char} {v : Value R} (h : operand? vars s = .ok (some v)) : IsOperand (trim s) := by
    by_contra hnot
    rw [operand?_eq_none hnot] at h
    cases h
  obtain ⟨w, h, htrim⟩ := exists_isOperation hop (hoperand hleft) (hoperand hright)
  have hlist : text.toList = left.toList ++ ' ' :: op :: ' ' :: right.toList := by
    rw [htext]
    simp [String.toList_append]
  rw [← hlist] at htrim
  rw [h.evaluate_eq htrim]
  -- between operands without line feeds a line feed belongs to the separator
  have hfound : IsFound left.toList right.toList text.toList ↔ '\n' ∉ trim left.toList ∧ '\n' ∉ trim right.toList ∧
      (holdsOperator (trim left.toList) = true → '\n' ∈ w) := by
    unfold IsFound
    rw [htrim]
    refine and_congr_right fun hl => and_congr_right fun hr => ?_
    simp [hl, hr]
  refine ⟨fun hif => ?_, fun hnot => ?_, h.left.exists_of_holdsOperator⟩
  · obtain ⟨hl, hr, hfirst⟩ := hfound.mp hif
    exact evaluateBinary_of_operands (h.splitOperator_eq hl hr hfirst) (by rw [operand?_trim, hleft])
      (by rw [operand?_trim, hright])
  · rw [evaluateBinary_of_odd fun _ _ _ hsplit => h.odd_of_splitOperator (fun hw => hnot (hfound.mpr hw)) hsplit,
      ← htrim]
    rfl

/-- An operator between the quotation marks of the left operand: the text stands for itself, unless the operator of the
operation follows on the next line. -/
theorem evaluate_operation_hidden :
    operand? ([] : Table (Value Float)) "\"a - b\"".toList = .ok (some (.text "a - b")) ∧
    evaluate ([] : Table (Value Float)) (.ofSeed ⟨7, []⟩) "\"a - b\" + \"c\"" = .ok (.raw "\"a - b\" + \"c\"") ∧
    evaluate ([] : Table (Value Float)) (.ofSeed ⟨7, []⟩) "\"a - b\"\n + \"c\"" = .ok (.text "a - bc") := by
  have hleft : operand? ([] : Table (Value Float)) "\"a - b\"".toList = .ok (some (.text "a - b")) := rfl
  have hbelow : operand? ([] : Table (Value Float)) "\"a - b\"\n".toList = .ok (some (.text "a - b")) := rfl
  have hright : operand? ([] : Table (Value Float)) "\"c\"".toList = .ok (some (.text "c")) := rfl
  have hop : isOperator '+' = true := rfl
  refine ⟨hleft, ?_, ?_⟩
  · exact (evaluate_operation [] (.ofSeed ⟨7, []⟩) hop hleft hright rfl).2.1 (by unfold IsFound; decide)
  · exact (evaluate_operation [] (.ofSeed ⟨7, []⟩) hop hbelow hright rfl).1 (by unfold IsFound; decide)

end LabLang.Expression
