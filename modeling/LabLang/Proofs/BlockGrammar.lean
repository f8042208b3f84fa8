import LabLang.Proofs.Names
import LabLang.Proofs.PlainText

/-! # How parallel blocks are written

A block has a head, which is the keyword alone or with a colon, a brace or a pair of braces behind it (`IsHead`), and its
lines each declare a branch: the keyword, a name, a colon and an expression (`Declares`).  The two readers take exactly
these texts from the lines of a program, which have no blanks at their ends (`isHead_iff`, `declaration?_eq_some`).  The
loop over the lines gives one branch for each of them, or stops at the first one that declares none or repeats a label
(`branchesAfter_eq_error`).  So a block of a program is read exactly if it is written like this, and what it is refused
for otherwise is the first thing that is wrong with it (`block_read_exactly`). -/

namespace LabLang

open Text Source

namespace Source

/-! ### Texts of lines -/

/-- The heads and the lines of bodies hold what is left of lines of the program. -/
theorem isContent_of_mem_statements {source : String} {s : Statement} (h : s ∈ statements source) {p : Nat × String}
    (hp : p ∈ s.lines) : IsContent p.2.toList := by
  obtain ⟨l, hl, rfl⟩ := mem_lines_of_mem_group h hp
  exact isContent_of_mem_normalize hl

theorem IsContent.getLast_append {s t : List Char} (h : IsContent (s ++ t)) (ht : t ≠ []) :
    isBlank (t.getLast ht) = false := by
  have hlast := h.last
  rwa [List.getLast_append_of_ne_nil _ ht] at hlast

/-- There are no blanks at the end. -/
theorem IsContent.eq_nil_of_blank {s u : List Char} (h : IsContent (s ++ u)) (hu : ∀ c ∈ u, isBlank c = true) :
    u = [] := by
  by_contra hne
  have hlast := h.getLast_append hne
  rw [hu _ (List.getLast_mem hne)] at hlast
  cases hlast

end Source

namespace Parallel

/-! ### Heads -/

/-- The text is the head of a block. -/
inductive IsHead : List Char → Prop
  | bare : IsHead "parallel".toList
  | colon {u : List Char} (hu : ∀ c ∈ u, isBlank c = true) : IsHead ("parallel".toList ++ (u ++ [':']))
  | brace {u : List Char} (hu : ∀ c ∈ u, isBlank c = true) : IsHead ("parallel".toList ++ (u ++ ['\x7b']))
  | braces {u v : List Char} (hu : ∀ c ∈ u, isBlank c = true) (hv : ∀ c ∈ v, isBlank c = true) :
      IsHead ("parallel".toList ++ (u ++ '\x7b' :: (v ++ ['\x7d'])))

/-- What may follow the word besides blanks. -/
theorem isHeadEnd_iff {s : List Char} : isHeadEnd s = true ↔ s = [] ∨ s = [':'] ∨
    ∃ v, (∀ c ∈ v, isBlank c = true) ∧ (s = '\x7b' :: v ∨ s = '\x7b' :: (v ++ ['\x7d'])) := by
  constructor
  · intro h
    unfold isHeadEnd at h
    split at h
    case h_1 => exact .inl rfl
    case h_2 => exact .inr (.inl rfl)
    case h_3 r =>
      refine .inr (.inr ?_)
      rcases Bool.or_eq_true_iff.mp h with hr | hr
      · exact ⟨r, List.all_eq_true.mp hr, .inl rfl⟩
      · split at hr
        case h_1 v hreverse =>
          rw [List.reverse_eq_cons_iff] at hreverse
          refine ⟨v.reverse, fun c hc => List.all_eq_true.mp hr c (List.mem_reverse.mp hc), .inr ?_⟩
          rw [hreverse]
        case h_2 => cases hr
    case h_4 => cases h
  · rintro (rfl | rfl | ⟨v, hv, rfl | rfl⟩)
    · rfl
    · rfl
    · exact Bool.or_eq_true_iff.mpr (.inl (List.all_eq_true.mpr hv))
    · refine Bool.or_eq_true_iff.mpr (.inr ?_)
      rw [List.reverse_append]
      exact List.all_eq_true.mpr fun c hc => hv c (List.mem_reverse.mp hc)

theorem isHead_of_end {text : String} {u e : List Char} (htext : text.toList = "parallel".toList ++ (u ++ e))
    (hu : ∀ c ∈ u, isBlank c = true) (hne : e ≠ []) (hfirst : isBlank (e.head hne) = false) (he : isHeadEnd e = true) :
    isHead text = true := by
  unfold isHead
  rw [htext, dropWord_append]
  dsimp only
  rw [trimLeft_append hu hne hfirst, he]

/-- The heads of blocks among the texts of lines. -/
theorem isHead_iff {text : String} (h : IsContent text.toList) : isHead text = true ↔ IsHead text.toList := by
  constructor
  · intro hhead
    unfold isHead at hhead
    cases hdrop : dropWord "parallel".toList text.toList with
    | none =>
        rw [hdrop] at hhead
        cases hhead
    | some r =>
        rw [hdrop] at hhead
        have htext := eq_append_of_dropWord hdrop
        obtain ⟨u, hr, hu⟩ := exists_trimLeft r
        rw [hr] at htext
        rcases isHeadEnd_iff.mp hhead with hnil | hcolon | ⟨v, hv, hbrace | hbraces⟩
        · rw [hnil, List.append_nil] at htext
          obtain rfl : u = [] := IsContent.eq_nil_of_blank (htext ▸ h) hu
          rw [htext, List.append_nil]
          exact .bare
        · rw [htext, hcolon]
          exact .colon hu
        · rw [hbrace] at htext
          obtain rfl : v = [] := by
            refine IsContent.eq_nil_of_blank (s := "parallel".toList ++ (u ++ ['\x7b'])) ?_ hv
            rw [htext] at h
            simpa using h
          rw [htext]
          exact .brace hu
        · rw [htext, hbraces]
          exact .braces hu hv
  · intro hhead
    generalize htext : text.toList = t at hhead
    cases hhead with
    | bare =>
        unfold isHead
        rw [htext]
        rfl
    | colon hu => exact isHead_of_end htext hu (List.cons_ne_nil _ _) rfl rfl
    | brace hu => exact isHead_of_end htext hu (List.cons_ne_nil _ _) rfl rfl
    | braces hu hv =>
        exact isHead_of_end htext hu (List.cons_ne_nil _ _) rfl (isHeadEnd_iff.mpr (.inr (.inr ⟨_, hv, .inr rfl⟩)))

/-! ### Branches -/

/-- The text declares a branch: behind the keyword and a blank stand the label, a colon and the expression, which is not
empty.  More blanks may stand between these parts. -/
def Declares (text label expression : List Char) : Prop :=
  ∃ u v w, u ≠ [] ∧ (∀ c ∈ u ++ (v ++ w), isBlank c = true) ∧ isName label = true ∧ expression ≠ [] ∧
    trim expression = expression ∧ text = "branch".toList ++ (u ++ (label ++ (v ++ ':' :: (w ++ expression))))

theorem dropWordAndBlanks_append {word : String} {u s : List Char} (hu : u ≠ []) (hblank : ∀ c ∈ u, isBlank c = true)
    (hne : s ≠ []) (hfirst : isBlank (s.head hne) = false) :
    dropWordAndBlanks word (word.toList ++ (u ++ s)) = some s := by
  obtain ⟨c, u, rfl⟩ := List.exists_cons_of_ne_nil hu
  obtain ⟨hc, hrest⟩ := List.forall_mem_cons.mp hblank
  unfold dropWordAndBlanks
  rw [dropWord_append]
  show (if isBlank c then some (trimLeft (u ++ s)) else none) = _
  rw [if_pos hc, trimLeft_append hrest hne hfirst]

theorem exists_of_dropWordAndBlanks {word : String} {s r : List Char} (h : dropWordAndBlanks word s = some r) :
    ∃ u, u ≠ [] ∧ (∀ c ∈ u, isBlank c = true) ∧ s = word.toList ++ (u ++ r) := by
  unfold dropWordAndBlanks at h
  split at h
  case h_1 c t hdrop =>
    split at h
    · rename_i hc
      cases h
      obtain ⟨u, ht, hu⟩ := exists_trimLeft t
      refine ⟨c :: u, List.cons_ne_nil c u, List.forall_mem_cons.mpr ⟨hc, hu⟩, ?_⟩
      rw [eq_append_of_dropWord hdrop, List.cons_append, ← ht]
    · cases h
  case h_2 => cases h

/-- What stands behind a label does not continue it. -/
theorem isWord_of_mem_head_colon {v rest : List Char} (hv : ∀ c ∈ v, isBlank c = true) :
    ∀ c ∈ (v ++ ':' :: rest).head?, isWord c = false := by
  intro c hc
  cases v with
  | nil =>
      obtain rfl := Option.some.inj hc
      decide
  | cons d v =>
      obtain rfl := Option.some.inj hc
      by_contra hword
      rw [Bool.not_eq_false] at hword
      have hblank := isBlank_eq_false_of_isWord hword
      rw [hv d List.mem_cons_self] at hblank
      cases hblank

section declarations

variable {text label expression : String} (h : IsContent text.toList)
include h

theorem declares_of_declaration? (hread : declaration? text = some (label, expression)) :
    Declares text.toList label.toList expression.toList := by
  unfold declaration? at hread
  obtain ⟨r, hword, hread⟩ := Option.bind_eq_some_iff.mp hread
  obtain ⟨⟨name, rest⟩, hname, hread⟩ := Option.bind_eq_some_iff.mp hread
  dsimp only at hread
  split at hread
  case h_2 => cases hread
  case h_1 tail hcolon =>
    split at hread
    · cases hread
    · rename_i hempty
      cases hread
      obtain ⟨u, hu, hublank, htext⟩ := exists_of_dropWordAndBlanks hword
      obtain ⟨hr, hlabel⟩ := append_of_takeName hname
      obtain ⟨v, hrest, hv⟩ := exists_trimLeft rest
      obtain ⟨w, htail, hw⟩ := exists_trimLeft tail
      have hne : trimLeft tail ≠ [] := by
        intro hnil
        simp [hnil] at hempty
      rw [hr, hrest, hcolon] at htext
      have hlast : isBlank ((trimLeft tail).getLast hne) = false := by
        refine IsContent.getLast_append (s := "branch".toList ++ (u ++ (name ++ (v ++ ':' :: w)))) ?_ hne
        rw [htext, htail] at h
        simpa using h
      have htrim : trim (trimLeft tail) = trimLeft tail := trim_of_ends hne (head_trimLeft hne) hlast
      rw [String.toList_ofList, String.toList_ofList, htrim]
      refine ⟨u, v, w, hu, ?_, hlabel, hne, htrim, ?_⟩
      · exact List.forall_mem_append.mpr ⟨hublank, List.forall_mem_append.mpr ⟨hv, hw⟩⟩
      · rw [htext, ← htail]

theorem declaration?_of_declares (hdeclares : Declares text.toList label.toList expression.toList) :
    declaration? text = some (label, expression) := by
  obtain ⟨u, v, w, hu, hblank, hlabel, hne, htrim, htext⟩ := hdeclares
  obtain ⟨hublank, hblank⟩ := List.forall_mem_append.mp hblank
  obtain ⟨hv, hw⟩ := List.forall_mem_append.mp hblank
  obtain ⟨c, r, hcons, hc, -⟩ := isName_iff.mp hlabel
  have hword : dropWordAndBlanks "branch" text.toList = some (label.toList ++ (v ++ ':' :: (w ++ expression.toList))) := by
    rw [htext]
    refine dropWordAndBlanks_append hu hublank (by simp [hcons]) ?_
    simp only [hcons, List.cons_append, List.head_cons]
    exact isBlank_eq_false_of_isWord (isWord_of_isNameStart hc)
  have hname : takeName (label.toList ++ (v ++ ':' :: (w ++ expression.toList))) =
      some (label.toList, v ++ ':' :: (w ++ expression.toList)) :=
    takeName_append hlabel (isWord_of_mem_head_colon hv)
  have hcolon : trimLeft (v ++ ':' :: (w ++ expression.toList)) = ':' :: (w ++ expression.toList) :=
    trimLeft_append hv (List.cons_ne_nil _ _) rfl
  have hfirst : isBlank (expression.toList.head hne) = false := by
    have hends := ends_trim (s := expression.toList) (htrim.symm ▸ hne)
    simp only [htrim] at hends
    exact hends.1
  have htail : trimLeft (w ++ expression.toList) = expression.toList := trimLeft_append hw hne hfirst
  have hline : '\n' ∉ expression.toList := fun hmem => by
    have hclean := (h.clean '\n' (by rw [htext]; simp [hmem])).2.2
    cases hclean
  unfold declaration?
  rw [hword, Option.bind_eq_bind, Option.bind_some, hname]
  simp [hcolon, htail, hne, hline, htrim]

/-- The declarations among the texts of lines. -/
theorem declaration?_eq_some :
    declaration? text = some (label, expression) ↔ Declares text.toList label.toList expression.toList :=
  ⟨declares_of_declaration? h, declaration?_of_declares h⟩

end declarations

/-! ### Bodies -/

section bodies

variable {R : Type}

/-- The line is written like the branch. -/
def Branch.IsWritten (l : SourceLine) (b : Branch) : Prop :=
  Declares l.text.toList b.label.toList b.expression.toList ∧ b.line = l.number

/-- The lines declare the branches, one each, and no label is declared twice. -/
structure IsBody (lines : List SourceLine) (branches : List Branch) : Prop where
  written : List.Forall₂ Branch.IsWritten lines branches
  distinct : (branches.map Branch.label).Nodup

/-- What is wrong with a line behind lines that declare the given labels. -/
inductive Offends (taken : List String) (l : SourceLine) : Malformed → Prop
  | branch (h : ∀ label expression : String, ¬ Declares l.text.toList label.toList expression.toList) :
      Offends taken l (.branch l.text)
  | label {label expression : String} (h : Declares l.text.toList label.toList expression.toList)
      (hmem : label ∈ taken) : Offends taken l (.repeatedLabel label)

theorem Offends.mono {taken taken' : List String} (h : taken ⊆ taken') {l : SourceLine} {fault : Malformed}
    (hoffends : Offends taken l fault) : Offends taken' l fault := by
  cases hoffends with
  | branch hnone => exact .branch hnone
  | label hsome hmem => exact .label hsome (h hmem)

section

variable {lines : List SourceLine} (hlines : ∀ l ∈ lines, IsContent l.text.toList)
include hlines

theorem isBody_iff {branches : List Branch} : branchesAfter (R := R) [] lines = .ok branches ↔ IsBody lines branches := by
  have hdeclared : List.Forall₂ Branch.IsDeclaredBy lines branches ↔ List.Forall₂ Branch.IsWritten lines branches := by
    constructor
    · intro h
      refine ((List.forall₂_and_left lines branches).mpr ⟨hlines, h⟩).imp fun l b hl => ?_
      exact ⟨(declaration?_eq_some hl.1).mp hl.2.1, hl.2.2⟩
    · intro h
      refine ((List.forall₂_and_left lines branches).mpr ⟨hlines, h⟩).imp fun l b hl => ?_
      exact ⟨(declaration?_eq_some hl.1).mpr hl.2.1, hl.2.2⟩
  rw [branchesAfter_eq_ok, hdeclared]
  constructor
  · rintro ⟨hwritten, hdistinct, -⟩
    exact ⟨hwritten, hdistinct⟩
  · rintro ⟨hwritten, hdistinct⟩
    exact ⟨hwritten, hdistinct, by simp⟩

end

section

variable {l : SourceLine} (hl : IsContent l.text.toList)
include hl

theorem offends_of_eq_none (hd : declaration? l.text = none) {taken : List String} {fault : Malformed} :
    Offends taken l fault ↔ fault = .branch l.text := by
  have hnone (label expression : String) : ¬ Declares l.text.toList label.toList expression.toList := fun h => by
    rw [(declaration?_eq_some hl).mpr h] at hd
    cases hd
  constructor
  · intro h
    cases h with
    | branch => rfl
    | label h => exact absurd h (hnone _ _)
  · rintro rfl
    exact .branch hnone

theorem offends_of_eq_some {label expression : String} (hd : declaration? l.text = some (label, expression))
    {taken : List String} {fault : Malformed} :
    Offends taken l fault ↔ label ∈ taken ∧ fault = .repeatedLabel label := by
  constructor
  · intro h
    cases h with
    | branch h => exact absurd ((declaration?_eq_some hl).mp hd) (h _ _)
    | label h hmem =>
        rw [(declaration?_eq_some hl).mpr h] at hd
        cases hd
        exact ⟨hmem, rfl⟩
  · rintro ⟨hmem, rfl⟩
    exact .label ((declaration?_eq_some hl).mp hd) hmem

/-- Reading the first line fails, or reading the rest does. -/
theorem branchesAfter_cons_eq_error {labels : List String} {rest : List SourceLine} {f : Failure R} :
    branchesAfter labels (l :: rest) = .error f ↔
      (∃ fault, Offends labels l fault ∧ f = .ofMalformed fault l.number) ∨
      ∃ b : Branch, b.IsDeclaredBy l ∧ b.label ∉ labels ∧ branchesAfter (b.label :: labels) rest = .error f := by
  rw [branchesAfter]
  cases hd : declaration? l.text with
  | none =>
      constructor
      · intro h
        cases h
        exact .inl ⟨_, (offends_of_eq_none hl hd).mpr rfl, rfl⟩
      · rintro (⟨fault, hoffends, rfl⟩ | ⟨b, hb, -⟩)
        · rw [(offends_of_eq_none hl hd).mp hoffends]
        · rw [hb.1] at hd
          cases hd
  | some d =>
      obtain ⟨label, expression⟩ := d
      have hlabel {b : Branch} (hb : b.IsDeclaredBy l) : b.label = label :=
        congrArg Prod.fst (Option.some.inj (hb.1.symm.trans hd))
      dsimp only
      by_cases htaken : label ∈ labels
      · rw [if_pos (by simpa using htaken)]
        constructor
        · intro h
          cases h
          exact .inl ⟨_, (offends_of_eq_some hl hd).mpr ⟨htaken, rfl⟩, rfl⟩
        · rintro (⟨fault, hoffends, rfl⟩ | ⟨b, hb, hnew, -⟩)
          · rw [((offends_of_eq_some hl hd).mp hoffends).2]
          · exact absurd (hlabel hb ▸ htaken) hnew
      · rw [if_neg (by simpa using htaken)]
        constructor
        · exact fun h => .inr ⟨⟨label, expression, l.number⟩, ⟨hd, rfl⟩, htaken, error_of_map h⟩
        · rintro (⟨fault, hoffends, -⟩ | ⟨b, hb, -, hrest⟩)
          · exact absurd ((offends_of_eq_some hl hd).mp hoffends).1 htaken
          · rw [← hlabel hb, hrest]
            rfl

end

/-- **The loop stops at the first line that is wrong**, after it has read the branches of the lines before it. -/
theorem branchesAfter_eq_error {labels : List String} {lines : List SourceLine}
    (hlines : ∀ l ∈ lines, IsContent l.text.toList) {f : Failure R} : branchesAfter labels lines = .error f ↔
      ∃ before l after branches fault, lines = before ++ l :: after ∧
        branchesAfter (R := R) labels before = .ok branches ∧
        Offends (branches.map Branch.label ++ labels) l fault ∧ f = .ofMalformed fault l.number := by
  constructor
  · intro h
    induction lines generalizing labels with
    | nil => cases h
    | cons l rest ih =>
        obtain ⟨hl, hrest⟩ := List.forall_mem_cons.mp hlines
        rcases (branchesAfter_cons_eq_error hl).mp h with ⟨fault, hoffends, rfl⟩ | ⟨b, hb, hnew, h⟩
        · exact ⟨[], l, rest, [], fault, rfl, rfl, hoffends, rfl⟩
        · obtain ⟨before, l', after, branches, fault, rfl, hbefore, hoffends, rfl⟩ := ih hrest h
          refine ⟨l :: before, l', after, b :: branches, fault, rfl,
            branchesAfter_cons.mpr ⟨b, branches, rfl, hb, hnew, hbefore⟩, hoffends.mono ?_, rfl⟩
          simp
  · rintro ⟨before, l, after, branches, fault, rfl, hbefore, hoffends, rfl⟩
    induction before generalizing labels branches with
    | nil =>
        cases hbefore
        exact (branchesAfter_cons_eq_error (hlines l List.mem_cons_self)).mpr (.inl ⟨fault, hoffends, rfl⟩)
    | cons first before ih =>
        obtain ⟨b, tail, rfl, hb, hnew, hbefore⟩ := branchesAfter_cons.mp hbefore
        obtain ⟨hfirst, hrest⟩ := List.forall_mem_cons.mp hlines
        refine (branchesAfter_cons_eq_error hfirst).mpr (.inr ⟨b, hb, hnew, ih tail hrest hbefore (hoffends.mono ?_)⟩)
        simp

/-- A body is wrong at the first line that is, behind a body that is read. -/
theorem isBody_error_iff {lines : List SourceLine} (hlines : ∀ l ∈ lines, IsContent l.text.toList) {f : Failure R} :
    branchesAfter [] lines = .error f ↔ ∃ before l after branches fault, lines = before ++ l :: after ∧
      IsBody before branches ∧ Offends (branches.map Branch.label) l fault ∧ f = .ofMalformed fault l.number := by
  have hbefore {before after : List SourceLine} {l : SourceLine} (h : lines = before ++ l :: after) :
      ∀ l ∈ before, IsContent l.text.toList := fun l hl => hlines l (h ▸ List.mem_append_left _ hl)
  rw [branchesAfter_eq_error hlines]
  constructor
  · rintro ⟨before, l, after, branches, fault, h, hread, hoffends, hf⟩
    rw [List.append_nil] at hoffends
    exact ⟨before, l, after, branches, fault, h, (isBody_iff (hbefore h)).mp hread, hoffends, hf⟩
  · rintro ⟨before, l, after, branches, fault, h, hread, hoffends, hf⟩
    refine ⟨before, l, after, branches, fault, h, (isBody_iff (hbefore h)).mpr hread, ?_, hf⟩
    rwa [List.append_nil]

/-! ### Blocks -/

/-- What a block is refused for, and at which line: its head, then its missing brace, then the first line of its body that
is wrong. -/
inductive Refused (s : Statement) : Malformed → Nat → Prop
  | head (head : ¬ IsHead s.text.toList) : Refused s (.parallelHeader s.text) s.line
  | unclosed (head : IsHead s.text.toList) (unclosed : s.terminated = false) : Refused s .unclosedParallel s.line
  | body {before l after branches fault} (head : IsHead s.text.toList) (closed : s.terminated = true)
      (body : s.body = before ++ l :: after) (read : IsBody before branches)
      (offends : Offends (branches.map Branch.label) l fault) : Refused s fault l.number

section statements

variable {s : Statement} (hhead : IsContent s.text.toList) (hbody : ∀ l ∈ s.body, IsContent l.text.toList)
include hhead hbody

theorem block_eq_ok_iff {b : Block} : Block.ofStatement (R := R) s = .ok b ↔
    IsHead s.text.toList ∧ s.terminated = true ∧ b.line = s.line ∧ IsBody s.body b.branches := by
  unfold Block.ofStatement
  constructor
  · intro h
    obtain ⟨hIs, h⟩ := ok_of_test h
    obtain ⟨hclosed, h⟩ := ok_of_test h
    obtain ⟨branches, hbranches, rfl⟩ := ok_of_map h
    exact ⟨(isHead_iff hhead).mp (by simpa using hIs), by simpa using hclosed, rfl, (isBody_iff hbody).mp hbranches⟩
  · rintro ⟨hIs, hclosed, hline, hread⟩
    rw [(isHead_iff hhead).mpr hIs, hclosed, (isBody_iff hbody).mpr hread, ← hline]
    rfl

theorem block_eq_error_iff {f : Failure R} : Block.ofStatement s = .error f ↔
    ∃ fault line, Refused s fault line ∧ f = .ofMalformed fault (some line) := by
  unfold Block.ofStatement
  constructor
  · intro h
    split at h
    · rename_i hnot
      cases h
      exact ⟨_, _, .head (mt (isHead_iff hhead).mpr (by simpa using hnot)), rfl⟩
    · rename_i hIs
      have hIs : IsHead s.text.toList := (isHead_iff hhead).mp (by simpa using hIs)
      split at h
      · rename_i hunclosed
        cases h
        exact ⟨_, _, .unclosed hIs (by simpa using hunclosed), rfl⟩
      · rename_i hclosed
        obtain ⟨before, l, after, branches, fault, hlines, hread, hoffends, rfl⟩ :=
          (isBody_error_iff hbody).mp (error_of_map h)
        exact ⟨fault, _, .body hIs (by simpa using hclosed) hlines hread hoffends, rfl⟩
  · rintro ⟨fault, line, hrefused, rfl⟩
    cases hrefused with
    | head hnot => rw [if_pos (by simpa using mt (isHead_iff hhead).mp hnot)]
    | unclosed hIs hunclosed =>
        rw [(isHead_iff hhead).mpr hIs, hunclosed]
        rfl
    | body hIs hclosed hlines hread hoffends =>
        rw [(isHead_iff hhead).mpr hIs, hclosed,
          (isBody_error_iff hbody).mpr ⟨_, _, _, _, fault, hlines, hread, hoffends, rfl⟩]
        rfl

end statements

/-- **Blocks are read exactly.**  A statement of a program is read as a block if and only if its text is a head, no brace is
missing, and its lines declare the branches of the block, one each and in order, with the numbers of the lines and with
labels that are distinct.  Otherwise it is malformed, for the first thing that is wrong with it, at the line of that. -/
theorem block_read_exactly {source : String} {s : Statement} (h : s ∈ statements source) :
    (∀ b : Block, Block.ofStatement (R := R) s = .ok b ↔
      IsHead s.text.toList ∧ s.terminated = true ∧ b.line = s.line ∧ IsBody s.body b.branches) ∧
    ∀ f : Failure R, Block.ofStatement s = .error f ↔
      ∃ fault line, Refused s fault line ∧ f = .ofMalformed fault (some line) := by
  have hhead : IsContent s.text.toList := isContent_of_mem_statements h List.mem_cons_self
  have hbody : ∀ l ∈ s.body, IsContent l.text.toList := fun l hl =>
    isContent_of_mem_statements h (List.mem_cons_of_mem _ (List.mem_map_of_mem hl))
  exact ⟨fun b => block_eq_ok_iff hhead hbody, fun f => block_eq_error_iff hhead hbody⟩

/-- A label that is declared again: the line of the second declaration is the one that is named. -/
theorem block_read_exactly_repeated :
    ⟨2, "parallel \x7b", [⟨3, 2, "branch A: x"⟩, ⟨4, 2, "branch A : 2"⟩, ⟨5, 2, "branch"⟩], true⟩ ∈
        statements "x = 1\nparallel \x7b\n  branch A: x\n  branch A : 2\n  branch\n\x7d" ∧
      Block.ofStatement (R := Float)
        ⟨2, "parallel \x7b", [⟨3, 2, "branch A: x"⟩, ⟨4, 2, "branch A : 2"⟩, ⟨5, 2, "branch"⟩], true⟩ =
          .error (.ofMalformed (.repeatedLabel "A") (some 4)) := by
  have hmem : ⟨2, "parallel \x7b", [⟨3, 2, "branch A: x"⟩, ⟨4, 2, "branch A : 2"⟩, ⟨5, 2, "branch"⟩], true⟩ ∈
      statements "x = 1\nparallel \x7b\n  branch A: x\n  branch A : 2\n  branch\n\x7d" := by decide +kernel
  have hcontent (text : String) (n : Nat) (h : (n, text) ∈ [(2, "parallel \x7b"), (3, "branch A: x"), (4, "branch A : 2"),
      (5, "branch")]) : IsContent text.toList := isContent_of_mem_statements hmem h
  have hhead : IsHead "parallel \x7b".toList := (isHead_iff (hcontent _ 2 (by simp))).mp (by decide)
  have hfirst : Declares "branch A: x".toList "A".toList "x".toList :=
    (declaration?_eq_some (hcontent _ 3 (by simp))).mp (by decide)
  have hsecond : Declares "branch A : 2".toList "A".toList "2".toList :=
    (declaration?_eq_some (hcontent _ 4 (by simp))).mp (by decide)
  have hbody : IsBody [⟨3, 2, "branch A: x"⟩] [⟨"A", "x", 3⟩] :=
    ⟨.cons ⟨hfirst, rfl⟩ .nil, List.nodup_singleton _⟩
  exact ⟨hmem, ((block_read_exactly hmem).2 _).mpr
    ⟨_, _, .body hhead rfl rfl hbody (.label hsecond (List.mem_singleton.mpr rfl)), rfl⟩⟩

end bodies

end Parallel

end LabLang
