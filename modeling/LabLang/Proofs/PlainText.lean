import LabLang.Proofs.LineOrigin
import LabLang.Proofs.RenumberedRuns
import LabLang.Proofs.TextLines
import Mathlib.Data.List.DropRight

/-! # Plain text

Comments, blank lines, blanks at the end of a line and the spelling of the indentation have no meaning.  `Source.spell`
writes a line of a program with one space for every column of its indentation.  What a line holds has neither a comment
mark nor a tab nor a line end in it, and starts and ends with a character that is not blank (`IsContent`); so it is read
back from its spelling (`content?_spaces`), and a text whose lines are spelled in this way has the same lines with other
numbers (`normalize_of_lines`).  Hence it leaves the same store and gives the same result but for the numbers
(`execute_of_lines`). -/

namespace LabLang

open Text

namespace Text

/-! ### Tabs -/

theorem mem_expandTabs {c : Char} {column : Nat} {s : List Char} (h : c ∈ expandTabs column s) :
    c = ' ' ∨ c ∈ s ∧ c ≠ '\t' := by
  fun_induction expandTabs column s with
  | case1 => cases h
  | case2 column r width ih =>
      rcases List.mem_append.mp h with h | h
      · exact .inl (List.eq_of_mem_replicate h)
      · exact (ih h).imp id fun ⟨hr, hc⟩ => ⟨List.mem_cons_of_mem _ hr, hc⟩
  | case3 column d r hd ih =>
      rcases List.mem_cons.mp h with rfl | h
      · exact .inr ⟨List.mem_cons_self, hd⟩
      · exact (ih h).imp id fun ⟨hr, hc⟩ => ⟨List.mem_cons_of_mem _ hr, hc⟩

theorem expandTabs_of_notMem {s : List Char} (h : '\t' ∉ s) (column : Nat) : expandTabs column s = s := by
  fun_induction expandTabs column s with
  | case1 => rfl
  | case2 => exact absurd List.mem_cons_self h
  | case3 column d r hd ih => rw [ih fun hr => h (List.mem_cons_of_mem _ hr)]

/-! ### Blanks -/

/-- A text divides in one way only into characters with a property and a rest that starts with one without it. -/
theorem append_cons_inj {p : Char → Bool} {v w r t : List Char} {c d : Char} (hv : ∀ a ∈ v, p a = true)
    (hw : ∀ a ∈ w, p a = true) (hc : p c = false) (hd : p d = false) (h : v ++ c :: r = w ++ d :: t) :
    v = w ∧ c = d ∧ r = t := by
  have htake := congrArg (List.takeWhile p) h
  rw [List.takeWhile_append_of_pos hv, List.takeWhile_append_of_pos hw, List.takeWhile_cons_of_neg (by simp [hc]),
    List.takeWhile_cons_of_neg (by simp [hd]), List.append_nil, List.append_nil] at htake
  subst htake
  exact ⟨rfl, List.cons.inj (List.append_cancel_left h)⟩

theorem trimRight_eq_rdropWhile (s : List Char) : trimRight s = s.rdropWhile isBlank := rfl

theorem mem_of_mem_trimRight {c : Char} {s : List Char} (h : c ∈ trimRight s) : c ∈ s :=
  (List.rdropWhile_prefix isBlank s).subset h

theorem mem_of_mem_trimLeft {c : Char} {s : List Char} (h : c ∈ trimLeft s) : c ∈ s :=
  (List.dropWhile_suffix isBlank).subset h

theorem head_trimLeft {s : List Char} (h : trimLeft s ≠ []) : isBlank ((trimLeft s).head h) = false :=
  List.head_dropWhile_not isBlank h

theorem getLast_trimRight {s : List Char} (h : trimRight s ≠ []) : isBlank ((trimRight s).getLast h) = false :=
  Bool.eq_false_iff.mpr (List.rdropWhile_last_not isBlank s h)

/-- Trimming on the left keeps the last character. -/
theorem getLast_trimLeft {s : List Char} (h : trimLeft s ≠ []) (hs : s ≠ []) :
    (trimLeft s).getLast h = s.getLast hs := by
  have hsplit : s.takeWhile isBlank ++ trimLeft s = s := List.takeWhile_append_dropWhile
  have hne : s.takeWhile isBlank ++ trimLeft s ≠ [] := by rwa [hsplit]
  have hlast : (s.takeWhile isBlank ++ trimLeft s).getLast hne = (trimLeft s).getLast h :=
    List.getLast_append_of_ne_nil hne h
  rw [← hlast]
  simp only [hsplit]

theorem trimLeft_append {s t : List Char} (hs : ∀ c ∈ s, isBlank c = true) (ht : t ≠ [])
    (hfirst : isBlank (t.head ht) = false) : trimLeft (s ++ t) = t := by
  unfold trimLeft
  rw [List.dropWhile_append_of_pos hs]
  cases t with
  | nil => exact absurd rfl ht
  | cons c t => simpa using hfirst

theorem trimRight_append {s t : List Char} (ht : t ≠ []) (hlast : isBlank (t.getLast ht) = false) :
    trimRight (s ++ t) = s ++ t := by
  rw [trimRight_eq_rdropWhile, List.rdropWhile_eq_self_iff]
  intro hne
  rw [List.getLast_append_of_ne_nil hne ht]
  simpa using hlast

theorem trimLeft_of_head {s : List Char} (hs : s ≠ []) (hfirst : isBlank (s.head hs) = false) : trimLeft s = s :=
  trimLeft_append (s := []) (by simp) hs hfirst

theorem trimRight_of_getLast {s : List Char} (hs : s ≠ []) (hlast : isBlank (s.getLast hs) = false) : trimRight s = s :=
  trimRight_append (s := []) hs hlast

/-- A text that starts and ends with a character that is not blank. -/
theorem trim_of_ends {s : List Char} (hs : s ≠ []) (hfirst : isBlank (s.head hs) = false)
    (hlast : isBlank (s.getLast hs) = false) : trim s = s := by
  unfold trim
  rw [trimLeft_of_head hs hfirst, trimRight_of_getLast hs hlast]

/-- White space is blank, so that it is not at the ends of such a text either. -/
theorem trimWhiteSpace_of_ends {s : List Char} (hs : s ≠ []) (hfirst : isBlank (s.head hs) = false)
    (hlast : isBlank (s.getLast hs) = false) : trimWhiteSpace s = s := by
  have hspace {c : Char} (h : isBlank c = false) : isWhiteSpace c = false := by
    unfold isWhiteSpace
    rw [h, Bool.false_and]
  have hleft : s.dropWhile isWhiteSpace = s := by
    obtain ⟨c, r, rfl⟩ := List.exists_cons_of_ne_nil hs
    exact List.dropWhile_cons_of_neg (Bool.eq_false_iff.mp (hspace hfirst))
  have hright : s.rdropWhile isWhiteSpace = s :=
    List.rdropWhile_eq_self_iff.mpr fun _ => Bool.eq_false_iff.mp (hspace hlast)
  unfold trimWhiteSpace
  rw [hleft]
  exact hright

/-- Blanks around such a text are trimmed. -/
theorem trim_append {u s v : List Char} (hu : ∀ c ∈ u, isBlank c = true) (hs : s ≠ [])
    (hfirst : isBlank (s.head hs) = false) (hlast : isBlank (s.getLast hs) = false)
    (hv : ∀ c ∈ v, isBlank c = true) : trim (u ++ s ++ v) = s := by
  have hleft : trimLeft (u ++ (s ++ v)) = s ++ v := by
    refine trimLeft_append hu (List.append_ne_nil_of_left_ne_nil hs v) ?_
    rw [List.head_append_of_ne_nil hs]
    exact hfirst
  have hright : trimLeft (v.reverse ++ s.reverse) = s.reverse := by
    refine trimLeft_append (fun c hc => hv c (List.mem_reverse.mp hc)) (List.reverse_ne_nil_iff.mpr hs) ?_
    rw [List.head_reverse]
    exact hlast
  unfold trim
  rw [List.append_assoc, hleft]
  show (trimLeft (s ++ v).reverse).reverse = s
  rw [List.reverse_append, hright, List.reverse_reverse]

/-- Nothing but blanks is trimmed. -/
theorem exists_trimLeft (s : List Char) : ∃ u, s = u ++ trimLeft s ∧ ∀ c ∈ u, isBlank c = true :=
  ⟨s.takeWhile isBlank, List.takeWhile_append_dropWhile.symm, fun _ hc => List.mem_takeWhile_imp hc⟩

theorem exists_trim (s : List Char) :
    ∃ u v, s = u ++ trim s ++ v ∧ (∀ c ∈ u, isBlank c = true) ∧ ∀ c ∈ v, isBlank c = true := by
  obtain ⟨u, hu, hblank⟩ := exists_trimLeft s
  have hright : trim s ++ (trimLeft s).rtakeWhile isBlank = trimLeft s := List.rdropWhile_append_rtakeWhile
  exact ⟨u, _, by rw [List.append_assoc, hright, ← hu], hblank, fun c hc => List.mem_rtakeWhile_imp hc⟩

/-- What is left starts and ends with a character that is not blank. -/
theorem ends_trim {s : List Char} (h : trim s ≠ []) :
    isBlank ((trim s).head h) = false ∧ isBlank ((trim s).getLast h) = false := by
  have hpart : trim s <+: trimLeft s := List.rdropWhile_prefix isBlank _
  refine ⟨?_, getLast_trimRight h⟩
  rw [hpart.head h]
  exact head_trimLeft (List.ne_nil_of_mem (hpart.subset (List.head_mem h)))

theorem trim_trim (s : List Char) : trim (trim s) = trim s := by
  by_cases h : trim s = []
  · rw [h]
    rfl
  · exact trim_of_ends h (ends_trim h).1 (ends_trim h).2

end Text

namespace Source

/-! ### Content -/

/-- What a line holds besides its indentation and its comment. -/
structure IsContent (text : List Char) : Prop where
  nonempty : text ≠ []
  first : isBlank (text.head nonempty) = false
  last : isBlank (text.getLast nonempty) = false
  clean : ∀ c ∈ text, c ≠ '#' ∧ c ≠ '\t' ∧ isLineBreak c = false

/-- Literal text can be tested for what must not be in a line. -/
theorem clean_of_all {s : List Char} (h : (s.all fun c => c != '#' && c != '\t' && !isLineBreak c) = true) :
    ∀ c ∈ s, c ≠ '#' ∧ c ≠ '\t' ∧ isLineBreak c = false := by
  simpa [and_assoc] using h

theorem isContent_of_content? {raw text : List Char} {indent : Nat} (hraw : ∀ c ∈ raw, isLineBreak c = false)
    (h : content? raw = some (indent, text)) : IsContent text := by
  unfold content? at h
  dsimp only at h
  split at h
  case h_1 => cases h
  case h_2 hne =>
    cases h
    have nonempty : trimLeft (trimRight (expandTabs 0 (stripComment raw))) ≠ [] := hne
    have hright : trimRight (expandTabs 0 (stripComment raw)) ≠ [] := by
      intro hnil
      simp [hnil, trimLeft] at nonempty
    refine ⟨nonempty, head_trimLeft nonempty, ?_, ?_⟩
    · rw [getLast_trimLeft nonempty hright]
      exact getLast_trimRight hright
    · intro c hc
      rcases mem_expandTabs (mem_of_mem_trimRight (mem_of_mem_trimLeft hc)) with rfl | ⟨hstrip, htab⟩
      · decide
      · have hmark : (c != '#') = true := List.mem_takeWhile_imp (p := (· != '#')) hstrip
        exact ⟨by simpa using hmark, htab, hraw c ((List.takeWhile_prefix _).subset hstrip)⟩

theorem eq_or_mem_of_mem_spaces {c : Char} {indent : Nat} {text : List Char}
    (h : c ∈ List.replicate indent ' ' ++ text) : c = ' ' ∨ c ∈ text :=
  (List.mem_append.mp h).imp List.eq_of_mem_replicate id

/-- Content behind spaces, once the comment is gone and the tabs are spelled out. -/
theorem content?_of_expandTabs {raw text : List Char} (h : IsContent text) {indent : Nat}
    (hraw : expandTabs 0 (stripComment raw) = List.replicate indent ' ' ++ text) :
    content? raw = some (indent, text) := by
  have hspaces : ∀ c ∈ List.replicate indent ' ', isBlank c = true := by
    intro c hc
    rw [List.eq_of_mem_replicate hc]
    decide
  unfold content?
  rw [hraw, trimRight_append h.nonempty h.last]
  dsimp only
  rw [trimLeft_append hspaces h.nonempty h.first]
  cases text with
  | nil => exact absurd rfl h.nonempty
  | cons c text => simp

theorem stripComment_of_notMem {s : List Char} (h : '#' ∉ s) : stripComment s = s :=
  List.takeWhile_eq_self_iff.mpr fun _ hc => bne_iff_ne.mpr fun hmark => h (hmark ▸ hc)

/-- Content is read back behind any number of spaces. -/
theorem content?_spaces {text : List Char} (h : IsContent text) (indent : Nat) :
    content? (List.replicate indent ' ' ++ text) = some (indent, text) := by
  have hclean : ∀ c ∈ List.replicate indent ' ' ++ text, c ≠ '#' ∧ c ≠ '\t' := by
    intro c hc
    rcases eq_or_mem_of_mem_spaces hc with rfl | hc
    · decide
    · exact ⟨(h.clean c hc).1, (h.clean c hc).2.1⟩
  refine content?_of_expandTabs h ?_
  rw [stripComment_of_notMem fun hc => (hclean _ hc).1 rfl, expandTabs_of_notMem fun hc => (hclean _ hc).2 rfl]

/-! ### Spelling -/

/-- The line with one space for every column of its indentation. -/
def spell (l : SourceLine) : List Char := List.replicate l.indent ' ' ++ l.text.toList

/-- The text of the lines of the program in their spelling. -/
def plain (source : String) : String := String.ofList (((normalize source).map spell).flatMap (· ++ ['\n']))

/-- The number of the `i`-th line, counted from one. -/
def numberOf (ls : List SourceLine) (i : Nat) : Nat := (ls[i - 1]?).elim 0 SourceLine.number

theorem isContent_of_mem_normalize {source : String} {l : SourceLine} (h : l ∈ normalize source) :
    IsContent l.text.toList := by
  obtain ⟨_, raw, indent, hraw, hcontent⟩ := isLine_of_mem_normalize h
  exact isContent_of_content? (isLineBreak_of_mem_lines (List.mem_of_getElem? hraw)) hcontent

theorem lines_plain (source : String) : lines (plain source).toList = (normalize source).map spell := by
  unfold plain
  rw [String.toList_ofList]
  refine lines_flatMap fun s hs c hc => ?_
  obtain ⟨l, hl, rfl⟩ := List.mem_map.mp hs
  rcases eq_or_mem_of_mem_spaces hc with rfl | hc
  · decide
  · exact ((isContent_of_mem_normalize hl).clean c hc).2.2

theorem number_spell (first : Nat) {ls : List SourceLine} (h : ∀ l ∈ ls, IsContent l.text.toList) :
    number first (ls.map spell) = (ls.zipIdx first).map fun p => { p.1 with number := p.2 } := by
  induction ls generalizing first with
  | nil => rfl
  | cons l rest ih =>
      rw [List.map_cons, number, spell, content?_spaces (h l List.mem_cons_self)]
      rw [List.zipIdx_cons, List.map_cons, ih (first + 1) fun l' hl' => h l' (List.mem_cons_of_mem l hl')]
      simp

theorem normalize_of_lines {source text : String} (h : lines text.toList = (normalize source).map spell) :
    normalize text = ((normalize source).zipIdx 1).map fun p => { p.1 with number := p.2 } := by
  unfold normalize at h ⊢
  rw [h]
  exact number_spell 1 fun l hl => isContent_of_mem_normalize hl

/-- The lines of a program are those of its plain text with their own numbers. -/
theorem renumber_of_lines {source text : String} (h : lines text.toList = (normalize source).map spell) :
    normalize source = (normalize text).map (SourceLine.renumber (numberOf (normalize source))) := by
  rw [normalize_of_lines h, List.map_map]
  apply List.ext_getElem?
  intro i
  rw [List.getElem?_map, List.getElem?_zipIdx]
  cases hi : (normalize source)[i]? with
  | none => rfl
  | some l => simp [SourceLine.renumber, numberOf, hi]

end Source

namespace Interpreter

open Source

variable {R : Type} [Scalar R]

/-- **Comments, blank lines, blanks at the end of a line and the spelling of the indentation have no meaning.**  A text
whose lines are those of the program, spelled with spaces, has the same lines, numbered from one; executed with the same
seed on the same store it leaves the same store and gives the same result but for the numbers of lines. -/
theorem execute_of_lines (source : String) :
    lines (plain source).toList = (normalize source).map spell ∧
    ∀ text : String, lines text.toList = (normalize source).map spell →
      (normalize text = ((normalize source).zipIdx 1).map fun p => { p.1 with number := p.2 }) ∧
      ∀ (seed : Nat) (shots : Int) (workers : Option Int) (fresh : Nat) (store : Store R),
        ∃ (r : Result R) (final : Store R),
          execute ⟨some seed, shots, workers⟩ fresh store text = .ok (r, final) ∧
          execute ⟨some seed, shots, workers⟩ fresh store source =
            .ok (r.renumber (numberOf (normalize source)), final) := by
  refine ⟨lines_plain source, fun text h => ⟨normalize_of_lines h, fun seed shots workers fresh store => ?_⟩⟩
  have hroot : Settings.root ⟨some seed, shots, workers⟩ fresh = .ok ⟨seed, []⟩ := by
    simp [Settings.root]
  have hrun := execute_renumber (numberOf (normalize source)) ⟨some seed, shots, workers⟩ fresh store
    (renumber_of_lines h)
  cases htext : execute ⟨some seed, shots, workers⟩ fresh store text with
  | error fault =>
      unfold execute at htext
      rw [hroot] at htext
      cases htext
  | ok answer =>
      rw [htext] at hrun
      exact ⟨answer.1, answer.2, rfl, hrun⟩

end Interpreter

end LabLang
