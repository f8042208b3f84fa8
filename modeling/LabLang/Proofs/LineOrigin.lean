import LabLang.Proofs.Grouping

/-! # Where the lines of statements come from

Every line that a statement owns, its head or a line of its body, is a line of the program: its number counts
the lines of the text from one, and its text is what that line holds besides indentation and comment
(`isLine_of_mem_statements`). -/

namespace LabLang

/-- The number and the text of a line. -/
def SourceLine.entry (l : SourceLine) : Nat × String := (l.number, l.text)

/-- The lines that a statement owns, with their numbers: its head and its body. -/
def Statement.lines (s : Statement) : List (Nat × String) := (s.line, s.text) :: s.body.map SourceLine.entry

namespace Source

/-- Line `n` of the program holds the text. -/
def IsLine (source : String) (n : Nat) (text : String) : Prop :=
  0 < n ∧ ∃ raw indent, (Text.lines source.toList)[n - 1]? = some raw ∧ content? raw = some (indent, text.toList)

/-! ### Numbering -/

/-- A numbered line stands at the place that its number says, counted from `first`. -/
theorem getElem?_of_mem_number {l : SourceLine} : ∀ {first : Nat} {ls : List (List Char)}, l ∈ number first ls →
    first ≤ l.number ∧
      ∃ raw, ls[l.number - first]? = some raw ∧ content? raw = some (l.indent, l.text.toList)
  | first, [], h => by simp [number] at h
  | first, raw :: rest, h => by
      -- a line of the rest stands one place further on
      have later (h' : l ∈ number (first + 1) rest) : first ≤ l.number ∧
          ∃ r, (raw :: rest)[l.number - first]? = some r ∧ content? r = some (l.indent, l.text.toList) := by
        obtain ⟨hle, r, hr, hc⟩ := getElem?_of_mem_number h'
        refine ⟨by omega, r, ?_, hc⟩
        have e : l.number - first = (l.number - (first + 1)) + 1 := by omega
        rw [e, List.getElem?_cons_succ]
        exact hr
      unfold number at h
      cases hc : content? raw with
      | none =>
          rw [hc] at h
          exact later h
      | some p =>
          obtain ⟨indent, text⟩ := p
          rw [hc] at h
          rcases List.mem_cons.mp h with rfl | h'
          · exact ⟨Nat.le_refl _, raw, by simp, by simpa using hc⟩
          · exact later h'

theorem isLine_of_mem_normalize {source : String} {l : SourceLine} (h : l ∈ normalize source) :
    IsLine source l.number l.text := by
  obtain ⟨hle, raw, hr, hc⟩ := getElem?_of_mem_number h
  exact ⟨hle, raw, l.indent, hr, hc⟩

/-! ### Grouping -/

/-- The lines of a statement are among those of its portion, which has the closing line of a brace besides. -/
theorem Portion.lines_subset (p : Portion) : p.statement.lines ⊆ p.lines.map SourceLine.entry := by
  intro entry h
  rcases List.mem_cons.mp h with rfl | h
  · exact List.mem_cons_self
  · obtain ⟨l, hl, rfl⟩ := List.mem_map.mp h
    exact List.mem_map_of_mem (List.mem_cons_of_mem _ (List.mem_append_left _ hl))

/-- Grouping invents no lines. -/
theorem mem_lines_of_mem_group {s : Statement} {ls : List SourceLine} (h : s ∈ group ls) {entry : Nat × String}
    (hentry : entry ∈ s.lines) : ∃ l ∈ ls, entry = l.entry := by
  obtain ⟨ps, hstatements, hlines, _⟩ := exists_portions ls
  rw [← hstatements] at h
  obtain ⟨p, hp, rfl⟩ := List.mem_map.mp h
  obtain ⟨l, hl, rfl⟩ := List.mem_map.mp (p.lines_subset hentry)
  refine ⟨l, ?_, rfl⟩
  rw [← hlines]
  exact List.mem_flatMap.mpr ⟨p, hp, hl⟩

/-- **The lines of a statement are lines of the program.** -/
theorem isLine_of_mem_statements {source : String} {s : Statement} (h : s ∈ statements source)
    {p : Nat × String} (hp : p ∈ s.lines) : IsLine source p.1 p.2 := by
  obtain ⟨l, hl, rfl⟩ := mem_lines_of_mem_group h hp
  exact isLine_of_mem_normalize hl

end Source

end LabLang
