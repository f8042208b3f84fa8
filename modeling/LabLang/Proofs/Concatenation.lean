import LabLang.Proofs.Grouping
import LabLang.Proofs.Renumbering
import LabLang.Proofs.TextLines

/-! # Texts one after the other

Two programs with a line feed between them are one program.  Its lines are those of the first text and then those of the
second one with greater numbers (`exists_normalize_append`).  A block at the end of the first text takes no line of the
second one if the second one starts without indentation and the first one has closed its braces; then the statements
are those of the two texts as well (`exists_statements_append`). -/

namespace LabLang

namespace Source

open Text

theorem number_append (first : Nat) (a b : List (List Char)) :
    number first (a ++ b) = number first a ++ number (first + a.length) b := by
  induction a generalizing first with
  | nil => rfl
  | cons raw a ih =>
      rw [List.cons_append, number, number, ih, List.length_cons, Nat.add_right_comm, Nat.add_assoc]
      cases content? raw <;> rfl

theorem number_of_empty (first : Nat) {ls : List (List Char)} (h : ∀ l ∈ ls, l = []) : number first ls = [] := by
  induction ls generalizing first with
  | nil => rfl
  | cons l ls ih =>
      rw [h l List.mem_cons_self, number]
      exact ih (first + 1) fun l' hl' => h l' (List.mem_cons_of_mem l hl')

theorem number_add (first k : Nat) (ls : List (List Char)) :
    number (first + k) ls = (number first ls).map (SourceLine.renumber (· + k)) := by
  induction ls generalizing first with
  | nil => rfl
  | cons raw ls ih =>
      rw [number, number, Nat.add_right_comm, ih]
      cases content? raw <;> rfl

/-- The lines of two texts one after the other: those of the second one come with greater numbers. -/
theorem exists_normalize_append (first second : String) :
    ∃ k, normalize (first ++ "\n" ++ second) =
      normalize first ++ (normalize second).map (SourceLine.renumber (· + k)) := by
  obtain ⟨between, hempty, hlines⟩ := exists_lines_append first.toList second.toList
  refine ⟨((lines first.toList) ++ between).length, ?_⟩
  have htext : (first ++ "\n" ++ second).toList = first.toList ++ '\n' :: second.toList := by simp
  unfold normalize
  rw [htext, hlines, number_append, number_append, number_of_empty _ hempty, List.append_nil, number_add]

/-! ### Statements -/

/-- Lines that start without indentation are no part of what is before them, if that has no brace left to close. -/
theorem groupAfter_append {rest : List SourceLine} (indent : ∀ l ∈ rest.head?, l.indent = 0) (o : Option OpenBlock)
    {ls : List SourceLine} (closed : ∀ s ∈ groupAfter o ls, s.terminated = true) :
    groupAfter o (ls ++ rest) = groupAfter o ls ++ group rest := by
  induction ls generalizing o with
  | nil =>
      cases o with
      | none => rfl
      | some b =>
          have hbrace : b.braced = false := by
            simpa [groupAfter, OpenBlock.close] using closed (b.close !b.braced) List.mem_cons_self
          cases rest with
          | nil => rw [List.append_nil, group, groupAfter, groupAfter, List.append_nil]
          | cons l rest =>
              have hl : l.indent = 0 := indent l rfl
              simp [groupAfter, group, hbrace, hl]
  | cons l ls ih =>
      -- what the line starts and what comes after it, when no block is open any more
      have hstart (closed : ∀ s ∈ (start l).1 ++ groupAfter (start l).2 ls, s.terminated = true) :
          (start l).1 ++ groupAfter (start l).2 (ls ++ rest) =
            (start l).1 ++ groupAfter (start l).2 ls ++ group rest := by
        rw [ih _ fun s hs => closed s (List.mem_append_right _ hs), List.append_assoc]
      cases o with
      | none => exact hstart closed
      | some b =>
          rw [List.cons_append]
          unfold groupAfter at closed ⊢
          split at closed
          · rename_i hbrace
            rw [if_pos hbrace, if_pos hbrace]
            split at closed
            · rename_i hl
              rw [if_pos hl, if_pos hl, ih _ fun s hs => closed s (List.mem_cons_of_mem _ hs), List.cons_append]
            · rename_i hl
              rw [if_neg hl, if_neg hl, ih _ closed]
          · rename_i hbrace
            rw [if_neg hbrace, if_neg hbrace]
            split at closed
            · rename_i hl
              rw [if_pos hl, if_pos hl, ih _ closed]
            · rename_i hl
              rw [if_neg hl, if_neg hl, hstart fun s hs => closed s (List.mem_cons_of_mem _ hs), List.cons_append]

/-- Only a block with a brace can be without its end. -/
theorem classify_of_unterminated {ls : List SourceLine} {s : Statement} (h : s ∈ group ls)
    (unterminated : s.terminated = false) : classify s.text = .parallel := by
  obtain ⟨ps, hstatements, -, howns⟩ := exists_portions ls
  rw [← hstatements] at h
  obtain ⟨p, hp, rfl⟩ := List.mem_map.mp h
  obtain ⟨before, after, rfl⟩ := List.append_of_mem hp
  have owns := howns before p after rfl
  by_cases parallel : classify p.statement.text = .parallel
  · exact parallel
  · have terminated : p.statement.terminated = true := by
      by_cases circuit : classify p.statement.text = .circuit
      · exact (owns.indented (.inl circuit)).2.2
      · exact (owns.single circuit parallel).2.2
    rw [terminated] at unterminated
    cases unterminated

/-- The statements of two texts one after the other, if the braces of the first one are closed and the second one starts
without indentation. -/
theorem exists_statements_append {first second : String} (closed : ∀ s ∈ statements first, s.terminated = true)
    (indent : ∀ l ∈ (normalize second).head?, l.indent = 0) :
    ∃ k, statements (first ++ "\n" ++ second) =
      statements first ++ (statements second).map (Statement.renumber (· + k)) := by
  obtain ⟨k, hlines⟩ := exists_normalize_append first second
  refine ⟨k, ?_⟩
  unfold statements at closed ⊢
  have hindent : ∀ l ∈ ((normalize second).map (SourceLine.renumber (· + k))).head?, l.indent = 0 := by
    intro l hl
    rw [List.head?_map, Option.mem_def, Option.map_eq_some_iff] at hl
    obtain ⟨l', hl', rfl⟩ := hl
    exact indent l' hl'
  rw [hlines, group, groupAfter_append hindent none closed, group_renumber]
  rfl

end Source

end LabLang
