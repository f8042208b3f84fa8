import LabLang.Proofs.LineOrigin
import LabLang.Proofs.Renumbering

/-! # The lines that failures name

`FailsIn owned x` says that a failure of the reader `x` names no line, or a line with `owned`.  A reader follows the
numbers of its lines; numbers that leave all owned lines alone therefore leave its failure alone, and a failure that
named any other line would change with its number (`failsIn_of_follows`).  So for every kind of statement a failure
names one of the lines that the statement owns: `failsIn_assignment`, `failsIn_circuit`, `failsIn_command` and
`failsIn_block`. -/

namespace LabLang

variable {R : Type} {α : Type} {owned : Nat → Prop} {line : Option Nat} {f : Nat → Nat}

/-- If the reader fails, it names no line or one with the given property. -/
def FailsIn (owned : Nat → Prop) (x : Except (Failure R) α) : Prop :=
  ∀ f, x = .error f → ∀ n, f.line = some n → owned n

/-! ### Lines that are left alone -/

/-- The number is that of a line of the statement. -/
def Statement.Owns (s : Statement) (n : Nat) : Prop := ∃ text, (n, text) ∈ s.lines

theorem Statement.owns_head (s : Statement) : s.Owns s.line := ⟨s.text, List.mem_cons_self⟩

theorem Statement.owns_body {s : Statement} {l : SourceLine} (h : l ∈ s.body) : s.Owns l.number :=
  ⟨l.text, List.mem_cons_of_mem _ (List.mem_map_of_mem h)⟩

theorem Statement.renumber_eq_self {s : Statement} (h : ∀ n, s.Owns n → f n = n) : s.renumber f = s := by
  have hhead : f s.line = s.line := h s.line s.owns_head
  have hbody : s.body.map (SourceLine.renumber f) = s.body.map id := by
    refine List.map_congr_left fun l hl => ?_
    unfold SourceLine.renumber
    rw [h l.number (s.owns_body hl)]
    rfl
  unfold Statement.renumber
  rw [hhead, hbody, List.map_id]

theorem map_line_eq_self (hline : ∀ n, line = some n → owned n) (h : ∀ n, owned n → f n = n) : line.map f = line := by
  cases line with
  | none => rfl
  | some n => exact congrArg some (h n (hline n rfl))

/-- If a reader follows all numbers that leave the owned lines alone, it fails at no other line. -/
theorem failsIn_of_follows {x : Except (Failure R) α}
    (h : ∀ f : Nat → Nat, (∀ n, owned n → f n = n) → ∃ φ : α → α, Follows f φ x x) : FailsIn owned x := by
  classical
  intro g hg n hn
  refine Classical.byContradiction fun hnot => ?_
  -- these numbers move exactly the lines that are not owned
  obtain ⟨φ, hx⟩ := h (fun m => if owned m then m else m + 1) fun m hm => if_pos hm
  rw [hg] at hx
  have hline := congrArg Failure.line (Except.error.inj hx.of_error)
  unfold Failure.renumber at hline
  rw [hn, Option.map_some, if_neg hnot] at hline
  have hmoved := Option.some.inj hline
  omega

/-! ### Kinds of statements -/

theorem failsIn_command (text : String) (hline : ∀ n, line = some n → owned n) :
    FailsIn owned (RunCommand.read (R := R) text line) := by
  refine failsIn_of_follows fun f hf => ⟨id, ?_⟩
  have h := follows_command (R := R) f text line
  rwa [map_line_eq_self hline hf] at h

theorem failsIn_block (s : Statement) : FailsIn s.Owns (Parallel.Block.ofStatement (R := R) s) := by
  refine failsIn_of_follows fun f hf => ⟨Parallel.Block.renumber f, ?_⟩
  have h := follows_block (R := R) f s
  rwa [Statement.renumber_eq_self hf] at h

variable [Scalar R]

theorem failsIn_assignment (text : String) (hline : ∀ n, line = some n → owned n) :
    FailsIn owned (Assignment.read (R := R) text line) := by
  refine failsIn_of_follows fun f hf => ⟨id, ?_⟩
  have h := follows_assignment (R := R) f text line
  rwa [map_line_eq_self hline hf] at h

theorem failsIn_circuit (s : Statement) : FailsIn s.Owns (Circuit.ofStatement (R := R) s) := by
  refine failsIn_of_follows fun f hf => ⟨id, ?_⟩
  have h := follows_circuit (R := R) f s
  rwa [Statement.renumber_eq_self hf] at h

end LabLang
