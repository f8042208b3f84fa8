import LabLang.Assignment
import LabLang.Circuit.Definition
import LabLang.Parallel.Block
import LabLang.RunCommand

/-! # Renumbered lines

A program whose lines have other numbers is grouped into the same statements (`group_renumber`) and read in the same
way: `Follows f φ x y` says that the reader `y` gives what `φ` makes of the value of `x`, or fails for the cause for
which `x` fails, at the line that `f` makes of the line of `x`.  It is kept by sequencing and by the loops of the
readers, so that for every kind of statement the readers follow the numbers: `follows_assignment`, `follows_circuit`,
`follows_command` and `follows_block`. -/

namespace LabLang

variable {R : Type} {α β γ δ : Type} (f : Nat → Nat)

/-! ### Other numbers -/

/-- The line with another number. -/
def SourceLine.renumber (l : SourceLine) : SourceLine := { l with number := f l.number }

/-- The statement with other numbers for its lines. -/
def Statement.renumber (s : Statement) : Statement :=
  { s with line := f s.line, body := s.body.map (SourceLine.renumber f) }

/-- The block with other numbers for its lines. -/
def Source.OpenBlock.renumber (b : OpenBlock) : OpenBlock :=
  { b with head := b.head.renumber f, body := b.body.map (SourceLine.renumber f) }

/-- The branch with another number for its line. -/
def Parallel.Branch.renumber (b : Branch) : Branch := { b with line := f b.line }

/-- The block with other numbers for its lines. -/
def Parallel.Block.renumber (b : Block) : Block :=
  { b with branches := b.branches.map (Branch.renumber f), line := f b.line }

/-- The failure at another line, if it is at any. -/
def Failure.renumber (g : Failure R) : Failure R := { g with line := g.line.map f }

@[simp] theorem SourceLine.renumber_text (l : SourceLine) : (l.renumber f).text = l.text := rfl

@[simp] theorem Statement.renumber_text (s : Statement) : (s.renumber f).text = s.text := rfl

/-! ### Grouping -/

namespace Source

theorem start_renumber (l : SourceLine) :
    start (l.renumber f) = ((start l).1.map (Statement.renumber f), (start l).2.map (OpenBlock.renumber f)) := by
  unfold start SourceLine.renumber
  dsimp only
  split
  · rfl
  · split <;> rfl

theorem OpenBlock.renumber_append (b : OpenBlock) (l : SourceLine) :
    ({ b.renumber f with body := (b.renumber f).body ++ [l.renumber f] } : OpenBlock) =
      OpenBlock.renumber f { b with body := b.body ++ [l] } := by
  simp [OpenBlock.renumber]

theorem groupAfter_renumber (o : Option OpenBlock) (ls : List SourceLine) :
    groupAfter (o.map (OpenBlock.renumber f)) (ls.map (SourceLine.renumber f)) =
      (groupAfter o ls).map (Statement.renumber f) := by
  induction ls generalizing o with
  | nil => cases o <;> rfl
  | cons l rest ih =>
      have hstart : (start (l.renumber f)).1 ++ groupAfter (start (l.renumber f)).2 (rest.map (SourceLine.renumber f)) =
          ((start l).1 ++ groupAfter (start l).2 rest).map (Statement.renumber f) := by
        rw [start_renumber, ih, List.map_append]
      cases o with
      | none => exact hstart
      | some b =>
          have hgrown := ih (some { b with body := b.body ++ [l] })
          have hclosed := ih none
          -- neither the brace nor the depth depends on numbers
          simp only [Option.map_some, List.map_cons, groupAfter]
          show (if b.braced then if l.text = "\x7d" then _ else _ else if b.head.indent < l.indent then _ else _) = _
          rw [OpenBlock.renumber_append, hstart]
          split
          · split
            · exact congrArg (_ :: ·) hclosed
            · exact hgrown
          · split
            · exact hgrown
            · rfl

theorem group_renumber (ls : List SourceLine) :
    group (ls.map (SourceLine.renumber f)) = (group ls).map (Statement.renumber f) :=
  groupAfter_renumber f none ls

end Source

/-! ### Readers that follow the numbers -/

/-- The second reader gives what `φ` makes of the value of the first one, or fails as the first one does, at the line
that `f` makes of its line. -/
inductive Follows (f : Nat → Nat) (φ : α → β) : Except (Failure R) α → Except (Failure R) β → Prop
  | ok (a : α) : Follows f φ (.ok a) (.ok (φ a))
  | error (g : Failure R) : Follows f φ (.error g) (.error (g.renumber f))

section combinators

variable {f} {φ : α → β} {ψ : γ → δ} {x : Except (Failure R) α} {y : Except (Failure R) β}

theorem Follows.of_ok {a : α} (h : Follows (R := R) f φ (.ok a) y) : y = .ok (φ a) := by
  cases h
  rfl

theorem Follows.of_error {g : Failure R} (h : Follows f φ (.error g) y) : y = .error (g.renumber f) := by
  cases h
  rfl

theorem Follows.bind {g : α → Except (Failure R) γ} {g' : β → Except (Failure R) δ} (h : Follows f φ x y)
    (hg : ∀ a, Follows f ψ (g a) (g' (φ a))) : Follows f ψ (x >>= g) (y >>= g') := by
  cases h with
  | ok a => exact hg a
  | error g => exact .error g

theorem Follows.map {g : α → γ} {g' : β → δ} (h : Follows f φ x y) (hg : ∀ a, ψ (g a) = g' (φ a)) :
    Follows f ψ (x.map g) (y.map g') := by
  cases h with
  | ok a =>
      show Follows f ψ (.ok (g a)) (.ok (g' (φ a)))
      rw [← hg]
      exact .ok (g a)
  | error g => exact .error g

theorem Follows.ite {p : Prop} [Decidable p] {x' : Except (Failure R) α} {y' : Except (Failure R) β}
    (h : Follows f φ x y) (h' : Follows f φ x' y') : Follows f φ (if p then x else x') (if p then y else y') := by
  split
  · exact h
  · exact h'

theorem Follows.mapM {g g' : γ → Except (Failure R) α} (h : ∀ c, Follows f id (g c) (g' c)) (cs : List γ) :
    Follows f id (cs.mapM g) (cs.mapM g') := by
  induction cs with
  | nil => exact .ok []
  | cons c cs ih =>
      rw [List.mapM_cons, List.mapM_cons]
      exact (h c).bind fun a => ih.bind fun as => .ok (a :: as)

theorem Follows.foldlM {g : α → γ → Except (Failure R) α} {g' : α → δ → Except (Failure R) α}
    (h : ∀ a c, Follows f id (g a c) (g' a (ψ c))) (cs : List γ) (a : α) :
    Follows f id (cs.foldlM g a) ((cs.map ψ).foldlM g' a) := by
  induction cs generalizing a with
  | nil => exact .ok a
  | cons c cs ih =>
      rw [List.map_cons, List.foldlM_cons, List.foldlM_cons]
      exact (h a c).bind ih

end combinators

/-! ### Names and integers -/

theorem follows_name (s : List Char) (line : Option Nat) :
    Follows (R := R) f id (Assignment.name s line) (Assignment.name s (line.map f)) :=
  .ite (.ok _) (.error _)

theorem follows_integer (s : List Char) :
    Follows (R := R) f id (Circuit.integer s) (Circuit.integer s) := by
  unfold Circuit.integer
  cases Number.readInteger s with
  | ok n => exact .ok n
  | error fault => exact .error ⟨_, none⟩

theorem follows_qubit (text : String) (line : Option Nat) :
    Follows (R := R) f id (Circuit.qubit text line) (Circuit.qubit text (line.map f)) :=
  .ite (follows_integer f _) (.error _)

/-! ### Run commands -/

theorem follows_shotsValue (value : List Char) (line : Option Nat) :
    Follows (R := R) f id (RunCommand.shotsValue value line) (RunCommand.shotsValue value (line.map f)) := by
  unfold RunCommand.shotsValue
  refine .ite (.error _) ?_
  cases Number.readInteger value with
  | ok n => exact .ite (.error _) (.ok n)
  | error fault => exact .error ⟨_, none⟩

theorem follows_itemShots (item : List Char) (line : Option Nat) :
    Follows (R := R) f id (RunCommand.itemShots item line) (RunCommand.itemShots item (line.map f)) := by
  unfold RunCommand.itemShots
  cases RunCommand.option? item with
  | none => exact .error _
  | some option => exact .ite (follows_shotsValue f option.2 line) (.error _)

theorem follows_options (text : Option (List Char)) (line : Option Nat) :
    Follows (R := R) f id (RunCommand.options text line) (RunCommand.options text (line.map f)) := by
  unfold RunCommand.options
  cases text with
  | none => exact .ok none
  | some text =>
      refine .ite (.ok none) ?_
      exact (Follows.mapM (fun item => follows_itemShots f item line) _).map fun _ => rfl

theorem follows_command (text : String) (line : Option Nat) :
    Follows (R := R) f id (RunCommand.read text line) (RunCommand.read text (line.map f)) := by
  unfold RunCommand.read
  cases RunCommand.parts? text with
  | none => exact .error _
  | some parts => exact (follows_options f parts.2 line).map fun _ => rfl

/-! ### Parallel blocks -/

theorem follows_branchesAfter (labels : List String) (ls : List SourceLine) :
    Follows (R := R) f (List.map (Parallel.Branch.renumber f)) (Parallel.branchesAfter labels ls)
      (Parallel.branchesAfter labels (ls.map (SourceLine.renumber f))) := by
  induction ls generalizing labels with
  | nil => exact .ok []
  | cons l rest ih =>
      rw [List.map_cons]
      unfold Parallel.branchesAfter
      rw [SourceLine.renumber_text]
      cases Parallel.declaration? l.text with
      | none => exact .error _
      | some declared => exact .ite (.error _) ((ih _).map fun _ => rfl)

theorem follows_block (s : Statement) :
    Follows (R := R) f (Parallel.Block.renumber f) (Parallel.Block.ofStatement s)
      (Parallel.Block.ofStatement (s.renumber f)) := by
  unfold Parallel.Block.ofStatement
  refine .ite (.error _) (.ite (.error _) ?_)
  exact (follows_branchesAfter f [] s.body).map fun _ => rfl

variable [Scalar R]

/-! ### Assignments -/

theorem follows_declaredValue (s : List Char) (line : Option Nat) :
    Follows (R := R) f id (Assignment.declaredValue s line) (Assignment.declaredValue s (line.map f)) := by
  unfold Assignment.declaredValue
  cases Literal.uncertain? (R := R) s with
  | ok v =>
      cases v with
      | some v => exact .ok v
      | none => exact .error _
  | error cause => exact .error ⟨cause, none⟩

theorem follows_assignment (text : String) (line : Option Nat) :
    Follows (R := R) f id (Assignment.read text line) (Assignment.read text (line.map f)) := by
  unfold Assignment.read
  cases Assignment.sides text with
  | none => exact .error _
  | some sides =>
      obtain ⟨target, expression⟩ := sides
      dsimp only
      cases Assignment.declaredName? target with
      | some declared =>
          refine (follows_name f declared line).bind fun name => ?_
          exact (follows_declaredValue f expression line).bind fun value => .ok _
      | none => exact (follows_name f target line).bind fun name => .ok _

/-! ### Circuit definitions -/

section circuits

open Circuit

theorem follows_angle (text : String) (line : Option Nat) :
    Follows (R := R) f id (angle text line) (angle text (line.map f)) := by
  -- both ways to read an angle end with the same test for finite numbers
  unfold angle
  dsimp only
  cases Number.readNumeral (Text.trim text.toList) with
  | some numeral =>
      dsimp only
      cases (finiteNumeral (R := R) numeral).filter Scalar.isFinite with
      | some x => exact .ok x
      | none => exact .error _
  | none =>
      cases multipleOfPi (R := R) (Text.trim text.toList) with
      | none => exact .error _
      | some value =>
          dsimp only
          cases (some value).filter Scalar.isFinite with
          | some x => exact .ok x
          | none => exact .error _

theorem follows_gate (l : SourceLine) : Follows (R := R) f id (gate l) (gate (l.renumber f)) := by
  unfold gate
  rw [SourceLine.renumber_text]
  cases call? l.text with
  | none => exact .error _
  | some call =>
      obtain ⟨name, args⟩ := call
      dsimp only
      cases GateKind.ofName? name with
      | none => exact .error _
      | some kind =>
          refine .ite (.error _) ?_
          refine (Follows.mapM (fun text => follows_angle f text l.number) _).bind fun params => ?_
          exact (Follows.mapM (fun text => follows_qubit f text l.number) _).bind fun qubits => .ok _

omit [Scalar R] in
theorem follows_measure (l : SourceLine) : Follows (R := R) f id (Circuit.measure l) (Circuit.measure (l.renumber f)) := by
  unfold Circuit.measure
  rw [SourceLine.renumber_text]
  refine .ite (.ok none) ?_
  cases call? l.text with
  | none => exact .error _
  | some call =>
      refine .ite (.error _) (.ite (.error _) ?_)
      exact (Follows.mapM (fun text => follows_qubit f text l.number) _).bind fun qubits => .ok _

omit [Scalar R] in
theorem follows_declaration (name : String) (declared : Bool) (value : List Char) (line : Nat) :
    Follows (R := R) f id (declaration name declared value line) (declaration name declared value (f line)) := by
  unfold declaration
  refine .ite (.error _) (.ite (.error _) ?_)
  refine (follows_integer f value).bind fun count => ?_
  exact .ite (.error _) (.ite (.error _) (.ok count))

theorem follows_draft_add (name : String) (d : Draft R) (l : SourceLine) :
    Follows (R := R) f id (d.add name l) (d.add name (l.renumber f)) := by
  unfold Draft.add
  rw [SourceLine.renumber_text]
  cases declaredCount? l.text with
  | some value => exact (follows_declaration f name _ value l.number).bind fun count => .ok _
  | none =>
      refine .ite ?_ ?_
      · refine (follows_measure f l).bind fun qubits => ?_
        cases qubits <;> exact .ok _
      · exact (follows_gate f l).bind fun g => .ok _

theorem follows_draft_circuit (name : String) (line : Nat) (d : Draft R) :
    Follows (R := R) f id (d.circuit name line) (d.circuit name (f line)) := by
  unfold Draft.circuit
  cases d.qubits with
  | none => exact .error _
  | some count =>
      dsimp only
      cases make name count d.gates (if d.all then [] else d.measured) with
      | ok c => exact .ok c
      | error cause => exact .error _

theorem follows_circuit (s : Statement) :
    Follows (R := R) f id (Circuit.ofStatement s) (Circuit.ofStatement (s.renumber f)) := by
  unfold Circuit.ofStatement
  rw [Statement.renumber_text]
  cases headName? s.text with
  | none => exact .error _
  | some name =>
      refine (Follows.foldlM (fun d l => follows_draft_add f name d l) s.body {}).bind fun d => ?_
      exact follows_draft_circuit f name s.line d

end circuits

end LabLang
