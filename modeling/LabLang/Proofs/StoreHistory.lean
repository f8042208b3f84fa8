import LabLang.Proofs.Tables
import LabLang.Scalar.Machine
import LabLang.Store.Memory
import Mathlib.Data.List.DropRight

/-! # The history of a store

What a store answers is determined by what has been done to it.  Only what comes after the last clearing counts
(`History.recent`): a name has the value of its last binding, the names stand in the order of their first bindings, and
the circuits are those of the last definitions, whatever has been bound to their names since.  One operation empties a
table or writes at most one entry to it (`Enters`), and so the tables of the store are those of the bindings and of the
definitions that count, in the order in which they were made (`Enters.after`).  In memory it is the same store
(`Memory.store_after`), and no operation touches a table that is not the own one (`Memory.IsCopy.apply`), so that
snapshots stay as they were taken (`Memory.read?_of_snapshot`). -/

namespace LabLang.Store

variable {R : Type} [Scalar R]

/-! ### Histories -/

namespace Operation

/-- The binding that is made by the operation. A definition binds the name of the circuit to a reference to it. -/
def binding? : Operation R → Option (String × Value R)
  | bind name value => some (name, value)
  | define c => some (c.name, .circuit c.name)
  | clear | snapshot => none

/-- The circuit that is defined by the operation, under its name. -/
def definition? : Operation R → Option (String × Circuit R)
  | define c => some (c.name, c)
  | bind _ _ | clear | snapshot => none

/-- The operation leaves what has been done before. -/
def keeps : Operation R → Bool
  | clear => false
  | bind _ _ | define _ | snapshot => true

end Operation

namespace History

variable (ops : List (Operation R))

/-- The operations since the store was cleared for the last time. -/
def recent : List (Operation R) := ops.rtakeWhile Operation.keeps

/-- What these operations enter, the earliest first. -/
def entries {α : Type} (entryOf : Operation R → Option (String × α)) : List (String × α) := (recent ops).filterMap entryOf

/-- The value of the last binding of a name. -/
def value? (name : String) : Option (Value R) := Table.lastOf name (entries ops Operation.binding?)

/-- The bound names, each one once, in the order of their first bindings. -/
def names : List String := Table.firstOf (entries ops Operation.binding?)

/-- The circuit of the last definition of a name. -/
def circuit? (name : String) : Option (Circuit R) := Table.lastOf name (entries ops Operation.definition?)

variable {α : Type} (entryOf : Operation R → Option (String × α))

theorem entries_clear : entries (ops ++ [.clear]) entryOf = [] := by
  rw [entries, recent, List.rtakeWhile_concat]
  rfl

theorem entries_concat {op : Operation R} (h : op.keeps = true) :
    entries (ops ++ [op]) entryOf = entries ops entryOf ++ (entryOf op).toList := by
  rw [entries, recent, List.rtakeWhile_concat, if_pos h, List.filterMap_append, ← recent, ← entries]
  cases hop : entryOf op with
  | none => rw [List.filterMap_cons_none hop, Option.toList_none, List.filterMap_nil]
  | some entry => rw [List.filterMap_cons_some hop, Option.toList_some, List.filterMap_nil]

end History

/-! ### Tables and their entries -/

theorem after_concat (ops : List (Operation R)) (op : Operation R) : after (ops ++ [op]) = (after ops).apply op :=
  List.foldl_concat ..

/-- A table of the store that clearing empties, and to which any other operation writes its entry, if it has one. -/
structure Enters {α : Type} (table : Store R → Table α) (entryOf : Operation R → Option (String × α)) : Prop where
  empty : table empty = []
  clear : ∀ s, table (apply s .clear) = []
  keep : ∀ s op, op.keeps = true → table (apply s op) = (table s).putAll (entryOf op).toList

theorem enters_vars : Enters (R := R) Store.vars Operation.binding? := by
  refine ⟨rfl, fun _ => rfl, fun s op h => ?_⟩
  cases op with
  | bind name value => rfl
  | define c => rfl
  | snapshot => rfl
  | clear => cases h

theorem enters_circuits : Enters (R := R) Store.circuits Operation.definition? := by
  refine ⟨rfl, fun _ => rfl, fun s op h => ?_⟩
  cases op with
  | bind name value => rfl
  | define c => rfl
  | snapshot => rfl
  | clear => cases h

/-- Such a table is always that of the entries that count, written one after the other. -/
theorem Enters.after {α : Type} {table : Store R → Table α} {entryOf : Operation R → Option (String × α)}
    (h : Enters table entryOf) (ops : List (Operation R)) :
    table (after ops) = Table.ofPairs (History.entries ops entryOf) := by
  -- the history grows at its end, and that is also where the last clearing is looked for
  induction ops using List.reverseRecOn with
  | nil => exact h.empty
  | append_singleton ops op ih =>
      rw [after_concat]
      by_cases hkeeps : op.keeps = true
      · rw [h.keep _ op hkeeps, ih, History.entries_concat ops entryOf hkeeps, Table.ofPairs_append]
      · obtain rfl : op = .clear := by
          cases op with
          | clear => rfl
          | bind _ _ | define _ | snapshot => exact absurd rfl hkeeps
        rw [h.clear, History.entries_clear]
        rfl

/-! ### The store in memory -/

namespace Memory

variable (m : Memory R)

theorem store_write (f : Table (Value R) → Table (Value R)) :
    (m.write f).store = { m.store with vars := f m.store.vars } :=
  congrArg (Store.mk · m.circuits) (List.getElem_modify_eq f m.own m.tables _)

theorem store_snapshot : m.snapshot.2.store = m.store :=
  congrArg (Store.mk · m.circuits) (List.getElem_append_left m.own_lt)

/-- An operation does the same in memory as to the store alone. -/
theorem store_apply (op : Operation R) : (m.apply op).store = m.store.apply op := by
  cases op with
  | bind name value => exact m.store_write _
  | define c => exact store_write { m with circuits := m.circuits.put c.name c } _
  | clear => exact congrArg (fun s => { s with circuits := [] }) (m.store_write fun _ => [])
  | snapshot => exact m.store_snapshot

theorem store_foldl (ops : List (Operation R)) : (ops.foldl apply m).store = ops.foldl Store.apply m.store := by
  induction ops generalizing m with
  | nil => rfl
  | cons op ops ih => rw [List.foldl_cons, ih, store_apply, List.foldl_cons]

theorem store_after (ops : List (Operation R)) : (after ops).store = Store.after ops := store_foldl new ops

/-! ### Snapshots -/

/-- At the place there is a table, and it is not the own one of the store. -/
structure IsCopy (m : Memory R) (place : ℕ) : Prop where
  ne_own : place ≠ m.own
  lt_length : place < m.tables.length

variable {m} {place : ℕ}

theorem IsCopy.write (h : m.IsCopy place) (f : Table (Value R) → Table (Value R)) :
    (m.write f).IsCopy place ∧ (m.write f).read? place = m.read? place := by
  refine ⟨⟨h.ne_own, ?_⟩, List.getElem?_modify_ne f m.tables h.ne_own.symm⟩
  exact (List.length_modify ..).symm ▸ h.lt_length

/-- No operation changes a table that is not the own one. -/
theorem IsCopy.apply (h : m.IsCopy place) (op : Operation R) :
    (m.apply op).IsCopy place ∧ (m.apply op).read? place = m.read? place := by
  cases op with
  | bind name value => exact h.write _
  | define c =>
      have hdefined : IsCopy { m with circuits := m.circuits.put c.name c } place := ⟨h.ne_own, h.lt_length⟩
      exact hdefined.write _
  | clear =>
      obtain ⟨hcopy, hread⟩ := h.write fun _ => []
      exact ⟨⟨hcopy.ne_own, hcopy.lt_length⟩, hread⟩
  | snapshot =>
      refine ⟨⟨h.ne_own, ?_⟩, List.getElem?_append_left h.lt_length⟩
      exact List.length_append ▸ Nat.lt_add_right _ h.lt_length

theorem IsCopy.foldl (h : m.IsCopy place) (ops : List (Operation R)) :
    (ops.foldl Memory.apply m).read? place = m.read? place := by
  induction ops generalizing m with
  | nil => rfl
  | cons op ops ih =>
      obtain ⟨hcopy, hread⟩ := h.apply op
      rw [List.foldl_cons, ih hcopy, hread]

variable (m)

theorem isCopy_snapshot : m.snapshot.2.IsCopy m.snapshot.1 := by
  refine ⟨m.own_lt.ne', ?_⟩
  exact List.length_append ▸ Nat.lt_succ_self m.tables.length

theorem read?_snapshot : m.snapshot.2.read? m.snapshot.1 = some m.store.vars := List.getElem?_concat_length

/-- A snapshot has the bindings of the moment in which it is taken, whatever is done later. -/
theorem read?_of_snapshot (before later : List (Operation R)) :
    (after (before ++ .snapshot :: later)).read? (after before).snapshot.1 = some (Store.after before).vars := by
  have hsplit : after (before ++ .snapshot :: later) = later.foldl apply (after before).snapshot.2 := List.foldl_append
  rw [hsplit, (isCopy_snapshot _).foldl, read?_snapshot, store_after]

end Memory

/-! ### Answers -/

/-- The three ways of asking for a name give its value, or agree that there is none. -/
def Answers (s : Store R) (name : String) : Option (Value R) → Prop
  | some v => s.get name = .ok v ∧ s.lookup name = some v ∧ s.contains name = true
  | none => (∃ cause, s.get name = .error cause ∧ cause.kind.name = "NameError" ∧
      cause.message = "Undefined variable: " ++ name) ∧ s.lookup name = none ∧ s.contains name = false

theorem answers_lookup (s : Store R) (name : String) : s.Answers name (s.lookup name) := by
  have hcontains : s.contains name = (s.lookup name).isSome := rfl
  cases h : s.lookup name with
  | some v =>
      have hget : s.get name = .ok v := by rw [get, h]
      exact ⟨hget, h, by rw [hcontains, h, Option.isSome_some]⟩
  | none =>
      have hget : s.get name = .error (.undefined .variableUse name) := by rw [get, h]
      exact ⟨⟨_, hget, rfl, rfl⟩, h, by rw [hcontains, h, Option.isSome_none]⟩

/-- **A store answers by its history.**  After any operations on a new store, the store in memory is the one that these
operations give as a value.  A name has the value of its last binding or definition since the last clearing, and there is
no value if there is none.  The bound names are listed once each, in the order in which they have been bound first since
then, and their number is the size of the store.  The circuit of a name is the one that has been defined last under this
name since then.  Every snapshot still has the bindings that the operations before it have made, with the names in their
order. -/
theorem answers_by_history (ops : List (Operation R)) :
    (Memory.after ops).store = after ops ∧
    (∀ name, (after ops).Answers name (History.value? ops name)) ∧
    (after ops).names = History.names ops ∧ (History.names ops).Nodup ∧ (after ops).size = (History.names ops).length ∧
    (∀ name, (after ops).circuit? name = History.circuit? ops name) ∧
    ∀ before later, ops = before ++ .snapshot :: later → ∃ taken,
      (Memory.after ops).read? (Memory.after before).snapshot.1 = some taken ∧
      taken.keys = History.names before ∧ ∀ name, taken.get? name = History.value? before name := by
  have hvalue (ops : List (Operation R)) (name : String) : (after ops).vars.get? name = History.value? ops name := by
    rw [enters_vars.after, Table.get?_ofPairs, History.value?]
  have hnames (ops : List (Operation R)) : (after ops).vars.keys = History.names ops := by
    rw [enters_vars.after, Table.keys_ofPairs, History.names]
  refine ⟨Memory.store_after ops, fun name => ?_, hnames ops, nodup_eraseDups _, ?_, fun name => ?_, ?_⟩
  · rw [← hvalue]
    exact answers_lookup _ name
  · rw [← hnames]
    exact (List.length_map _).symm
  · rw [circuit?, enters_circuits.after, Table.get?_ofPairs, History.circuit?]
  · rintro before later rfl
    exact ⟨(after before).vars, Memory.read?_of_snapshot before later, hnames before, hvalue before⟩

/-- The name of a circuit is bound to a text, and later everything is cleared: the circuit is there until then, and the
snapshot from before keeps the reference to it. -/
theorem answers_by_history_cleared :
    let c : Circuit Float := ⟨"c", 1, [], [0]⟩
    let before : List (Operation Float) := [.bind "x" (.text "1"), .define c, .bind "x" (.text "2")]
    let rebound : List (Operation Float) := before ++ [.snapshot, .bind "c" (.text "3")]
    let ops : List (Operation Float) := rebound ++ [.clear, .bind "y" (.text "4")]
    (after rebound).names = ["x", "c"] ∧ (after rebound).Answers "c" (some (.text "3")) ∧
    (after rebound).circuit? "c" = some c ∧
    (after ops).names = ["y"] ∧ (after ops).Answers "x" none ∧ (after ops).circuit? "c" = none ∧
    ∃ taken, (Memory.after ops).read? (Memory.after before).snapshot.1 = some taken ∧ taken.keys = ["x", "c"] ∧
      taken.get? "x" = some (.text "2") ∧ taken.get? "c" = some (.circuit "c") := by
  intro c before rebound ops
  obtain ⟨-, hrebound, hreboundNames, -, -, hreboundCircuit, -⟩ := answers_by_history rebound
  obtain ⟨-, hops, hopsNames, -, -, hopsCircuit, hsnapshots⟩ := answers_by_history ops
  obtain ⟨taken, hread, hkeys, hvalues⟩ := hsnapshots before [.bind "c" (.text "3"), .clear, .bind "y" (.text "4")] rfl
  exact ⟨hreboundNames.trans (by decide), hrebound "c", hreboundCircuit "c", hopsNames.trans (by decide), hops "x",
    hopsCircuit "c", taken, hread, hkeys.trans (by decide), hvalues "x", hvalues "c"⟩

end LabLang.Store
