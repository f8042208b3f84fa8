import Mathlib.Data.List.Induction
import Mathlib.Data.List.Nodup

/-! # Erasing repetitions

A list without its repetitions has each element once, where it stands first (`eraseDups_concat`).  It is as long as the
list exactly if there is nothing to erase (`length_eraseDups_eq_iff`). -/

namespace LabLang

variable {α : Type} [BEq α] [LawfulBEq α]

/-- An element at the end is kept if it has not occurred before. -/
theorem eraseDups_concat (xs : List α) (x : α) :
    (xs ++ [x]).eraseDups = if x ∈ xs then xs.eraseDups else xs.eraseDups ++ [x] := by
  rw [List.eraseDups_append]
  by_cases h : x ∈ xs
  · have hnone : [x].removeAll xs = [] := by simp [List.removeAll, h]
    rw [if_pos h, hnone, List.eraseDups_nil, List.append_nil]
  · have hnew : [x].removeAll xs = [x] := by simp [List.removeAll, h]
    rw [if_neg h, hnew, List.eraseDups_cons, List.filter_nil, List.eraseDups_nil]

theorem nodup_eraseDups (xs : List α) : xs.eraseDups.Nodup := by
  induction xs using List.reverseRecOn with
  | nil => exact List.nodup_nil
  | append_singleton xs x ih =>
      rw [eraseDups_concat]
      split
      case isTrue => exact ih
      case isFalse h => exact List.nodup_append_comm.mp (List.nodup_cons.mpr ⟨mt List.mem_eraseDups.mp h, ih⟩)

theorem eraseDups_sublist (xs : List α) : xs.eraseDups.Sublist xs := by
  induction xs using List.reverseRecOn with
  | nil => exact List.Sublist.refl []
  | append_singleton xs x ih =>
      rw [eraseDups_concat]
      split
      case isTrue => exact ih.trans (List.sublist_append_left xs [x])
      case isFalse => exact ih.append_right [x]

theorem eraseDups_of_nodup {xs : List α} (h : xs.Nodup) : xs.eraseDups = xs := by
  induction xs using List.reverseRecOn with
  | nil => rfl
  | append_singleton xs x ih =>
      have hcons : (x :: xs).Nodup := List.nodup_append_comm.mp h
      obtain ⟨hx, hxs⟩ := List.nodup_cons.mp hcons
      rw [eraseDups_concat, if_neg hx, ih hxs]

theorem length_eraseDups_eq_iff {xs : List α} : xs.eraseDups.length = xs.length ↔ xs.Nodup := by
  constructor
  · intro h
    rw [← (eraseDups_sublist xs).eq_of_length h]
    exact nodup_eraseDups xs
  · intro h
    rw [eraseDups_of_nodup h]

end LabLang
