import LabLang.State.Tensor
import Mathlib.Data.List.GetD
import Mathlib.Data.List.InsertIdx
import Mathlib.Data.List.Nodup

/-! # Moving axes back to their places

A contraction leaves the axes of a tensor in the order `axes ++ otherAxes rank axes`, and `movedOrder` is the inverse
of this order: what stood at place `a` before the contraction is found at place `a` again (`idxOf_movedOrder`).  The
proof follows the loop of `movedOrder`, which inserts the axes in the ascending order of their places: each of them is
the least place that is missing (`insertIdx_otherAxes`). -/

namespace LabLang.State.Tensor

/-! ### The axes that are not listed -/

theorem mem_otherAxes {rank a : Nat} {axes : List Nat} : a ∈ otherAxes rank axes ↔ a < rank ∧ a ∉ axes := by
  simp [otherAxes]

theorem otherAxes_nil (rank : Nat) : otherAxes rank [] = List.range rank := by simp [otherAxes]

/-- Only which axes are listed matters, not their order. -/
theorem otherAxes_congr {axes axes' : List Nat} (rank : Nat) (h : ∀ a, a ∈ axes ↔ a ∈ axes') :
    otherAxes rank axes = otherAxes rank axes' := by
  unfold otherAxes
  refine List.filter_congr fun a _ => ?_
  rw [Bool.eq_iff_iff]
  simp [h a]

theorem nodup_otherAxes (rank : Nat) (axes : List Nat) : (otherAxes rank axes).Nodup :=
  List.nodup_range.filter _

theorem range_append (a b : Nat) : List.range (a + b) = List.range a ++ List.range' a b := by
  rw [List.range_eq_range', List.range_eq_range', ← List.range'_append_1, Nat.zero_add]

/-- Behind the first `k` axes come the others in order. -/
theorem otherAxes_range (k m : Nat) : otherAxes (k + m) (List.range k) = List.range' k m := by
  have hfirst : (List.range k).filter (fun a => !(List.range k).contains a) = [] := by
    rw [List.filter_eq_nil_iff]
    intro a ha
    simpa using ha
  have hrest : (List.range' k m).filter (fun a => !(List.range k).contains a) = List.range' k m := by
    rw [List.filter_eq_self]
    intro a ha
    have := (List.mem_range'_1.mp ha).1
    simpa using this
  unfold otherAxes
  rw [range_append, List.filter_append, hfirst, hrest, List.nil_append]

/-- Places before all listed axes belong to other axes. -/
theorem otherAxes_of_le {d m : Nat} {axes : List Nat} (h : ∀ a ∈ axes, d ≤ a) :
    otherAxes (d + m) axes = List.range d ++ (List.range' d m).filter fun a => !axes.contains a := by
  have hkeep : (List.range d).filter (fun a => !axes.contains a) = List.range d := by
    rw [List.filter_eq_self]
    intro a ha
    have hnot : a ∉ axes := fun hmem => by
      have := h a hmem
      have := List.mem_range.mp ha
      omega
    simpa using hnot
  unfold otherAxes
  rw [range_append, List.filter_append, hkeep]

/-- Putting listed axes in front of the others loses none and repeats none. -/
theorem nodup_front {rank : Nat} {axes : List Nat} (h : axes.Nodup) : (axes ++ otherAxes rank axes).Nodup := by
  rw [List.nodup_append]
  refine ⟨h, nodup_otherAxes rank axes, ?_⟩
  rintro a ha b hb rfl
  exact (mem_otherAxes.mp hb).2 ha

theorem mem_front {rank a : Nat} {axes : List Nat} (hlt : ∀ a ∈ axes, a < rank) :
    a ∈ axes ++ otherAxes rank axes ↔ a < rank := by
  rw [List.mem_append, mem_otherAxes]
  constructor
  · rintro (h | h)
    · exact hlt a h
    · exact h.1
  · intro h
    by_cases ha : a ∈ axes
    · exact .inl ha
    · exact .inr ⟨h, ha⟩

theorem length_front {rank : Nat} {axes : List Nat} (h : axes.Nodup) (hlt : ∀ a ∈ axes, a < rank) :
    axes.length + (otherAxes rank axes).length = rank := by
  have hperm : (axes ++ otherAxes rank axes).Perm (List.range rank) := by
    rw [List.perm_ext_iff_of_nodup (nodup_front h) List.nodup_range]
    intro a
    rw [mem_front hlt, List.mem_range]
  have := hperm.length_eq
  rwa [List.length_append, List.length_range] at this

/-! ### The loop -/

theorem insertIdx_length_append {α : Type} (xs ys : List α) (x : α) :
    (xs ++ ys).insertIdx xs.length x = xs ++ x :: ys := by
  induction xs with
  | nil => rfl
  | cons y xs ih => rw [List.cons_append, List.length_cons, List.insertIdx_succ_cons, ih, List.cons_append]

/-- The least of several missing axes is put back by inserting it at its own place. -/
theorem insertIdx_otherAxes {rank d : Nat} {axes : List Nat} (hd : d < rank) (hlt : ∀ a ∈ axes, d < a) :
    (otherAxes rank (d :: axes)).insertIdx d d = otherAxes rank axes := by
  obtain ⟨m, rfl⟩ := Nat.exists_eq_add_of_lt hd
  have hdrop : (d :: List.range' (d + 1) m).filter (fun a => !(d :: axes).contains a) =
      (List.range' (d + 1) m).filter fun a => !axes.contains a := by
    rw [List.filter_cons_of_neg (by simp)]
    refine List.filter_congr fun a ha => ?_
    have : a ≠ d := by
      have := (List.mem_range'_1.mp ha).1
      omega
    simp [this]
  have hkeep : (d :: List.range' (d + 1) m).filter (fun a => !axes.contains a) =
      d :: (List.range' (d + 1) m).filter fun a => !axes.contains a := by
    have : d ∉ axes := fun h => Nat.lt_irrefl d (hlt d h)
    rw [List.filter_cons_of_pos (by simpa using this)]
  have hle : ∀ a ∈ d :: axes, d ≤ a := by
    intro a ha
    rcases List.mem_cons.mp ha with rfl | ha
    · exact Nat.le_refl a
    · exact Nat.le_of_lt (hlt a ha)
  have hinsert := insertIdx_length_append (List.range d) ((List.range' (d + 1) m).filter fun a => !axes.contains a) d
  rw [List.length_range] at hinsert
  rw [Nat.add_assoc, otherAxes_of_le hle, otherAxes_of_le fun a ha => Nat.le_of_lt (hlt a ha), List.range'_succ,
    hdrop, hkeep, hinsert]

/-- The loop of `movedOrder`, seen through the places `f` that the axes come from: with the missing places inserted
in ascending order, every axis stands where it comes from. -/
theorem map_foldl_insertIdx {rank : Nat} {f : Nat → Nat} {moves : List (Nat × Nat)} {order : List Nat}
    (hmoves : ∀ m ∈ moves, m.1 < rank ∧ f m.2 = m.1) (sorted : (moves.map (·.1)).Pairwise (· < ·))
    (horder : order.map f = otherAxes rank (moves.map (·.1))) :
    (moves.foldl (fun order m => order.insertIdx m.1 m.2) order).map f = List.range rank := by
  induction moves generalizing order with
  | nil => rw [List.foldl_nil, horder, List.map_nil, otherAxes_nil]
  | cons m moves ih =>
      rw [List.map_cons, List.pairwise_cons] at sorted
      obtain ⟨hd, hf⟩ := hmoves m (List.mem_cons_self ..)
      rw [List.foldl_cons]
      refine ih (fun m' hm' => hmoves m' (List.mem_cons_of_mem m hm')) sorted.2 ?_
      rw [List.map_insertIdx, horder, hf, List.map_cons]
      exact insertIdx_otherAxes hd sorted.1

/-! ### The inverse order -/

section moved

variable {rank : Nat} {axes : List Nat}

theorem moves_perm (axes : List Nat) : ((moves (List.range axes.length) axes).map (·.1)).Perm axes := by
  refine ((List.mergeSort_perm _ _).map _).trans ?_
  rw [List.map_fst_zip (by simp)]

/-- The moves are made by ascending destination. -/
theorem sorted_moves (h : axes.Nodup) : ((moves (List.range axes.length) axes).map (·.1)).Pairwise (· < ·) := by
  have hsorted : (moves (List.range axes.length) axes).Pairwise fun a b => decide (a.1 ≤ b.1) = true := by
    apply List.pairwise_mergeSort
    · intro a b c hab hbc
      simp only [decide_eq_true_eq] at hab hbc ⊢
      omega
    · intro a b
      simp only [Bool.or_eq_true, decide_eq_true_eq]
      omega
  have hle : ((moves (List.range axes.length) axes).map (·.1)).Pairwise (· ≤ ·) := by
    rw [List.pairwise_map]
    exact hsorted.imp fun hab => of_decide_eq_true hab
  have hne : ((moves (List.range axes.length) axes).map (·.1)).Nodup := (moves_perm axes).nodup_iff.mpr h
  exact (hle.and hne).imp fun hab => Nat.lt_of_le_of_ne hab.1 hab.2

/-- The axis that stands at place `a` after a contraction; the place itself if there is none. -/
def frontAxis (rank : Nat) (axes : List Nat) (a : Nat) : Nat := (axes ++ otherAxes rank axes).getD a a

theorem frontAxis_of_move {m : Nat × Nat} (h : m ∈ moves (List.range axes.length) axes) :
    frontAxis rank axes m.2 = m.1 := by
  have hmem : m ∈ axes.zip (List.range axes.length) := (List.mergeSort_perm _ _).mem_iff.mp h
  obtain ⟨j, hj, hm⟩ := List.getElem_of_mem hmem
  rw [List.length_zip, List.length_range, Nat.min_self] at hj
  rw [List.getElem_zip, List.getElem_range] at hm
  subst hm
  unfold frontAxis
  rw [List.getD_append _ _ _ _ hj, List.getD_eq_getElem _ _ hj]

/-- Every axis stands where it came from. -/
theorem map_movedOrder (h : axes.Nodup) (hlt : ∀ a ∈ axes, a < rank) :
    (movedOrder rank (List.range axes.length) axes).map (frontAxis rank axes) = List.range rank := by
  refine map_foldl_insertIdx (fun m hm => ⟨?_, frontAxis_of_move hm⟩) (sorted_moves h) ?_
  · exact hlt m.1 ((moves_perm axes).mem_iff.mp (List.mem_map_of_mem hm))
  · refine Eq.trans ?_ (otherAxes_congr rank fun a => (moves_perm axes).mem_iff).symm
    have hrange : otherAxes rank (List.range axes.length) =
        List.range' axes.length (otherAxes rank axes).length := by
      rw [← otherAxes_range, length_front h hlt]
    rw [hrange]
    apply List.ext_getElem
    · rw [List.length_map, List.length_range']
    · intro i hi hi'
      rw [List.getElem_map, List.getElem_range']
      unfold frontAxis
      rw [Nat.one_mul, List.getD_append_right _ _ _ _ (Nat.le_add_right _ i), Nat.add_sub_cancel_left,
        List.getD_eq_getElem _ _ hi']

/-- `movedOrder` undoes the order of axes that a contraction leaves. -/
theorem idxOf_movedOrder (h : axes.Nodup) (hlt : ∀ a ∈ axes, a < rank) {a : Nat} (ha : a < rank) :
    (movedOrder rank (List.range axes.length) axes).idxOf a = frontAxis rank axes a := by
  have hmap := map_movedOrder h hlt
  have hnodup : (movedOrder rank (List.range axes.length) axes).Nodup := by
    refine List.Nodup.of_map (frontAxis rank axes) ?_
    rw [hmap]
    exact List.nodup_range
  have hlength : (axes ++ otherAxes rank axes).length = rank := by
    rw [List.length_append, length_front h hlt]
  have hfront : frontAxis rank axes a = (axes ++ otherAxes rank axes)[a] := List.getD_eq_getElem _ _ _
  have hp : frontAxis rank axes a < rank := by
    rw [hfront]
    exact (mem_front hlt).mp (List.getElem_mem _)
  have hplace : frontAxis rank axes a < (movedOrder rank (List.range axes.length) axes).length := by
    have := congrArg List.length hmap
    rw [List.length_map, List.length_range] at this
    omega
  -- the axis `b` that has ended up at the place of axis `a` comes from the same place, and is `a`
  obtain ⟨b, hb⟩ : ∃ b, b = (movedOrder rank (List.range axes.length) axes)[frontAxis rank axes a] := ⟨_, rfl⟩
  have hsame : frontAxis rank axes b = frontAxis rank axes a := by
    have hget := congrArg (fun order => order[frontAxis rank axes a]?) hmap
    simp only [List.getElem?_map, List.getElem?_eq_getElem hplace, ← hb] at hget
    rw [List.getElem?_range hp] at hget
    exact Option.some.inj hget
  have hbrank : b < rank := by
    by_contra hge
    have : frontAxis rank axes b = b := List.getD_eq_default _ _ (by omega)
    omega
  have hba : b = a := by
    rw [hfront, frontAxis, List.getD_eq_getElem _ _ (by omega)] at hsame
    exact (List.Nodup.getElem_inj_iff (nodup_front h)).mp hsame
  calc (movedOrder rank (List.range axes.length) axes).idxOf a
      = (movedOrder rank (List.range axes.length) axes).idxOf
          (movedOrder rank (List.range axes.length) axes)[frontAxis rank axes a] := by rw [← hb, hba]
    _ = frontAxis rank axes a := hnodup.idxOf_getElem _ hplace

end moved

end LabLang.State.Tensor
