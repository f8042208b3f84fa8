import Mathlib.Data.List.Forall2

/-! # Readers taken apart

Readers are composed from steps that may fail.  If the whole succeeds, so has every step, and if it fails, so has one of
them: the lemmas here take a reader apart, one combinator at a time. -/

namespace LabLang

variable {ε α β : Type}

theorem ok_of_bind {x : Except ε α} {g : α → Except ε β} {r : β} (h : (x >>= g) = .ok r) :
    ∃ a, x = .ok a ∧ g a = .ok r := by
  cases x with
  | error e => cases h
  | ok a => exact ⟨a, rfl, h⟩

theorem ok_of_map {x : Except ε α} {g : α → β} {r : β} (h : x.map g = .ok r) : ∃ a, x = .ok a ∧ r = g a := by
  cases x with
  | error e => cases h
  | ok a =>
      cases h
      exact ⟨a, rfl, rfl⟩

/-- A test in front of a reader has been passed. -/
theorem ok_of_test {p : Prop} [Decidable p] {e : ε} {x : Except ε α} {r : α}
    (h : (if p then .error e else x) = .ok r) : ¬ p ∧ x = .ok r := by
  by_cases hp : p
  · rw [if_pos hp] at h
    cases h
  · rw [if_neg hp] at h
    exact ⟨hp, h⟩

/-- The same for a test that stands in front as a statement of its own. -/
theorem ok_of_unless {p : Prop} [Decidable p] {e : ε} {x : Except ε α} {r : α}
    (h : (if p then (throw e : Except ε Unit) >>= fun _ => x else x) = .ok r) : ¬ p ∧ x = .ok r :=
  ok_of_test (e := e) h

/-- A loop of tests that have all been passed. -/
theorem ok_of_forM {f : α → Except ε Unit} {xs : List α} (h : xs.forM f = .ok ()) : ∀ x ∈ xs, f x = .ok () := by
  induction xs with
  | nil => simp
  | cons x xs ih =>
      obtain ⟨⟨⟩, hx, hxs⟩ := ok_of_bind h
      simp only [List.mem_cons, forall_eq_or_imp]
      exact ⟨hx, ih hxs⟩

/-- A loop of tests that are all passed. -/
theorem forM_eq_ok {f : α → Except ε Unit} {xs : List α} (h : ∀ x ∈ xs, f x = .ok ()) :
    xs.forM f = .ok () := by
  induction xs with
  | nil => rfl
  | cons x xs ih =>
      rw [List.forall_mem_cons] at h
      have hstep : (x :: xs).forM f = (f x >>= fun _ => xs.forM f) := rfl
      rw [hstep, h.1]
      exact ih h.2

/-- A loop of readers has succeeded if and only if each of them has, with the results in order. -/
theorem mapM_eq_ok_iff {f : α → Except ε β} {xs : List α} {ys : List β} :
    xs.mapM f = .ok ys ↔ List.Forall₂ (fun x y => f x = .ok y) xs ys := by
  induction xs generalizing ys with
  | nil =>
      rw [List.forall₂_nil_left_iff, List.mapM_nil]
      exact ⟨fun h => (Except.ok.inj h).symm, fun h => by rw [h]; rfl⟩
  | cons x xs ih =>
      rw [List.mapM_cons]
      constructor
      · intro h
        obtain ⟨y, hy, h⟩ := ok_of_bind h
        obtain ⟨rest, hrest, h⟩ := ok_of_bind h
        cases h
        exact .cons hy (ih.mp hrest)
      · rintro (_ | ⟨hy, hrest⟩)
        rw [hy, ih.mpr hrest]
        rfl

/-- A loop of readers that all succeed. -/
theorem mapM_eq_ok {f : α → Except ε β} {g : α → β} {xs : List α} (h : ∀ x ∈ xs, f x = .ok (g x)) :
    xs.mapM f = .ok (xs.map g) := by
  rw [mapM_eq_ok_iff, List.forall₂_map_right_iff, List.forall₂_same]
  exact h

/-- What has been written value by value is read back if each value is. -/
theorem mapM_map_eq_ok {f : β → Except ε α} {write : α → β} {xs : List α} (h : ∀ x ∈ xs, f (write x) = .ok x) :
    (xs.map write).mapM f = .ok xs := by
  rw [mapM_eq_ok_iff, List.forall₂_map_left_iff, List.forall₂_same]
  exact h

/-- A loop of readers has succeeded: so has each of them, and there are as many results. -/
theorem ok_of_mapM {f : α → Except ε β} {xs : List α} {ys : List β} (h : xs.mapM f = .ok ys) :
    ys.length = xs.length ∧ ∀ x ∈ xs, ∃ y, f x = .ok y := by
  have hall := mapM_eq_ok_iff.mp h
  refine ⟨hall.length_eq.symm, fun x hx => ?_⟩
  obtain ⟨i, hi, rfl⟩ := List.getElem_of_mem hx
  exact ⟨_, hall.get hi (hall.length_eq ▸ hi)⟩

/-! ### Readers that succeed -/

theorem exists_map_eq_ok_iff {x : Except ε α} {g : α → β} : (∃ b, x.map g = .ok b) ↔ ∃ a, x = .ok a := by
  cases x with
  | error e => exact ⟨fun ⟨_, h⟩ => (by cases h), fun ⟨_, h⟩ => (by cases h)⟩
  | ok a => exact ⟨fun _ => ⟨a, rfl⟩, fun _ => ⟨g a, rfl⟩⟩

theorem exists_mapError_eq_ok_iff {ε' : Type} {x : Except ε α} {f : ε → ε'} :
    (∃ a, x.mapError f = .ok a) ↔ ∃ a, x = .ok a := by
  cases x with
  | error e => exact ⟨fun ⟨_, h⟩ => (by cases h), fun ⟨_, h⟩ => (by cases h)⟩
  | ok a => exact ⟨fun _ => ⟨a, rfl⟩, fun _ => ⟨a, rfl⟩⟩

/-- A reader in front of one that always succeeds. -/
theorem exists_bind_eq_ok_iff {x : Except ε α} {g : α → Except ε β} (hg : ∀ a, ∃ b, g a = .ok b) :
    (∃ b, (x >>= g) = .ok b) ↔ ∃ a, x = .ok a := by
  cases x with
  | error e => exact ⟨fun ⟨_, h⟩ => (by cases h), fun ⟨_, h⟩ => (by cases h)⟩
  | ok a => exact ⟨fun _ => ⟨a, rfl⟩, fun _ => hg a⟩

/-- Two readers, the second of which does not depend on the result of the first. -/
theorem exists_both_eq_ok_iff {γ : Type} {x : Except ε α} {y : Except ε β} {g : α → β → γ} :
    (∃ r, (do let a ← x; let b ← y; pure (g a b)) = Except.ok (ε := ε) r) ↔ (∃ a, x = .ok a) ∧ ∃ b, y = .ok b := by
  constructor
  · rintro ⟨r, h⟩
    obtain ⟨a, ha, h⟩ := ok_of_bind h
    obtain ⟨b, hb, -⟩ := ok_of_bind h
    exact ⟨⟨a, ha⟩, b, hb⟩
  · rintro ⟨⟨a, rfl⟩, b, rfl⟩
    exact ⟨g a b, rfl⟩

/-- A loop of readers succeeds if and only if each of them does. -/
theorem exists_mapM_eq_ok_iff {f : α → Except ε β} {xs : List α} :
    (∃ ys, xs.mapM f = .ok ys) ↔ ∀ x ∈ xs, ∃ y, f x = .ok y := by
  refine ⟨fun ⟨ys, h⟩ => (ok_of_mapM h).2, fun h => ?_⟩
  induction xs with
  | nil => exact ⟨[], rfl⟩
  | cons x xs ih =>
      rw [List.forall_mem_cons] at h
      rw [List.mapM_cons]
      exact exists_both_eq_ok_iff.mpr ⟨h.1, ih h.2⟩

/-! ### Failures -/

theorem error_of_bind {x : Except ε α} {g : α → Except ε β} {e : ε} (h : (x >>= g) = .error e) :
    x = .error e ∨ ∃ a, x = .ok a ∧ g a = .error e := by
  cases x with
  | error e' =>
      cases h
      exact .inl rfl
  | ok a => exact .inr ⟨a, rfl, h⟩

theorem error_of_map {x : Except ε α} {g : α → β} {e : ε} (h : x.map g = .error e) : x = .error e := by
  cases x with
  | error e' =>
      cases h
      rfl
  | ok a => cases h

/-- A loop of readers has failed if and only if one of them has, and those in front of it have succeeded. -/
theorem mapM_eq_error_iff {f : α → Except ε β} {xs : List α} {e : ε} :
    xs.mapM f = .error e ↔
      ∃ before x after ys, xs = before ++ x :: after ∧ before.mapM f = .ok ys ∧ f x = .error e := by
  constructor
  · intro h
    induction xs with
    | nil => cases h
    | cons x xs ih =>
        rw [List.mapM_cons] at h
        rcases error_of_bind h with hx | ⟨y, hy, h⟩
        · exact ⟨[], x, xs, [], rfl, rfl, hx⟩
        rcases error_of_bind h with hxs | ⟨ys, -, h⟩
        · obtain ⟨before, x', after, ys, rfl, hbefore, hx'⟩ := ih hxs
          refine ⟨x :: before, x', after, y :: ys, rfl, ?_, hx'⟩
          rw [List.mapM_cons, hy, hbefore]
          rfl
        · cases h
  · rintro ⟨before, x, after, ys, rfl, hbefore, hx⟩
    rw [List.mapM_append, hbefore, List.mapM_cons, hx]
    rfl

/-- A loop of readers has failed: so has one of them. -/
theorem error_of_mapM {f : α → Except ε β} {xs : List α} {e : ε} (h : xs.mapM f = .error e) :
    ∃ x ∈ xs, f x = .error e := by
  obtain ⟨before, x, after, -, rfl, -, hx⟩ := mapM_eq_error_iff.mp h
  exact ⟨x, List.mem_append_right before List.mem_cons_self, hx⟩

end LabLang
