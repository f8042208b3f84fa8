import LabLang.Interpreter

/-! # Specifications of actions

`a.Meets P Q E` says what an action of the interpreter does: started in a state with `P` it gives a value and a
state with `Q`, or fails and leaves a state with `E`.  A failure keeps what has been done to the state, so that
`E` speaks about exactly the state that later statements would have seen.  The rule `meets_bind` composes
specifications; every other rule is about one primitive action. -/

namespace LabLang.Interpreter.Action

variable {R : Type} [Scalar R] {α β : Type}

/-! ### Runs -/

theorem run_bind (a : Action R α) (b : α → Action R β) (st : State R) :
    (a >>= b).run st = match a.run st with
      | .ok x st' => (b x).run st'
      | .error f st' => .error f st' := by
  show EStateM.bind a b st = _
  unfold EStateM.bind EStateM.run
  cases a st <;> rfl

theorem run_adaptExcept (g : Failure R → Failure R) (a : Action R α) (st : State R) :
    (EStateM.adaptExcept g a).run st = match a.run st with
      | .ok x st' => .ok x st'
      | .error f st' => .error (g f) st' := by
  unfold EStateM.run EStateM.adaptExcept
  cases a st <;> rfl

theorem run_get_bind (b : State R → Action R β) (st : State R) : (get >>= b).run st = (b st).run st := rfl

theorem run_nextChild_bind (root : Random.Seed) (b : Random.Seed → Action R β) (st : State R) :
    (nextChild root >>= b).run st = (b (root.child st.drawn)).run { st with drawn := st.drawn + 1 } := rfl

theorem run_ofExcept_bind (x : α) (b : α → Action R β) (st : State R) :
    (ofExcept (.ok x) >>= b).run st = (b x).run st := rfl

/-- What follows something that may fail has been run only if it has not failed. -/
theorem ok_of_run_ofExcept_bind {x : Except (Failure R) α} {b : α → Action R β} {st st' : State R} {r : β}
    (h : (ofExcept x >>= b).run st = .ok r st') : ∃ a, x = .ok a ∧ (b a).run st = .ok r st' := by
  rw [run_bind] at h
  cases x with
  | ok a => exact ⟨a, rfl, h⟩
  | error f => cases h

/-! ### Specifications -/

/-- The action gives a value and a state with `Q`, or a failure and a state with `E`, whenever it starts in a
state with `P`. -/
def Meets (a : Action R α) (P : State R → Prop) (Q : α → State R → Prop) (E : Failure R → State R → Prop) : Prop :=
  ∀ st, P st → match a.run st with
    | .ok x st' => Q x st'
    | .error f st' => E f st'

section rules

variable {P : State R → Prop} {Q : α → State R → Prop} {E : Failure R → State R → Prop} {a : Action R α}

theorem Meets.error (h : a.Meets P Q E) {st st' : State R} {f : Failure R} (hP : P st)
    (hr : a.run st = .error f st') : E f st' := by
  have := h st hP
  rw [hr] at this
  exact this

theorem meets_bind {b : α → Action R β} {S : β → State R → Prop} (ha : a.Meets P Q E)
    (hb : ∀ x, (b x).Meets (Q x) S E) : Meets (a >>= b) P S E := by
  intro st hst
  have h := ha st hst
  rw [run_bind]
  cases hr : a.run st with
  | ok x st' => rw [hr] at h; exact hb x st' h
  | error f st' => rw [hr] at h; exact h

theorem meets_pure (x : α) (h : ∀ st, P st → Q x st) : Meets (pure x) P Q E := h

theorem meets_throw (f : Failure R) (h : ∀ st, P st → E f st) : Meets (throw f) P Q E := h

theorem meets_get {S : State R → State R → Prop} (h : ∀ st, P st → S st st) : Meets get P S E := h

theorem meets_nextChild {S : Random.Seed → State R → Prop} (root : Random.Seed)
    (h : ∀ st, P st → S (root.child st.drawn) { st with drawn := st.drawn + 1 }) :
    Meets (nextChild root) P S E := h

theorem meets_ofExcept {x : Except (Failure R) α} (ok : ∀ r st, x = .ok r → P st → Q r st)
    (error : ∀ f st, x = .error f → P st → E f st) : Meets (ofExcept x) P Q E := by
  cases x with
  | ok r => exact fun st hst => ok r st rfl hst
  | error f => exact fun st hst => error f st rfl hst

end rules

end LabLang.Interpreter.Action
