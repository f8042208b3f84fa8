import LabLang.Interpreter

/-! # Sessions

A session executes programs one after the other, with the same settings. A persistent session keeps the store
from one program to the next until it is cleared; any other starts each program with an empty store. Every
execution starts again from the same seed, and no execution fails without a result. -/

namespace LabLang

/-- A session. One that is not persistent has no store. -/
structure Session (R : Type) [Scalar R] where
  settings : Settings
  store : Option (Store R)

namespace Session

variable {R : Type} [Scalar R]

/-- A new session. -/
def start (settings : Settings) (persistent : Bool := false) : Session R :=
  ⟨settings, if persistent then some .empty else none⟩

/-- The session keeps its store. -/
def isPersistent (s : Session R) : Bool := s.store.isSome

/-- Executes a program; `fresh` is the seed if the settings give none. -/
def execute (s : Session R) (fresh : Nat) (source : String) : Result R × Session R :=
  match Interpreter.execute s.settings fresh (s.store.getD .empty) source with
  | .ok (r, store) => (r, { s with store := s.store.map fun _ => store })
  | .error fault => (.failure (.ofFailure ⟨.internal fault, none⟩), s)

/-- Forgets all bindings and circuits. -/
def clear (s : Session R) : Session R := { s with store := s.store.map fun _ => .empty }

end Session

end LabLang
