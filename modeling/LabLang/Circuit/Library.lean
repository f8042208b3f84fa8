import LabLang.Circuit.Basic

/-! # Well-known circuits

Circuits that a program can run without defining them. A definition of the same name takes
precedence. -/

namespace LabLang.Circuit

variable {R : Type}

/-- The Bell pair. -/
def bell : Circuit R := ⟨"bell", 2, [⟨"H", [0], []⟩, ⟨"CNOT", [0, 1], []⟩], [0, 1]⟩

/-- Three entangled qubits. -/
def ghz : Circuit R :=
  ⟨"ghz", 3, [⟨"H", [0], []⟩, ⟨"CNOT", [0, 1], []⟩, ⟨"CNOT", [1, 2], []⟩], [0, 1, 2]⟩

/-- One qubit in an even superposition. -/
def superposition : Circuit R := ⟨"superposition", 1, [⟨"H", [0], []⟩], [0]⟩

/-- All well-known circuits. -/
def wellKnown : List (Circuit R) := [bell, ghz, superposition]

/-- The well-known circuit of a name. -/
def wellKnown? (name : String) : Option (Circuit R) := wellKnown.find? (·.name == name)

end LabLang.Circuit
