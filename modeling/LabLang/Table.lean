/-! # Tables

A table keeps its keys in the order in which they first arrived. Writing to a key that is present
replaces its value and moves nothing. -/

namespace LabLang

/-- Pairs of a key and a value, in order of first arrival. -/
abbrev Table (α : Type) := List (String × α)

namespace Table

variable {α : Type}

/-- The value of a key. -/
def get? : Table α → String → Option α
  | [], _ => none
  | (k, v) :: t, key => if k = key then some v else get? t key

/-- Writes the value of a key. -/
def put : Table α → String → α → Table α
  | [], key, value => [(key, value)]
  | (k, v) :: t, key, value => if k = key then (k, value) :: t else (k, v) :: put t key value

/-- The key is present. -/
def has (t : Table α) (key : String) : Bool := (t.get? key).isSome

/-- The keys in order. -/
def keys (t : Table α) : List String := t.map (·.1)

/-- Writes several pairs, the first one first. -/
def putAll (t : Table α) (pairs : List (String × α)) : Table α :=
  pairs.foldl (fun t p => t.put p.1 p.2) t

/-- The table of a list of pairs; of a repeated key the last value counts and the first place. -/
def ofPairs (pairs : List (String × α)) : Table α := putAll [] pairs

/-- The table with other values for its keys. -/
def mapValues {β : Type} (f : α → β) (t : Table α) : Table β := t.map fun entry => (entry.1, f entry.2)

/-- The table of what is read from the values of another one, up to the first that cannot be read. -/
def readValues {ε β : Type} (f : α → Except ε β) (t : Table α) : Except ε (Table β) :=
  t.mapM fun entry => (f entry.2).map fun value => (entry.1, value)

/-! ### Reading after writing -/

theorem get?_put_self (t : Table α) (key : String) (value : α) :
    (t.put key value).get? key = some value := by
  induction t with
  | nil => simp [put, get?]
  | cons p t ih => by_cases h : p.1 = key <;> simp [put, get?, h, ih]

theorem get?_put_of_ne (t : Table α) {key other : String} (value : α) (h : key ≠ other) :
    (t.put key value).get? other = t.get? other := by
  induction t with
  | nil => simp [put, get?, h]
  | cons p t ih =>
    by_cases hp : p.1 = key
    · subst hp; simp [put, get?, h]
    · by_cases ho : p.1 = other <;> simp [put, get?, hp, ho, ih, Ne.symm h]

end Table

end LabLang
