/-! # Seeds

A seed is a natural number with a path: child number `k` of a seed has the path of its parent followed by
`k`, whatever has been drawn from the parent. The words of the seed are stirred into a pool of four, and
the state of a generator is squeezed out of the pool. All arithmetic is on 32-bit words. -/

namespace LabLang.Random

/-- A source of random streams. -/
structure Seed where
  entropy : Nat
  path : List Nat := []
deriving DecidableEq, Repr

namespace Seed

/-- The `k`-th child of a seed. -/
def child (s : Seed) (k : Nat) : Seed := { s with path := s.path ++ [k] }

/-- The 32-bit words of a number, the lowest first; at least one. -/
def words (n : Nat) : List UInt32 :=
  (List.range (n.log2 / 32 + 1)).map fun i => UInt32.ofNat (n >>> (32 * i))

/-- All words of a seed. The words of the path start no earlier than the fifth place. -/
def allWords (s : Seed) : List UInt32 :=
  let e := words s.entropy
  if s.path.isEmpty then e
  else e ++ List.replicate (4 - e.length) 0 ++ s.path.flatMap words

/-- The pool and the multiplier that changes with every word. -/
structure Pool where
  multiplier : UInt32
  words : Array UInt32

/-- Scrambles a word and moves the multiplier on. -/
def hash (multiplier word : UInt32) : UInt32 × UInt32 :=
  let next := multiplier * 0x931e8875
  let v := (word ^^^ multiplier) * next
  (next, v ^^^ (v >>> 16))

/-- Combines two words. -/
def mix (x y : UInt32) : UInt32 :=
  let r := 0xca01f9dd * x - 0x4973f715 * y
  r ^^^ (r >>> 16)

/-- Appends a scrambled word to the pool. -/
def Pool.push (p : Pool) (word : UInt32) : Pool :=
  let (next, v) := hash p.multiplier word
  ⟨next, p.words.push v⟩

/-- Stirs a word into one place of the pool. -/
def Pool.stir (p : Pool) (word : UInt32) (place : Nat) : Pool :=
  let (next, v) := hash p.multiplier word
  ⟨next, p.words.modify place (mix · v)⟩

/-- The pool of a seed: its first four words, stirred into each other, then the others. -/
def pool (s : Seed) : Array UInt32 :=
  let ws := s.allWords
  let places := List.range 4
  let p : Pool := places.foldl (fun p i => p.push (ws.getD i 0)) ⟨0x43b0d7e5, #[]⟩
  let p := places.foldl (fun p a =>
    (places.filter (· ≠ a)).foldl (fun p b => p.stir (p.words.getD a 0) b) p) p
  let p := (ws.drop 4).foldl (fun p w => places.foldl (fun p b => p.stir w b) p) p
  p.words

/-- The eight words that are squeezed out of the pool. -/
def squeeze (pool : Array UInt32) : List UInt32 :=
  ((List.range 8).foldl (fun (acc : UInt32 × List UInt32) i =>
    let next := acc.1 * 0x58f38ded
    let v := (pool.getD (i % 4) 0 ^^^ acc.1) * next
    (next, acc.2 ++ [v ^^^ (v >>> 16)])) (0x8b51f9dd, [])).2

/-- The same as four 64-bit words. -/
def state (s : Seed) : Array UInt64 :=
  let w := (squeeze s.pool).toArray
  Array.ofFn fun j : Fin 4 =>
    (w.getD (2 * j) 0).toUInt64 ||| ((w.getD (2 * j + 1) 0).toUInt64 <<< 32)

end Seed

end LabLang.Random
