import LabLang.Proofs.MeasurementStatistics
import LabLang.Proofs.RunOptions
import LabLang.Proofs.StoreInvariant

/-! # Running circuits of the store

A circuit has been checked when it was defined, so nothing is left to go wrong when it is measured.  The command that
runs it with a number of shots is one line whatever its name (`isContent_runText`), is grouped into one statement and
classified as a command (`statements_runText`), and is read as the name and the number (`read_runText`).  The name finds
the circuit of the store before any well-known one, and a circuit of a sound store can be measured
(`run_stored_circuit`). -/

namespace LabLang

open Text Number

/-! ### The text of a command -/

namespace RunCommand

/-- The list of options between the braces. -/
def optionText (shots : Nat) : List Char := " shots: ".toList ++ (natDigits shots ++ [' '])

/-- The characters of a command. -/
def runText (name : List Char) (shots : Nat) : List Char :=
  "run ".toList ++ (name ++ (" \x7b".toList ++ (optionText shots ++ ['\x7d'])))

/-- The command as it stands in a program. -/
def write (name : String) (shots : Int) : String := "run " ++ name ++ " \x7b shots: " ++ intText shots ++ " \x7d"

theorem toList_write (name : String) {shots : Int} (h : 0 ≤ shots) :
    (write name shots).toList = runText name.toList shots.toNat := by
  have habs : shots.natAbs = shots.toNat := by omega
  unfold write intText runText optionText
  rw [if_neg (Int.not_lt.mpr h), habs]
  simp [String.toList_append]

/-- What stands between two braces on one line. -/
theorem braced?_of_inner {inner : List Char} (h : '\n' ∉ inner) :
    braced? ('\x7b' :: (inner ++ ['\x7d'])) = some inner := by
  have hright : trimRight (inner ++ ['\x7d']) = inner ++ ['\x7d'] := trimRight_append (by simp) (by decide)
  rw [braced?, hright, List.reverse_append, List.reverse_singleton, List.singleton_append]
  simp [h]

section options

variable (shots : Nat)

theorem mem_optionText {c : Char} (h : c ∈ optionText shots) : c ∈ " shots: ".toList ∨ isWord c = true := by
  unfold optionText at h
  simp only [List.mem_append, List.mem_singleton] at h
  rcases h with h | h | rfl
  · exact .inl h
  · exact .inr (isDigit_and_isWord_of_mem h).2
  · exact .inl (by decide)

theorem notMem_optionText {c : Char} (hword : isWord c = false) (h : c ∉ " shots: ".toList) : c ∉ optionText shots := by
  intro hc
  rcases mem_optionText shots hc with hmem | hmem
  · exact h hmem
  · rw [hword] at hmem
    cases hmem

end options

/-- The list is one item, and the item gives the number. -/
theorem grants_optionText {shots : Nat} (hshots : 0 < shots) (hlength : (natDigits shots).length ≤ maxIntegerDigits) :
    Grants (optionText shots) shots := by
  refine ⟨natDigits shots, ⟨[' '], [], [' '], [' '], forall_mem_of_all rfl, rfl⟩, ?_, hlength, ?_, by omega⟩
  · exact fun c hc => (isDigit_and_isWord_of_mem hc).1
  · rw [digitsValue_natDigits]

section text

variable {name : List Char} (hname : isName name = true) (shots : Nat)
include hname

/-- The command is the content of a line: it has no comment mark, no tab and no line end. -/
theorem isContent_runText : Source.IsContent (runText name shots) := by
  have literal : ∀ c ∈ "run ".toList ++ " \x7b".toList ++ " shots: ".toList ++ ['\x7d'],
      c ≠ '#' ∧ c ≠ '\t' ∧ isLineBreak c = false := Source.clean_of_all (by decide)
  refine ⟨List.append_ne_nil_of_left_ne_nil (by decide) _, rfl, ?_, fun c hc => ?_⟩
  · have hsplit : runText name shots =
        ("run ".toList ++ (name ++ (" \x7b".toList ++ optionText shots))) ++ ['\x7d'] := by
      unfold runText
      simp only [List.append_assoc]
    simp only [hsplit, List.getLast_concat]
    decide
  · unfold runText at hc
    simp only [List.mem_append] at hc literal
    rcases hc with hc | hc | hc | hc | hc
    · exact literal c (.inl (.inl (.inl hc)))
    · exact clean_of_isWord (isWord_of_mem_name hname c hc)
    · exact literal c (.inl (.inl (.inr hc)))
    · rcases mem_optionText shots hc with hc | hc
      · exact literal c (.inl (.inr hc))
      · exact clean_of_isWord hc
    · exact literal c (.inr hc)

/-- The name and the list of options. -/
theorem parts_runText :
    parts? (String.ofList (runText name shots)) = some (String.ofList name, some (optionText shots)) := by
  obtain ⟨rest, hrest⟩ : ∃ rest, rest = " \x7b".toList ++ (optionText shots ++ ['\x7d']) := ⟨_, rfl⟩
  have hne : name ≠ [] := by
    rintro rfl
    cases hname
  have hfirst : isBlank ((name ++ rest).head (List.append_ne_nil_of_left_ne_nil hne _)) = false := by
    rw [List.head_append_of_ne_nil hne]
    exact isBlank_eq_false_of_isWord (isWord_of_mem_name hname _ (List.head_mem hne))
  have hword : Source.dropWordAndBlanks "run" (runText name shots) = some (name ++ rest) := by
    have hleft : trimLeft (name ++ rest) = name ++ rest :=
      trimLeft_append (s := []) (by simp) (List.append_ne_nil_of_left_ne_nil hne _) hfirst
    show some (trimLeft (name ++ (" \x7b".toList ++ (optionText shots ++ ['\x7d'])))) = _
    rw [← hrest, hleft]
  have htake : takeName (name ++ rest) = some (name, rest) := takeName_append hname fun c hc => by
    rw [hrest] at hc
    cases hc
    decide
  have hbrace : trimLeft rest = '\x7b' :: (optionText shots ++ ['\x7d']) := by
    rw [hrest]
    rfl
  unfold parts?
  rw [String.toList_ofList, hword]
  simp only [Option.bind_eq_bind, Option.bind_some, htake, hbrace]
  rw [braced?_of_inner (notMem_optionText shots (by decide) (by decide))]
  rfl

/-- A command is read as the name of its circuit and its number of shots. -/
theorem read_runText {R : Type} (line : Option Nat) (hshots : 0 < shots)
    (hlength : (natDigits shots).length ≤ maxIntegerDigits) :
    read (R := R) (String.ofList (runText name shots)) line = .ok ⟨String.ofList name, some shots⟩ := by
  have hblank : isBlankText (optionText shots) = false := by
    unfold isBlankText optionText
    rw [List.all_append]
    rfl
  have hsplit : (optionText shots).splitOn ',' = [optionText shots] := by
    refine List.splitOnP_eq_singleton fun c hc => ?_
    rw [beq_eq_false_iff_ne]
    rintro rfl
    exact notMem_optionText shots (by decide) (by decide) hc
  unfold read
  rw [parts_runText hname]
  dsimp only
  rw [options_of_items hblank, hsplit, mapM_itemShots_eq_ok_iff.mpr (.cons (grants_optionText hshots hlength) .nil)]
  rfl

end text

end RunCommand

/-! ### A program of one command -/

namespace Source

/-- A single line that begins no block is a statement of its own. -/
theorem statements_of_content? {raw s : List Char} (hraw : raw ≠ []) (hline : ∀ c ∈ raw, isLineBreak c = false)
    {indent : Nat} (hcontent : content? raw = some (indent, s)) (circuit : isCircuitHead s = false)
    (parallel : isParallelHead s = false) :
    statements (String.ofList raw) = [{ line := 1, text := String.ofList s }] := by
  unfold statements normalize group
  rw [String.toList_ofList, lines_of_clean hraw hline, number, hcontent]
  simp [number, groupAfter, start, circuit, parallel]

/-- The content of a line is its own statement. -/
theorem statements_of_isContent {s : List Char} (h : IsContent s) (circuit : isCircuitHead s = false)
    (parallel : isParallelHead s = false) :
    statements (String.ofList s) = [{ line := 1, text := String.ofList s }] :=
  statements_of_content? h.nonempty (fun c hc => (h.clean c hc).2.2) (content?_spaces h 0) circuit parallel

end Source

namespace Interpreter

open LabLang.Interpreter.Action

variable {R : Type} [Scalar R] {root : Random.Seed} {shots : Int}

/-- A program of one statement that succeeds gives what the statement gives. -/
theorem runProgram_of_statement {store : Store R} {source : String} {s : Statement} {r : Result R} {st : State R}
    (statements : Source.statements source = [s]) (kind : Source.classify s.text ≠ .literal)
    (run : (carryOut root shots s).run { store } = .ok r st) :
    runProgram root shots store source = (r, st.store) := by
  have hstep : (step root shots s : Action R Unit).run { store } = .ok () { st with result := some r } := by
    rw [run_step, run]
    dsimp only
    rw [if_neg kind]
  unfold runProgram
  rw [statements, runStatements_cons, run_bind, hstep]
  rfl

omit [Scalar R] in
theorem exists_root {settings : Settings} (seed : ∀ n, settings.seed = some n → 0 ≤ n) (fresh : Nat) :
    ∃ root, settings.root fresh = .ok root := exists_root_iff.mpr seed

/-- The circuit of a sound store that has been found under a name is measured when a command names it. -/
theorem execute_write {settings : Settings} {root : Random.Seed} {fresh : Nat} {store : Store R} {name : String}
    {c : Circuit R} {counts : Table Nat} {shots : Int} (hroot : settings.root fresh = .ok root)
    (hname : isName name.toList = true) (hc : store.circuit? name = some c) (positive : 1 ≤ shots)
    (limit : shots < 2 ^ 63)
    (measured : Random.measure c shots (.ofSeed (root.child 0)) = .ok counts) :
    execute settings fresh store (RunCommand.write name shots) = .ok (measurement c shots counts, store) := by
  obtain ⟨text, htext⟩ : ∃ text, text = RunCommand.runText name.toList shots.toNat := ⟨_, rfl⟩
  have hwrite : RunCommand.write name shots = String.ofList text := by
    rw [htext, ← RunCommand.toList_write name (by omega), String.ofList_toList]
  have hcontent : Source.IsContent text := htext ▸ RunCommand.isContent_runText hname shots.toNat
  have hstatements := Source.statements_of_isContent hcontent (by rw [htext]; rfl) (by rw [htext]; rfl)
  have kind : Source.classify (String.ofList text) = .run := by
    unfold Source.classify
    rw [String.toList_ofList, htext]
    rfl
  have hlength : (natDigits shots.toNat).length ≤ maxIntegerDigits :=
    (length_natDigits_le (k := 19) (by decide) (by omega)).trans (by decide)
  have hread := RunCommand.read_runText (R := R) hname shots.toNat (some 1) (by omega) hlength
  rw [← htext, String.ofList_toList, Int.toNat_of_nonneg (by omega)] at hread
  have hrunnable : store.runnable? name = some c := by
    unfold Store.runnable?
    rw [hc, Option.some_or]
  have hcarry : (carryOut root settings.defaultShots { line := 1, text := String.ofList text }).run { store } =
      .ok (measurement c shots counts) { store, drawn := 1 } := by
    have hmeasures : Measures settings.defaultShots ⟨1, String.ofList text, [], true⟩ { store } c shots :=
      .command ⟨name, some shots⟩ kind hread hrunnable
    rw [hmeasures.run, measured]
  unfold execute
  rw [hroot, hwrite]
  have hprogram := runProgram_of_statement hstatements (by rw [kind]; decide) hcarry
  exact congrArg Except.ok hprogram

/-- **Checking circuits when they are defined is enough.**  Take any store that programs lead to and any circuit in its
table.  The command to run it with a number of shots succeeds, with every seed that is accepted (a negative one is not,
and then no program is executed), whatever its name is bound to by now, and even if there is a well-known circuit of the
same name: the result has the name and the size of the stored circuit, the number of shots and counts that are well
formed for it, and the store stays as it is. -/
theorem run_stored_circuit (settings : Settings) (seed : ∀ n, settings.seed = some n → 0 ≤ n) (fresh : Nat)
    {store : Store ℝ} (reachable : store.Reachable) {name : String} {c : Circuit ℝ}
    (stored : store.circuit? name = some c) {shots : ℤ} (positive : 1 ≤ shots) (limit : shots < 2 ^ 63) :
    ∃ counts : Table ℕ,
      execute settings fresh store ("run " ++ name ++ " \x7b shots: " ++ intText shots ++ " \x7d") =
        .ok (.circuit name c.qubits (.tallied ⟨counts.mapValues Int.ofNat, .int shots⟩) "Simulated locally", store) ∧
      Random.AreCounts c shots.toNat counts := by
  obtain ⟨hname, hc⟩ := reachable.isSound.circuit? stored
  obtain ⟨root, hroot⟩ := exists_root seed fresh
  obtain ⟨counts, hmeasure, hcounts⟩ :=
    Random.measure_ok hc.valid hc.bounded positive limit (.ofSeed (root.child 0))
  have hexecute := execute_write hroot (hname ▸ hc.name) stored positive limit hmeasure
  refine ⟨counts, ?_, hcounts⟩
  unfold RunCommand.write measurement at hexecute
  rw [hname] at hexecute
  exact hexecute

/-- A circuit that has the name of a well-known one, and the name has been bound to a text since. -/
theorem run_stored_circuit_rebound :
    ∃ (store : Store ℝ) (c : Circuit ℝ), store.Reachable ∧ store.circuit? "bell" = some c ∧ c.qubits = 1 ∧
      (store.lookup "bell").map Value.kind = some "text" ∧
      ∃ counts : Table ℕ, execute ⟨some 3, 1000, none⟩ 0 store "run bell \x7b shots: 4611686018427387904 \x7d" =
          .ok (.circuit "bell" c.qubits (.tallied ⟨counts.mapValues Int.ofNat, .int 4611686018427387904⟩)
            "Simulated locally", store) ∧
        Random.AreCounts c 4611686018427387904 counts := by
  obtain ⟨source, hsource⟩ : ∃ source, source =
    "quantum circuit bell:\n  qubits: 1\n  H(0)\n  measure(all)\nbell = \"other\"" := ⟨_, rfl⟩
  have shown : (execute (R := ℝ) ⟨some 7, 1000, none⟩ 0 .empty source).toOption.map (fun p =>
      ((p.2.circuit? "bell").map (·.qubits), (p.2.lookup "bell").map Value.kind)) = some (some 1, some "text") := by
    rw [hsource]
    decide +kernel
  cases hrun : execute (R := ℝ) ⟨some 7, 1000, none⟩ 0 .empty source with
  | error fault => rw [hrun] at shown; cases shown
  | ok p =>
      rw [hrun] at shown
      obtain ⟨hqubits, hkind⟩ := Prod.mk.inj (Option.some.inj shown)
      obtain ⟨c, hc, hone⟩ := Option.map_eq_some_iff.mp hqubits
      have reachable : p.2.Reachable := .execute .empty hrun
      have seed : ∀ n, (⟨some 3, 1000, none⟩ : Settings).seed = some n → 0 ≤ n := by
        intro n hn
        cases hn
        decide
      have htext : "run bell \x7b shots: 4611686018427387904 \x7d" =
          "run " ++ "bell" ++ " \x7b shots: " ++ intText 4611686018427387904 ++ " \x7d" := by decide +kernel
      refine ⟨p.2, c, reachable, hc, hone, hkind, ?_⟩
      rw [htext]
      exact run_stored_circuit ⟨some 3, 1000, none⟩ seed 0 reachable hc (by norm_num) (by norm_num)

end Interpreter

end LabLang
