import LabLang.Proofs.GateComposition
import LabLang.Proofs.MeasurementStatistics
import Mathlib.Logic.Function.Basic
import Mathlib.Tactic.IntervalCases

/-! # Classical circuits

Every gate other than H, RX and RY takes basis states to basis states, up to a factor of weight one: X and Y flip their
qubit, CNOT flips its second qubit if the first one is set, SWAP exchanges its qubits and the others leave all bits as they
are (`GateKind.onBits`).  In such a circuit the state is a basis state after every gate, and its bits are those that the
gates, run on bits, have at this point (`IsBasisState.applyGate`, `isBasisState_run`).  One outcome then has all the
chance, the one that the bits of the measured qubits spell, and all shots go to it (`classical_circuit_counts`). -/

namespace LabLang

/-! ### Gates on bits -/

namespace GateKind

/-- The gates of this kind take basis states to basis states. -/
def isClassical : GateKind → Bool
  | h | rx | ry => false
  | _ => true

/-- What a gate of a kind on the listed qubits makes of bits. -/
def onBits : GateKind → List ℕ → (ℕ → Bool) → ℕ → Bool
  | x, [q], b | y, [q], b => Function.update b q (!b q)
  | cnot, [control, target], b => if b control then Function.update b target (!b target) else b
  | swap, [p, q], b => Function.update (Function.update b p (b q)) q (b p)
  | _, _, b => b

/-- The row in which a column of the matrix of a classical kind has an entry other than zero. -/
def row : GateKind → ℕ → ℕ
  | x, r | y, r => 1 - r
  | cnot, 2 => 3
  | cnot, 3 => 2
  | swap, 1 => 2
  | swap, 2 => 1
  | _, r => r

theorem row_lt (kind : GateKind) {r : ℕ} (h : r < 2 ^ kind.qubitCount) : kind.row r < 2 ^ kind.qubitCount := by
  cases kind with
  | x | y => exact Nat.lt_of_le_of_lt (Nat.sub_le 1 r) (by decide)
  | cnot | swap =>
      have h : r < 4 := h
      interval_cases r <;> decide
  | _ => exact h

end GateKind

variable {R : Type} [Scalar R]

/-- What a gate makes of bits. -/
def Gate.onBits (g : Gate R) (b : ℕ → Bool) : ℕ → Bool :=
  match g.kind? with
  | some kind => kind.onBits (g.qubits.map Int.toNat) b
  | none => b

/-- The bits after all gates of a circuit that starts with all bits zero. -/
def Circuit.finalBits (c : Circuit R) : ℕ → Bool := c.gates.foldl (fun b g => g.onBits b) fun _ => false

/-- The bits of the measured qubits in the end, the lowest qubit rightmost. -/
def Circuit.finalOutcome (c : Circuit R) : String :=
  String.ofList (c.measured.reverse.map fun q => if c.finalBits q then '1' else '0')

/-- All gates of the circuit take basis states to basis states. -/
def Circuit.IsClassical (c : Circuit R) : Prop := ∀ g ∈ c.gates, ∀ kind, g.kind? = some kind → kind.isClassical = true

namespace State

/-! ### Rows and bits -/

section bits

variable {i p r q q' : ℕ}

theorem readBits_singleton (q i : ℕ) : readBits [q] i = (i.testBit q).toNat := by
  rw [← bit_eq_toNat]
  exact Nat.zero_add _

theorem readBits_pair (q q' i : ℕ) : readBits [q, q'] i = 2 * (i.testBit q).toNat + (i.testBit q').toNat := by
  rw [← bit_eq_toNat, ← bit_eq_toNat]
  show 2 * (2 * 0 + bit i q) + bit i q' = _
  rw [Nat.mul_zero, Nat.zero_add]

theorem Replaces.testBit_singleton (h : Replaces [q] i r p) :
    p.testBit = Function.update i.testBit q (r.testBit 0) := by
  funext q'
  by_cases hq : q' = q
  · subst hq
    rw [Function.update_self]
    exact h.1 0 Nat.zero_lt_one
  · rw [Function.update_of_ne hq]
    exact h.2 q' (by simpa using hq)

theorem Replaces.testBit_pair (h : Replaces [q, q'] i r p) :
    p.testBit = Function.update (Function.update i.testBit q (r.testBit 1)) q' (r.testBit 0) := by
  funext j
  by_cases hlast : j = q'
  · subst hlast
    rw [Function.update_self]
    exact h.1 1 Nat.one_lt_two
  · rw [Function.update_of_ne hlast]
    by_cases hfirst : j = q
    · subst hfirst
      rw [Function.update_self]
      exact h.1 0 Nat.zero_lt_two
    · rw [Function.update_of_ne hfirst]
      exact h.2 j (by simp [hfirst, hlast])

end bits

/-- A gate of a classical kind moves a basis state to the one whose bits are those that it makes of the bits. -/
theorem testBit_of_replaces_row {kind : GateKind} (classical : kind.isClassical = true) {qubits : List ℕ}
    (hlength : qubits.length = kind.qubitCount) {i p : ℕ}
    (h : Replaces qubits i (kind.row (readBits qubits i)) p) : p.testBit = kind.onBits qubits i.testBit := by
  cases kind with
  | h | rx | ry => cases classical
  | i | z | s | sdg | t | tdg | rz | cz =>
      obtain rfl : p = i := h.unique (reads_readBits qubits i).replaces
      rfl
  | x | y =>
      obtain ⟨q, rfl⟩ := List.length_eq_one_iff.mp hlength
      have hbit (b : Bool) : (GateKind.x.row b.toNat).testBit 0 = !b := by cases b <;> rfl
      rw [readBits_singleton] at h
      rw [h.testBit_singleton]
      exact congrArg (Function.update i.testBit q) (hbit _)
  | cnot =>
      obtain ⟨control, target, rfl⟩ := List.length_eq_two.mp hlength
      have hcontrol (b b' : Bool) : (GateKind.cnot.row (2 * b.toNat + b'.toNat)).testBit 1 = b := by
        cases b <;> cases b' <;> rfl
      have htarget (b b' : Bool) : (GateKind.cnot.row (2 * b.toNat + b'.toNat)).testBit 0 = (b ^^ b') := by
        cases b <;> cases b' <;> rfl
      rw [readBits_pair] at h
      rw [h.testBit_pair, hcontrol, htarget, Function.update_eq_self]
      show _ = if i.testBit control then Function.update i.testBit target (!i.testBit target) else i.testBit
      cases i.testBit control with
      | false => rw [Bool.false_xor, Function.update_eq_self, if_neg (by decide)]
      | true => rw [Bool.true_xor, if_pos rfl]
  | swap =>
      obtain ⟨q, q', rfl⟩ := List.length_eq_two.mp hlength
      have hfirst (b b' : Bool) : (GateKind.swap.row (2 * b.toNat + b'.toNat)).testBit 1 = b' := by
        cases b <;> cases b' <;> rfl
      have hlast (b b' : Bool) : (GateKind.swap.row (2 * b.toNat + b'.toNat)).testBit 0 = b := by
        cases b <;> cases b' <;> rfl
      rw [readBits_pair] at h
      rw [h.testBit_pair, hfirst, hlast]
      rfl

/-- The entry of a column that is not zero has weight one. -/
theorem weight_entry_row {kind : GateKind} (classical : kind.isClassical = true) (angle : ℝ) {r : ℕ}
    (hr : r < 2 ^ kind.qubitCount) : (matrixEntry (kind.rows angle) (kind.row r) r).weight = 1 := by
  cases kind with
  | h | rx | ry => cases classical
  | i | z | s | sdg | x | y =>
      have hr : r < 2 := hr
      interval_cases r <;> simp [matrixEntry, GateKind.rows, GateKind.diagonal, GateKind.row, Amplitude.weight_eq]
  | t | tdg | rz =>
      have hr : r < 2 := hr
      interval_cases r <;> simp [matrixEntry, GateKind.rows, GateKind.diagonal, GateKind.row, weight_conj, weight_phase]
  | cnot | cz | swap =>
      have hr : r < 4 := hr
      interval_cases r <;> simp [matrixEntry, GateKind.rows, GateKind.row, Amplitude.weight_eq]

/-! ### Basis states -/

/-- The state is the basis state with the given bits, up to a factor: all its weight is at one index. -/
structure IsBasisState (n : ℕ) (b : ℕ → Bool) (state : Array (Amplitude ℝ)) : Prop where
  size : state.size = 2 ^ n
  norm : squaredNorm state = 1
  index : ∃ i < 2 ^ n, i.testBit = b ∧ (state.getD i 0).weight = 1

section basis

variable {n : ℕ} {b : ℕ → Bool} {state : Array (Amplitude ℝ)}

/-- Where the weight is not, the amplitudes are zero. -/
theorem IsBasisState.getD_of_ne (h : IsBasisState n b state) {i : ℕ} (hi : i < 2 ^ n)
    (weight : (state.getD i 0).weight = 1) {j : ℕ} (hne : j ≠ i) : state.getD j 0 = 0 := by
  by_contra hj
  have hsum := h.norm
  have hlt : j < 2 ^ n := by
    by_contra hge
    exact hj (by simp [Array.getD, h.size, hge])
  unfold squaredNorm at hsum
  rw [h.size] at hsum
  have hmore := Finset.single_lt_sum hne (Finset.mem_range.mpr hi) (Finset.mem_range.mpr hlt)
    (Amplitude.weight_pos hj) fun k _ _ => Amplitude.weight_nonneg (state.getD k 0)
  rw [weight, hsum] at hmore
  exact lt_irrefl 1 hmore

/-- **A classical gate makes of a basis state the one with the bits that it makes of its bits.** -/
theorem IsBasisState.applyGate (h : IsBasisState n b state) {g : Gate ℝ} {kind : GateKind} (fits : g.Fits n kind)
    (classical : kind.isClassical = true) : IsBasisState n (g.onBits b) (State.applyGate g state) := by
  obtain ⟨i, hi, rfl, hweight⟩ := h.index
  obtain ⟨hnodup, hlt⟩ := fits.targets
  obtain ⟨hsize, hnorm⟩ := squaredNorm_applyGate fits h.size
  have hacts := applyGate_of_fits fits h.size
  have hlength := fits.length_targets
  have hread := reads_readBits (g.qubits.map Int.toNat) i
  obtain ⟨r, hr⟩ : ∃ r, r = readBits (g.qubits.map Int.toNat) i := ⟨_, rfl⟩
  rw [← hr] at hread
  have hcolumn : r < 2 ^ kind.qubitCount := hlength ▸ hread.1
  have hrow : kind.row r < 2 ^ (g.qubits.map Int.toNat).length := hlength.symm ▸ kind.row_lt hcolumn
  obtain ⟨p, hp, hreplaces⟩ : ∃ p < 2 ^ n, Replaces (g.qubits.map Int.toNat) i (kind.row r) p :=
    ⟨_, replaces_place hnodup hlt hi (kind.row r)⟩
  refine ⟨hsize, hnorm.trans h.norm, p, hp, ?_, ?_⟩
  · rw [hr] at hreplaces
    rw [testBit_of_replaces_row classical hlength hreplaces]
    unfold Gate.onBits
    rw [fits.known]
  · have hback : Replaces (g.qubits.map Int.toNat) p r i :=
      ⟨fun j hj => (hread.2 j hj).symm, fun q hq => (hreplaces.2 q hq).symm⟩
    have hentry := hacts.getD_of_single hp (hreplaces.reads hrow) hread.1 hback fun j hne => h.getD_of_ne hi hweight hne
    rw [hentry, Amplitude.weight_mul, weight_entry_row classical _ hcolumn, hweight, one_mul]

theorem IsBasisState.applyGates (h : IsBasisState n b state) {gates : List (Gate ℝ)}
    (fits : ∀ g ∈ gates, ∃ kind, g.Fits n kind)
    (classical : ∀ g ∈ gates, ∀ kind, g.kind? = some kind → kind.isClassical = true) :
    IsBasisState n (gates.foldl (fun b g => g.onBits b) b) (State.applyGates gates state) := by
  induction gates generalizing b state with
  | nil => exact h
  | cons g rest ih =>
      obtain ⟨kind, hfit⟩ := fits g List.mem_cons_self
      have hgate := h.applyGate hfit (classical g List.mem_cons_self kind hfit.known)
      rw [List.foldl_cons, applyGates_cons]
      exact ih hgate (fun g' hg' => fits g' (List.mem_cons_of_mem g hg'))
        fun g' hg' => classical g' (List.mem_cons_of_mem g hg')

end basis

theorem isBasisState_initial (n : ℕ) : IsBasisState n (fun _ => false) (initial n) := by
  refine ⟨size_initial n, squaredNorm_initial n, 0, Nat.two_pow_pos n, funext fun q => Nat.zero_testBit q, ?_⟩
  have hpos : 0 < twoPow n := Nat.two_pow_pos n
  simp [initial, hpos]

/-- The state after a classical circuit is the basis state with the bits that the circuit leads to. -/
theorem isBasisState_run {c : Circuit ℝ} (valid : c.IsValid) (classical : c.IsClassical) :
    IsBasisState c.qubits c.finalBits (run c) :=
  (isBasisState_initial c.qubits).applyGates valid.gates classical

/-- The other outcomes have no chance. -/
theorem chance_of_ne {c : Circuit ℝ} (valid : c.IsValid) (classical : c.IsClassical) {outcome : String}
    (hne : outcome ≠ c.finalOutcome) : chance c outcome = 0 := by
  have hstate := isBasisState_run valid classical
  obtain ⟨i, hi, hbits, hweight⟩ := hstate.index
  have hshown : outcomeOf c.measured i = c.finalOutcome := by
    unfold outcomeOf Circuit.finalOutcome
    rw [hbits]
    rfl
  refine Finset.sum_eq_zero fun j hj => ?_
  have hj := (Finset.mem_filter.mp hj).2
  have hother : j ≠ i := by
    rintro rfl
    exact hne (hj.symm.trans hshown)
  rw [hstate.getD_of_ne hi hweight hother, Amplitude.weight_zero]

end State

/-! ### Counts -/

namespace Random

/-- If one outcome alone is possible, all shots have it. -/
theorem AreCounts.eq_singleton {c : Circuit ℝ} {shots : ℕ} {counts : Table ℕ} (h : AreCounts c shots counts)
    (positive : 0 < shots) {outcome : String} (impossible : ∀ other, other ≠ outcome → State.chance c other = 0) :
    counts = [(outcome, shots)] := by
  have hkey : ∀ key ∈ counts.keys, key = outcome := fun key hkey => by
    by_contra hne
    exact h.possible key hkey (impossible key hne)
  have htotal := h.total
  have hdistinct := h.distinct
  match counts with
  | [] =>
      rw [List.map_nil, List.sum_nil] at htotal
      omega
  | [(key, n)] =>
      obtain rfl : key = outcome := hkey key List.mem_cons_self
      rw [List.map_singleton, List.sum_singleton] at htotal
      rw [← htotal]
  | (key, _) :: (key', _) :: _ =>
      have hfirst : key = outcome := hkey key List.mem_cons_self
      have hsecond : key' = outcome := hkey key' (List.mem_cons_of_mem _ List.mem_cons_self)
      exact absurd (hfirst.trans hsecond.symm) (by
        simp [Table.keys] at hdistinct
        tauto)

/-- **Classical circuits behave classically.**  The outcomes of a valid circuit of bounded size, all of whose gates take
basis states to basis states, are drawn with chances for which every multinomial sampler gives all shots to one of them:
the one that spells the bits of the measured qubits, after the gates have been run on bits that were all zero.  So measuring
such a circuit does not fail and gives this outcome alone, as often as there are shots, whatever the state of the generator. -/
theorem classical_circuit_counts (c : Circuit ℝ) (valid : c.IsValid) (bounded : c.qubits ≤ maxQubits)
    (classical : c.IsClassical) (shots : ℤ) (positive : 1 ≤ shots) (limit : shots < 2 ^ 63) :
    ∃ probs, outcomes c = .ok probs ∧
      (∀ draws, MultinomialDraw probs 1 shots.toNat draws →
        observed c.measured.length draws = [(c.finalOutcome, shots.toNat)]) ∧
      ∀ g, measure c shots g = .ok [(c.finalOutcome, shots.toNat)] := by
  have hshots : 0 < shots.toNat := by omega
  have himpossible (other : String) (hne : other ≠ c.finalOutcome) : State.chance c other = 0 :=
    State.chance_of_ne valid classical hne
  refine ⟨chances c, outcomes_eq valid bounded, fun draws hdraws => ?_, fun g => ?_⟩
  · exact (hdraws.counts valid).eq_singleton hshots himpossible
  · obtain ⟨counts, hmeasure, hcounts⟩ := measure_ok valid bounded positive limit g
    rw [hmeasure, hcounts.eq_singleton hshots himpossible]

/-- A flip, a control above its target, an exchange and a turned flip, of which two qubits are measured. -/
theorem classical_circuit_counts_exchange :
    ∃ c : Circuit ℝ,
      c = ⟨"flips", 3, [⟨"x", [2], []⟩, ⟨"CX", [2, 0], []⟩, ⟨"SWAP", [1, 2], []⟩, ⟨"Y", [1], []⟩], [0, 2]⟩ ∧
      c.IsValid ∧ c.qubits ≤ maxQubits ∧ c.IsClassical ∧ ∀ g, measure c 1000 g = .ok [("01", 1000)] := by
  have gates : ∀ g ∈ ([⟨"x", [2], []⟩, ⟨"CX", [2, 0], []⟩, ⟨"SWAP", [1, 2], []⟩, ⟨"Y", [1], []⟩] : List (Gate ℝ)),
      ∃ kind, g.Fits 3 kind ∧ kind.isClassical = true := by
    simp only [List.forall_mem_cons, List.not_mem_nil, false_implies, implies_true, and_true]
    exact ⟨⟨.x, ⟨by decide +kernel, rfl, rfl, by simp, by decide, by decide⟩, rfl⟩,
      ⟨.cnot, ⟨by decide +kernel, rfl, rfl, by simp, by decide, by decide⟩, rfl⟩,
      ⟨.swap, ⟨by decide +kernel, rfl, rfl, by simp, by decide, by decide⟩, rfl⟩,
      ⟨.y, ⟨by decide +kernel, rfl, rfl, by simp, by decide, by decide⟩, rfl⟩⟩
  obtain ⟨c, hc⟩ : ∃ c : Circuit ℝ, c =
      ⟨"flips", 3, [⟨"x", [2], []⟩, ⟨"CX", [2, 0], []⟩, ⟨"SWAP", [1, 2], []⟩, ⟨"Y", [1], []⟩], [0, 2]⟩ := ⟨_, rfl⟩
  have valid : c.IsValid := by
    rw [hc]
    exact ⟨by decide, fun g hg => (gates g hg).imp fun _ h => h.1, by decide, by decide, by decide⟩
  have bounded : c.qubits ≤ maxQubits := by
    rw [hc]
    decide
  have classical : c.IsClassical := by
    rw [hc]
    intro g hg kind hkind
    obtain ⟨kind', fits, classical⟩ := gates g hg
    obtain rfl : kind' = kind := Option.some.inj (fits.known.symm.trans hkind)
    exact classical
  have outcome : c.finalOutcome = "01" := by
    rw [hc]
    decide +kernel
  obtain ⟨-, -, -, hmeasure⟩ := classical_circuit_counts c valid bounded classical 1000 (by norm_num) (by norm_num)
  rw [outcome] at hmeasure
  exact ⟨c, hc, valid, bounded, classical, hmeasure⟩

end Random

end LabLang
