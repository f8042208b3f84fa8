import LabLang.Proofs.DecodedTallies
import LabLang.Proofs.WrittenPayloads
import LabLang.Result.Pretty

/-! # Tables of counts

The outcomes of a table stand in one order, by count and then by outcome (`pairwise_ranked`), whatever order they were
counted in.  Each of their lines needs a count that can be written and a share in the total.  With counts that are not
negative there are two reasons not to have them: the total has too many digits, or there are outcomes and nobody has
observed any of them, so that nothing has a share (`table_eq`, `table_of_isUnobserved`).  A result that has been decoded
can be shown unless it has counts that nobody has observed, or an integer with too many digits among those that are
written (`pretty_of_decode`). -/

namespace LabLang

namespace Counts

open Number Scalar

/-! ### The order of outcomes -/

/-- The entry is above the other one: it has a greater count, or the same count and the smaller outcome. -/
def Precedes (a b : String × Int) : Prop := b.2 < a.2 ∨ a.2 = b.2 ∧ a.1 < b.1

theorem ranked_perm (c : Counts) : c.ranked.Perm c := List.mergeSort_perm ..

/-- The outcomes of a table stand in strict order. -/
theorem pairwise_ranked {c : Counts} (distinct : c.keys.Nodup) : c.ranked.Pairwise Precedes := by
  have sorted : c.ranked.Pairwise fun a b =>
      (decide (b.2 < a.2) || (a.2 == b.2 && decide (a.1 ≤ b.1))) = true := by
    refine List.pairwise_mergeSort (fun a b d hab hbd => ?_) (fun a b => ?_) c
    · simp only [Bool.or_eq_true, Bool.and_eq_true, decide_eq_true_eq, beq_iff_eq] at hab hbd ⊢
      rcases hab with hab | ⟨hab, hle⟩
      · rcases hbd with hbd | ⟨hbd, -⟩ <;> omega
      · rcases hbd with hbd | ⟨hbd, hle'⟩
        · omega
        · exact .inr ⟨hab.trans hbd, String.le_trans hle hle'⟩
    · simp only [Bool.or_eq_true, Bool.and_eq_true, decide_eq_true_eq, beq_iff_eq]
      rcases Int.lt_trichotomy a.2 b.2 with h | h | h
      · exact .inr (.inl h)
      · exact (String.le_total a.1 b.1).imp (fun hle => .inr ⟨h, hle⟩) fun hle => .inr ⟨h.symm, hle⟩
      · exact .inl (.inl h)
  have different : c.ranked.Pairwise fun a b => a.1 ≠ b.1 :=
    List.pairwise_map.mp ((c.ranked_perm.map Prod.fst).nodup_iff.mpr distinct)
  refine sorted.imp₂ (fun a b hle hne => ?_) different
  simp only [Bool.or_eq_true, Bool.and_eq_true, decide_eq_true_eq, beq_iff_eq] at hle
  refine hle.imp id fun ⟨heq, hle⟩ => ⟨heq, String.not_le.mp fun hge => hne (String.le_antisymm hle hge)⟩

/-! ### Totals -/

section totals

variable {c : Counts}

theorem total_cons (entry : String × Int) (c : Counts) : total (entry :: c) = entry.2 + c.total := rfl

theorem total_nonneg (nonneg : ∀ entry ∈ c, 0 ≤ entry.2) : 0 ≤ c.total := by
  induction c with
  | nil => exact le_rfl
  | cons entry c ih =>
      have hc := ih fun e he => nonneg e (List.mem_cons_of_mem entry he)
      have hentry := nonneg entry List.mem_cons_self
      rw [total_cons]
      omega

/-- No count is above the total. -/
theorem le_total_of_mem (nonneg : ∀ entry ∈ c, 0 ≤ entry.2) {entry : String × Int} (h : entry ∈ c) :
    entry.2 ≤ c.total := by
  induction c with
  | nil => cases h
  | cons first c ih =>
      have hrest := fun e he => nonneg e (List.mem_cons_of_mem first he)
      have hc := total_nonneg hrest
      have hfirst := nonneg first List.mem_cons_self
      rw [total_cons]
      rcases List.mem_cons.mp h with rfl | h
      · omega
      · have := ih hrest h
        omega

/-- There are outcomes, but none of them has been observed. -/
def IsUnobserved (c : Counts) : Prop := c ≠ [] ∧ ∀ entry ∈ c, entry.2 = 0

theorem isUnobserved_iff (nonneg : ∀ entry ∈ c, 0 ≤ entry.2) : c.IsUnobserved ↔ c ≠ [] ∧ c.total = 0 := by
  refine and_congr_right fun hne => ⟨fun h => ?_, fun h entry hentry => ?_⟩
  · clear nonneg hne
    induction c with
    | nil => rfl
    | cons entry c ih =>
        rw [total_cons, h entry List.mem_cons_self, ih fun e he => h e (List.mem_cons_of_mem entry he)]
        rfl
  · have hle := le_total_of_mem nonneg hentry
    have hge := nonneg entry hentry
    omega

end totals

/-! ### Lines -/

theorem countText_eq {n : Int} (h : ¬ IsTooLong n) : countText n = .ok (groupedText n) := by
  unfold countText
  rw [bounded_eq h]
  rfl

theorem countText_of_isTooLong {n : Int} (h : IsTooLong n) : countText n = .error (.unwritten .tooManyDigits) := by
  unfold countText
  rw [bounded_of_isTooLong h]
  rfl

section lines

variable {R : Type} [Scalar R] {c : Counts}

theorem shares_eq (positive : 0 < c.total) :
    (shares c : Table R) = Table.mapValues (fun n => ratio n c.total.toNat) c := if_neg (not_le.mpr positive)

/-- The share of an outcome is the quotient of its count and the total. -/
theorem shareOf_shares (distinct : c.keys.Nodup) (positive : 0 < c.total) {entry : String × Int} (h : entry ∈ c) :
    shareOf (shares c : Table R) entry.1 = ratio entry.2 c.total.toNat := by
  unfold shareOf
  rw [shares_eq positive, Table.get?_mapValues, Table.get?_of_mem distinct h]
  rfl

/-- The line of an entry that has a share. -/
def line (R : Type) [Scalar R] (c : Counts) (entry : String × Int) : String :=
  outcomeLine c.outcomeWidth entry.1 (groupedText entry.2) (shareOf (shares c : Table R) entry.1)

theorem entryLine_eq (nonneg : ∀ entry ∈ c, 0 ≤ entry.2) (positive : 0 < c.total) (short : ¬ IsTooLong c.total)
    {entry : String × Int} (h : entry ∈ c) : entryLine R c entry = .ok (c.line R entry) := by
  have hcount : ¬ IsTooLong entry.2 := fun hlong => short (hlong.mono (nonneg entry h) (le_total_of_mem nonneg h))
  obtain ⟨value, hvalue⟩ := Table.exists_get?_of_mem h
  have hshare : (shares c : Table R).get? entry.1 = some (ratio value c.total.toNat) := by
    rw [shares_eq positive, Table.get?_mapValues, hvalue]
    rfl
  unfold entryLine line shareOf
  rw [countText_eq hcount, hshare]
  rfl

theorem entryLine_of_isUnobserved (h : c.IsUnobserved) {entry : String × Int} (hentry : entry ∈ c) :
    entryLine R c entry = .error (.noShare entry.1) := by
  have hzero : c.total = 0 := ((isUnobserved_iff fun e he => (h.2 e he).ge).mp h).2
  have hshare : (shares c : Table R) = [] := if_pos hzero.le
  unfold entryLine
  rw [h.2 entry hentry, countText_eq (by decide), hshare]
  rfl

/-! ### Tables -/

theorem table_of_isTooLong (h : IsTooLong c.total) (top : Nat) : table R c top = .error (.unwritten .tooManyDigits) := by
  unfold table
  rw [countText_of_isTooLong h]
  rfl

/-- Where nothing has been observed there is no line for the first outcome. -/
theorem table_of_isUnobserved (h : c.IsUnobserved) {top : Nat} (htop : 0 < top) :
    ∃ outcome, c.ranked.head?.map (·.1) = some outcome ∧ table R c top = .error (.noShare outcome) := by
  have hzero : c.total = 0 := ((isUnobserved_iff fun e he => (h.2 e he).ge).mp h).2
  cases hranked : c.ranked with
  | nil => exact absurd (List.nil_perm.mp (hranked ▸ c.ranked_perm)) h.1
  | cons first rest =>
      have hfirst : first ∈ c := c.ranked_perm.mem_iff.mp (hranked ▸ List.mem_cons_self)
      refine ⟨first.1, rfl, ?_⟩
      obtain ⟨k, rfl⟩ := Nat.exists_eq_succ_of_ne_zero htop.ne'
      unfold table
      rw [hzero, countText_eq (by decide), hranked, List.take_succ_cons, List.mapM_cons,
        entryLine_of_isUnobserved h hfirst]
      rfl

/-- Where a line is shown something has been observed, unless nothing has been and the lines are missing. -/
theorem total_pos_of_shown (nonneg : ∀ entry ∈ c, 0 ≤ entry.2) {top : Nat} (h : ¬ (c.IsUnobserved ∧ 0 < top))
    {entry : String × Int} (shown : entry ∈ c.ranked.take top) : entry ∈ c ∧ 0 < c.total := by
  have hmem : entry ∈ c := c.ranked_perm.mem_iff.mp (List.mem_of_mem_take shown)
  refine ⟨hmem, lt_of_le_of_ne (total_nonneg nonneg) fun hzero => h ⟨?_, Nat.pos_of_ne_zero fun htop => ?_⟩⟩
  · exact (isUnobserved_iff nonneg).mpr ⟨List.ne_nil_of_mem hmem, hzero.symm⟩
  · rw [htop] at shown
    cases shown

/-- Every other table has a line for each of the first outcomes. -/
theorem table_eq (nonneg : ∀ entry ∈ c, 0 ≤ entry.2) (short : ¬ IsTooLong c.total) {top : Nat}
    (h : ¬ (c.IsUnobserved ∧ 0 < top)) :
    table R c top =
      .ok (c.headLines (groupedText c.total) ++ (c.ranked.take top).map (c.line R) ++ c.hiddenLines top) := by
  have hlines : (c.ranked.take top).mapM (entryLine R c) = .ok ((c.ranked.take top).map (c.line R)) := by
    refine mapM_eq_ok fun entry hentry => ?_
    obtain ⟨hmem, positive⟩ := total_pos_of_shown nonneg h hentry
    exact entryLine_eq nonneg positive short hmem
  unfold table
  rw [countText_eq short, hlines]
  rfl

/-- A table that shows something can be made of counts that somebody has observed, with a total that can be written. -/
theorem exists_table_iff (nonneg : ∀ entry ∈ c, 0 ≤ entry.2) {top : Nat} (htop : 0 < top) :
    (∃ lines, table R c top = .ok lines) ↔ ¬ c.IsUnobserved ∧ ¬ IsTooLong c.total := by
  refine ⟨fun ⟨lines, hlines⟩ => ⟨fun h => ?_, fun h => ?_⟩, fun ⟨observed, short⟩ => ?_⟩
  · obtain ⟨outcome, -, htable⟩ := table_of_isUnobserved (R := R) h htop
    rw [htable] at hlines
    cases hlines
  · rw [table_of_isTooLong h] at hlines
    cases hlines
  · exact ⟨_, table_eq nonneg short fun h => observed h.1⟩

end lines

end Counts

/-! ### Results -/

variable {R : Type} [Scalar R]

/-- A report is shown unless its line cannot be. -/
theorem Report.exists_display_iff (report : Report R) :
    (∃ text, report.display = .ok text) ↔ report.line.IsWritable := by
  obtain ⟨kind, message, line⟩ := report
  unfold Report.display Report.place
  rw [exists_map_eq_ok_iff]
  by_cases hnull : line.isNull = true
  · rw [if_pos hnull]
    cases line with
    | null => exact iff_of_true ⟨"", rfl⟩ fun n h => by cases h
    | bool | int | real | text | list | object => cases hnull
  · rw [if_neg hnull, exists_map_eq_ok_iff, line.exists_display_iff]

theorem Outcome.exists_display_iff (o : Outcome R) :
    (∃ text, o.display = .ok text) ↔ ∀ report, o = .failed report → report.line.IsWritable := by
  cases o with
  | value v => exact iff_of_true ⟨v.display, rfl⟩ fun report h => by cases h
  | failed report =>
      refine report.exists_display_iff.trans ⟨fun h _ heq => ?_, fun h => h report rfl⟩
      cases heq
      exact h

namespace Result

open Counts Number

/-- The result is a circuit with counts that nobody has observed. -/
def IsUnobserved : Result R → Prop
  | circuit _ _ (.tallied t) _ => Counts.IsUnobserved t.counts
  | _ => False

/-- Showing the result takes writing this integer: the qubits of a circuit, the total of its counts, or an integer that
was sent for the line of a failure. -/
inductive Writes (n : Int) : Result R → Prop
  | qubits (name : String) (measured : Measurements R) (message : String) : Writes n (.circuit name n measured message)
  | total (name : String) (qubits : Int) {t : Tally R} (message : String) (h : Counts.total t.counts = n) :
      Writes n (.circuit name qubits (.tallied t) message)
  | line {report : Report R} (h : report.line.Holds n) : Writes n (.failure report)
  | branchLine {branches : Table (Outcome R)} {label : String} {report : Report R} (message : String)
      (mem : (label, .failed report) ∈ branches) (h : report.line.Holds n) : Writes n (.parallel branches message)

/-- Every integer that showing the result takes can be written. -/
def IsWritable (r : Result R) : Prop := ∀ n, r.Writes n → ¬ IsTooLong n

section writing

variable {name message : String} {qubits : Int} {branches : Table (Outcome R)}

theorem isWritable_tallied {t : Tally R} :
    (circuit name qubits (.tallied t) message).IsWritable ↔ ¬ IsTooLong qubits ∧ ¬ IsTooLong (total t.counts) := by
  constructor
  · intro h
    exact ⟨h _ (.qubits ..), h _ (.total _ _ _ rfl)⟩
  · rintro ⟨hqubits, htotal⟩ n hn
    cases hn with
    | qubits => exact hqubits
    | total _ _ _ h => exact h ▸ htotal

theorem isWritable_uncounted {shots : Payload R} :
    (circuit name qubits (.uncounted shots) message).IsWritable ↔ ¬ IsTooLong qubits := by
  constructor
  · intro h
    exact h _ (.qubits ..)
  · intro h n hn
    cases hn with
    | qubits => exact h

theorem isWritable_parallel : (parallel branches message).IsWritable ↔
    ∀ label report, (label, Outcome.failed report) ∈ branches → report.line.IsWritable := by
  constructor
  · intro h label report mem n hn
    exact h n (.branchLine message mem hn)
  · intro h n hn
    cases hn with
    | branchLine _ mem hline => exact h _ _ mem n hline

theorem isWritable_failure {report : Report R} : (failure report).IsWritable ↔ report.line.IsWritable := by
  constructor
  · intro h n hn
    exact h n (.line hn)
  · intro h n hn
    cases hn with
    | line hline => exact h n hline

/-- The outcomes of branches are shown unless the line of a failure cannot be. -/
theorem exists_branchParts_iff : (∃ parts, branchParts branches = .ok parts) ↔
    ∀ label report, (label, Outcome.failed report) ∈ branches → report.line.IsWritable := by
  have hpart (branch : String × Outcome R) :
      (∃ part, branch.2.display.map (branch.1 ++ ": " ++ ·) = .ok part) ↔
        ∀ report, branch.2 = .failed report → report.line.IsWritable :=
    exists_map_eq_ok_iff.trans branch.2.exists_display_iff
  unfold branchParts
  rw [exists_mapM_eq_ok_iff]
  constructor
  · intro h label report hmem
    exact (hpart _).mp (h _ hmem) report rfl
  · intro h branch hmem
    refine (hpart branch).mpr fun report hreport => ?_
    exact h branch.1 report (hreport ▸ hmem)

/-- A result that is shown in one line has this line if it has a display. -/
theorem exists_line_iff {r : Result R} :
    (∃ lines, (r.display.mapError Counts.TableFault.unwritten).map (fun line => [line]) = .ok lines) ↔
      ∃ text, r.display = .ok text :=
  exists_map_eq_ok_iff.trans exists_mapError_eq_ok_iff

/-- A result with counts that are not negative can be shown unless it has counts that nobody has observed, or an integer
that is too long. -/
theorem exists_pretty_iff {r : Result R}
    (nonneg : ∀ name qubits t message, r = .circuit name qubits (.tallied t) message →
      ∀ entry ∈ t.counts, 0 ≤ entry.2) :
    (∃ text, r.pretty = .ok text) ↔ ¬ r.IsUnobserved ∧ r.IsWritable := by
  unfold pretty
  rw [exists_map_eq_ok_iff]
  cases r with
  | success value => exact iff_of_true ⟨_, rfl⟩ ⟨id, fun n h => by cases h⟩
  | uncertain value nominal uncertainty => exact iff_of_true ⟨_, rfl⟩ ⟨id, fun n h => by cases h⟩
  | circuit name qubits measured message =>
      cases measured with
      | tallied t =>
          have hhead : (∃ head, measurementHead name qubits message = .ok head) ↔ ¬ IsTooLong qubits :=
            exists_map_eq_ok_iff.trans exists_bounded_iff
          have shown : 0 < tableSize := by decide
          rw [prettyLines, exists_both_eq_ok_iff, exists_mapError_eq_ok_iff, hhead,
            exists_table_iff (nonneg name qubits t message rfl) shown, isWritable_tallied]
          exact and_left_comm
      | uncounted shots =>
          have hdisplay : (∃ text, (circuit name qubits (.uncounted shots) message).display = .ok text) ↔
              ¬ IsTooLong qubits := exists_map_eq_ok_iff.trans exists_bounded_iff
          refine exists_line_iff.trans ?_
          rw [hdisplay, isWritable_uncounted]
          exact (and_iff_right id).symm
  | parallel branches message =>
      rw [prettyLines]
      refine (exists_bind_eq_ok_iff fun parts => ⟨_, rfl⟩).trans ?_
      rw [exists_mapError_eq_ok_iff, exists_branchParts_iff, isWritable_parallel]
      exact (and_iff_right id).symm
  | failure report =>
      refine exists_line_iff.trans (report.exists_display_iff.trans ?_)
      rw [isWritable_failure]
      exact (and_iff_right id).symm

end writing

/-- No count of a decoded circuit is negative. -/
theorem nonneg_of_decode {fields : Fields} {name : String} {qubits : Int} {t : Tally Float} {message : String}
    (h : decode (.object fields) = .ok (.circuit name qubits (.tallied t) message)) : ∀ entry ∈ t.counts, 0 ≤ entry.2 := by
  obtain ⟨type, reader, -, hreader, hread⟩ := ofFields_eq_ok h
  obtain rfl := eq_decodeCircuit hreader hread
  obtain ⟨sent, -, htally⟩ := decodeTally_of_decodeCircuit hread
  exact (decodeTally_eq_ok_iff.mp htally).nonnegative

/-- **What can be shown.**  A result that has been decoded is shown unless it is a circuit with counts that have never
been observed, or needs an integer that is too long to be written: its qubits, the total of its counts, or one in the line
of a failure.  The table of counts that are not negative has the outcomes in strict order, the most frequent ones first,
with a line for each of the first ones as far as they are asked for; without it leaves only a total of too many digits, and
outcomes of which none has been observed. -/
theorem pretty_of_decode (fields : Fields) (c : Counts) :
    (∀ r : Result Float, decode (.object fields) = .ok r →
      ((∃ text, r.pretty = .ok text) ↔ ¬ r.IsUnobserved ∧ ∀ n, r.Writes n → ¬ IsTooLong n)) ∧
    (c.keys.Nodup → (∀ entry ∈ c, 0 ≤ entry.2) →
      ∃ order : Counts, order.Perm c ∧ order.Pairwise Precedes ∧ ∀ top,
        (IsTooLong c.total → table Float c top = .error (.unwritten .tooManyDigits)) ∧
        (c.IsUnobserved ∧ 0 < top → ∃ outcome, order.head?.map (·.1) = some outcome ∧
          table Float c top = .error (.noShare outcome)) ∧
        (¬ IsTooLong c.total → ¬ (c.IsUnobserved ∧ 0 < top) →
          table Float c top = .ok (c.headLines (groupedText c.total) ++
            (order.take top).map (fun entry => outcomeLine (R := Float) c.outcomeWidth entry.1 (groupedText entry.2)
              (Scalar.ratio entry.2 c.total.toNat)) ++ c.hiddenLines top))) := by
  refine ⟨fun r h => exists_pretty_iff ?_, fun distinct nonneg => ?_⟩
  · rintro name qubits t message rfl
    exact nonneg_of_decode h
  · refine ⟨c.ranked, c.ranked_perm, pairwise_ranked distinct, fun top => ⟨fun h => table_of_isTooLong h top,
      fun h => table_of_isUnobserved h.1 h.2, fun short h => ?_⟩⟩
    rw [table_eq nonneg short h]
    congr 3
    refine List.map_congr_left fun entry shown => ?_
    obtain ⟨hmem, positive⟩ := total_pos_of_shown nonneg h shown
    unfold line
    rw [shareOf_shares distinct positive hmem]

/-- Four outcomes, one of which has not been observed, of which two are shown; an outcome that has never been observed; and
more qubits than can be written. -/
theorem pretty_of_decode_unobserved :
    ∃ (c : Counts) (sent unobserved : Fields), c = [("01", 1), ("00", 3), ("11", 1), ("10", 0)] ∧
      sent = [("type", .text "quantum_circuit"), ("circuit_name", .text "c"), ("qubits", .int 2),
        ("counts", .object (c.mapValues .int))] ∧
      unobserved = [("type", .text "quantum_circuit"), ("circuit_name", .text "c"), ("qubits", .int 1),
        ("counts", .object [("0", .int 0)])] ∧
      (∃ r text, decode (.object sent) = .ok r ∧ r.pretty = .ok text) ∧
      (∃ r, decode (.object unobserved) = .ok r ∧ ¬ ∃ text, r.pretty = .ok text) ∧
      (∃ qubits r, decode (.object [("type", .text "quantum_circuit"), ("circuit_name", .text "c"),
        ("qubits", .int qubits)]) = .ok r ∧ ¬ ∃ text, r.pretty = .ok text) ∧
      c.keys.Nodup ∧ (∀ entry ∈ c, 0 ≤ entry.2) ∧ ¬ IsTooLong c.total ∧ ¬ (c.IsUnobserved ∧ 0 < 2) ∧
      ∃ order : Counts, order.Perm c ∧ order.Pairwise Precedes ∧
        table Float c 2 = .ok (c.headLines (groupedText c.total) ++
          (order.take 2).map (fun entry => outcomeLine (R := Float) c.outcomeWidth entry.1 (groupedText entry.2)
            (Scalar.ratio entry.2 c.total.toNat)) ++ c.hiddenLines 2) := by
  obtain ⟨c, hc⟩ : ∃ c : Counts, c = [("01", 1), ("00", 3), ("11", 1), ("10", 0)] := ⟨_, rfl⟩
  have distinct : c.keys.Nodup := by
    rw [hc]
    decide
  have nonneg : ∀ entry ∈ c, 0 ≤ entry.2 := by
    rw [hc]
    decide
  have htotal : c.total = 5 := by
    rw [hc]
    rfl
  have short : ¬ IsTooLong c.total := by
    rw [htotal]
    decide
  have observed : ¬ c.IsUnobserved := fun h => by
    rw [isUnobserved_iff nonneg, htotal] at h
    exact absurd h.2 (by decide)
  have hsent : decode (.object [("type", .text "quantum_circuit"), ("circuit_name", .text "c"), ("qubits", .int 2),
      ("counts", .object (c.mapValues .int))]) = .ok (.circuit "c" 2 (.tallied ⟨c, .int 5⟩) "") := by
    rw [hc]
    rfl
  have hunobserved : decode (.object [("type", .text "quantum_circuit"), ("circuit_name", .text "c"),
      ("qubits", .int 1), ("counts", .object [("0", .int 0)])]) =
      .ok (.circuit "c" 1 (.tallied ⟨[("0", 0)], .int 0⟩) "") := rfl
  obtain ⟨qubits, long⟩ : ∃ n : Int, IsTooLong n := ⟨((10 ^ maxIntegerDigits : Nat) : Int), isTooLong_iff.mpr le_rfl⟩
  have hlong : decode (.object [("type", .text "quantum_circuit"), ("circuit_name", .text "c"),
      ("qubits", .int qubits)]) = .ok (.circuit "c" qubits (.uncounted .null) "") := rfl
  obtain ⟨shown, tables⟩ := pretty_of_decode [("type", .text "quantum_circuit"), ("circuit_name", .text "c"),
    ("qubits", .int 2), ("counts", .object (c.mapValues .int))] c
  obtain ⟨text, htext⟩ := (shown _ hsent).mpr <| by
    refine ⟨observed, fun n h => ?_⟩
    cases h with
    | qubits => decide
    | total _ _ _ h => exact h ▸ short
  refine ⟨c, _, _, hc, rfl, rfl, ⟨_, text, hsent, htext⟩, ⟨_, hunobserved, fun h => ?_⟩, ⟨qubits, _, hlong, fun h => ?_⟩,
    distinct, nonneg, short, fun h => observed h.1, ?_⟩
  · refine (((pretty_of_decode _ c).1 _ hunobserved).mp h).1 ⟨List.cons_ne_nil _ _, fun entry hentry => ?_⟩
    rw [List.mem_singleton.mp hentry]
  · exact (((pretty_of_decode _ c).1 _ hlong).mp h).2 qubits (.qubits ..) long
  · obtain ⟨order, hperm, hpairwise, htable⟩ := tables distinct nonneg
    exact ⟨order, hperm, hpairwise, (htable 2).2.2 short fun h => observed h.1⟩

end Result

end LabLang
