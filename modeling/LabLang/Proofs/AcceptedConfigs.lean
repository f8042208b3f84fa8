import LabLang.Backend
import LabLang.Proofs.Doubles
import LabLang.Proofs.Execution
import LabLang.Proofs.Readers

/-! # Accepted configurations

A configuration is accepted when it is made and when changes are made to one that has been accepted.  Both times the
same check is made (`Accepted.check_eq`), so that an accepted configuration passes every later check but one: the
address of the service is looked at only by the client that needs it.  Hence a configuration leads to a backend of its
mode unless it is for the service and has no address, and a backend in the process executes programs from any seed
that there is (`Accepted.works`). -/

namespace LabLang

/-! ### Durations -/

namespace Seconds

/-- The duration is a number: it is not NaN. -/
def IsNumber : Seconds → Prop
  | whole _ => True
  | real x => x.isNaN = false

/-- The duration is above zero. -/
def IsPositive : Seconds → Prop
  | whole n => 0 < n
  | real x => Scalar.lt Scalar.zero x = true

theorem isPositive_of_isNotPositive {s : Seconds} (h : s.isNotPositive = false) (number : s.IsNumber) :
    s.IsPositive := by
  cases s with
  | whole n => exact Int.not_le.mp (of_decide_eq_false h)
  | real x => exact Machine.lt_of_not_le number h

end Seconds

/-! ### Checks -/

/-- The settings of a configuration that passes its check are those of the interpreter. -/
theorem Settings.eq_of_make {seed workers : Option Int} {shots : Int} {s : Settings}
    (h : make seed shots workers = .ok s) : s = ⟨seed, shots, workers⟩ := by
  unfold make at h
  obtain ⟨-, h⟩ := ok_of_test h
  obtain ⟨_, -, rfl⟩ := ok_of_map h
  rfl

namespace Config

theorem check_eq_ok_iff {c c' : Config} : check c = .ok c' ↔
    c' = c ∧ c.timeout.isNotPositive = false ∧
      Settings.make c.seed c.defaultShots c.workers = .ok ⟨c.seed, c.defaultShots, c.workers⟩ := by
  unfold check
  constructor
  · intro h
    obtain ⟨htimeout, h⟩ := ok_of_test h
    cases hsettings : Settings.make c.seed c.defaultShots c.workers with
    | error fault => rw [hsettings] at h; cases h
    | ok s =>
        rw [hsettings] at h
        cases h
        exact ⟨rfl, by simpa using htimeout, by rw [Settings.eq_of_make hsettings]⟩
  · rintro ⟨rfl, htimeout, hsettings⟩
    rw [htimeout, hsettings]
    rfl

/-- A configuration that has been made or changed without being refused. -/
inductive Accepted : Config → Prop
  | made {c c' : Config} (h : check c = .ok c') : Accepted c'
  | overridden {c c' : Config} (accepted : Accepted c) (d : Changes) (h : c.override d = .ok c') : Accepted c'

/-- Changes end with a check. -/
theorem exists_check_of_change {c c' : Config} {d : Changes} (h : c.change d = .ok c') :
    ∃ given, check given = .ok c' := by
  unfold change at h
  obtain ⟨mode, -, h⟩ := ok_of_bind h
  exact ⟨_, h⟩

/-- An accepted configuration has passed the check as it is. -/
theorem Accepted.check_eq {c : Config} (h : c.Accepted) : check c = .ok c := by
  have passed {given c' : Config} (h : check given = .ok c') : check c' = .ok c' := by
    obtain ⟨rfl, -⟩ := check_eq_ok_iff.mp h
    exact h
  induction h with
  | made h => exact passed h
  | @overridden c c' accepted d h ih =>
      unfold override at h
      split at h
      · cases h
        exact ih
      · obtain ⟨given, h⟩ := exists_check_of_change h
        exact passed h

/-- What the environment asks for is accepted if it is not refused. -/
theorem Accepted.loaded {env : Environment} {c : Config} (h : load env = .ok c) : c.Accepted := by
  unfold load at h
  obtain ⟨mode, -, h⟩ := ok_of_bind h
  obtain ⟨timeout, -, h⟩ := ok_of_bind h
  obtain ⟨seed, -, h⟩ := ok_of_bind h
  obtain ⟨shots, -, h⟩ := ok_of_bind h
  obtain ⟨workers, -, h⟩ := ok_of_bind h
  exact .made h

/-! ### Backends -/

/-- The configuration is for the service and has no address of it. -/
def LacksEndpoint (c : Config) : Prop := c.mode = .remote ∧ c.endpoint = ""

theorem Accepted.create_inProcess {c : Config} (h : c.Accepted) (mode : c.mode = .inProcess) :
    Backend.create c = .ok (.session (.start ⟨c.seed, c.defaultShots, c.workers⟩)) := by
  obtain ⟨-, -, hsettings⟩ := check_eq_ok_iff.mp h.check_eq
  unfold Backend.create
  rw [mode]
  dsimp only
  rw [hsettings]

theorem Accepted.create_remote {c : Config} (h : c.Accepted) (mode : c.mode = .remote) (endpoint : c.endpoint ≠ "") :
    Backend.create c = .ok (.client ⟨c.endpoint, c.apiKey, c.timeout, c.retries, Client.defaultBackoff, c.verify⟩) := by
  obtain ⟨-, htimeout, -⟩ := check_eq_ok_iff.mp h.check_eq
  have hendpoint : c.endpoint.isEmpty = false := by simpa using endpoint
  unfold Backend.create client Client.check
  rw [mode]
  dsimp only
  rw [hendpoint, htimeout]
  rfl

theorem create_of_lacksEndpoint {c : Config} (h : c.LacksEndpoint) : Backend.create c = .error .noEndpoint := by
  unfold Backend.create client Client.check
  rw [h.1, h.2]
  rfl

/-- The empty program succeeds from every seed. -/
theorem execute_empty_of_seed {settings : Settings} (seed : ∀ n, settings.seed = some n → 0 ≤ n) (w : Backend.World) :
    Backend.execute (.session (.start settings)) w "" = (.success completionMessage, []) := by
  obtain ⟨root, hroot⟩ : ∃ root, settings.root w.fresh = .ok root := Interpreter.exists_root_iff.mpr seed
  unfold Backend.execute Session.execute Interpreter.execute
  dsimp only [Session.start]
  rw [hroot]
  rfl

/-- **Accepted configurations work.**  The timeout of a configuration that was not refused is positive if it is a
number.  A configuration for the service without an address is refused by the client; every other one leads to a
backend of its mode, and one in the process executes the empty program to a success if its seed is not negative. -/
theorem Accepted.works {c : Config} (h : c.Accepted) :
    (c.timeout.IsNumber → c.timeout.IsPositive) ∧
    (c.LacksEndpoint → Backend.create c = .error .noEndpoint) ∧
    (¬ c.LacksEndpoint → ∃ b, Backend.create c = .ok b ∧ b.mode = c.mode ∧
      (c.mode = .inProcess → (∀ n, c.seed = some n → 0 ≤ n) →
        ∀ w, b.execute w "" = (.success completionMessage, []))) := by
  obtain ⟨-, htimeout, -⟩ := check_eq_ok_iff.mp h.check_eq
  refine ⟨Seconds.isPositive_of_isNotPositive htimeout, create_of_lacksEndpoint, fun hendpoint => ?_⟩
  cases mode : c.mode with
  | inProcess => exact ⟨_, h.create_inProcess mode, rfl, fun _ seed w => execute_empty_of_seed seed w⟩
  | remote => exact ⟨_, h.create_remote mode fun hempty => hendpoint ⟨mode, hempty⟩, rfl, fun hmode => by cases hmode⟩

/-- A configuration from the environment with another timeout, and the same for the service. -/
theorem Accepted.works_environment :
    ∃ (env : Environment) (loaded c remote : Config), env = [("SYNAPSE_SEED", " 7 "), ("SYNAPSE_MAX_WORKERS", "2")] ∧
      load env = .ok loaded ∧ loaded.override { timeout := some (.real 2.5) } = .ok c ∧
      c.override { mode := some "remote" } = .ok remote ∧ c.Accepted ∧ remote.Accepted ∧ c.timeout.IsNumber ∧
      c.timeout.IsPositive ∧ ¬ c.LacksEndpoint ∧ ¬ remote.LacksEndpoint ∧
      (∃ b, Backend.create c = .ok b ∧ b.mode = .inProcess ∧
        ∀ w, b.execute w "" = (.success completionMessage, [])) ∧
      ∃ b, Backend.create remote = .ok b ∧ b.mode = .remote := by
  obtain ⟨env, henv⟩ : ∃ env : Environment, env = [("SYNAPSE_SEED", " 7 "), ("SYNAPSE_MAX_WORKERS", "2")] := ⟨_, rfl⟩
  obtain ⟨loaded, hloaded⟩ : ∃ c : Config, c = { seed := some 7, workers := some 2 } := ⟨_, rfl⟩
  obtain ⟨c, hc⟩ : ∃ c : Config, c = { seed := some 7, workers := some 2, timeout := .real 2.5 } := ⟨_, rfl⟩
  obtain ⟨remote, hremote⟩ : ∃ r : Config, r = { c with mode := .remote } := ⟨_, rfl⟩
  have hload : load env = .ok loaded := by
    rw [henv, hloaded]
    rfl
  have hchange : loaded.override { timeout := some (.real 2.5) } = .ok c := by
    rw [hloaded, hc]
    rfl
  have hmode : c.override { mode := some "remote" } = .ok remote := by
    rw [hremote, hc]
    rfl
  have accepted : c.Accepted := .overridden (.loaded hload) _ hchange
  have accepted' : remote.Accepted := .overridden accepted _ hmode
  have number : c.timeout.IsNumber := by
    rw [hc]
    rfl
  have address : ¬ c.LacksEndpoint := fun h => by
    rw [hc] at h
    cases h.1
  have address' : ¬ remote.LacksEndpoint := fun h => by
    rw [hremote, hc] at h
    exact absurd h.2 (by decide)
  obtain ⟨positive, -, backend⟩ := accepted.works
  obtain ⟨b, hb, hbmode, hempty⟩ := backend address
  obtain ⟨b', hb', hbmode'⟩ : ∃ b, Backend.create remote = .ok b ∧ b.mode = remote.mode := by
    obtain ⟨b, hb, hbmode, -⟩ := accepted'.works.2.2 address'
    exact ⟨b, hb, hbmode⟩
  have inProcess : c.mode = .inProcess := hc ▸ rfl
  have seed : ∀ n, c.seed = some n → 0 ≤ n := by
    rw [hc]
    intro n hn
    cases hn
    decide
  exact ⟨env, loaded, c, remote, henv, hload, hchange, hmode, accepted, accepted', number, positive number, address,
    address', ⟨b, hb, hbmode.trans inProcess, hempty inProcess seed⟩, b', hb', hbmode'.trans (hremote ▸ rfl)⟩

/-- What is accepted and does not work: an address is missing, a timeout is no number, a seed is negative. -/
theorem accepted_configs_that_fail :
    (Accepted { mode := .remote, endpoint := "" } ∧
      Backend.create { mode := .remote, endpoint := "" } = .error .noEndpoint) ∧
    (Accepted { timeout := .real Machine.nan } ∧ ¬ (Seconds.real Machine.nan).IsPositive) ∧
    (Accepted { seed := some (-1) } ∧ ∃ b, Backend.create { seed := some (-1) } = .ok b ∧
      ∀ w, b.execute w "" = (.failure (.ofFailure ⟨.internal .negativeSeed, none⟩), [])) := by
  have accepted (c : Config) (h : check c = .ok c) : c.Accepted := .made h
  refine ⟨⟨accepted _ rfl, rfl⟩, ⟨accepted _ rfl, ?_⟩, accepted _ rfl, _, rfl, fun w => rfl⟩
  unfold Seconds.IsPositive
  decide +kernel

end Config

end LabLang
