import Sweetcomb.Plugin
import Sweetcomb.Runs

open runs

namespace sweetcomb

variable {ι : Type}

/-- The plugin after one more health check. -/
def health_step (plugin : plugin_t ι) (vpp : vpp_t) : plugin_t ι :=
  (sr_plugin_health_check_cb vpp plugin).2

/-- The check has dropped the connection, connected again and replayed OM. -/
def Recovers (plugin : plugin_t ι) (vpp : vpp_t) : Prop :=
  (health_step plugin vpp).calls = plugin.calls ++ [.disconnect, .connect, .replay]

/-- A check that succeeds records the instance that HW is connected to, and
    recovers exactly when VPP has another pid than at the last connect. -/
def RecoversOnce (plugin : plugin_t ι) (vpp : vpp_t) : Prop :=
  (sr_plugin_health_check_cb vpp plugin).1 = .SR_ERR_OK →
    (health_step plugin vpp).connected = some (health_step plugin vpp).vpp_pid_start ∧
      (Recovers plugin vpp ↔ plugin.connected ≠ some vpp.reached)

def vpp_t.Running : vpp_t → Prop
  | .running _ _ => True
  | .down _ _ _ _ => False

/-- HW is connected to the instance whose pid is recorded. -/
structure Recorded (plugin : plugin_t ι) : Prop where
  connected : plugin.connected = some plugin.vpp_pid_start
  positive : 0 < plugin.vpp_pid_start

/-- A successful initialisation records the instance that it has connected to. -/
theorem sr_plugin_init_cb_recorded {start : start_t ι} {plugin after : plugin_t ι}
    (hinit : sr_plugin_init_cb start plugin = some (.SR_ERR_OK, after)) : Recorded after := by
  have hstarted := sr_plugin_init_cb_started hinit
  obtain ⟨hrecorded, hfound⟩ := hstarted.succeeds rfl
  have hsame : start.get_vpp_pid = start.vpp_pid := by
    cases start.found with
    | inl hfailed => omega
    | inr hsame => exact hsame
  have hrunning := start.running
  refine ⟨?_, ?_⟩
  · rw [hstarted.connected, hrecorded, hsame]
  · rw [hrecorded, hsame]
    exact hrunning

section check

variable {plugin : plugin_t ι} {vpp : vpp_t}

theorem health_step_same (hsame : vpp.get_vpp_pid = plugin.vpp_pid_start) : health_step plugin vpp = plugin := by
  simp [health_step, sr_plugin_health_check_cb, hsame]

theorem health_step_recovers (hother : vpp.get_vpp_pid ≠ plugin.vpp_pid_start) :
    health_step plugin vpp = { plugin with
      vpp_pid_start := vpp.get_vpp_pid
      connected := some vpp.reached
      calls := plugin.calls ++ [.disconnect, .connect, .replay] } := by
  simp [health_step, sr_plugin_health_check_cb, hother, plugin_t.disconnect, plugin_t.connect, plugin_t.call]

@[simp]
theorem sr_plugin_health_check_cb_rc : (sr_plugin_health_check_cb vpp plugin).1 = .SR_ERR_OK := by
  simp only [sr_plugin_health_check_cb]
  split <;> rfl

theorem recovers_iff : Recovers plugin vpp ↔ vpp.get_vpp_pid ≠ plugin.vpp_pid_start := by
  by_cases hsame : vpp.get_vpp_pid = plugin.vpp_pid_start
  · simp [Recovers, health_step_same hsame, hsame]
  · simp [Recovers, health_step_recovers hsame, hsame]

/-- From a recorded instance, a check keeps to its promise exactly when VPP is
    running as it starts. -/
theorem recoversOnce_iff (hrecorded : Recorded plugin) : RecoversOnce plugin vpp ↔ vpp.Running := by
  cases vpp with
  | running pid hpid =>
    refine iff_of_true (fun _ => ⟨?_, ?_⟩) trivial
    · by_cases hsame : (vpp_t.running pid hpid).get_vpp_pid = plugin.vpp_pid_start
      · rw [health_step_same hsame, hrecorded.connected]
      · rw [health_step_recovers hsame]
        rfl
    · rw [recovers_iff, hrecorded.connected]
      simp [vpp_t.get_vpp_pid, vpp_t.reached, eq_comm]
  | down code fresh hcode hfresh =>
    refine iff_of_false (fun hpromise => ?_) id
    have hother : (vpp_t.down code fresh hcode hfresh).get_vpp_pid ≠ plugin.vpp_pid_start := by
      have hpositive := hrecorded.positive
      simp only [vpp_t.get_vpp_pid]
      omega
    obtain ⟨hconnected, -⟩ := hpromise sr_plugin_health_check_cb_rc
    rw [health_step_recovers hother] at hconnected
    have hsame : fresh = code := Option.some.inj hconnected
    omega

theorem health_step_recorded (hrecorded : Recorded plugin) (hrunning : vpp.Running) :
    Recorded (health_step plugin vpp) := by
  cases vpp with
  | down code fresh hcode hfresh => cases hrunning
  | running pid hpid =>
    by_cases hsame : (vpp_t.running pid hpid).get_vpp_pid = plugin.vpp_pid_start
    · rw [health_step_same hsame]
      exact hrecorded
    · rw [health_step_recovers hsame]
      exact ⟨rfl, hpid⟩

end check

/-- After a successful initialisation, every health check keeps to its promise
    exactly when VPP is running at the start of each. -/
theorem recoversOnce_throughout_iff {start : start_t ι} {plugin started : plugin_t ι} {checks : List vpp_t}
    (hinit : sr_plugin_init_cb start plugin = some (.SR_ERR_OK, started)) :
    Along health_step RecoversOnce started checks ↔ ∀ vpp ∈ checks, vpp.Running := by
  rw [← @along_forall _ _ health_step vpp_t.Running started checks]
  refine along_iff_of_step Recorded ?_ ?_ (sr_plugin_init_cb_recorded hinit)
    (along_forall.mpr fun _ _ => trivial)
  · intro plugin vpp hrecorded _
    exact recoversOnce_iff hrecorded
  · intro plugin vpp hrecorded _ hpromise
    exact health_step_recorded hrecorded ((recoversOnce_iff hrecorded).mp hpromise)

/-- VPP restarts between two checks, and is then left running. -/
theorem recoversOnce_after_restart :
    ∃ started, sr_plugin_init_cb { vpp_pid := 100, func_rc := fun _ => .SR_ERR_OK } model_t.load =
        some (.SR_ERR_OK, started) ∧
      Along health_step RecoversOnce started [.running 100, .running 200, .running 200] := by
  refine ⟨_, rfl, ?_⟩
  rw [@recoversOnce_throughout_iff model_t { vpp_pid := 100, func_rc := fun _ => .SR_ERR_OK } model_t.load _ _ rfl]
  simp [vpp_t.Running]

/-- VPP is down when the first check starts, and comes up with pid 200 before HW
    connects. The second check finds it running with that pid. -/
theorem recovers_twice_from_one_restart :
    ∃ started, sr_plugin_init_cb { vpp_pid := 100, func_rc := fun _ => .SR_ERR_OK } model_t.load =
        some (.SR_ERR_OK, started) ∧
      ¬Along health_step RecoversOnce started [.down (-3) 200, .running 200] := by
  refine ⟨_, rfl, ?_⟩
  rintro ⟨hdown, -⟩
  obtain ⟨hconnected, -⟩ := hdown rfl
  revert hconnected
  decide

end sweetcomb
