import Sweetcomb.Plugin
import Sweetcomb.Runs

open runs

namespace sweetcomb

variable {ι : Type}

/-- A call of sysrepo that starts or ends a cycle of the plugin. -/
inductive cycle_call (ι : Type) where
  | init (start : start_t ι)
  | cleanup

/-- A process, until it has exited, after one more call. -/
def cycle_step : Option (plugin_t ι) → cycle_call ι → Option (plugin_t ι)
  | some plugin, .init start => (sr_plugin_init_cb start plugin).map Prod.snd
  | some plugin, .cleanup => some (sr_plugin_cleanup_cb plugin)
  | none, _ => none

/-- A relation between the plugin and the initialisation that it is asked for. -/
def OnInit (holds : plugin_t ι → start_t ι → Prop) : Option (plugin_t ι) → cycle_call ι → Prop
  | some plugin, .init start => holds plugin start
  | _, _ => True

/-- When the init functions are said to have succeeded, each registered one has
    been run in this cycle and has succeeded. -/
def Initialises (plugin : plugin_t ι) (start : start_t ι) : Prop :=
  ∀ rc after, sr_plugin_init_cb start plugin = some (rc, after) →
    (sc_call_all_init_function start.func_rc plugin.init_function_registrations).ret = .SR_ERR_OK →
      ∀ p ∈ after.init_function_registrations, (p.func, sr_error_t.SR_ERR_OK) ∈ after.cycle

/-- A registered function that is marked as called and has not succeeded in this
    cycle: it has failed, or it was last run before a cleanup. -/
structure Stale (plugin : plugin_t ι) (func : ι) : Prop where
  registered : ∃ p ∈ plugin.init_function_registrations, p.func = func
  marked : ∀ p ∈ plugin.init_function_registrations, p.func = func → p.is_called = true
  unmet : (func, sr_error_t.SR_ERR_OK) ∉ plugin.cycle

/-- The initialisation ends in the process exiting, or in a function that is not
    marked as called and fails. -/
def Refused (plugin : plugin_t ι) (start : start_t ι) : Prop :=
  start.populate_throws = true ∨
    ∃ p ∈ plugin.init_function_registrations, p.is_called = false ∧ start.func_rc p.func ≠ .SR_ERR_OK

theorem refused_iff (plugin : plugin_t ι) (start : start_t ι) :
    Refused plugin start ↔ start.populate_throws = true ∨
      (sc_call_all_init_function start.func_rc plugin.init_function_registrations).ret ≠ .SR_ERR_OK := by
  simp [Refused, sc_call_all_init_function_ok_iff]

section step

variable {plugin : plugin_t ι} {start : start_t ι}

/-- A function found not to have succeeded after a pass that succeeded was stale
    before it. -/
theorem stale_iff_unmet
    (hok : (sc_call_all_init_function start.func_rc plugin.init_function_registrations).ret = .SR_ERR_OK)
    {func : ι} (hregistered : ∃ p ∈ plugin.init_function_registrations, p.func = func) :
    Stale plugin func ↔ (func, sr_error_t.SR_ERR_OK) ∉ plugin.cycle ++
      (sc_call_all_init_function start.func_rc plugin.init_function_registrations).ran := by
  rw [List.mem_append, not_or, mem_ran_iff_of_ok start.func_rc hok]
  constructor
  · intro hstale
    refine ⟨hstale.unmet, ?_⟩
    rintro ⟨p, hp, hfunc, hnot⟩
    simp [hstale.marked p hp hfunc] at hnot
  · rintro ⟨hunmet, hran⟩
    refine ⟨hregistered, fun p hp hfunc => ?_, hunmet⟩
    by_contra hnot
    exact hran ⟨p, hp, hfunc, by simpa using hnot⟩

/-- An initialisation keeps its promise exactly when it is refused or meets no
    stale function. -/
theorem initialises_iff :
    Initialises plugin start ↔ Refused plugin start ∨ ∀ func, ¬Stale plugin func := by
  rw [refused_iff]
  cases hinit : sr_plugin_init_cb start plugin with
  | none => simp [Initialises, hinit, sr_plugin_init_cb_exits_iff.mp hinit]
  | some result =>
    obtain ⟨rc, after⟩ := result
    have hstarted := sr_plugin_init_cb_started hinit
    have hreturns : start.populate_throws ≠ true := by
      intro hthrows
      rw [sr_plugin_init_cb_exits_iff.mpr hthrows] at hinit
      cases hinit
    by_cases hok : (sc_call_all_init_function start.func_rc plugin.init_function_registrations).ret = .SR_ERR_OK
    · have hpromise : Initialises plugin start ↔
          ∀ func, (∃ p ∈ after.init_function_registrations, p.func = func) →
            (func, sr_error_t.SR_ERR_OK) ∈ after.cycle := by
        simp [Initialises, hinit, hok]
      have hnotRefused : ¬(start.populate_throws = true ∨
          (sc_call_all_init_function start.func_rc plugin.init_function_registrations).ret ≠ .SR_ERR_OK) := by
        simp [hreturns, hok]
      rw [hpromise, or_iff_right hnotRefused]
      refine forall_congr' fun func => ?_
      rw [hstarted.registered_iff, hstarted.cycle]
      constructor
      · intro hmet hstale
        exact (stale_iff_unmet hok hstale.registered).mp hstale (hmet hstale.registered)
      · intro hfresh hregistered
        by_contra hunmet
        exact hfresh ((stale_iff_unmet hok hregistered).mpr hunmet)
    · simp [Initialises, hok]

/-- A call that returns leaves a stale function stale: nothing unmarks it, and
    the cycle does not run it again. -/
theorem cycle_step_stale {call : cycle_call ι} {after : plugin_t ι} {func : ι}
    (hstep : cycle_step (some plugin) call = some after) (hstale : Stale plugin func) : Stale after func := by
  cases call with
  | cleanup =>
    cases hstep
    exact ⟨hstale.registered, hstale.marked, List.not_mem_nil⟩
  | init start =>
    obtain ⟨⟨rc, after⟩, hinit, rfl⟩ := Option.map_eq_some_iff.mp hstep
    have hstarted := sr_plugin_init_cb_started hinit
    refine ⟨(hstarted.registered_iff func).mpr hstale.registered, fun p hp hfunc => ?_, ?_⟩
    · rw [hstarted.registrations] at hp
      cases called_or_mem_of_mem start.func_rc hp with
      | inl hcalled => exact hcalled
      | inr hbefore => exact hstale.marked p hbefore hfunc
    · rw [hstarted.cycle, List.mem_append, not_or]
      refine ⟨hstale.unmet, fun hran => ?_⟩
      obtain ⟨p, hp, hfunc, hnot⟩ := uncalled_of_mem_ran start.func_rc hran
      simp [hstale.marked p hp hfunc] at hnot

/-- A cleanup leaves every function that has been called stale. -/
theorem sr_plugin_cleanup_cb_stale {p : sc_function_list_elt_t ι}
    (hp : p ∈ plugin.init_function_registrations)
    (hcalled : ∀ q ∈ plugin.init_function_registrations, q.func = p.func → q.is_called = true) :
    Stale (sr_plugin_cleanup_cb plugin) p.func :=
  ⟨⟨p, hp, rfl⟩, hcalled, List.not_mem_nil⟩

/-- After a successful pass and a cleanup, the next pass runs nothing and
    succeeds, whatever the functions would return. -/
theorem second_cycle_runs_nothing {rc : sr_error_t} {after : plugin_t ι}
    (hinit : sr_plugin_init_cb start plugin = some (rc, after))
    (hok : (sc_call_all_init_function start.func_rc plugin.init_function_registrations).ret = .SR_ERR_OK)
    (func_rc : ι → sr_error_t) :
    sc_call_all_init_function func_rc (sr_plugin_cleanup_cb after).init_function_registrations =
      { ret := .SR_ERR_OK, registrations := after.init_function_registrations, ran := [] } := by
  have hcalled := called_of_ok start.func_rc hok
  rw [← (sr_plugin_init_cb_started hinit).registrations] at hcalled
  exact sc_call_all_init_function_of_called func_rc hcalled

end step

section runs

variable {process : Option (plugin_t ι)} {calls : List (cycle_call ι)}

/-- In every run, the initialisations keep their promise exactly when each of
    them is refused or meets no stale function. -/
theorem initialises_throughout_iff :
    Along cycle_step (OnInit Initialises) process calls ↔
      Along cycle_step (OnInit fun plugin start => Refused plugin start ∨ ∀ func, ¬Stale plugin func)
        process calls := by
  refine along_congr fun process call => ?_
  cases process with
  | none => exact Iff.rfl
  | some plugin =>
    cases call with
    | cleanup => exact Iff.rfl
    | init start => exact initialises_iff

/-- Once a function is stale, the promise holds from there on only if every
    further initialisation is refused. -/
theorem refused_throughout_iff {plugin : plugin_t ι} {func : ι} (hstale : Stale plugin func) :
    Along cycle_step (OnInit Initialises) (some plugin) calls ↔
      Along cycle_step (OnInit Refused) (some plugin) calls := by
  refine along_iff_of_step (fun process => ∀ plugin, process = some plugin → Stale plugin func) ?_ ?_
    (fun _ hplugin => Option.some.inj hplugin ▸ hstale) (along_forall.mpr fun _ _ => trivial)
  · intro process call hinv _
    cases process with
    | none => exact Iff.rfl
    | some plugin =>
      cases call with
      | cleanup => exact Iff.rfl
      | init start =>
        have hmet : ¬∀ func, ¬Stale plugin func := fun hfresh => hfresh func (hinv plugin rfl)
        simp [OnInit, initialises_iff, hmet]
  · intro process call hinv _ _ after hafter
    cases process with
    | none => cases hafter
    | some plugin => exact cycle_step_stale hafter (hinv plugin rfl)

end runs

/-- The NAT model fails to subscribe, and the initialisation is tried again. -/
theorem retry_leaves_failed_out :
    ¬Along cycle_step (OnInit Initialises) (some model_t.load)
      [.init { vpp_pid := 100, func_rc := fun model => if model = .ietf_nat then .SR_ERR_INTERNAL else .SR_ERR_OK },
        .init { vpp_pid := 100, func_rc := fun _ => .SR_ERR_OK }] := by
  rintro ⟨-, hretry, -⟩
  have hmet := hretry _ _ rfl rfl { func := .ietf_nat, is_called := true } (by decide)
  revert hmet
  decide

end sweetcomb
