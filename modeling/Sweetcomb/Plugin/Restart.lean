import Sweetcomb.Plugin.Recovery
import Sweetcomb.Subscribers.Independence

open keyed_store runs sweetcomb.ietf_interface

namespace sweetcomb

variable {ι : Type}

/-- A VPP process: its pid, the number of those started before it, and what it is
    configured with. -/
structure process_t where
  pid : Int
  number : Nat
  config : Om
  positive : 0 < pid

/-- The plugin between two calls of sysrepo, with the VPP process that runs, if
    any, and the one that HW has connected to. -/
structure system_t (ι : Type) where
  plugin : plugin_t ι
  world : World
  vpp : Option process_t
  linked : Option Nat
  starts : Nat

/-- What a check finds when it looks for VPP, and the process that it can wait
    for. -/
structure check_t where
  code : Int
  fresh : Int
  hcode : code < 0 := by decide
  hfresh : 0 < fresh := by decide

inductive event_t where
  | call (placed : placed_t)
  | crash
  | boot (pid : Int) (hpid : 0 < pid := by decide)
  | check (check : check_t)

section steps

variable (env : Env) (s : system_t ι)

/-- VPP is brought to what OM holds, if HW is connected to the process that
    runs. -/
def system_t.mirror : system_t ι :=
  { s with vpp := s.vpp.map fun p => if s.linked = some p.number then { p with config := s.world.om } else p }

/-- VPP starts without any configuration. -/
def system_t.boot (pid : Int) (hpid : 0 < pid) : system_t ι :=
  match s.vpp with
  | some _ => s
  | none =>
    { s with
      vpp := some { pid, number := s.starts, config := ∅, positive := hpid }
      starts := s.starts + 1 }

/-- What a call of the plugin does. `HW::connect` is repeated until VPP runs. -/
def system_t.act (check : check_t) (s : system_t ι) : hw_call → system_t ι
  | .disconnect => { s with linked := none }
  | .connect =>
    let s := s.boot check.fresh check.hfresh
    { s with linked := s.vpp.map process_t.number }
  | .replay => s.mirror
  | _ => s

/-- VPP as the check meets it. -/
def system_t.meets (check : check_t) : vpp_t :=
  match s.vpp with
  | some p => .running p.pid p.positive
  | none => .down check.code check.fresh check.hcode check.hfresh

/-- The calls that the check makes act on VPP in their order. -/
def system_t.check (check : check_t) : system_t ι :=
  let plugin := health_step s.plugin (s.meets check)
  { (plugin.calls.drop s.plugin.calls.length).foldl (system_t.act check) s with plugin }

/-- What comes of an event. There is no system left after a call that the plugin does
    not survive. -/
def system_t.step : event_t → Option (system_t ι)
  | .call placed => (placed.returns env s.world).map fun returned => system_t.mirror { s with world := returned.2 }
  | .crash => some { s with vpp := none }
  | .boot pid hpid => some (s.boot pid hpid)
  | .check check => some (s.check check)

end steps

def system_step (env : Env) (system : Option (system_t ι)) (event : event_t) : Option (system_t ι) :=
  system.bind fun s => s.step env event

/-- VPP runs with what OM holds. -/
def InStep (s : system_t ι) : Prop :=
  ∃ p, s.vpp = some p ∧ p.config = s.world.om

/-- The check does not find what was found last, or it need not: the process that
    HW has connected to still runs, or there is nothing to be configured. -/
def Notices (s : system_t ι) (check : check_t) : Prop :=
  (s.meets check).get_vpp_pid ≠ s.plugin.vpp_pid_start ∨
    ∃ p, s.vpp = some p ∧ (s.linked = some p.number ∨ s.world.om = ∅)

/-- The process that HW has connected to has what OM holds, another one has
    nothing. -/
structure Attached (s : system_t ι) : Prop where
  config : ∀ p, s.vpp = some p → p.config = if s.linked = some p.number then s.world.om else ∅
  counted : ∀ p, s.vpp = some p → p.number < s.starts
  linked : ∀ number, s.linked = some number → number < s.starts

section checks

variable {s : system_t ι} {check : check_t}

/-- A check that finds the pid of the last one does nothing. -/
theorem check_same (hsame : (s.meets check).get_vpp_pid = s.plugin.vpp_pid_start) : s.check check = s := by
  simp [system_t.check, health_step_same hsame]

/-- Another check connects to what runs, or to what starts while it waits, and
    brings it to what OM holds. -/
theorem check_other (hother : (s.meets check).get_vpp_pid ≠ s.plugin.vpp_pid_start) :
    ∃ p, (s.boot check.fresh check.hfresh).vpp = some p ∧
      (s.check check).vpp = some { p with config := s.world.om } ∧ (s.check check).linked = some p.number ∧
      (s.check check).world = s.world ∧ (s.check check).starts = (s.boot check.fresh check.hfresh).starts := by
  have hcalls : (health_step s.plugin (s.meets check)).calls.drop s.plugin.calls.length =
      [.disconnect, .connect, .replay] := by
    rw [health_step_recovers hother]
    exact List.drop_left
  rw [system_t.check, hcalls]
  cases hvpp : s.vpp with
  | some p => exact ⟨p, by simp [system_t.boot, system_t.act, system_t.mirror, hvpp]⟩
  | none => exact ⟨_, by simp [system_t.boot, hvpp]; rfl, by simp [system_t.boot, system_t.act, system_t.mirror, hvpp]⟩

theorem boot_attached (hattached : Attached s) (pid : Int) (hpid : 0 < pid) : Attached (s.boot pid hpid) := by
  cases hvpp : s.vpp with
  | some p =>
    simp only [system_t.boot, hvpp]
    exact hattached
  | none =>
    have hfresh : s.linked ≠ some s.starts := fun hlinked => lt_irrefl _ (hattached.linked _ hlinked)
    simp only [system_t.boot, hvpp]
    refine ⟨?_, ?_, fun number hlinked => Nat.lt_succ_of_lt (hattached.linked number hlinked)⟩
    · rintro _ ⟨⟩
      exact (if_neg hfresh).symm
    · rintro _ ⟨⟩
      exact Nat.lt_succ_self _

/-- A check succeeds in bringing VPP to what OM holds exactly when it notices
    that it has to. -/
theorem inStep_check_iff (hattached : Attached s) : InStep (s.check check) ↔ Notices s check := by
  by_cases hsame : (s.meets check).get_vpp_pid = s.plugin.vpp_pid_start
  · rw [check_same hsame, Notices, or_iff_right (not_not.mpr hsame)]
    refine exists_congr fun p => and_congr_right fun hvpp => ?_
    rw [hattached.config p hvpp]
    split
    · next hlinked => simp [hlinked]
    · next hlinked => simp [hlinked, eq_comm]
  · obtain ⟨p, -, hvpp, -, hworld, -⟩ := check_other hsame
    refine iff_of_true ⟨_, hvpp, ?_⟩ (.inl hsame)
    rw [hworld]

theorem check_attached (hattached : Attached s) : Attached (s.check check) := by
  by_cases hsame : (s.meets check).get_vpp_pid = s.plugin.vpp_pid_start
  · rwa [check_same hsame]
  · obtain ⟨p, hboot, hvpp, hlinked, hworld, hstarts⟩ := check_other hsame
    have hcounted := (boot_attached hattached check.fresh check.hfresh).counted p hboot
    refine ⟨?_, ?_, ?_⟩
    · intro q hq
      obtain rfl := Option.some.inj (hvpp.symm.trans hq)
      rw [hlinked, hworld, if_pos rfl]
    · intro q hq
      obtain rfl := Option.some.inj (hvpp.symm.trans hq)
      rw [hstarts]
      exact hcounted
    · intro number hnumber
      obtain rfl := Option.some.inj (hlinked.symm.trans hnumber)
      rw [hstarts]
      exact hcounted

end checks

section runs

variable {env : Env} {s : system_t ι}

/-- Whatever OM held before, the process that HW has connected to is brought
    along. -/
theorem mirror_attached {om : Om}
    (hconfig : ∀ p, s.vpp = some p → p.config = if s.linked = some p.number then om else ∅)
    (hcounted : ∀ p, s.vpp = some p → p.number < s.starts)
    (hlinked : ∀ number, s.linked = some number → number < s.starts) : Attached s.mirror := by
  refine ⟨?_, ?_, hlinked⟩
  · intro q hq
    obtain ⟨p, hvpp, rfl⟩ := Option.map_eq_some_iff.mp hq
    by_cases hsame : s.linked = some p.number
    · simp [system_t.mirror, hsame]
    · simp [system_t.mirror, hsame, hconfig p hvpp]
  · intro q hq
    obtain ⟨p, hvpp, rfl⟩ := Option.map_eq_some_iff.mp hq
    have hnumber := hcounted p hvpp
    split <;> exact hnumber

theorem step_attached (hattached : Attached s) {event : event_t} {after : system_t ι}
    (hstep : s.step env event = some after) : Attached after := by
  obtain ⟨hconfig, hcounted, hlinked⟩ := hattached
  cases event with
  | call placed =>
    obtain ⟨returned, -, rfl⟩ := Option.map_eq_some_iff.mp hstep
    exact mirror_attached hconfig hcounted hlinked
  | crash =>
    obtain rfl := Option.some.inj hstep
    exact ⟨nofun, nofun, hlinked⟩
  | boot pid hpid =>
    obtain rfl := Option.some.inj hstep
    exact boot_attached ⟨hconfig, hcounted, hlinked⟩ pid hpid
  | check check =>
    obtain rfl := Option.some.inj hstep
    exact check_attached ⟨hconfig, hcounted, hlinked⟩

theorem system_step_attached {system : Option (system_t ι)} (hattached : ∀ s, system = some s → Attached s)
    (event : event_t) : ∀ after, system_step env system event = some after → Attached after := by
  intro after hafter
  obtain ⟨s, hsystem, hstep⟩ := Option.bind_eq_some_iff.mp hafter
  exact step_attached (hattached s hsystem) hstep

/-- A relation between the system and the check that it meets. -/
def OnCheck (holds : system_t ι → check_t → Prop) : Option (system_t ι) → event_t → Prop
  | some s, .check check => holds s check
  | _, _ => True

/-- No check is made once the plugin has crashed. -/
theorem along_ended (holds : system_t ι → check_t → Prop) (events : List event_t) :
    Along (system_step env) (OnCheck holds) none events := by
  induction events with
  | nil => trivial
  | cons event events ih => exact ⟨trivial, ih⟩

theorem inStep_iff_notices {system : Option (system_t ι)} (hattached : ∀ s, system = some s → Attached s)
    (event : event_t) :
    OnCheck (fun s check => InStep (s.check check)) system event ↔ OnCheck Notices system event := by
  cases system with
  | none => exact Iff.rfl
  | some s =>
    cases event with
    | check check => exact inStep_check_iff (hattached s rfl)
    | call placed => exact Iff.rfl
    | crash => exact Iff.rfl
    | boot pid hpid => exact Iff.rfl

/-- Whatever is configured and however VPP dies and starts in between, VPP runs
    after every check with what OM holds exactly when every check notices that it
    is another process, or none, that it finds. -/
theorem inStep_throughout_iff (hattached : Attached s) {events : List event_t} :
    Along (system_step env) (OnCheck fun s check => InStep (s.check check)) (some s) events ↔
      Along (system_step env) (OnCheck Notices) (some s) events :=
  along_iff_of_step (fun system => ∀ s, system = some s → Attached s)
    (fun _ event hattached _ => inStep_iff_notices hattached event)
    (fun _ event hattached _ _ => system_step_attached hattached event) (by rintro _ ⟨⟩; exact hattached)
    (along_forall.mpr fun _ _ => trivial)

end runs

/-- The system once the plugin has initialised: HW is connected to the process
    that ran, and OM was populated from it. -/
def system_t.started (start : start_t ι) (plugin : plugin_t ι) (w : World) : system_t ι where
  plugin := plugin
  world := w
  vpp := some { pid := start.vpp_pid, number := 0, config := w.om, positive := start.running }
  linked := some 0
  starts := 1

theorem started_attached (start : start_t ι) (plugin : plugin_t ι) (w : World) :
    Attached (system_t.started start plugin w) where
  config := by rintro _ ⟨⟩; rfl
  counted := by rintro _ ⟨⟩; exact Nat.zero_lt_one
  linked := by rintro _ ⟨⟩; exact Nat.zero_lt_one

/-- The pids under which VPP starts. -/
def pids (events : List event_t) : List Int :=
  events.filterMap fun
    | .boot pid _ => some pid
    | _ => none

section pids

variable {env : Env}

/-- The pid recorded is that of the process that HW has connected to, and neither
    it nor that of VPP comes up again. -/
structure Unrepeated (s : system_t ι) (later : List Int) : Prop where
  recorded : s.plugin.vpp_pid_start ∉ later
  running : ∀ p, s.vpp = some p → p.pid ∉ later
  other : ∀ p, s.vpp = some p → s.linked = some p.number ∨ p.pid ≠ s.plugin.vpp_pid_start

theorem notices_of_unrepeated {s : system_t ι} {later : List Int} (hunrepeated : Unrepeated s later)
    (hruns : s.vpp.isSome) (check : check_t) : Notices s check := by
  obtain ⟨p, hvpp⟩ := Option.isSome_iff_exists.mp hruns
  rcases hunrepeated.other p hvpp with hlinked | hpid
  · exact .inr ⟨p, hvpp, .inl hlinked⟩
  · refine .inl ?_
    simp only [system_t.meets, hvpp]
    exact hpid

theorem check_unrepeated {s : system_t ι} {later : List Int} (hunrepeated : Unrepeated s later) (hruns : s.vpp.isSome)
    (check : check_t) : Unrepeated (s.check check) later := by
  obtain ⟨p, hvpp⟩ := Option.isSome_iff_exists.mp hruns
  by_cases hsame : (s.meets check).get_vpp_pid = s.plugin.vpp_pid_start
  · rwa [check_same hsame]
  · obtain ⟨q, hboot, hafter, hlinked, -, -⟩ := check_other hsame
    obtain rfl : p = q := by simpa [system_t.boot, hvpp] using hboot
    have hrecorded : (s.check check).plugin.vpp_pid_start = p.pid := by
      rw [system_t.check, health_step_recovers hsame]
      simp [system_t.meets, hvpp, vpp_t.get_vpp_pid]
    refine ⟨by rw [hrecorded]; exact hunrepeated.running p hvpp, ?_, ?_⟩
    · intro q hq
      obtain rfl := Option.some.inj (hafter.symm.trans hq)
      exact hunrepeated.running p hvpp
    · intro q hq
      obtain rfl := Option.some.inj (hafter.symm.trans hq)
      exact .inl hlinked

theorem notices_throughout {s : system_t ι} {events : List event_t} (hunrepeated : Unrepeated s (pids events))
    (hnodup : (pids events).Nodup)
    (hruns : Along (system_step env) (OnCheck fun s _ => s.vpp.isSome) (some s) events) :
    Along (system_step env) (OnCheck Notices) (some s) events := by
  induction events generalizing s with
  | nil => trivial
  | cons event events ih =>
    obtain ⟨hfirst, hrest⟩ := hruns
    cases event with
    | call placed =>
      refine ⟨trivial, ?_⟩
      cases hstep : system_step env (some s) (.call placed) with
      | none => exact along_ended Notices events
      | some after =>
        rw [hstep] at hrest
        obtain ⟨returned, -, rfl⟩ := Option.map_eq_some_iff.mp hstep
        refine ih ⟨hunrepeated.recorded, ?_, ?_⟩ hnodup hrest
        · intro q hq
          obtain ⟨p, hvpp, rfl⟩ := Option.map_eq_some_iff.mp hq
          have hpid := hunrepeated.running p hvpp
          split <;> exact hpid
        · intro q hq
          obtain ⟨p, hvpp, rfl⟩ := Option.map_eq_some_iff.mp hq
          have hother := hunrepeated.other p hvpp
          split <;> exact hother
    | crash => exact ⟨trivial, ih ⟨hunrepeated.recorded, nofun, nofun⟩ hnodup hrest⟩
    | check check =>
      exact ⟨notices_of_unrepeated hunrepeated hfirst check,
        ih (check_unrepeated hunrepeated hfirst check) hnodup hrest⟩
    | boot pid hpid =>
      have hrecorded : s.plugin.vpp_pid_start ∉ pid :: pids events := hunrepeated.recorded
      obtain ⟨hnew, hnodup⟩ := List.nodup_cons.mp hnodup
      rw [List.mem_cons, not_or] at hrecorded
      refine ⟨trivial, @ih (s.boot pid hpid) ?_ hnodup hrest⟩
      cases hvpp : s.vpp with
      | some p =>
        have hsame : s.boot pid hpid = s := by simp [system_t.boot, hvpp]
        rw [hsame]
        exact ⟨hrecorded.2, fun q hq hmem => hunrepeated.running q hq (List.mem_cons_of_mem pid hmem),
          hunrepeated.other⟩
      | none =>
        simp only [system_t.boot, hvpp]
        refine ⟨hrecorded.2, ?_, ?_⟩
        · rintro _ ⟨⟩
          exact hnew
        · rintro _ ⟨⟩
          exact .inr (Ne.symm hrecorded.1)

/-- After an initialisation, and when VPP runs at every check and never starts under
    a pid that it has had before, VPP runs after every check with what OM then
    holds. -/
theorem inStep_of_fresh_pids {start : start_t ι} {plugin started : plugin_t ι}
    (hinit : sr_plugin_init_cb start plugin = some (.SR_ERR_OK, started)) (w : World) {events : List event_t}
    (hfresh : (start.vpp_pid :: pids events).Nodup)
    (hruns : Along (system_step env) (OnCheck fun s _ => s.vpp.isSome) (some (.started start started w)) events) :
    Along (system_step env) (OnCheck fun s check => InStep (s.check check)) (some (.started start started w))
      events := by
  obtain ⟨hnew, hnodup⟩ := List.nodup_cons.mp hfresh
  have hrecorded : started.vpp_pid_start = start.vpp_pid := by
    have hconnected := (sr_plugin_init_cb_recorded hinit).connected
    rw [(sr_plugin_init_cb_started hinit).connected] at hconnected
    exact (Option.some.inj hconnected).symm
  have hunrepeated : Unrepeated (.started start started w) (pids events) := by
    refine ⟨?_, ?_, ?_⟩
    · change started.vpp_pid_start ∉ pids events
      rwa [hrecorded]
    · rintro _ ⟨⟩
      exact hnew
    · rintro _ ⟨⟩
      exact .inl rfl
  have hstep (system : Option (system_t ι)) (event : event_t) (hattached : ∀ s, system = some s → Attached s)
      (hnotices : OnCheck Notices system event) : OnCheck (fun s check => InStep (s.check check)) system event ∧
        ∀ after, system_step env system event = some after → Attached after :=
    ⟨(inStep_iff_notices hattached event).mpr hnotices, system_step_attached hattached event⟩
  have hattached : ∀ s, some (system_t.started start started w) = some s → Attached s := by
    rintro _ ⟨⟩
    exact started_attached start started w
  exact along_of_step hstep hattached (notices_throughout hunrepeated hnodup hruns)

end pids

section samples

def start_100 : start_t model_t := { vpp_pid := 100, func_rc := fun _ => .SR_ERR_OK }

/-- VPP dies once an interface has been created, and has started again when the
    next check is made. -/
def restarted (pid : Int) (hpid : 0 < pid) : List event_t :=
  interface_then_mapping.map .call ++ [.crash, .boot pid hpid, .check { code := -3, fresh := 300 }]

theorem in_step_after_restart : ∃ started,
    sr_plugin_init_cb start_100 model_t.load = some (.SR_ERR_OK, started) ∧
      Along (system_step counting) (OnCheck fun s check => InStep (s.check check))
        (some (.started start_100 started World.empty)) (restarted 200 (by decide)) := by
  refine ⟨_, rfl, @inStep_of_fresh_pids _ counting start_100 model_t.load _ rfl World.empty _ (by decide) ?_⟩
  exact ⟨trivial, trivial, trivial, trivial, rfl, trivial⟩

/-- A VPP that comes up under the pid of the one that died is left without its
    configuration. -/
theorem pid_taken_again :
    ¬ Along (system_step counting) (OnCheck fun s check => InStep (s.check check))
      (some (.started start_100 { model_t.load with vpp_pid_start := 100 } World.empty))
      (restarted 100 (by decide)) := by
  rw [inStep_throughout_iff (started_attached _ _ _)]
  rintro ⟨-, -, -, -, hnotices, -⟩
  rcases hnotices with hpid | ⟨p, hvpp, hlinked | hempty⟩
  · exact hpid rfl
  · obtain rfl := Option.some.inj hvpp
    cases hlinked
  · have hheld : (((plugins_machine counting).run (some World.empty) interface_then_mapping).map World.om).any
        (fun om => decide (("host-vpp1", object.interface "host-vpp1" (ethernet true)) ∈ om)) = true := by
      decide +kernel
    have hnone : ((plugins_machine counting).run (some World.empty) interface_then_mapping).map World.om = some ∅ :=
      congrArg some hempty
    rw [hnone] at hheld
    cases hheld

end samples

end sweetcomb
