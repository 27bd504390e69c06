import Sweetcomb.Configuration.Run
import Sweetcomb.Configuration.Survival
import Sweetcomb.Plugin.Restart

open datastore keyed_store loop runs sweetcomb.ietf_interface

namespace sweetcomb

variable {ι : Type}

/-- A commit of one edit, or what becomes of VPP between commits. -/
inductive incident_t where
  | commit (p : part_t)
  | crash
  | boot (pid : Int) (hpid : 0 < pid := by decide)
  | check (check : check_t)

/-- What the incident is to the plugin and VPP. -/
def incident_t.event (s : system_t ι) : incident_t → event_t
  | .commit p => .call
    { call := { subscriber := p.edit.subscriber, uninit := p.uninit, delivery := verify p.changes }
      writes := s.world.writes }
  | .crash => .crash
  | .boot pid hpid => .boot pid hpid
  | .check made => .check made

/-- What becomes of the plugin and VPP, and of the datastores above them. -/
def deployed_step (env : Env) (state : Option (system_t ι × configuration_t)) (i : incident_t) :
    Option (system_t ι × configuration_t) :=
  state.bind fun (s, cfg) => (s.step env (i.event s)).map fun after =>
    (after,
      match i with
      | .commit p => (p.step env (s.world, cfg)).2
      | _ => cfg)

def incident_t.Delivered (env : Env) (cfg : configuration_t) : incident_t → Prop
  | .commit p => p.Delivered env cfg
  | _ => True

/-- The incidents that the configuration gets through: edits that are carried over and
    leave nothing else, and checks that find VPP as it is. -/
def incident_t.Survived (s : system_t ι) (cfg : configuration_t) : incident_t → Prop
  | .commit p => p.edit.Exact cfg
  | .check made => Notices s made
  | _ => True

section survival

variable {env : Env} {cfg : configuration_t}

theorem not_fails_of_single (hwrites : ∀ n, env.write_rc n = .OK) {c : commit_t String Bool} {e : edit String Bool}
    (hedits : c.edits = [e]) (hc : c.Delivered interface_changes cfg.interfaces) (hname : e.key ≠ "") (writes : Nat) :
    ¬ Fails env c.uninit writes c.changes := by
  have hcreated : c.changes.any creates = true → latest named "" c.changes ≠ "" := by
    intro hany
    obtain ⟨change, hmem, hcreates⟩ := List.any_eq_true.mp hany
    rw [mem_changes_of_single hc hedits] at hmem
    cases e with
    | created name enabled =>
      rw [named_of_created hc hedits]
      exact hname
    | deleted name enabled =>
      obtain ⟨value, -, rfl⟩ := List.mem_map.mp hmem
      cases hcreates
    | modified name old new =>
      obtain rfl := List.mem_singleton.mp hmem
      cases hcreates
  unfold Fails
  split
  · next hany => simp [hcreated hany, hwrites]
  · rw [hc.cleared.create, hc.cleared.modify]
    simp [hwrites]

/-- The plugin survives the commits of single edits. -/
theorem part_survives (hwrites : ∀ n, env.write_rc n = .OK) {p : part_t} (hdelivered : p.Delivered env cfg)
    (w : World) : (p.verify env w).survives w = true := by
  obtain ⟨e, changes, uninit⟩ := p
  refine subscriber_t.call_survives_iff.mpr ⟨fun hnone => hnone.2.2 rfl, fun _ => ?_⟩
  cases e with
  | interface e =>
    obtain ⟨hc, -, hname⟩ := hdelivered
    have hcommitted : subscriber_t.Committed env.text changes .ietf_interface_create_cb :=
      ⟨[e], [], by simpa using hc.delivers, by simp⟩
    exact (withstands_iff_safe hcommitted w).mpr fun hunsafe =>
      not_fails_of_single hwrites rfl hc hname w.writes hunsafe.2
  | address e =>
    obtain ⟨rfl, -⟩ := hdelivered
    have hcommitted : subscriber_t.Committed env.text (address_changes env.text e)
        .ietf_interface_ipv46_address_change_cb := ⟨[e], by simp⟩
    exact (withstands_iff_safe hcommitted w).mpr id
  | mapping e =>
    have hcommitted : subscriber_t.Committed env.text changes .nat_mapping_table_config_cb :=
      ⟨[e], by simpa using hdelivered.delivers⟩
    have hclear : uninit.create = false := hdelivered.cleared.create
    refine (withstands_iff_safe hcommitted w).mpr fun hunsafe => ?_
    have hends := hunsafe.2
    simp [hwrites, hclear] at hends

theorem part_returns (hwrites : ∀ n, env.write_rc n = .OK) {p : part_t} (hdelivered : p.Delivered env cfg)
    (s : system_t ι) : s.step env ((incident_t.commit p).event s) =
      some (system_t.mirror { s with world := (p.verify env s.world).world }) := by
  obtain ⟨rc, -, hreturns⟩ := @returns_of_survives env s.world
    { call := { subscriber := p.edit.subscriber, uninit := p.uninit, delivery := verify p.changes },
      writes := s.world.writes } (part_survives hwrites hdelivered s.world)
  rw [incident_t.event, system_t.step, hreturns]
  rfl

end survival

section deployed

variable {env : Env}

/-- The process is configured with what the datastores hold, and with nothing
    else. -/
def process_t.Serves (env : Env) (cfg : configuration_t) (p : process_t) : Prop :=
  p.config.Renders (configured_t.key env.text) cfg.wanted

/-- The plugin has what is configured, and so has the process that HW has connected to
    for as long as it runs. -/
structure Deployed (env : Env) (s : system_t ι) (cfg : configuration_t) : Prop where
  realises : Realises env s.world cfg.exact
  served : ∀ p, s.vpp = some p → s.linked = some p.number → p.Serves env cfg

/-- After a check VPP runs with what is configured. -/
def incident_t.Checked (env : Env) (s : system_t ι) (cfg : configuration_t) : incident_t → Prop
  | .check _ => ∃ p, s.vpp = some p ∧ p.Serves env cfg
  | _ => True

/-- After the incident the plugin still runs and the configuration is deployed. -/
def StaysDeployed (env : Env) (state : Option (system_t ι × configuration_t)) (i : incident_t) : Prop :=
  ∃ s cfg, deployed_step env state i = some (s, cfg) ∧ Deployed env s cfg ∧ i.Checked env s cfg

variable {s : system_t ι} {cfg : configuration_t}

/-- A process that HW has connected to has all that the plugin has. -/
theorem deployed_iff (hattached : Attached s) : Deployed env s cfg ↔ Realises env s.world cfg.exact := by
  refine ⟨Deployed.realises, fun hreal => ⟨hreal, fun p hvpp hlinked => ?_⟩⟩
  rw [process_t.Serves, hattached.config p hvpp, if_pos hlinked, ← exact_held]
  exact hreal.om

/-- VPP runs with what is configured exactly when it runs with what OM holds. -/
theorem serves_iff_inStep (hreal : Realises env s.world cfg.exact) :
    (∃ p, s.vpp = some p ∧ p.Serves env cfg) ↔ InStep s := by
  have hom := hreal.om
  rw [exact_held] at hom
  refine exists_congr fun p => and_congr_right fun _ => ⟨fun hserves => hserves.unique hom, fun hsame => ?_⟩
  rw [process_t.Serves, hsame]
  exact hom

theorem boot_world (pid : Int) (hpid : 0 < pid) : (s.boot pid hpid).world = s.world := by
  rw [system_t.boot]
  split <;> rfl

theorem check_world (check : check_t) : (s.check check).world = s.world := by
  by_cases hsame : (s.meets check).get_vpp_pid = s.plugin.vpp_pid_start
  · rw [check_same hsame]
  · obtain ⟨-, -, -, -, hworld, -⟩ := check_other hsame
    exact hworld

theorem staysDeployed_iff_of_step (hattached : Attached s) {i : incident_t} {after : system_t ι}
    {cfg' : configuration_t} (hstep : s.step env (i.event s) = some after)
    (hafter : deployed_step env (some (s, cfg)) i = some (after, cfg')) :
    StaysDeployed env (some (s, cfg)) i ↔ Realises env after.world cfg'.exact ∧ i.Checked env after cfg' := by
  rw [StaysDeployed, hafter]
  constructor
  · rintro ⟨_, _, ⟨⟩, hdeployed, hcheck⟩
    exact ⟨hdeployed.realises, hcheck⟩
  · rintro ⟨hreal, hcheck⟩
    exact ⟨_, _, rfl, (deployed_iff (step_attached hattached hstep)).mpr hreal, hcheck⟩

variable (hcounts : env.Counts) (hwrites : ∀ n, env.write_rc n = .OK) (hattached : Attached s)
  (hreal : Realises env s.world cfg.exact)

include hcounts hwrites hattached hreal

/-- One incident, at a plugin that has what is configured. -/
theorem staysDeployed_iff {i : incident_t} (hdelivered : i.Delivered env cfg) :
    StaysDeployed env (some (s, cfg)) i ↔ i.Survived s cfg := by
  cases i with
  | commit p =>
    have hstep := part_returns hwrites hdelivered s
    have hafter : deployed_step env (some (s, cfg)) (.commit p) =
        some (system_t.mirror { s with world := (p.verify env s.world).world }, (p.step env (s.world, cfg)).2) := by
      simp only [deployed_step, Option.bind_some, hstep, Option.map_some]
    refine (staysDeployed_iff_of_step hattached hstep hafter).trans ((and_iff_left trivial).trans ?_)
    exact part_inSync_iff hcounts hwrites hreal hdelivered
  | crash =>
    have hafter : deployed_step env (some (s, cfg)) .crash = some ({ s with vpp := none }, cfg) := rfl
    exact (staysDeployed_iff_of_step hattached rfl hafter).trans (iff_of_true ⟨hreal, trivial⟩ trivial)
  | boot pid hpid =>
    refine (staysDeployed_iff_of_step hattached rfl rfl).trans (iff_of_true ⟨?_, trivial⟩ trivial)
    rwa [boot_world]
  | check check =>
    have hchecked : Realises env (s.check check).world cfg.exact := by rwa [check_world]
    exact (staysDeployed_iff_of_step hattached rfl rfl).trans ((and_iff_right hchecked).trans
      ((serves_iff_inStep hchecked).trans (inStep_check_iff hattached)))

end deployed

/-- From sysrepo down to VPP: over a run of commits in which VPP may die and start at
    any time, the plugin and the process that it is connected to have exactly what is
    configured, and after every check VPP runs with it, exactly as long as every edit
    is carried over and leaves nothing else, and every check finds out that VPP has
    been started again. -/
theorem deployed_throughout_iff {env : Env} (hcounts : env.Counts) (hwrites : ∀ n, env.write_rc n = .OK)
    {s : system_t ι} {cfg : configuration_t} (hattached : Attached s) (hreal : Realises env s.world cfg.exact)
    {incidents : List incident_t}
    (hdelivered : Along (deployed_step env) (fun state i => ∀ s cfg, state = some (s, cfg) → i.Delivered env cfg)
      (some (s, cfg)) incidents) :
    Along (deployed_step env) (StaysDeployed env) (some (s, cfg)) incidents ↔
      Along (deployed_step env) (fun state i => ∀ s cfg, state = some (s, cfg) → i.Survived s cfg) (some (s, cfg))
        incidents := by
  refine along_iff_of_step
    (fun state => ∃ s cfg, state = some (s, cfg) ∧ Attached s ∧ Realises env s.world cfg.exact) ?_ ?_
    ⟨s, cfg, rfl, hattached, hreal⟩ hdelivered
  · rintro _ i ⟨s, cfg, rfl, hattached, hreal⟩ hi
    rw [staysDeployed_iff hcounts hwrites hattached hreal (hi s cfg rfl)]
    refine ⟨?_, fun hsurvived => hsurvived s cfg rfl⟩
    rintro hsurvived _ _ ⟨⟩
    exact hsurvived
  · rintro _ i ⟨s, cfg, rfl, hattached, -⟩ - ⟨after, cfg', hafter, hdeployed, -⟩
    refine ⟨after, cfg', hafter, ?_, hdeployed.realises⟩
    obtain ⟨_, hstep, hsame⟩ := Option.map_eq_some_iff.mp hafter
    obtain ⟨rfl, -⟩ := Prod.mk.inj hsame
    exact step_attached hattached hstep

section samples

/-- VPP dies once an interface is configured, a mapping is configured in between, and
    VPP has started again when the next check is made. -/
def configured_while_down : List incident_t :=
  [.commit (part_of (.interface (.created "host-vpp1" true))), .crash,
    .commit (part_of (.mapping (.created 1 ietf_nat.first_mapping))), .boot 201, .check { code := -2, fresh := 301 }]

theorem deployed_after_restart :
    Along (deployed_step counting) (StaysDeployed counting)
      (some (.started start_100 { model_t.load with vpp_pid_start := 100 } World.empty, .empty))
      configured_while_down := by
  refine (deployed_throughout_iff counting_counts (fun _ => rfl) (started_attached _ _ _)
    (realises_empty counting) ?_).mpr ?_
  · refine ⟨?_, fun _ _ _ => trivial, ?_, fun _ _ _ => trivial, fun _ _ _ => trivial, trivial⟩
    · rintro _ _ ⟨⟩
      exact interface_delivered ⟨rfl, nofun⟩ host_vpp1_plain (by decide)
    · rintro _ _ ⟨⟩
      exact mapping_delivered ⟨by decide, nofun⟩
  · refine ⟨fun _ _ _ => trivial, fun _ _ _ => trivial, fun _ _ _ => trivial, fun _ _ _ => trivial, ?_, trivial⟩
    rintro _ _ ⟨⟩
    exact .inl (by decide)

end samples

end sweetcomb
