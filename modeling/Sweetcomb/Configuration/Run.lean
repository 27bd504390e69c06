import Sweetcomb.Configuration.Address
import Sweetcomb.Configuration.Interface
import Sweetcomb.Configuration.Mapping
import Sweetcomb.Ietf.Nat.Sync
import Sweetcomb.Simulation

open datastore keyed_store runs simulation sweetcomb.ietf_interface

namespace sweetcomb

/-- A commit of one edit, with the changes that the callback of its model is
    called with and what the variables of the callback hold. -/
structure part_t where
  edit : config_edit_t
  changes : List change_t
  uninit : Uninit

def config_edit_t.subscriber : config_edit_t → subscriber_t
  | .interface _ => .ietf_interface_create_cb
  | .address _ => .ietf_interface_ipv46_address_change_cb
  | .mapping _ => .nat_mapping_table_config_cb

def part_t.verify (env : Env) (p : part_t) (w : World) : cb_result :=
  p.edit.subscriber.call env p.uninit (sweetcomb.verify p.changes) w

/-- The edit starts from what is configured, and its changes are those that
    sysrepo delivers for it. An interface has a name, which is the key of nothing
    else. -/
def part_t.Delivered (env : Env) (cfg : configuration_t) (p : part_t) : Prop :=
  match p.edit with
  | .interface e =>
    commit_t.Delivered interface_changes cfg.interfaces ⟨[e], p.changes, p.uninit⟩ ∧ Plain env.text e.key ∧
      e.key ≠ ""
  | .address e => p.changes = address_changes env.text e ∧ e.Applies cfg.addresses
  | .mapping e => commit_t.Delivered (ietf_nat.mapping_changes env.text) cfg.mappings ⟨[e], p.changes, p.uninit⟩

/-- The edit takes effect in its datastore when its callback agrees. -/
def part_t.step (env : Env) (state : World × configuration_t) (p : part_t) : World × configuration_t :=
  let result := p.verify env state.1
  (result.world, if result.outcome = .ok .SR_ERR_OK then p.edit.apply state.2 else state.2)

/-- After the commit the plugin has what is then configured, and nothing else. -/
def part_t.InSync (env : Env) (state : World × configuration_t) (p : part_t) : Prop :=
  Realises env (p.step env state).1 (p.step env state).2.exact

section step

variable {env : Env} (hcounts : env.Counts) (hwrites : ∀ n, env.write_rc n = .OK) {w : World} {h : holding_t}
  (hreal : Realises env w h)

include hcounts hwrites hreal

/-- Each callback refines the configuration of its model. -/
theorem part_refines {p : part_t} (hdelivered : p.Delivered env h.cfg) : Refines env h p.edit (p.verify env w) := by
  obtain ⟨e, changes, uninit⟩ := p
  cases e with
  | interface e => exact interface_refines hcounts hwrites hreal rfl hdelivered.1 hdelivered.2.1 hdelivered.2.2
  | mapping e => exact mapping_refines hwrites hreal rfl hdelivered
  | address e =>
    obtain ⟨rfl, happlies⟩ := hdelivered
    exact address_refines hcounts hreal hwrites happlies

theorem part_step_eq {p : part_t} (hdelivered : p.Delivered env h.cfg) :
    (p.step env (w, h.cfg)).2 = (p.edit.step h).cfg := by
  have hrefines := part_refines hcounts hwrites hreal hdelivered
  by_cases hadmitted : p.edit.Admitted h.cfg
  · rw [step_of_admitted hadmitted, part_t.step, if_pos (hrefines.agrees.mpr hadmitted)]
    rfl
  · rw [step_of_refused hadmitted, part_t.step, if_neg fun hok => hadmitted (hrefines.agrees.mp hok)]

end step

section runs

variable {env : Env} (hcounts : env.Counts) (hwrites : ∀ n, env.write_rc n = .OK)

include hcounts hwrites

theorem part_inSync_iff {w : World} {cfg : configuration_t} (hreal : Realises env w cfg.exact) {p : part_t}
    (hdelivered : p.Delivered env cfg) : p.InSync env (w, cfg) ↔ p.edit.Exact cfg := by
  have hstep := part_step_eq hcounts hwrites hreal hdelivered
  rw [exact_cfg] at hstep
  rw [part_t.InSync, hstep]
  exact (part_refines hcounts hwrites hreal hdelivered).exact_iff

/-- Whatever the models and the order of the commits, the plugin has exactly what is
    configured throughout exactly when every edit is carried over and leaves
    nothing else. -/
theorem realises_throughout_iff {w : World} {cfg : configuration_t} (hreal : Realises env w cfg.exact)
    {parts : List part_t}
    (hdelivered : Along (part_t.step env) (fun state p => p.Delivered env state.2) (w, cfg) parts) :
    Along (part_t.step env) (part_t.InSync env) (w, cfg) parts ↔
      Along (part_t.step env) (fun state p => p.edit.Exact state.2) (w, cfg) parts :=
  along_iff_of_step (fun state : World × configuration_t => Realises env state.1 state.2.exact)
    (fun _ _ hstate hp => part_inSync_iff hcounts hwrites hstate hp) (fun _ _ _ _ hgood => hgood) hreal hdelivered

end runs

section samples

/-- The changes of an edit, one after the other. -/
def part_of (e : config_edit_t) : part_t where
  edit := e
  changes :=
    match e with
    | .interface e => interface_changes e
    | .address e => address_changes plainText e
    | .mapping e => ietf_nat.mapping_changes plainText e
  uninit := cleared

theorem host_vpp1_plain : Plain counting.text "host-vpp1" :=
  plain_of_mem counting.text (by decide) (show 'h' ∈ _ by decide) (by decide)

theorem interface_delivered {cfg : configuration_t} {e : edit String Bool} (happlies : e.Applies cfg.interfaces)
    (hplain : Plain counting.text e.key) (hname : e.key ≠ "") : (part_of (.interface e)).Delivered counting cfg :=
  ⟨⟨⟨by simp, by simpa using happlies⟩, by simp [part_of], cleared_cleared⟩, hplain, hname⟩

theorem mapping_delivered {cfg : configuration_t} {e : ietf_nat.mapping_edit} (happlies : e.Applies cfg.mappings) :
    (part_of (.mapping e)).Delivered counting cfg :=
  ⟨⟨by simp, by simpa using happlies⟩, by simp [part_of, counting], cleared_cleared⟩

theorem address_delivered {cfg : configuration_t} {e : address_edit} (happlies : e.Applies cfg.addresses) :
    (part_of (.address e)).Delivered counting cfg :=
  ⟨rfl, happlies⟩

/-- An interface, a mapping, and an address of the interface. -/
def configured_with_address : List part_t :=
  [part_of (.interface (.created "host-vpp1" true)), part_of (.mapping (.created 1 ietf_nat.first_mapping)),
    part_of (.address (.created vpp1_address 24))]

theorem configured_delivered : Along (part_t.step counting) (fun state p => p.Delivered counting state.2)
    (World.empty, .empty) configured_with_address := by
  refine ⟨?_, ?_, ?_, trivial⟩
  · exact interface_delivered ⟨rfl, by decide⟩ host_vpp1_plain (by decide)
  · exact mapping_delivered ⟨by decide, by decide⟩
  · exact address_delivered ⟨by decide, by decide⟩

end samples

theorem created_address_not_in_sync : ¬ Along (part_t.step counting) (part_t.InSync counting)
    (World.empty, .empty) configured_with_address := by
  rw [realises_throughout_iff counting_counts (fun _ => rfl) (realises_empty counting) configured_delivered]
  rintro ⟨-, -, hcreated, -⟩
  have hlen : (24 : UInt8) = 0 := hcreated (by decide) (.inl (by decide))
  exact absurd hlen (by decide)

/-- The plugin and the datastores, answering whether a commit is agreed to. -/
def plugin_machine (env : Env) : Machine (World × configuration_t) part_t Prop where
  step := part_t.step env
  answer state p := (p.verify env state.1).outcome = .ok .SR_ERR_OK

/-- The configuration, with what is held beside it, answering which edits it
    admits. -/
noncomputable def holding_machine : Machine holding_t config_edit_t Prop where
  step := config_edit_t.step
  answer h e := e.Admitted h.cfg

/-- The commit is one that sysrepo delivers, and is carried over. -/
structure Carried (env : Env) (state : World × configuration_t) (p : part_t) : Prop where
  delivered : p.Delivered env state.2
  faithful : p.edit.Faithful state.2

section determined

variable {env : Env} (hcounts : env.Counts) (hwrites : ∀ n, env.write_rc n = .OK)

include hcounts hwrites

theorem plugin_simulates : Simulates holding_machine (plugin_machine env) (fun p => some p.edit)
    (fun h state => state.2 = h.cfg ∧ Realises env state.1 h) (Carried env) where
  answer := by
    rintro h ⟨w, _⟩ p _ ⟨rfl, hreal⟩ hcarried ⟨⟩
    exact propext (part_refines hcounts hwrites hreal hcarried.delivered).agrees
  step := by
    rintro h ⟨w, _⟩ p _ ⟨rfl, hreal⟩ hcarried ⟨⟩
    have hrefines := part_refines hcounts hwrites hreal hcarried.delivered
    exact ⟨part_step_eq hcounts hwrites hreal hcarried.delivered, hrefines.realises.mpr hcarried.faithful⟩
  stutter := by
    rintro h state p - - ⟨⟩

/-- The plugin answers every commit as the configuration does, and ends up with
    what is then configured, and beside it with the length zero of each address
    that has been created on the way and is still there. -/
theorem plugin_run_refines {w : World} {h : holding_t} (hreal : Realises env w h) {parts : List part_t}
    (hcarried : Along (part_t.step env) (Carried env) (w, h.cfg) parts) :
    (plugin_machine env).answers (fun p => some p.edit) (w, h.cfg) parts =
        holding_machine.answers some h (parts.map part_t.edit) ∧
      ((plugin_machine env).run (w, h.cfg) parts).2 = (holding_machine.run h (parts.map part_t.edit)).cfg ∧
      Realises env ((plugin_machine env).run (w, h.cfg) parts).1 (holding_machine.run h (parts.map part_t.edit)) := by
  have hrun := (plugin_simulates hcounts hwrites).run ⟨rfl, hreal⟩ hcarried
  rwa [List.filterMap_eq_map'] at hrun

omit hcounts hwrites in
/-- An address on an interface that is not there yet is refused. -/
theorem run_refines_sample : (plugin_machine counting).answers (fun p => some p.edit) (World.empty, .empty)
      [part_of (.address (.created vpp1_address 24)), part_of (.interface (.created "host-vpp1" true))] =
    holding_machine.answers some configuration_t.empty.exact
      [.address (.created vpp1_address 24), .interface (.created "host-vpp1" true)] := by
  have hcarried : Along (part_t.step counting) (Carried counting) (World.empty, .empty)
      [part_of (.address (.created vpp1_address 24)), part_of (.interface (.created "host-vpp1" true))] := by
    refine ⟨⟨address_delivered ⟨rfl, by decide⟩, trivial⟩, ⟨?_, trivial⟩, trivial⟩
    exact interface_delivered ⟨by decide, by decide⟩ host_vpp1_plain (by decide)
  exact (plugin_run_refines counting_counts (fun _ => rfl) (realises_empty counting) hcarried).1

omit hcounts hwrites in
/-- What is carried over keeps every address held twice. -/
theorem step_doubled {cfg : configuration_t} {e : config_edit_t} (hfaithful : e.Faithful cfg) :
    e.step cfg.doubled = (e.step cfg.doubled).cfg.doubled := by
  by_cases hadmitted : e.Admitted cfg
  · have hstep : e.step cfg.doubled = e.take cfg.doubled := if_pos hadmitted
    rw [hstep]
    cases e with
    | interface e => rfl
    | mapping e => rfl
    | address e =>
      refine (holding_t.mk.injEq ..).mpr ⟨rfl, ?_⟩
      ext entry
      cases e with
      | modified entry old new => exact absurd hfaithful hadmitted
      | created other len =>
        by_cases hsame : entry = other <;>
          simp [config_edit_t.leave, config_edit_t.take, config_edit_t.apply, configuration_t.doubled, edit.apply,
            hsame]
      | deleted other len =>
        by_cases hsame : entry = other <;>
          simp [config_edit_t.leave, config_edit_t.take, config_edit_t.apply, configuration_t.doubled, edit.apply,
            hsame]
  · have hstep : e.step cfg.doubled = cfg.doubled := if_neg hadmitted
    rw [hstep]
    rfl

theorem doubled_run {w : World} {cfg : configuration_t} (hreal : Realises env w cfg.doubled) {parts : List part_t}
    (hcarried : Along (part_t.step env) (Carried env) (w, cfg) parts) :
    Realises env ((plugin_machine env).run (w, cfg) parts).1 ((plugin_machine env).run (w, cfg) parts).2.doubled := by
  refine @foldl_of_step _ _ _ (fun state : World × configuration_t => Realises env state.1 state.2.doubled) _
    (fun state p hstate hp => ?_) _ hreal _ hcarried
  have hdelivered : p.Delivered env state.2.doubled.cfg := hp.delivered
  have hafter := (part_refines hcounts hwrites hstate hdelivered).realises.mpr hp.faithful
  rw [step_doubled hp.faithful, ← part_step_eq hcounts hwrites hstate hdelivered] at hafter
  exact hafter

/-- Whatever has been configured on the way, the same configuration leaves the
    same objects in OM and the same NAT table. -/
theorem om_determined {w w' : World} {cfg cfg' : configuration_t} (hreal : Realises env w cfg.doubled)
    (hreal' : Realises env w' cfg'.doubled) {parts parts' : List part_t}
    (hcarried : Along (part_t.step env) (Carried env) (w, cfg) parts)
    (hcarried' : Along (part_t.step env) (Carried env) (w', cfg') parts')
    (hsame : ((plugin_machine env).run (w, cfg) parts).2 = ((plugin_machine env).run (w', cfg') parts').2) :
    ((plugin_machine env).run (w, cfg) parts).1.om = ((plugin_machine env).run (w', cfg') parts').1.om ∧
      ((plugin_machine env).run (w, cfg) parts).1.static_mapping_table =
        ((plugin_machine env).run (w', cfg') parts').1.static_mapping_table := by
  have hafter := doubled_run hcounts hwrites hreal hcarried
  have hafter' := doubled_run hcounts hwrites hreal' hcarried'
  rw [← hsame] at hafter'
  refine ⟨hafter.om.unique hafter'.om, ?_⟩
  funext index
  rw [hafter.table, hafter'.table]

end determined

theorem doubled_empty : Realises counting World.empty configuration_t.empty.doubled := by
  have hnone : configuration_t.empty.doubled = configuration_t.empty.exact :=
    (holding_t.mk.injEq ..).mpr ⟨rfl, by simp [configuration_t.empty]⟩
  rw [hnone]
  exact realises_empty counting

/-- An interface that is created up, and one that is created down and then set
    up. -/
theorem om_determined_sample :
    ((plugin_machine counting).run (World.empty, .empty)
        [part_of (.interface (.created "host-vpp1" true))]).1.om =
      ((plugin_machine counting).run (World.empty, .empty)
        [part_of (.interface (.created "host-vpp1" false)),
          part_of (.interface (.modified "host-vpp1" false true))]).1.om := by
  have hcreated (enabled : Bool) : Carried counting (World.empty, .empty)
      (part_of (.interface (.created "host-vpp1" enabled))) :=
    ⟨interface_delivered ⟨rfl, nofun⟩ host_vpp1_plain (by simp), trivial⟩
  have hup : Along (part_t.step counting) (Carried counting) (World.empty, .empty)
      [part_of (.interface (.created "host-vpp1" true))] := ⟨hcreated true, trivial⟩
  have hset : Along (part_t.step counting) (Carried counting) (World.empty, .empty)
      [part_of (.interface (.created "host-vpp1" false)),
        part_of (.interface (.modified "host-vpp1" false true))] :=
    ⟨hcreated false, ⟨interface_delivered ⟨by decide, by decide⟩ host_vpp1_plain (by decide), trivial⟩, trivial⟩
  refine (om_determined counting_counts (fun _ => rfl) doubled_empty doubled_empty
    hup hset ?_).1
  have hagreed (state : World × configuration_t) (p : part_t)
      (hok : (p.verify counting state.1).outcome = .ok .SR_ERR_OK) :
      (p.step counting state).2 = p.edit.apply state.2 := if_pos hok
  change (part_t.step counting _ _).2 = (part_t.step counting (part_t.step counting _ _) _).2
  rw [hagreed _ _ (by decide), hagreed _ _ (by decide), hagreed _ _ (by decide)]
  simp [part_of, config_edit_t.apply, edit.apply]

end sweetcomb
