import Sweetcomb.Configuration.Interface
import Sweetcomb.Ietf.Interface.Sync
import Sweetcomb.KeyedStore.Joint
import Sweetcomb.Openconfig.Equivalence
import Sweetcomb.Openconfig.Trace
import Sweetcomb.Runs

open datastore keyed_store runs sweetcomb.ietf_interface
open sweetcomb.openconfig_interfaces (config_leaf Related Alike)

namespace sweetcomb

/-- The models through which an interface is configured. -/
inductive interface_model_t where
  | ietf
  | openconfig
deriving DecidableEq

/-- What each of them holds. -/
abbrev models_t := interface_model_t → Datastore String Bool

def interface_model_t.other : interface_model_t → interface_model_t
  | .ietf => .openconfig
  | .openconfig => .ietf

theorem interface_model_t.other_ne (model : interface_model_t) : model.other ≠ model := by
  cases model <;> decide

def interface_model_t.callback (env : Env) : interface_model_t → callback_t
  | .ietf => ietf_interface_create_cb env
  | .openconfig => openconfig_interfaces.oc_interfaces_config_cb env

/-- A commit of one edit in one of the models. -/
structure model_edit_t where
  model : interface_model_t
  edit : edit String Bool
  changes : List change_t
  uninit : Uninit

def model_edit_t.verify (env : Env) (c : model_edit_t) (w : World) : cb_result :=
  c.model.callback env c.uninit (sweetcomb.verify c.changes) w

/-- The edit takes effect in the datastore of its model when the callback agrees. -/
def model_edit_t.step (env : Env) (state : World × models_t) (c : model_edit_t) : World × models_t :=
  let result := c.verify env state.1
  (result.world, if result.outcome = .ok .SR_ERR_OK then
    Function.update state.2 c.model (c.edit.apply (state.2 c.model)) else state.2)

/-- The configuration of an OpenConfig interface as sysrepo lists it. -/
def config_entry (name : String) (enabled : Bool) : List sr_val_t :=
  [config_leaf name "name" { string_val := name },
    config_leaf name "type" { string_val := "iana-if-type:ethernetCsmacd" },
    config_leaf name "enabled" { bool_val := enabled }]

/-- The changes that sysrepo delivers for one edit of it. -/
def config_changes : edit String Bool → List change_t
  | .created name enabled => (config_entry name enabled).map .created
  | .deleted name enabled => (config_entry name enabled).map .deleted
  | .modified name old new =>
    [.modified (config_leaf name "enabled" { bool_val := old }) (config_leaf name "enabled" { bool_val := new })]

def interface_model_t.changesOf : interface_model_t → edit String Bool → List change_t
  | .ietf => interface_changes
  | .openconfig => config_changes

/-- An edit of an interface with a name, delivered by its model. The deletions, on
    which the OpenConfig callback crashes, are made in the IETF model. -/
structure model_edit_t.Delivered (ds : models_t) (c : model_edit_t) : Prop where
  named : c.edit.key ≠ ""
  kept : c.model = .openconfig → c.edit.new.isSome
  delivered : commit_t.Delivered c.model.changesOf (ds c.model) ⟨[c.edit], c.changes, c.uninit⟩

/-- The interfaces in OM are those that the models hold, which hold none
    differently. -/
structure InBoth (w : World) (ds : models_t) : Prop where
  agrees : Compatible (ds .ietf) (ds .openconfig)
  synced : Synced w (joint (ds .ietf) (ds .openconfig))

/-- Neither model comes first. -/
theorem inBoth_iff {w : World} {ds : models_t} (model : interface_model_t) :
    InBoth w ds ↔ Compatible (ds model) (ds model.other) ∧ Synced w (joint (ds model) (ds model.other)) := by
  cases model with
  | ietf => exact ⟨fun hboth => ⟨hboth.agrees, hboth.synced⟩, fun ⟨hagrees, hsynced⟩ => ⟨hagrees, hsynced⟩⟩
  | openconfig =>
    constructor
    · rintro ⟨hagrees, hsynced⟩
      exact ⟨hagrees.symm, joint_comm hagrees ▸ hsynced⟩
    · rintro ⟨hagrees, hsynced⟩
      exact ⟨hagrees.symm, joint_comm hagrees ▸ hsynced⟩

/-- OM tells which interfaces are held, and in which state. -/
theorem synced_unique {w : World} {first second : Datastore String Bool} (hfirst : Synced w first)
    (hsecond : Synced w second) : first = second := by
  funext name
  refine Option.map_injective ethernet_injective (Option.ext fun attrs => ?_)
  have hheld := (hfirst.held name name attrs).symm.trans (hsecond.held name name attrs)
  simpa using hheld

section calls

variable {env : Env} {w : World} {ds : models_t}

/-- The changes of an edit name its interface. -/
theorem common_of_single {e : edit String Bool} (hnew : e.new.isSome) (hname : e.key ≠ "") :
    ∀ change ∈ interface_changes e, openconfig_interfaces.common change = true := by
  intro change hmem
  have hkey : openconfig_interfaces.keyOf change = some e.key := by
    cases e with
    | created name enabled =>
      obtain ⟨value, hvalue, rfl⟩ := List.mem_map.mp hmem
      simp only [interface_entry, List.mem_cons, List.not_mem_nil, or_false] at hvalue
      rcases hvalue with rfl | rfl | rfl | rfl <;> rfl
    | modified name old new =>
      obtain rfl := List.mem_singleton.mp hmem
      rfl
    | deleted name enabled => cases hnew
  rw [openconfig_interfaces.common, hkey]
  simpa using hname

theorem enabled_leaf_same (name : String) (enabled : Bool) :
    openconfig_interfaces.SameLeaf (enabled_leaf name enabled) (config_leaf name "enabled" { bool_val := enabled }) :=
  ⟨rfl, rfl, fun _ _ => rfl, rfl⟩

/-- The leaves of an OpenConfig interface are those of the IETF one, which has the node
    of its list before them. -/
theorem related_entry (name : String) (enabled : Bool) :
    List.Forall₂ Related [.created (name_leaf name), .created (type_leaf name), .created (enabled_leaf name enabled)]
      (config_changes (.created name enabled)) :=
  .cons (.created (openconfig_interfaces.name_leaf_same name))
    (.cons (.created (openconfig_interfaces.type_leaf_same name))
      (.cons (.created (enabled_leaf_same name enabled)) .nil))

/-- The node of the list leads the variables nowhere. -/
theorem alike_of_node {ietf oc : create_locals} (halike : Alike ietf oc) (name : String) :
    Alike (advance ietf (.created { xpath := interface_node name, type := .SR_LIST_T })) oc where
  intf := halike.intf
  builder := halike.builder
  create := by
    rw [← halike.create]
    exact Bool.or_false _
  remove := by
    rw [← halike.remove]
    exact Bool.or_false _
  modify := by
    rw [← halike.modify]
    exact Bool.or_false _
  om := by simp [halike.om]
  instances := by
    funext itf
    simp [advance_instances, setsOf, sets, halike.instances]
  writes := by simp [halike.writes]
  calls := by simp [advance_calls, sets, halike.calls]

/-- The changes of an OpenConfig interface lead the variables where those of the IETF
    one do, in some order of these. -/
theorem alike_of_config {e : edit String Bool} (hnew : e.new.isSome) {changes : List change_t}
    (hchanges : changes.Perm (config_changes e)) :
    ∃ ietf : List change_t, ietf.Perm (interface_changes e) ∧
      (∀ change ∈ changes, ∃ before ∈ ietf, Related before change) ∧
      ∀ uninit w, Alike (ietf.foldl advance (create_start uninit w))
        (changes.foldl advance (openconfig_interfaces.config_start uninit w)) := by
  cases e with
  | deleted name enabled => cases hnew
  | modified name old new =>
    obtain rfl := List.perm_singleton.mp hchanges
    have hrelated := Related.modified (enabled_leaf_same name old) (enabled_leaf_same name new)
    refine ⟨_, .refl _, ?_, fun uninit w => (openconfig_interfaces.alike_start uninit w).advance hrelated⟩
    intro change hmem
    obtain rfl := List.mem_singleton.mp hmem
    exact ⟨_, List.mem_singleton_self _, hrelated⟩
  | created name enabled =>
    obtain ⟨leaves, hrelated, hperm⟩ := List.perm_comp_forall₂ hchanges (related_entry name enabled).flip
    have hleaves : List.Forall₂ Related leaves changes := hrelated.flip
    refine ⟨.created { xpath := interface_node name, type := .SR_LIST_T } :: leaves, hperm.cons _, ?_,
      fun uninit w => ?_⟩
    · intro change hmem
      obtain ⟨before, hbefore, hchange⟩ := openconfig_interfaces.related_mem hleaves hmem
      exact ⟨before, List.mem_cons_of_mem _ hbefore, hchange⟩
    · exact (alike_of_node (openconfig_interfaces.alike_start uninit w) name).foldl_advance hleaves

/-- What a call does that carries an edit of an interface over. -/
structure CarriesOut (e : edit String Bool) (w : World) (result : cb_result) : Prop where
  agrees : result.outcome = .ok .SR_ERR_OK
  synced : ∀ ds, Synced w ds → Synced result.world (Function.update ds e.key e.new)

variable (hwrites : ∀ n, env.write_rc n = .OK) (halive : KeepsCommitted env)

include halive

/-- VOM finds what one of the models holds. -/
theorem accepts_of_joint {ds joint : Datastore String Bool} {c : commit_t String Bool} {e : edit String Bool}
    (hedits : c.edits = [e]) (hc : c.Delivered interface_changes ds) (hsync : Synced w joint)
    (hjoint : ∀ old, ds e.key = some old → joint e.key = some old) :
    ∀ change ∈ c.changes, accepts env w.om change = true := by
  have happlies : e.Applies ds := hc.commits.applies e (by simp [hedits])
  refine accepts_of_single hc hedits fun hmodifies => ?_
  cases e with
  | created name enabled => cases hmodifies
  | deleted name enabled => cases hmodifies
  | modified name old new =>
    have hheld : joint name = some old := hjoint old happlies.1
    exact halive _ _ (ethernet old) ((hsync.held name name _).mpr ⟨rfl, by simp [hheld]⟩)

include hwrites

/-- The IETF callback carries an edit over, wherever it starts from. -/
theorem ietf_carries_out {ds joint : Datastore String Bool} {c : commit_t String Bool} {e : edit String Bool}
    (hedits : c.edits = [e]) (hc : c.Delivered interface_changes ds) (hname : e.key ≠ "") (hsync : Synced w joint)
    (hjoint : ∀ old, ds e.key = some old → joint e.key = some old) :
    CarriesOut e w (c.verify (ietf_interface_create_cb env) w) := by
  have happlies : e.Applies ds := hc.commits.applies e (by simp [hedits])
  have haccepts := accepts_of_joint halive hedits hc hsync hjoint
  cases e with
  | created name enabled =>
    obtain ⟨houtcome, hom, hinstances, -⟩ := interface_written_of_created hc haccepts hwrites hedits hname
    exact ⟨houtcome, fun ds hsync => hsync.write hom hinstances⟩
  | deleted name enabled =>
    obtain ⟨houtcome, hom, hinstances, -⟩ := interface_removed_of_deleted hc haccepts hedits
    exact ⟨houtcome, fun ds hsync => hsync.remove hom hinstances⟩
  | modified name old new =>
    have hheld : joint name = some old := hjoint old happlies.1
    have hjoined : c.Delivered interface_changes joint := by
      refine ⟨⟨hc.commits.distinct, ?_⟩, hc.delivers, hc.cleared⟩
      rw [hedits]
      simpa [edit.Applies, hheld] using happlies.2
    obtain ⟨houtcome, hom, hinstances, -⟩ := interface_written_of_modified hjoined haccepts hsync hwrites hedits
    exact ⟨houtcome, fun ds hsync => hsync.write hom hinstances⟩

/-- The OpenConfig callback does what the IETF one does. -/
theorem openconfig_carries_out {ds joint : Datastore String Bool} {e : edit String Bool} {uninit : Uninit}
    {changes : List change_t} (hc : commit_t.Delivered config_changes ds ⟨[e], changes, uninit⟩)
    (hnew : e.new.isSome) (hname : e.key ≠ "") (hsync : Synced w joint)
    (hjoint : ∀ old, ds e.key = some old → joint e.key = some old) :
    CarriesOut e w (openconfig_interfaces.oc_interfaces_config_cb env uninit (verify changes) w) := by
  obtain ⟨ietf, hperm, hrelated, halike⟩ := alike_of_config hnew (by simpa using hc.delivers)
  have hsame : commit_t.Delivered interface_changes ds ⟨[e], ietf, uninit⟩ :=
    ⟨hc.commits, by simpa using hperm, hc.cleared⟩
  have haccepts : ∀ change ∈ ietf, accepts env w.om change = true := accepts_of_joint halive rfl hsame hsync hjoint
  have hshared : ∀ change ∈ changes, openconfig_interfaces.shared env w.om change = true := by
    intro change hmem
    obtain ⟨before, hbefore, hchange⟩ := hrelated change hmem
    have hcommon := common_of_single hnew hname before (hperm.mem_iff.mp hbefore)
    rw [openconfig_interfaces.common, hchange.keyOf] at hcommon
    rw [openconfig_interfaces.shared, openconfig_interfaces.common, hcommon, ← hchange.accepts,
      haccepts before hbefore, Bool.and_true]
  have hietf := ietf_carries_out hwrites halive rfl hsame hname hsync hjoint
  rw [verify_of_accepts haccepts] at hietf
  obtain ⟨houtcome, -⟩ := (halike uninit w).commit env
  obtain ⟨hom, hinstances⟩ := (halike uninit w).leave env
  rw [openconfig_interfaces.config_cb_verify, openconfig_interfaces.config_run_shared env _ hshared]
  refine ⟨houtcome ▸ hietf.agrees, fun ds hsynced => ?_⟩
  obtain ⟨hheld, hethernet⟩ := hietf.synced ds hsynced
  exact ⟨hom ▸ hheld, hinstances ▸ hethernet⟩

/-- Either callback carries an edit over, whatever the other model holds. -/
theorem model_edit_carries_out (hboth : InBoth w ds) {c : model_edit_t} (hdelivered : c.Delivered ds) :
    CarriesOut c.edit w (c.verify env w) := by
  obtain ⟨-, hsync⟩ := (inBoth_iff c.model).mp hboth
  obtain ⟨model, e, changes, uninit⟩ := c
  obtain ⟨hname, hkept, hdelivered⟩ := hdelivered
  cases model with
  | ietf => exact ietf_carries_out hwrites halive rfl hdelivered hname hsync fun _ => joint_of_held
  | openconfig => exact openconfig_carries_out hwrites halive hdelivered (hkept rfl) hname hsync fun _ => joint_of_held

/-- A commit leaves OM right for both models exactly when the other model does not
    hold the interface, or holds what is committed. -/
theorem inBoth_step_iff (hboth : InBoth w ds) {c : model_edit_t} (hdelivered : c.Delivered ds) :
    InBoth (c.step env (w, ds)).1 (c.step env (w, ds)).2 ↔
      ds c.model.other c.edit.key = none ∨ ds c.model.other c.edit.key = c.edit.new := by
  obtain ⟨hagrees, hcarried⟩ := model_edit_carries_out hwrites halive hboth hdelivered
  obtain ⟨hbefore, hsync⟩ := (inBoth_iff c.model).mp hboth
  have hafter := hcarried _ hsync
  have hself : Function.update ds c.model (c.edit.apply (ds c.model)) c.model =
      Function.update (ds c.model) c.edit.key c.edit.new := Function.update_self ..
  have hother : Function.update ds c.model (c.edit.apply (ds c.model)) c.model.other = ds c.model.other :=
    Function.update_of_ne c.model.other_ne ..
  have hstep : c.step env (w, ds) =
      ((c.verify env w).world, Function.update ds c.model (c.edit.apply (ds c.model))) := by
    rw [model_edit_t.step, if_pos hagrees]
  rw [hstep, inBoth_iff c.model]
  dsimp only
  rw [hself, hother, ← joint_update_iff hbefore]
  refine and_congr_right fun _ => ⟨fun hgood => synced_unique hgood hafter, fun hjoint => ?_⟩
  rw [hjoint]
  exact hafter

end calls

/-- The two models share one OM, and neither looks at what the other holds: over a run
    of commits OM stays right for both exactly as long as no commit touches an
    interface that the other model holds, unless it leaves there what the other
    holds. -/
theorem both_models_throughout_iff {env : Env} (hwrites : ∀ n, env.write_rc n = .OK) (halive : KeepsCommitted env)
    {w : World} {ds : models_t} (hboth : InBoth w ds) {commits : List model_edit_t}
    (hdelivered : Along (model_edit_t.step env) (fun state c => c.Delivered state.2) (w, ds) commits) :
    Along (model_edit_t.step env) (fun state c => InBoth (c.step env state).1 (c.step env state).2) (w, ds) commits ↔
      Along (model_edit_t.step env) (fun state c =>
        state.2 c.model.other c.edit.key = none ∨ state.2 c.model.other c.edit.key = c.edit.new) (w, ds) commits :=
  along_iff_of_step (fun state : World × models_t => InBoth state.1 state.2)
    (fun _ _ hstate hc => inBoth_step_iff hwrites halive hstate hc) (fun _ _ _ _ hgood => hgood) hboth hdelivered

section samples

/-- The edit in a model, with its changes in order. -/
def model_edit (model : interface_model_t) (e : edit String Bool) : model_edit_t :=
  ⟨model, e, model.changesOf e, cleared⟩

theorem model_edit_delivered {model : interface_model_t} {e : edit String Bool} {ds : models_t} (hname : e.key ≠ "")
    (hkept : model = .openconfig → e.new.isSome) (happlies : e.Applies (ds model)) :
    (model_edit model e).Delivered ds := by
  refine ⟨hname, hkept, ⟨by simp, ?_⟩, by simp [model_edit], cleared_cleared⟩
  intro other hother
  obtain rfl := List.mem_singleton.mp hother
  exact happlies

/-- An interface that both models hold is deleted in one of them. -/
theorem deletion_in_one_model :
    ¬ Along (model_edit_t.step counting) (fun state c => InBoth (c.step counting state).1 (c.step counting state).2)
      (World.empty, fun _ _ => none)
      [model_edit .ietf (.created "host-vpp1" true), model_edit .openconfig (.created "host-vpp1" true),
        model_edit .ietf (.deleted "host-vpp1" true)] := by
  have hboth : InBoth World.empty fun _ _ => none := ⟨by simp [Compatible], synced_empty⟩
  rw [both_models_throughout_iff (fun _ => rfl) counting_keepsCommitted hboth ?_]
  · rintro ⟨-, -, hdeleted, -⟩
    exact absurd hdeleted (by decide)
  · refine ⟨model_edit_delivered (by decide) (by decide) ?_, model_edit_delivered (by decide) (by decide) ?_,
      model_edit_delivered (by decide) (by decide) ?_, trivial⟩
    · exact ⟨rfl, by decide⟩
    · exact ⟨by decide, by decide⟩
    · exact ⟨by decide, by decide⟩

end samples

end sweetcomb
