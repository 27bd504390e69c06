import Mathlib.Data.List.Forall2
import Sweetcomb.Ietf.Interface.Outcome

open sweetcomb.ietf_interface

namespace sweetcomb.openconfig_interfaces

/-- Values of the two models that stand for the same leaf of the same
    interface. -/
structure SameLeaf (ietf oc : sr_val_t) : Prop where
  keyed : (sr_xpath_key_value ietf.xpath "interface" "name").isSome
  key : sr_xpath_key_value ietf.xpath "interface" "name" = sr_xpath_key_value oc.xpath "interface" "name"
  leaf : ∀ leaf ∈ ["name", "type", "enabled"],
    sr_xpath_node_name_eq ietf.xpath leaf = sr_xpath_node_name_eq oc.xpath leaf
  data : ietf.data = oc.data

/-- Changes that agree on the operation and on their values. -/
inductive Related : change_t → change_t → Prop
  | created {new_val ne : sr_val_t} (hnew : SameLeaf new_val ne) : Related (.created new_val) (.created ne)
  | modified {old_val new_val ol ne : sr_val_t} (hold : SameLeaf old_val ol) (hnew : SameLeaf new_val ne) :
    Related (.modified old_val new_val) (.modified ol ne)
  | deleted {old_val ol : sr_val_t} (hold : SameLeaf old_val ol) : Related (.deleted old_val) (.deleted ol)
  | moved {old_val ol : Option sr_val_t} {new_val ne : sr_val_t} (hold : Option.Rel SameLeaf old_val ol)
    (hnew : SameLeaf new_val ne) : Related (.moved old_val new_val) (.moved ol ne)

section values

variable {ietf oc : sr_val_t} (hsame : SameLeaf ietf oc)

include hsame

theorem SameLeaf.name : sr_xpath_node_name_eq ietf.xpath "name" = sr_xpath_node_name_eq oc.xpath "name" :=
  hsame.leaf "name" (by simp)

theorem SameLeaf.type : sr_xpath_node_name_eq ietf.xpath "type" = sr_xpath_node_name_eq oc.xpath "type" :=
  hsame.leaf "type" (by simp)

theorem SameLeaf.enabled :
    sr_xpath_node_name_eq ietf.xpath "enabled" = sr_xpath_node_name_eq oc.xpath "enabled" :=
  hsame.leaf "enabled" (by simp)

end values

/-- The interface that a change with a new value is about. -/
def keyOf (change : change_t) : Option String :=
  change.new_val.bind fun new_val => sr_xpath_key_value new_val.xpath "interface" "name"

/-- A change that both callbacks treat alike: it has a new value, and the key in
    it is not empty. -/
def common (change : change_t) : Bool :=
  match keyOf change with
  | some key => !key.isEmpty
  | none => false

section related

variable {ietf oc : change_t} (hrelated : Related ietf oc)

include hrelated

theorem Related.named : named ietf = named oc := by
  cases hrelated with
  | created hnew => simp [ietf_interface.named, hnew.name, hnew.data]
  | modified hold hnew => rfl
  | deleted hold => simp [ietf_interface.named, hold.name, hold.data]
  | moved hold hnew => rfl

theorem Related.creates : creates ietf = creates oc := by
  cases hrelated with
  | created hnew => exact hnew.name
  | modified hold hnew => rfl
  | deleted hold => rfl
  | moved hold hnew => rfl

theorem Related.removes : removes ietf = removes oc := by
  cases hrelated with
  | created hnew => rfl
  | modified hold hnew => rfl
  | deleted hold => exact hold.name
  | moved hold hnew => rfl

theorem Related.typed : typed ietf = typed oc := by
  cases hrelated with
  | created hnew => simp [ietf_interface.typed, hnew.name, hnew.type, hnew.data]
  | modified hold hnew => rfl
  | deleted hold => rfl
  | moved hold hnew => rfl

theorem Related.enabled : enabled ietf = enabled oc := by
  cases hrelated with
  | created hnew => simp [ietf_interface.enabled, hnew.name, hnew.type, hnew.enabled, hnew.data]
  | modified hold hnew => rfl
  | deleted hold => rfl
  | moved hold hnew => rfl

theorem Related.sets : sets ietf = sets oc := by
  cases hrelated with
  | created hnew => rfl
  | modified hold hnew => simp [ietf_interface.sets, hnew.enabled, hnew.key, hnew.data]
  | deleted hold => rfl
  | moved hold hnew => rfl

theorem Related.accepts (env : Env) (om : Om) : accepts env om ietf = accepts env om oc := by
  cases hrelated with
  | created hnew => rfl
  | modified hold hnew => simp [ietf_interface.accepts, hnew.enabled, hnew.key]
  | deleted hold => rfl
  | moved hold hnew => rfl

theorem Related.refusal : refusal ietf = refusal oc := by
  cases hrelated with
  | created hnew => rfl
  | modified hold hnew => simp [ietf_interface.refusal, hnew.key]
  | deleted hold => rfl
  | moved hold hnew => rfl

theorem Related.keyed : (openconfig_interfaces.keyOf ietf).isSome ∨ ∃ old_val, ietf = .deleted old_val := by
  cases hrelated with
  | created hnew => exact .inl hnew.keyed
  | modified hold hnew => exact .inl hnew.keyed
  | deleted hold => exact .inr ⟨_, rfl⟩
  | moved hold hnew => exact .inl hnew.keyed

theorem Related.keyOf : keyOf ietf = keyOf oc := by
  cases hrelated with
  | created hnew => exact hnew.key
  | modified hold hnew => exact hnew.key
  | deleted hold => rfl
  | moved hold hnew => exact hnew.key

end related

theorem related_append_left {first second changes' : List change_t}
    (hrelated : List.Forall₂ Related (first ++ second) changes') :
    ∃ first' second', changes' = first' ++ second' ∧ List.Forall₂ Related first first' ∧
      List.Forall₂ Related second second' := by
  induction first generalizing changes' with
  | nil => exact ⟨[], changes', rfl, .nil, hrelated⟩
  | cons change first ih =>
    cases hrelated with
    | cons hhead htail =>
      obtain ⟨first', second', rfl, hfirst, hsecond⟩ := ih htail
      exact ⟨_ :: first', second', rfl, .cons hhead hfirst, hsecond⟩

theorem related_mem {changes changes' : List change_t} (hrelated : List.Forall₂ Related changes changes')
    {change : change_t} (hmem : change ∈ changes') : ∃ ietf ∈ changes, Related ietf change := by
  induction hrelated with
  | nil => cases hmem
  | cons hhead _ ih =>
    rcases List.mem_cons.mp hmem with rfl | hmem
    · exact ⟨_, by simp, hhead⟩
    · obtain ⟨ietf, hietf, hchange⟩ := ih hmem
      exact ⟨ietf, List.mem_cons_of_mem _ hietf, hchange⟩

/-- A change of a related list is deleted or carries a key. -/
theorem keyed_of_related {changes changes' : List change_t} (hrelated : List.Forall₂ Related changes changes') :
    ∀ change ∈ changes, (keyOf change).isSome ∨ ∃ old_val, change = .deleted old_val := by
  induction hrelated with
  | nil => simp
  | cons hhead _ ih => exact List.forall_mem_cons.mpr ⟨hhead.keyed, ih⟩

/-- Variables that the code after the loop cannot tell apart. -/
structure Alike (ietf oc : create_locals) : Prop where
  intf : ietf.intf = oc.intf
  builder : ietf.builder = oc.builder
  create : ietf.create = oc.create
  remove : ietf.remove = oc.remove
  modify : ietf.modify = oc.modify
  om : ietf.world.om = oc.world.om
  instances : ietf.world.instances = oc.world.instances
  writes : ietf.world.writes = oc.world.writes
  calls : ietf.world.calls = oc.world.calls

theorem Alike.advance {ietf oc : create_locals} (halike : Alike ietf oc) {change change' : change_t}
    (hrelated : Related change change') : Alike (advance ietf change) (advance oc change') where
  intf := by simp [ietf_interface.advance, hrelated.sets, halike.intf]
  builder := by
    simp [ietf_interface.advance, hrelated.named, hrelated.typed, hrelated.enabled, halike.builder]
  create := by simp [ietf_interface.advance, hrelated.creates, halike.create]
  remove := by simp [ietf_interface.advance, hrelated.removes, halike.remove]
  modify := by simp [ietf_interface.advance, hrelated.sets, halike.modify]
  om := by simp [halike.om]
  instances := by
    funext name
    simp [advance_instances, setsOf, hrelated.sets, halike.instances]
  writes := by simp [halike.writes]
  calls := by simp [advance_calls, hrelated.sets, halike.calls]

theorem Alike.foldl_advance {ietf oc : create_locals} (halike : Alike ietf oc) {changes changes' : List change_t}
    (hrelated : List.Forall₂ Related changes changes') :
    Alike (changes.foldl ietf_interface.advance ietf) (changes'.foldl ietf_interface.advance oc) := by
  induction hrelated generalizing ietf oc with
  | nil => exact halike
  | cons hhead _ ih => exact ih (halike.advance hhead)

theorem Alike.pending {ietf oc : create_locals} (halike : Alike ietf oc) : pending ietf = pending oc := by
  have hattrs : ∀ intf : intf_ptr, intf.attrs ietf.world = intf.attrs oc.world := by
    intro intf
    cases intf <;> simp [intf_ptr.attrs, halike.instances]
  simp [ietf_interface.pending, halike.create, halike.builder, halike.modify, halike.intf, hattrs]

theorem Alike.dropped {ietf oc : create_locals} (halike : Alike ietf oc) : dropped ietf = dropped oc := by
  simp [ietf_interface.dropped, halike.create, halike.modify, halike.remove, halike.builder]

theorem Alike.commit (env : Env) {ietf oc : create_locals} (halike : Alike ietf oc) :
    (create_leave (create_commit env ietf)).outcome = (create_leave (create_commit env oc)).outcome ∧
      (create_leave (create_commit env ietf)).world.calls = (create_leave (create_commit env oc)).world.calls := by
  obtain ⟨houtcome, hcalls⟩ := create_commit_calls env ietf
  obtain ⟨houtcome', hcalls'⟩ := create_commit_calls env oc
  rw [houtcome, houtcome', hcalls, hcalls', halike.pending, halike.dropped, halike.create, halike.modify, halike.writes,
    halike.calls]
  exact ⟨rfl, rfl⟩

/-- The code after the loop leaves alike what it finds alike. -/
theorem Alike.leave (env : Env) {ietf oc : create_locals} (halike : Alike ietf oc) :
    (create_leave (create_commit env ietf)).world.om = (create_leave (create_commit env oc)).world.om ∧
      (create_leave (create_commit env ietf)).world.instances =
        (create_leave (create_commit env oc)).world.instances := by
  have hsame {first second : World} (hfirst : first.Same ietf.world) (hsecond : second.Same oc.world) :
      first.om = second.om ∧ first.instances = second.instances :=
    ⟨by rw [hfirst.om, hsecond.om, halike.om], by rw [hfirst.instances, hsecond.instances, halike.instances]⟩
  cases hpending : ietf_interface.pending ietf with
  | some written =>
    have hpending' := halike.pending.symm.trans hpending
    by_cases hwrite : env.write_rc ietf.world.writes = .OK
    · obtain ⟨-, hom, hinstances, -⟩ := create_commit_written env hpending hwrite
      obtain ⟨-, hom', hinstances', -⟩ := create_commit_written env hpending' (halike.writes ▸ hwrite)
      rw [hom, hom', hinstances, hinstances', halike.om, halike.instances]
      exact ⟨rfl, rfl⟩
    · exact hsame (create_commit_failed env hpending hwrite).2.1
        (create_commit_failed env hpending' (halike.writes ▸ hwrite)).2.1
  | none =>
    have hpending' := halike.pending.symm.trans hpending
    by_cases hflag : ietf.create = true ∨ ietf.modify = true
    · have hflag' : oc.create = true ∨ oc.modify = true := by rwa [← halike.create, ← halike.modify]
      exact hsame (create_commit_rejected env hpending hflag).2.1 (create_commit_rejected env hpending' hflag').2.1
    · simp only [not_or, Bool.not_eq_true] at hflag
      cases hdropped : ietf_interface.dropped ietf with
      | some name =>
        obtain ⟨-, hom, hinstances, -⟩ := create_commit_removed env hdropped
        obtain ⟨-, hom', hinstances', -⟩ := create_commit_removed env (halike.dropped.symm.trans hdropped)
        rw [hom, hom', hinstances, hinstances', halike.om, halike.instances]
        exact ⟨rfl, rfl⟩
      | none =>
        refine hsame (create_commit_nothing env hflag.1 hflag.2 hdropped).2.1
          (create_commit_nothing env ?_ ?_ (halike.dropped.symm.trans hdropped)).2.1
        · rw [← halike.create, hflag.1]
        · rw [← halike.modify, hflag.2]

end sweetcomb.openconfig_interfaces
