import Mathlib.Data.List.TakeWhile
import Sweetcomb.Ietf.Interface.Outcome

open keyed_store loop

namespace sweetcomb.ietf_interface

/-- The last state that a list of changes sets, with its interface. -/
def lastSet (changes : List change_t) : Option (String × admin_state_t) :=
  latest (fun change => (sets change).map some) none changes

/-- The interface that a list of changes has the callback write: the one built
    from all that is created, or else the one whose state is set last. -/
def written (uninit : Uninit) (w : World) (changes : List change_t) : Option (String × interface_attrs) :=
  if uninit.create || changes.any creates then
    interface_builder.build
      { m_name := latest named "" changes
        m_type := latest typed "" changes
        m_state := latest enabled uninit.m_state changes }
  else (lastSet changes).map fun set => (set.1, { w.instances set.1 with state := set.2 })

/-- Every interface is last set to the state that it has. -/
def StatesKept (w : World) (changes : List change_t) : Prop :=
  ∀ name, latest (setsOf name) (w.instances name).state changes = (w.instances name).state

/-- The interface is in OM as it is written, in no other state, and so is its
    instance. -/
structure AlreadyWritten (w : World) (name : String) (attrs : interface_attrs) : Prop where
  held : (name, .interface name attrs) ∈ w.om
  only : ∀ other, (name, .interface name other) ∈ w.om → other = attrs
  shared : w.instances name = attrs

/-- A successful call has nothing to do: what it writes is written already and
    the other states that it sets are set, or there is nothing under the key that
    it removes. -/
def NothingToDo (uninit : Uninit) (w : World) (changes : List change_t) : Prop :=
  match written uninit w changes with
  | some (key, attrs) =>
    AlreadyWritten w key attrs ∧
      ∀ name ≠ key, latest (setsOf name) (w.instances name).state changes = (w.instances name).state
  | none =>
    (uninit.remove || changes.any removes) = true → ∀ obj, (latest named "" changes, obj) ∉ w.om

/-- Variables at the start of the loop, whichever plugin declares them. -/
structure Starts (uninit : Uninit) (w : World) (l : create_locals) : Prop where
  builder : l.builder = { m_state := uninit.m_state }
  intf : l.intf = none
  create : l.create = uninit.create
  remove : l.remove = uninit.remove
  modify : l.modify = uninit.modify
  world : l.world = w

theorem starts_create (uninit : Uninit) (w : World) : Starts uninit w (create_start uninit w) :=
  ⟨rfl, rfl, rfl, rfl, rfl, rfl⟩

theorem latest_points (last : Option (String × admin_state_t)) (changes : List change_t) :
    latest points (last.map fun set => intf_ptr.found set.1) changes =
      (latest (fun change => (sets change).map some) last changes).map fun set => .found set.1 := by
  induction changes generalizing last with
  | nil => rfl
  | cons change changes ih =>
    rw [latest_cons, latest_cons, ← ih]
    cases hsets : sets change <;> simp [points, hsets]

/-- The interface that is set last ends in the state that it is last set to. -/
theorem latest_setsOf {changes : List change_t} {name : String} {state before : admin_state_t}
    {last : Option (String × admin_state_t)}
    (hlast : latest (fun change => (sets change).map some) last changes = some (name, state))
    (hbefore : last = some (name, before) ∨ ∀ set, last = some set → set.1 ≠ name) :
    latest (setsOf name) before changes = state := by
  induction changes generalizing last before with
  | nil =>
    rw [latest_nil] at hlast
    rcases hbefore with hsame | hother
    · rw [hlast, Option.some.injEq, Prod.mk.injEq] at hsame
      exact hsame.2.symm
    · exact absurd rfl (hother _ hlast)
  | cons change changes ih =>
    rw [latest_cons] at hlast ⊢
    cases hsets : sets change with
    | none =>
      simp only [hsets, setsOf, Option.map_none, Option.getD_none] at hlast ⊢
      exact ih hlast hbefore
    | some set =>
      simp only [hsets, setsOf, Option.map_some, Option.getD_some] at hlast ⊢
      by_cases hname : set.1 = name
      · rw [if_pos hname]
        refine ih hlast (.inl ?_)
        rw [← hname]
        rfl
      · rw [if_neg hname]
        exact ih hlast (.inr fun other hother => by rwa [← Option.some.inj hother])

section starts

variable {uninit : Uninit} {w : World} {start : create_locals}

theorem builder_of_foldl (hstart : Starts uninit w start) (changes : List change_t) :
    (changes.foldl advance start).builder =
      { m_name := latest named "" changes
        m_type := latest typed "" changes
        m_state := latest enabled uninit.m_state changes } := by
  have hname := foldl_advance_name start changes
  have htype := foldl_advance_type start changes
  have hstate := foldl_advance_state start changes
  rw [hstart.builder] at hname htype hstate
  cases hbuilder : (changes.foldl advance start).builder
  rw [hbuilder] at hname htype hstate
  rw [interface_builder.mk.injEq]
  exact ⟨hname, htype, hstate⟩

theorem lastSet_of_quiet {changes : List change_t} (hquiet : (changes.any fun change => (sets change).isSome) = false) :
    lastSet changes = none := by
  refine latest_eq_self fun change hmem value hset => ?_
  rw [List.any_eq_false] at hquiet
  have hnone : sets change = none := by simpa using hquiet change hmem
  simp [hnone] at hset

theorem statesKept_of_quiet {changes : List change_t}
    (hquiet : (changes.any fun change => (sets change).isSome) = false) :
    StatesKept w changes := by
  intro name
  refine latest_eq_self fun change hmem state hset => ?_
  rw [List.any_eq_false] at hquiet
  have hnone : sets change = none := by simpa using hquiet change hmem
  simp [setsOf, hnone] at hset

/-- What the code after the loop is about to write. -/
theorem pending_eq_written (hstart : Starts uninit w start) (changes : List change_t) :
    pending (changes.foldl advance start) = written uninit w changes := by
  have hpoints : latest points none changes = (lastSet changes).map fun set => .found set.1 :=
    latest_points none changes
  simp only [pending, written, foldl_advance_create, foldl_advance_modify, foldl_advance_intf, hstart.create,
    hstart.intf, hstart.modify, hpoints, builder_of_foldl hstart]
  refine if_congr Iff.rfl rfl ?_
  cases hlast : lastSet changes with
  | none => simp
  | some set =>
    have hany : (changes.any fun change => (sets change).isSome) = true := by
      by_contra hquiet
      rw [lastSet_of_quiet (by simpa using hquiet)] at hlast
      cases hlast
    have hstate : latest (setsOf set.1) (w.instances set.1).state changes = set.2 :=
      latest_setsOf hlast (.inr (by simp))
    simp [hany, intf_ptr.key, intf_ptr.attrs, foldl_advance_instances, hstart.world, hstate]

theorem foldl_same_iff (hstart : Starts uninit w start) (changes : List change_t) :
    (changes.foldl advance start).world.Same w ↔ StatesKept w changes := by
  constructor
  · intro hsame name
    have hinstance := congrFun hsame.instances name
    rw [foldl_advance_instances, hstart.world] at hinstance
    exact congrArg interface_attrs.state hinstance
  · intro hkept
    refine ⟨by rw [foldl_advance_om, hstart.world], ?_, by rw [foldl_advance_table, hstart.world]⟩
    funext name
    rw [foldl_advance_instances, hstart.world, hkept name]

theorem write_interface_same_iff {om : Om} {key : String} {attrs : interface_attrs} :
    om.write object.singular key (.interface key attrs) = om ↔
      (key, .interface key attrs) ∈ om ∧ ∀ other, (key, .interface key other) ∈ om → other = attrs := by
  rw [Store.write_eq_self_iff]
  refine and_congr_right fun _ => ⟨fun honly other hmem => ?_, fun honly other hmem hsame => ?_⟩
  · have hequal := honly (.interface key other) hmem rfl
    rw [object.interface.injEq] at hequal
    exact hequal.2
  · cases other with
    | interface name otherAttrs =>
      simp only [object.singular, object.interface.injEq, and_true] at hsame
      subst hsame
      rw [honly otherAttrs hmem]
    | l3_binding itf pfx => simp [object.singular] at hsame
    | nat_static inside outside => simp [object.singular] at hsame

/-- Publishing an interface moves no instance exactly when its own is as written
    and the others are last set to the state that they have. -/
theorem publish_same_iff (hstart : Starts uninit w start) {changes : List change_t} {key : String}
    {attrs : interface_attrs} :
    Function.update (changes.foldl advance start).world.instances key attrs = w.instances ↔
      w.instances key = attrs ∧
        ∀ name ≠ key, latest (setsOf name) (w.instances name).state changes = (w.instances name).state := by
  rw [Function.update_eq_iff, eq_comm]
  refine and_congr_right fun _ => forall₂_congr fun name _ => ?_
  rw [foldl_advance_instances, hstart.world]
  exact ⟨congrArg interface_attrs.state, fun hstate => by rw [hstate]⟩

/-- What follows the loop leaves everything as it was exactly when there is
    nothing to do, provided that it succeeds. -/
theorem commit_same_iff (env : Env) (hstart : Starts uninit w start) {changes : List change_t}
    (hok : (create_leave (create_commit env (changes.foldl advance start))).outcome = .ok .SR_ERR_OK) :
    (create_leave (create_commit env (changes.foldl advance start))).world.Same w ↔
      NothingToDo uninit w changes := by
  have hpending := pending_eq_written hstart changes
  have hom : (changes.foldl advance start).world.om = w.om := by rw [foldl_advance_om, hstart.world]
  have htable : (changes.foldl advance start).world.static_mapping_table = w.static_mapping_table := by
    rw [foldl_advance_table, hstart.world]
  rw [NothingToDo]
  cases hwritten : written uninit w changes with
  | some set =>
    obtain ⟨key, attrs⟩ := set
    rw [hwritten] at hpending
    by_cases hwrite : env.write_rc (changes.foldl advance start).world.writes = .OK
    · obtain ⟨_, hafter, hinstances, htable_after, _⟩ := create_commit_written env hpending hwrite
      rw [hom] at hafter
      constructor
      · intro hsame
        obtain ⟨hheld, honly⟩ := write_interface_same_iff.mp (hafter.symm.trans hsame.om)
        obtain ⟨hshared, hothers⟩ := (publish_same_iff hstart).mp (hinstances.symm.trans hsame.instances)
        exact ⟨⟨hheld, honly, hshared⟩, hothers⟩
      · rintro ⟨⟨hheld, honly, hshared⟩, hothers⟩
        exact ⟨hafter.trans (write_interface_same_iff.mpr ⟨hheld, honly⟩),
          hinstances.trans ((publish_same_iff hstart).mpr ⟨hshared, hothers⟩), htable_after.trans htable⟩
    · rw [(create_commit_failed env hpending hwrite).1] at hok
      cases hok
  | none =>
    rw [hwritten] at hpending
    by_cases hflag : (changes.foldl advance start).create = true ∨ (changes.foldl advance start).modify = true
    · rw [(create_commit_rejected env hpending hflag).1] at hok
      split at hok <;> cases hok
    · simp only [not_or, Bool.not_eq_true] at hflag
      obtain ⟨hcreate, hmodify⟩ := hflag
      have hquiet : (changes.any fun change => (sets change).isSome) = false := by
        rw [foldl_advance_modify, Bool.or_eq_false_iff] at hmodify
        exact hmodify.2
      have hfinal := (foldl_same_iff hstart changes).mpr (statesKept_of_quiet hquiet)
      have hremove : (changes.foldl advance start).remove = (uninit.remove || changes.any removes) := by
        rw [foldl_advance_remove, hstart.remove]
      have hname : (changes.foldl advance start).builder.m_name = latest named "" changes := by
        rw [builder_of_foldl hstart]
      rw [← hremove]
      cases hflag : (changes.foldl advance start).remove with
      | true =>
        have hdropped : dropped (changes.foldl advance start) = some (latest named "" changes) := by
          simp [dropped, hcreate, hmodify, hflag, hname]
        obtain ⟨_, hafter, hinstances, htable_after, _⟩ := create_commit_removed env hdropped
        rw [hom] at hafter
        rw [forall_prop_of_true rfl, ← Store.remove_eq_self_iff, ← hafter]
        exact ⟨World.Same.om, fun heq => ⟨heq, hinstances.trans hfinal.instances, htable_after.trans htable⟩⟩
      | false =>
        have hdropped : dropped (changes.foldl advance start) = none := by simp [dropped, hflag]
        obtain ⟨_, hsame, _⟩ := create_commit_nothing env hcreate hmodify hdropped
        exact iff_of_true (hsame.trans hfinal) (by simp)

/-- A call that returns another code than success leaves no trace exactly when
    the states set before it ends were there already. -/
theorem commit_rejected_same_iff (env : Env) (hstart : Starts uninit w start) {changes : List change_t}
    {rc : sr_error_t}
    (houtcome : (create_leave (create_commit env (changes.foldl advance start))).outcome = .ok rc)
    (hrejected : rc ≠ .SR_ERR_OK) :
    (create_leave (create_commit env (changes.foldl advance start))).world.Same w ↔ StatesKept w changes := by
  refine (World.Same.congr ?_ w).trans (foldl_same_iff hstart changes)
  cases hpending : pending (changes.foldl advance start) with
  | some set =>
    obtain ⟨key, attrs⟩ := set
    by_cases hwrite : env.write_rc (changes.foldl advance start).world.writes = .OK
    · rw [(create_commit_written env hpending hwrite).1, Except.ok.injEq] at houtcome
      exact absurd houtcome.symm hrejected
    · exact (create_commit_failed env hpending hwrite).2.1
  | none =>
    by_cases hflag : (changes.foldl advance start).create = true ∨ (changes.foldl advance start).modify = true
    · exact (create_commit_rejected env hpending hflag).2.1
    · simp only [not_or, Bool.not_eq_true] at hflag
      cases hdropped : dropped (changes.foldl advance start) with
      | some name =>
        rw [(create_commit_removed env hdropped).1, Except.ok.injEq] at houtcome
        exact absurd houtcome.symm hrejected
      | none => exact (create_commit_nothing env hflag.1 hflag.2 hdropped).2.1

end starts

section callback

variable {env : Env} {uninit : Uninit} {w : World} {changes : List change_t}

/-- A successful call moves nothing exactly when there is nothing to do. -/
theorem create_cb_same_iff
    (hok : (ietf_interface_create_cb env uninit (verify changes) w).outcome = .ok .SR_ERR_OK) :
    (ietf_interface_create_cb env uninit (verify changes) w).world.Same w ↔ NothingToDo uninit w changes := by
  rw [create_cb_verify] at hok ⊢
  rcases accepted_or_split (accepts env w.om) changes with haccepts | ⟨before, change, after, rfl, haccepts, hrefused⟩
  · rw [create_run_accepted env (create_start uninit w) haccepts] at hok ⊢
    exact commit_same_iff env (starts_create uninit w) hok
  · rw [(create_run_refused env (create_start uninit w) after haccepts hrefused).1] at hok
    exact absurd hok (refusal_ne_ok hrefused)

/-- A rejected call moves nothing exactly when the changes that were accepted
    set no other state than there is. -/
theorem create_cb_rejected_same_iff {rc : sr_error_t}
    (houtcome : (ietf_interface_create_cb env uninit (verify changes) w).outcome = .ok rc)
    (hrejected : rc ≠ .SR_ERR_OK) :
    (ietf_interface_create_cb env uninit (verify changes) w).world.Same w ↔
      StatesKept w (changes.takeWhile (accepts env w.om)) := by
  rw [create_cb_verify] at houtcome ⊢
  rcases accepted_or_split (accepts env w.om) changes with haccepts | ⟨before, change, after, rfl, haccepts, hrefused⟩
  · rw [create_run_accepted env (create_start uninit w) haccepts] at houtcome ⊢
    rw [List.takeWhile_eq_self_iff.mpr haccepts]
    exact commit_rejected_same_iff env (starts_create uninit w) houtcome hrejected
  · obtain ⟨_, hsame, _⟩ := create_run_refused env (create_start uninit w) after haccepts hrefused
    have htaken : (before ++ change :: after).takeWhile (accepts env w.om) = before := by
      rw [List.takeWhile_append_of_pos haccepts]
      simp [hrefused]
    rw [htaken]
    exact (hsame.congr w).trans (foldl_same_iff (starts_create uninit w) before)

end callback

end sweetcomb.ietf_interface
