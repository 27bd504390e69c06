import Sweetcomb.Commit
import Sweetcomb.Ietf.Interface.Entry
import Sweetcomb.Ietf.Interface.Outcome

open datastore keyed_store loop

namespace sweetcomb.ietf_interface

variable {env : Env} {w : World} {ds : Datastore String Bool} {c : commit_t String Bool}

/-- After a successful call OM holds the interfaces of the resulting datastore
    and no instance but those of the edited interfaces has moved. -/
def InSync (env : Env) (state : World × Datastore String Bool) (c : commit_t String Bool) : Prop :=
  let result := c.verify (ietf_interface_create_cb env) state.1
  result.outcome = .ok .SR_ERR_OK →
    Synced result.world (applyAll state.2 c.edits) ∧
    ∀ name ∉ c.edits.map edit.key, result.world.instances name = state.1.instances name

/-- Something is created, and the last name that the callback meets is empty,
    so that no interface can be built. -/
def Unbuildable (c : commit_t String Bool) : Prop :=
  c.changes.any creates = true ∧ latest named "" c.changes = ""

/-- Only interfaces of the datastore are modified, and VOM finds those. -/
theorem accepts_of_delivered (halive : KeepsCommitted env) (hsync : Synced w ds)
    (hc : c.Delivered interface_changes ds) : ∀ change ∈ c.changes, accepts env w.om change = true := by
  intro change hmem
  obtain ⟨e, he, hchange⟩ := hc.mem_iff.mp hmem
  cases e with
  | created name enabled =>
    obtain ⟨value, _, rfl⟩ := List.mem_map.mp hchange
    rfl
  | deleted name enabled =>
    obtain ⟨value, _, rfl⟩ := List.mem_map.mp hchange
    rfl
  | modified name old new =>
    have hold : ds name = some old := (hc.commits.applies _ he).1
    have hheld : (name, object.interface name (ethernet old)) ∈ w.om :=
      (hsync.held name name (ethernet old)).mpr ⟨rfl, by rw [hold]; rfl⟩
    obtain rfl := List.mem_singleton.mp hchange
    simp [accepts, enabled_leaf, halive _ _ _ hheld]

/-- The variables after the loop. -/
def final (c : commit_t String Bool) (w : World) : create_locals :=
  c.changes.foldl advance (create_start c.uninit w)

theorem verify_eq_commit (halive : KeepsCommitted env) (hsync : Synced w ds)
    (hc : c.Delivered interface_changes ds) :
    c.verify (ietf_interface_create_cb env) w = create_leave (create_commit env (final c w)) :=
  (create_cb_verify env c.uninit c.changes w).trans
    (create_run_accepted env _ (accepts_of_delivered halive hsync hc))

/-- Every entry that is created brings its type along. -/
theorem type_of_creates (hc : c.Delivered interface_changes ds) (hcreates : c.changes.any creates = true) :
    latest typed "" c.changes = "ETHERNET" := by
  obtain ⟨change, hmem, hcreates⟩ := List.any_eq_true.mp hcreates
  obtain ⟨e, he, hchange⟩ := hc.mem_iff.mp hmem
  cases e with
  | created name enabled =>
    have htype : change_t.created (type_leaf name) ∈ c.changes :=
      hc.mem_iff.mpr ⟨_, he, by simp [interface_changes, interface_entry]⟩
    refine latest_eq_of_forall ⟨_, htype, by simp [typed, type_leaf]⟩ ?_
    intro other _ value htyped
    cases other with
    | created new_val =>
      simp only [typed, Option.ite_none_right_eq_some, Option.some.injEq] at htyped
      exact htyped.2.symm
    | modified old_val new_val => simp [typed] at htyped
    | deleted old_val => simp [typed] at htyped
    | moved old_val new_val => simp [typed] at htyped
  | deleted name enabled =>
    obtain ⟨value, _, rfl⟩ := List.mem_map.mp hchange
    simp [creates] at hcreates
  | modified name old new =>
    obtain rfl := List.mem_singleton.mp hchange
    simp [creates] at hcreates

/-- An interface that cannot be built ends the call without success and without
    a trace in OM. -/
theorem verify_unbuildable (halive : KeepsCommitted env) (hsync : Synced w ds)
    (hc : c.Delivered interface_changes ds) (hunbuildable : Unbuildable c) :
    let result := c.verify (ietf_interface_create_cb env) w
    result.outcome ≠ .ok .SR_ERR_OK ∧ result.world.om = w.om ∧
      ∀ name, (result.world.instances name).type = (w.instances name).type := by
  have hcreate : (final c w).create = true := by simp [final, hunbuildable.1]
  have hname : (final c w).builder.m_name = "" := by
    simpa [final, create_start] using hunbuildable.2
  have hpending : pending (final c w) = none := by
    simp [pending, hcreate, interface_builder.build, hname]
  obtain ⟨houtcome, hsame, _⟩ := create_commit_rejected env hpending (.inl hcreate)
  simp only [verify_eq_commit halive hsync hc, houtcome, hcreate, hsame.om, hsame.instances]
  exact ⟨by simp, by simp [final, create_start], fun name => by
    simp [final, foldl_advance_instances, create_start]⟩

/-- A state that was set is written through the instance found last. -/
theorem pending_of_modify (hc : c.uninit.Cleared) (hcreate : (final c w).create = false)
    (hmodify : (final c w).modify = true) :
    ∃ name, pending (final c w) = some (name, (final c w).world.instances name) ∧
      latest points none c.changes = some (.found name) := by
  have hsome : ∃ change ∈ c.changes, (points change).isSome := by
    simpa [final, create_start, hc.modify, points] using hmodify
  obtain ⟨name, hlatest⟩ : ∃ name, latest points none c.changes = some (.found name) := by
    refine latest_of_forall (fun intf => ∃ name, intf = some (.found name)) hsome ?_
    intro change _ intf hpoints
    obtain ⟨set, _, rfl⟩ := Option.map_eq_some_iff.mp hpoints
    exact ⟨set.1, rfl⟩
  have hintf : (final c w).intf = some (.found name) := by simp [final, create_start, hlatest]
  exact ⟨name, by simp [pending, hcreate, hmodify, hintf, intf_ptr.key, intf_ptr.attrs], hlatest⟩

theorem pending_of_creates (hc : c.Delivered interface_changes ds) (hcreates : c.changes.any creates = true)
    (hname : latest named "" c.changes ≠ "") :
    pending (final c w) = some (latest named "" c.changes,
      ethernet (latest enabled c.uninit.m_state c.changes)) := by
  simp [pending, final, hcreates, interface_builder.build, create_start, hname, type_of_creates hc hcreates,
    ethernet]

/-- Otherwise the call succeeds, and it touches one key of OM at most. -/
theorem verify_buildable (halive : KeepsCommitted env) (hwrites : ∀ n, env.write_rc n = .OK)
    (hsync : Synced w ds) (hc : c.Delivered interface_changes ds) (hbuildable : ¬ Unbuildable c) :
    let result := c.verify (ietf_interface_create_cb env) w
    result.outcome = .ok .SR_ERR_OK ∧
      ∃ key, ∀ name ≠ key, ∀ attrs,
        (name, .interface name attrs) ∈ result.world.om ↔ (name, .interface name attrs) ∈ w.om := by
  have hom : (final c w).world.om = w.om := by simp [final, create_start]
  rw [verify_eq_commit halive hsync hc]
  cases hpending : pending (final c w) with
  | some written =>
    obtain ⟨key, attrs⟩ := written
    obtain ⟨houtcome, hwritten, _⟩ := create_commit_written env hpending (hwrites _)
    refine ⟨houtcome, key, fun name hname otherAttrs => ?_⟩
    rw [hwritten, hom, Store.mem_write]
    simp [hname]
  | none =>
    have hcreate : (final c w).create = false := by
      by_contra hcreate
      have hcreates : c.changes.any creates = true := by
        simpa [final, create_start, hc.cleared.create] using hcreate
      rw [pending_of_creates hc hcreates fun hname => hbuildable ⟨hcreates, hname⟩] at hpending
      cases hpending
    have hmodify : (final c w).modify = false := by
      by_contra hmodify
      obtain ⟨name, hwritten, _⟩ := pending_of_modify hc.cleared hcreate (by simpa using hmodify)
      rw [hwritten] at hpending
      cases hpending
    cases hdropped : dropped (final c w) with
    | some key =>
      obtain ⟨houtcome, hremoved, _⟩ := create_commit_removed env hdropped
      refine ⟨houtcome, key, fun name hname attrs => ?_⟩
      rw [hremoved, hom, Store.mem_remove]
      simp [hname]
    | none =>
      obtain ⟨houtcome, hsame, _⟩ := create_commit_nothing env hcreate hmodify hdropped
      exact ⟨houtcome, "", fun name _ attrs => by rw [hsame.om, hom]⟩

theorem mem_changes_of_single (hc : c.Delivered interface_changes ds) {e : edit String Bool}
    (hedits : c.edits = [e]) {change : change_t} : change ∈ c.changes ↔ change ∈ interface_changes e := by
  simp [hc.mem_iff, hedits]

/-- Without modifications no instance moves before the write. -/
theorem final_instances (hsets : ∀ change ∈ c.changes, sets change = none) :
    (final c w).world.instances = w.instances := by
  funext name
  have hlatest : latest (setsOf name) (w.instances name).state c.changes = (w.instances name).state :=
    latest_eq_self fun change hmem state hset => by simp [setsOf, hsets change hmem] at hset
  simp [final, foldl_advance_instances, create_start, hlatest]

section created

variable {name : String} {enabled : Bool}

theorem creates_of_created (hc : c.Delivered interface_changes ds)
    (hedits : c.edits = [.created name enabled]) : c.changes.any creates = true := by
  have hleaf : .created (name_leaf name) ∈ c.changes := by
    simp [mem_changes_of_single hc hedits, interface_changes, interface_entry]
  exact List.any_eq_true.mpr ⟨_, hleaf, by simp [creates, name_leaf]⟩

theorem named_of_created (hc : c.Delivered interface_changes ds)
    (hedits : c.edits = [.created name enabled]) : latest named "" c.changes = name := by
  apply latest_eq_of_forall
  · refine ⟨.created (name_leaf name), ?_, by simp [named, name_leaf]⟩
    simp [mem_changes_of_single hc hedits, interface_changes, interface_entry]
  · simp only [mem_changes_of_single hc hedits]
    simp [interface_changes, interface_entry, named, name_leaf, type_leaf, enabled_leaf]

theorem enabled_of_created (hc : c.Delivered interface_changes ds)
    (hedits : c.edits = [.created name enabled]) :
    latest ietf_interface.enabled c.uninit.m_state c.changes = enabled := by
  apply latest_eq_of_forall
  · refine ⟨.created (enabled_leaf name enabled), ?_, by simp [ietf_interface.enabled, enabled_leaf]⟩
    simp [mem_changes_of_single hc hedits, interface_changes, interface_entry]
  · simp only [mem_changes_of_single hc hedits]
    simp [interface_changes, interface_entry, ietf_interface.enabled, name_leaf, type_leaf, enabled_leaf]

theorem sets_of_created (hc : c.Delivered interface_changes ds)
    (hedits : c.edits = [.created name enabled]) : ∀ change ∈ c.changes, sets change = none := by
  simp only [mem_changes_of_single hc hedits]
  simp [interface_changes, interface_entry, sets]

end created

section deleted

variable {name : String} {enabled : Bool}

theorem dropped_of_deleted (hc : c.Delivered interface_changes ds)
    (hedits : c.edits = [.deleted name enabled]) : dropped (final c w) = some name := by
  have hmem : ∀ {change : change_t}, change ∈ c.changes ↔ change ∈ interface_changes (.deleted name enabled) :=
    mem_changes_of_single hc hedits
  have hcreates : c.changes.any creates = false := by
    simp [hmem, interface_changes, interface_entry, creates]
  have hsets : (c.changes.any fun change => (sets change).isSome) = false := by
    simp [hmem, interface_changes, interface_entry, sets]
  have hremoves : c.changes.any removes = true := by
    simp [hmem, interface_changes, interface_entry, removes, name_leaf]
  have hnamed : latest named "" c.changes = name := by
    apply latest_eq_of_forall
    · refine ⟨.deleted (name_leaf name), ?_, by simp [named, name_leaf]⟩
      simp [hmem, interface_changes, interface_entry]
    · simp only [hmem]
      simp [interface_changes, interface_entry, named, name_leaf, type_leaf, enabled_leaf]
  simp [dropped, final, create_start, hcreates, hsets, hremoves, hnamed, hc.cleared.create, hc.cleared.modify]

theorem sets_of_deleted (hc : c.Delivered interface_changes ds)
    (hedits : c.edits = [.deleted name enabled]) : ∀ change ∈ c.changes, sets change = none := by
  simp only [mem_changes_of_single hc hedits]
  simp [interface_changes, interface_entry, sets]

end deleted

section modified

variable {name : String} {old new : Bool}

theorem changes_of_modified (hc : c.Delivered interface_changes ds)
    (hedits : c.edits = [.modified name old new]) :
    c.changes = [.modified (enabled_leaf name old) (enabled_leaf name new)] := by
  have hdelivers := hc.delivers
  rw [hedits] at hdelivers
  exact List.perm_singleton.mp hdelivers

/-- The shared instance has taken the new state when the write reads it. -/
theorem pending_of_modified (hsync : Synced w ds) (hc : c.Delivered interface_changes ds)
    (hedits : c.edits = [.modified name old new]) :
    pending (final c w) = some (name, ethernet new) ∧
      (final c w).world.instances = Function.update w.instances name (ethernet new) := by
  have hold : ds name = some old := (hc.commits.applies (.modified name old new) (by simp [hedits])).1
  have htype : (w.instances name).type = "ETHERNET" := hsync.shared name (by simp [hold])
  have hinstances : (final c w).world.instances = Function.update w.instances name (ethernet new) := by
    funext other
    rw [final, changes_of_modified hc hedits, foldl_advance_instances]
    by_cases hother : name = other
    · subst hother
      simp [create_start, setsOf, sets, enabled_leaf, ethernet, htype]
    · have hother' : other ≠ name := fun h => hother h.symm
      simp [create_start, setsOf, sets, enabled_leaf, hother, hother']
  refine ⟨?_, hinstances⟩
  have hcreate : (final c w).create = false := by
    rw [final, foldl_advance_create, changes_of_modified hc hedits]
    simp [create_start, hc.cleared.create, creates]
  have hmodify : (final c w).modify = true := by
    rw [final, foldl_advance_modify, changes_of_modified hc hedits]
    simp [sets, enabled_leaf]
  have hlatest : latest points none c.changes = some (.found name) := by
    simp [changes_of_modified hc hedits, points, sets, enabled_leaf]
  obtain ⟨found, hpending, hfound⟩ := pending_of_modify hc.cleared hcreate hmodify
  obtain rfl : found = name := by simpa [hlatest, eq_comm] using hfound
  simp [hpending, hinstances]

end modified

/-- A commit of one edit that can be built is carried over exactly. -/
theorem inSync_of_single (halive : KeepsCommitted env) (hwrites : ∀ n, env.write_rc n = .OK)
    (hsync : Synced w ds) (hc : c.Delivered interface_changes ds) {e : edit String Bool}
    (hedits : c.edits = [e]) (hbuildable : ¬ Unbuildable c) : InSync env (w, ds) c := by
  have hom : (final c w).world.om = w.om := by simp [final, create_start]
  simp only [InSync, verify_eq_commit halive hsync hc, hedits]
  intro _
  cases e with
  | created name enabled =>
    have hname : name ≠ "" := fun hempty =>
      hbuildable ⟨creates_of_created hc hedits, (named_of_created hc hedits).trans hempty⟩
    have hpending := pending_of_creates (w := w) hc (creates_of_created hc hedits)
      (by rwa [named_of_created hc hedits])
    rw [named_of_created hc hedits, enabled_of_created hc hedits] at hpending
    obtain ⟨_, hwritten, hpublished, _⟩ := create_commit_written env hpending (hwrites _)
    rw [hom] at hwritten
    rw [final_instances (sets_of_created hc hedits)] at hpublished
    refine ⟨hsync.write hwritten hpublished, fun other hother => ?_⟩
    rw [hpublished, Function.update_of_ne (by simpa using hother)]
  | deleted name enabled =>
    obtain ⟨_, hremoved, hinstances, _⟩ := create_commit_removed env (dropped_of_deleted (w := w) hc hedits)
    rw [hom] at hremoved
    rw [final_instances (sets_of_deleted hc hedits)] at hinstances
    exact ⟨hsync.remove hremoved hinstances, fun other _ => by rw [hinstances]⟩
  | modified name old new =>
    obtain ⟨hpending, hset⟩ := pending_of_modified hsync hc hedits
    obtain ⟨_, hwritten, hpublished, _⟩ := create_commit_written env hpending (hwrites _)
    rw [hom] at hwritten
    rw [hset, Function.update_idem] at hpublished
    refine ⟨hsync.write hwritten hpublished, fun other hother => ?_⟩
    rw [hpublished, Function.update_of_ne (by simpa using hother)]

/-- A commit without edits is a call without changes. -/
theorem inSync_of_empty (halive : KeepsCommitted env) (hsync : Synced w ds)
    (hc : c.Delivered interface_changes ds) (hedits : c.edits = []) : InSync env (w, ds) c := by
  have hchanges : c.changes = [] := by
    have hdelivers := hc.delivers
    rw [hedits] at hdelivers
    exact List.perm_nil.mp hdelivers
  have hfinal : final c w = create_start c.uninit w := by rw [final, hchanges, List.foldl_nil]
  obtain ⟨_, hsame, _⟩ := create_commit_nothing env (l := create_start c.uninit w)
    hc.cleared.create hc.cleared.modify (by simp [dropped, create_start, hc.cleared.remove])
  simp only [InSync, verify_eq_commit halive hsync hc, hedits, hfinal]
  exact fun _ => ⟨⟨by rw [hsame.om]; exact hsync.held, by rw [hsame.instances]; exact hsync.shared⟩,
    fun name _ => by rw [hsame.instances]; rfl⟩

end sweetcomb.ietf_interface
