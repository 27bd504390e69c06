import Sweetcomb.Configuration

open datastore keyed_store loop sweetcomb.ietf_interface

namespace sweetcomb

variable {env : Env} {w after : World} {h : holding_t} {name : String} {enabled old new : Bool}

/-- A configured interface is one object of OM, in whatever state. -/
theorem interface_ident (h : holding_t) (name : String) (attrs : interface_attrs) :
    ∀ before, h.held (.interface name) = some before →
      before.singular = object.singular (.interface name attrs) := by
  intro before hbefore
  obtain ⟨value, -, rfl⟩ := Option.map_eq_some_iff.mp hbefore
  rfl

theorem Realises.interface_written (hreal : Realises env w h) (hplain : Plain env.text name)
    (hom : after.om = w.om.write object.singular name (.interface name (ethernet enabled)))
    (hinstances : after.instances = Function.update w.instances name (ethernet enabled))
    (htable : after.static_mapping_table = w.static_mapping_table) :
    Realises env after
      { h with cfg := { h.cfg with interfaces := Function.update h.cfg.interfaces name (some enabled) } } where
  om := by
    have halone : Alone (configured_t.key env.text) h.held (.interface name) := hreal.alone hplain
    rw [hom, held_interface]
    exact hreal.om.write halone (interface_ident h name _)
  shared := by
    intro other hsome
    rw [hinstances]
    by_cases hother : other = name
    · subst hother
      simp [ethernet]
    · rw [Function.update_of_ne hother]
      exact hreal.shared other (by simpa [hother] using hsome)
  table := by rw [htable]; exact hreal.table
  plain := by
    intro other hsome
    by_cases hother : other = name
    · rw [hother]
      exact hplain
    · exact hreal.plain other (by simpa [hother] using hsome)
  configured := hreal.configured

theorem Realises.interface_removed (hreal : Realises env w h) (hplain : Plain env.text name)
    (hom : after.om = w.om.remove name) (hinstances : after.instances = w.instances)
    (htable : after.static_mapping_table = w.static_mapping_table) :
    Realises env after { h with cfg := { h.cfg with interfaces := Function.update h.cfg.interfaces name none } } where
  om := by
    have halone : Alone (configured_t.key env.text) h.held (.interface name) := hreal.alone hplain
    rw [hom, held_interface]
    exact hreal.om.remove halone
  shared := by
    intro other hsome
    rw [hinstances]
    by_cases hother : other = name
    · subst hother
      simp at hsome
    · exact hreal.shared other (by simpa [hother] using hsome)
  table := by rw [htable]; exact hreal.table
  plain := by
    intro other hsome
    by_cases hother : other = name
    · rw [hother]
      exact hplain
    · exact hreal.plain other (by simpa [hother] using hsome)
  configured := hreal.configured

theorem Realises.synced (hreal : Realises env w h) : Synced w h.cfg.interfaces where
  held := by
    intro key name attrs
    rw [hreal.om]
    constructor
    · rintro ⟨item, hkey, hheld⟩
      cases item with
      | interface other =>
        obtain ⟨value, hvalue, hobj⟩ := Option.map_eq_some_iff.mp hheld
        obtain ⟨rfl, rfl⟩ := object.interface.inj hobj
        exact ⟨hkey.symm, by rw [hvalue]; rfl⟩
      | binding itf pfx => cases ((held_binding_eq_some h).mp hheld).1
      | mapping id index =>
        obtain ⟨mapping, -, hobj⟩ := Option.map_eq_some_iff.mp (Option.ite_none_right_eq_some.mp hheld).2
        cases hobj
    · rintro ⟨rfl, hheld⟩
      obtain ⟨value, hvalue, rfl⟩ := Option.map_eq_some_iff.mp hheld
      exact ⟨.interface key, rfl, by simp [hvalue]⟩
  shared := hreal.shared

theorem Env.Counts.keepsCommitted (hcounts : env.Counts) : KeepsCommitted env :=
  fun om name _ hmem => (hcounts om name).mpr ⟨_, hmem, by simp [object.keeps]⟩

section single

variable {ds : Datastore String Bool} {c : commit_t String Bool} (hc : c.Delivered interface_changes ds)
  (haccepts : ∀ change ∈ c.changes, accepts env w.om change = true)

include hc haccepts

omit hc in
theorem verify_of_accepts :
    c.verify (ietf_interface_create_cb env) w = create_leave (create_commit env (final c w)) :=
  (create_cb_verify env c.uninit c.changes w).trans (create_run_accepted env _ haccepts)

omit haccepts in
/-- The changes of one edit are accepted, if VOM finds the interface that is
    modified. -/
theorem accepts_of_single {e : edit String Bool} (hedits : c.edits = [e])
    (halive : e.modifies = true → env.alive w.om e.key = true) :
    ∀ change ∈ c.changes, accepts env w.om change = true := by
  intro change hmem
  have hchange := (mem_changes_of_single hc hedits).mp hmem
  cases e with
  | created name enabled =>
    obtain ⟨value, -, rfl⟩ := List.mem_map.mp hchange
    rfl
  | deleted name enabled =>
    obtain ⟨value, -, rfl⟩ := List.mem_map.mp hchange
    rfl
  | modified name old new =>
    obtain rfl := List.mem_singleton.mp hchange
    have hfound : env.alive w.om name = true := halive rfl
    simp [accepts, enabled_leaf, hfound]

theorem interface_written_of_created (hwrites : ∀ n, env.write_rc n = .OK) (hedits : c.edits = [.created name enabled])
    (hname : name ≠ "") :
    let result := c.verify (ietf_interface_create_cb env) w
    result.outcome = .ok .SR_ERR_OK ∧
      result.world.om = w.om.write object.singular name (.interface name (ethernet enabled)) ∧
      result.world.instances = Function.update w.instances name (ethernet enabled) ∧
      result.world.static_mapping_table = w.static_mapping_table := by
  have hpending := pending_of_creates (w := w) hc (creates_of_created hc hedits)
    (by rw [named_of_created hc hedits]; exact hname)
  rw [named_of_created hc hedits, enabled_of_created hc hedits] at hpending
  obtain ⟨houtcome, hwritten, hpublished, hkept, -⟩ := create_commit_written env hpending (hwrites _)
  rw [final_instances (sets_of_created hc hedits)] at hpublished
  rw [verify_of_accepts haccepts]
  refine ⟨houtcome, ?_, hpublished, ?_⟩
  · rw [hwritten]
    simp [final, create_start]
  · rw [hkept]
    simp [final, create_start]

theorem interface_written_of_modified (hsync : Synced w ds) (hwrites : ∀ n, env.write_rc n = .OK)
    (hedits : c.edits = [.modified name old new]) :
    let result := c.verify (ietf_interface_create_cb env) w
    result.outcome = .ok .SR_ERR_OK ∧
      result.world.om = w.om.write object.singular name (.interface name (ethernet new)) ∧
      result.world.instances = Function.update w.instances name (ethernet new) ∧
      result.world.static_mapping_table = w.static_mapping_table := by
  obtain ⟨hpending, hset⟩ := pending_of_modified hsync hc hedits
  obtain ⟨houtcome, hwritten, hpublished, hkept, -⟩ := create_commit_written env hpending (hwrites _)
  rw [hset, Function.update_idem] at hpublished
  rw [verify_of_accepts haccepts]
  refine ⟨houtcome, ?_, hpublished, ?_⟩
  · rw [hwritten]
    simp [final, create_start]
  · rw [hkept]
    simp [final, create_start]

/-- Whatever the instance is, a modified interface is written under its name. -/
theorem interface_set_of_modified (hwrites : ∀ n, env.write_rc n = .OK) (hedits : c.edits = [.modified name old new]) :
    let result := c.verify (ietf_interface_create_cb env) w
    result.outcome = .ok .SR_ERR_OK ∧
      ∃ attrs, result.world.om = w.om.write object.singular name (.interface name attrs) := by
  have hchanges := changes_of_modified hc hedits
  have hcreate : (final c w).create = false := by
    rw [final, foldl_advance_create, hchanges]
    simp [create_start, hc.cleared.create, creates]
  have hmodify : (final c w).modify = true := by
    rw [final, foldl_advance_modify, hchanges]
    simp [sets, enabled_leaf]
  obtain ⟨found, hpending, hfound⟩ := pending_of_modify hc.cleared hcreate hmodify
  obtain rfl : found = name := by simpa [hchanges, points, sets, enabled_leaf, eq_comm] using hfound
  obtain ⟨houtcome, hwritten, -⟩ := create_commit_written env hpending (hwrites _)
  rw [verify_of_accepts haccepts]
  refine ⟨houtcome, (final c w).world.instances found, ?_⟩
  rw [hwritten]
  simp [final, create_start]

theorem interface_removed_of_deleted (hedits : c.edits = [.deleted name enabled]) :
    let result := c.verify (ietf_interface_create_cb env) w
    result.outcome = .ok .SR_ERR_OK ∧ result.world.om = w.om.remove name ∧
      result.world.instances = w.instances ∧ result.world.static_mapping_table = w.static_mapping_table := by
  obtain ⟨houtcome, hremoved, hinstances, htable, -⟩ :=
    create_commit_removed env (dropped_of_deleted (w := w) hc hedits)
  rw [verify_of_accepts haccepts]
  refine ⟨houtcome, ?_, ?_, ?_⟩
  · rw [hremoved]
    simp [final, create_start]
  · rw [hinstances, final_instances (sets_of_deleted hc hedits)]
  · rw [htable]
    simp [final, create_start]

end single

/-- The interface callback does what an edit of one interface asks for. -/
theorem interface_refines (hcounts : env.Counts) (hwrites : ∀ n, env.write_rc n = .OK) (hreal : Realises env w h)
    {c : commit_t String Bool} {e : edit String Bool} (hedits : c.edits = [e])
    (hc : c.Delivered interface_changes h.cfg.interfaces) (hplain : Plain env.text e.key) (hname : e.key ≠ "") :
    Refines env h (.interface e) (c.verify (ietf_interface_create_cb env) w) := by
  have haccepts := accepts_of_delivered hcounts.keepsCommitted hreal.synced hc
  cases e with
  | created name enabled =>
    obtain ⟨houtcome, hom, hinstances, htable⟩ := interface_written_of_created hc haccepts hwrites hedits hname
    exact refines_of_admitted trivial trivial houtcome (hreal.interface_written hplain hom hinstances htable)
  | modified name old new =>
    obtain ⟨houtcome, hom, hinstances, htable⟩ :=
      interface_written_of_modified hc haccepts hreal.synced hwrites hedits
    exact refines_of_admitted trivial trivial houtcome (hreal.interface_written hplain hom hinstances htable)
  | deleted name enabled =>
    obtain ⟨houtcome, hom, hinstances, htable⟩ := interface_removed_of_deleted hc haccepts hedits
    exact refines_of_admitted trivial trivial houtcome (hreal.interface_removed hplain hom hinstances htable)

section addresses

variable (env) (e : address_edit)

theorem quiet_of_address (om : Om) : ∀ change ∈ address_changes env.text e,
    accepts env om change = true ∧ creates change = false ∧ removes change = false ∧ sets change = none := by
  have hleaf (entry : String × address) (leaf : leaf_t) (node : String) (hnode : node = "name" ∨ node = "enabled") :
      sr_xpath_node_name_eq (leaf.val env.text entry).xpath node = false := by
    rcases hnode with rfl | rfl <;> cases leaf <;> simp [leaf_t.val, address_node, sr_xpath_node_name_eq]
  intro change hmem
  obtain ⟨leaf, -, rfl⟩ := List.mem_map.mp hmem
  generalize e.key = entry
  cases leaf <;> simp [leaf_change.change, accepts, creates, removes, sets, hleaf]

/-- The interface callback is called with the changes of an address as well, which
    is below an interface. It does nothing about them. -/
theorem create_cb_of_address {uninit : Uninit} (hcleared : uninit.Cleared) (w : World) :
    let result := ietf_interface_create_cb env uninit (verify (address_changes env.text e)) w
    result.outcome = .ok .SR_ERR_OK ∧ result.world.Same w := by
  have hquiet := quiet_of_address env e w.om
  have hcreates : (address_changes env.text e).any creates = false := by
    simpa using fun change hmem => (hquiet change hmem).2.1
  have hremoves : (address_changes env.text e).any removes = false := by
    simpa using fun change hmem => (hquiet change hmem).2.2.1
  have hsets : ((address_changes env.text e).any fun change => (sets change).isSome) = false := by
    simpa using fun change hmem => (hquiet change hmem).2.2.2
  have hinstances : ((address_changes env.text e).foldl advance (create_start uninit w)).world.instances =
      w.instances := by
    funext name
    have hlatest : latest (setsOf name) (w.instances name).state (address_changes env.text e) =
        (w.instances name).state := by
      refine latest_eq_self fun change hmem state hset => ?_
      simp [setsOf, (hquiet change hmem).2.2.2] at hset
    simp [foldl_advance_instances, create_start, hlatest]
  rw [create_cb_verify, create_run_accepted env _ fun change hmem => (hquiet change hmem).1]
  obtain ⟨houtcome, hsame, -⟩ := create_commit_nothing env
    (l := (address_changes env.text e).foldl advance (create_start uninit w))
    (by simp [hcreates, create_start, hcleared.create]) (by simp [hsets, create_start, hcleared.modify])
    (by simp [dropped, hcreates, hremoves, hsets, create_start, hcleared.remove])
  exact ⟨houtcome, hsame.trans ⟨by simp [create_start], hinstances, by simp [create_start]⟩⟩

end addresses

end sweetcomb
