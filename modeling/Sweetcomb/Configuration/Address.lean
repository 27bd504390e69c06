import Sweetcomb.Configuration
import Sweetcomb.Ietf.Address.Failures

open datastore keyed_store sweetcomb.ietf_interface

namespace sweetcomb

variable {env : Env} {w after : World} {h : holding_t} {entry : String × address} {len : UInt8}

/-- The request for the binding of an address with a prefix length. -/
def entry_request (text : AddressText) (entry : String × address) (pfx_len : UInt8) (add : Bool) : request_t where
  if_name := entry.1
  addr := text.to_string entry.2
  pfx_len
  add

section requests

variable (env) (hname : entry.1 ≠ "") (len)

include hname

/-- A created address is requested after the leaf `ip`, with the length zero, and
    again after the leaf `prefix-length`. -/
theorem requests_of_created : requests env {} (address_changes env.text (.created entry len)) =
    [entry_request env.text entry 0 true, entry_request env.text entry len true] := by
  simp [requests, overflows, floods, address_changes, leaves_of, leaf_change.change, if_name_of, hname,
    memory_t.read, memory_t.read_new, parse_interface_ipv46_address, leaf_t.val, address_node, sr_xpath_node_name_eq,
    sr_xpath_key_value, memory_t.requests, memory_t.del_requests, memory_t.create_requests,
    env.text.to_string_ne_empty, entry_request]

theorem requests_of_deleted : requests env {} (address_changes env.text (.deleted entry len)) =
    [entry_request env.text entry 0 false, entry_request env.text entry len false] := by
  simp [requests, overflows, floods, address_changes, leaves_of, leaf_change.change, if_name_of, hname,
    memory_t.read, memory_t.read_old, parse_interface_ipv46_address, leaf_t.val, address_node, sr_xpath_node_name_eq,
    sr_xpath_key_value, memory_t.requests, memory_t.del_requests, memory_t.create_requests,
    env.text.to_string_ne_empty, entry_request]

/-- A modified prefix length comes without its address, and nothing is
    requested. -/
theorem requests_of_modified (old new : UInt8) :
    requests env {} (address_changes env.text (.modified entry old new)) = [] := by
  simp [requests, overflows, floods, throws, address_changes, leaves_of, leaf_change.change, if_name_of, hname,
    memory_t.read, memory_t.read_old, memory_t.read_new, parse_interface_ipv46_address, leaf_t.val, address_node,
    sr_xpath_node_name_eq, sr_xpath_key_value, memory_t.requests, memory_t.del_requests, memory_t.create_requests]

end requests

section served

variable (state : Om × Nat) (len)

theorem serve_missing (add : Bool) (hmissing : env.alive state.1 entry.1 = false) :
    (entry_request env.text entry len add).operation env state = none ∧
      (entry_request env.text entry len add).serve env state = state := by
  simp [request_t.serve, request_t.operation, request_t.reaches, entry_request, hmissing]

theorem serve_added (halive : env.alive state.1 entry.1 = true) (hwrites : ∀ n, env.write_rc n = .OK) :
    ((entry_request env.text entry len true).operation env state).isSome = true ∧
      ((entry_request env.text entry len true).serve env state).1 =
        state.1.write object.singular ((binding_of entry len).key env.text) (.l3_binding entry.1 ⟨entry.2, len⟩) := by
  simp [request_t.serve, request_t.operation, request_t.reaches, entry_request, make_to_string, halive, hwrites,
    Operation.apply, configured_t.key]

theorem serve_deleted (halive : env.alive state.1 entry.1 = true) :
    ((entry_request env.text entry len false).operation env state).isSome = true ∧
      ((entry_request env.text entry len false).serve env state).1 =
        state.1.remove ((binding_of entry len).key env.text) := by
  simp [request_t.serve, request_t.operation, request_t.reaches, entry_request, make_to_string, halive,
    Operation.apply, configured_t.key]

end served

section call

theorem if_name_of_entry (text : AddressText) (e : address_edit) :
    ∀ change ∈ address_changes text e, if_name_of change = some e.key.1 := by
  intro change hmem
  cases e <;>
    · simp only [address_changes, leaves_of, List.map_cons, List.map_nil, List.mem_cons, List.not_mem_nil,
        or_false] at hmem
      rcases hmem with rfl | rfl | rfl <;> simp [if_name_of, leaf_change.change]

/-- Prefix lengths are delivered, and no netmask. -/
theorem overflows_entry (env : Env) (e : address_edit) :
    ∀ change ∈ address_changes env.text e, overflows env change = false := by
  have hfloods (entry : String × address) (leaf : leaf_t) : floods env (leaf.val env.text entry) = false := by
    have hparse := parse_leaf env 0 entry leaf {}
    simp only [side_t.text, Option.map_none, Option.getD_none] at hparse
    rw [floods, hparse]
  intro change hmem
  cases e <;>
    · simp only [address_changes, leaves_of, List.map_cons, List.map_nil, List.mem_cons, List.not_mem_nil,
        or_false] at hmem
      rcases hmem with rfl | rfl | rfl <;> simp [overflows, leaf_change.change, hfloods]

/-- The call of the address callback for one edit. -/
abbrev address_verify (env : Env) (e : address_edit) (w : World) : cb_result :=
  ietf_interface_ipv46_address_change_cb env (verify (address_changes env.text e)) w

theorem address_verify_eq (e : address_edit) (w : World) : address_verify env e w =
    address_leave ((address_changes env.text e).foldlM (address_round env) { iter := .obtained, world := w }) := by
  simp [address_verify, ietf_interface_ipv46_address_change_cb]

/-- The call serves its requests, and succeeds exactly when the last of them is
    carried out or there is none. -/
theorem address_verify_served (env : Env) (w : World) {e : address_edit} (hname : e.key.1 ≠ "") :
    let rs := requests env {} (address_changes env.text e)
    ((address_verify env e w).outcome = .ok .SR_ERR_OK ↔
      (carried env (w.om, w.writes) rs).getLast?.getD true = true) ∧
      Served w (rs.foldl (request_t.serve env) (w.om, w.writes)) (address_verify env e w).world := by
  have hproceeds : ∀ change ∈ address_changes env.text e, proceeds env change = true := fun change hmem =>
    proceeds_iff.mpr ⟨e.key.1, if_name_of_entry env.text e change hmem, hname, overflows_entry env e change hmem⟩
  have hnone : (address_changes env.text e).find? (fun change => !proceeds env change) = none :=
    loop.find_rejected_none hproceeds
  rw [address_verify_eq]
  refine ⟨?_, foldlM_served env { iter := .obtained, world := w } _⟩
  rw [address_run_outcome, hnone]
  simp only [Except.ok.injEq]
  rw [← codes_carried, List.getLast?_map]
  have hmemory : ({ iter := .obtained, world := w } : address_locals).memory = {} := rfl
  rw [hmemory]
  cases (codes env w (requests env {} (address_changes env.text e))).getLast? <;> simp

/-- An entry without a name of its interface ends the call. -/
theorem address_verify_unnamed (env : Env) (w : World) (e : address_edit) (hname : e.key.1 = "") :
    (address_verify env e w).outcome ≠ .ok .SR_ERR_OK ∧ (address_verify env e w).world.Same w := by
  have hunnamed := @foldlM_unnamed env { iter := .obtained, world := w } e hname []
  rw [List.append_nil, ← address_verify_eq] at hunnamed
  have hnothing : requests env {} (address_changes env.text e) = [] := by
    cases hchanges : address_changes env.text e with
    | nil => rfl
    | cons change changes =>
      have hfirst : if_name_of change = some e.key.1 :=
        if_name_of_entry env.text e change (by simp [hchanges])
      rw [hname] at hfirst
      simp [requests, hfirst]
  have hserved := foldlM_served env { iter := .obtained, world := w } (address_changes env.text e)
  have hmemory : ({ iter := .obtained, world := w } : address_locals).memory = {} := rfl
  rw [hmemory, hnothing, ← address_verify_eq] at hserved
  exact ⟨hunnamed, hserved.om, hserved.instances, hserved.table⟩

end call

/-- With everything else as it was, OM decides what a state realises. -/
theorem Realises.bound {state : Om × Nat} (hreal : Realises env w h) (hserved : Served w state after)
    {e : address_edit} (hom : state.1.Renders (configured_t.key env.text) ((config_edit_t.address e).take h).held)
    (hconfigured : ∀ entry ∈ (config_edit_t.address e).leave h.stale, (e.apply h.cfg.addresses entry).isSome) :
    Realises env after ((config_edit_t.address e).take h) where
  om := by rw [hserved.om]; exact hom
  shared := by rw [hserved.instances]; exact hreal.shared
  table := by rw [hserved.table]; exact hreal.table
  plain := hreal.plain
  configured := hconfigured

theorem Realises.configured_created (hreal : Realises env w h) (entry : String × address) (len : UInt8) :
    ∀ other ∈ (config_edit_t.address (.created entry len)).leave h.stale,
      ((edit.created entry len).apply h.cfg.addresses other).isSome := by
  rintro other (rfl | hother)
  · simp [edit.apply]
  · by_cases hsame : other = entry
    · simp [edit.apply, hsame]
    · simpa [edit.apply, hsame] using hreal.configured other hother

theorem Realises.configured_deleted (hreal : Realises env w h) (entry : String × address) (len : UInt8) :
    ∀ other ∈ (config_edit_t.address (.deleted entry len)).leave h.stale,
      ((edit.deleted entry len).apply h.cfg.addresses other).isSome := by
  rintro other ⟨hother, hdistinct⟩
  have hsame : other ≠ entry := hdistinct
  simpa [edit.apply, hsame] using hreal.configured other hother

/-- The bindings of an address tell its prefix length. -/
theorem held_modified_ne {old new : UInt8} (hheld : h.cfg.addresses entry = some old) (hchange : old ≠ new) :
    h.held ≠ ((config_edit_t.address (.modified entry old new)).take h).held := by
  intro hsame
  have hold := congrFun hsame (binding_of entry old)
  have hnew := congrFun hsame (binding_of entry new)
  have hmodified : ((config_edit_t.address (.modified entry old new)).take h).cfg.addresses entry = some new := by
    simp [config_edit_t.take, config_edit_t.apply, edit.apply]
  rw [held_address hheld] at hold
  rw [held_address hmodified] at hnew
  obtain ⟨-, hlen | ⟨hzero, -⟩⟩ := (held_binding_eq_some _).mp hold.symm
  · exact hchange (Option.some.inj (hlen.symm.trans hmodified))
  · obtain ⟨-, hlen | ⟨hzero', -⟩⟩ := (held_binding_eq_some _).mp hnew
    · exact hchange (Option.some.inj (hheld.symm.trans hlen))
    · have hold_zero : old = 0 := hzero
      have hnew_zero : new = 0 := hzero'
      exact hchange (hold_zero.trans hnew_zero.symm)

section refines

variable (hcounts : env.Counts) (hreal : Realises env w h)

include hcounts hreal

theorem created_refines (hwrites : ∀ n, env.write_rc n = .OK) (hfresh : h.cfg.addresses entry = none) :
    Refines env h (.address (.created entry len)) (address_verify env (.created entry len) w) := by
  by_cases hname : entry.1 = ""
  · obtain ⟨hrefused, hsame⟩ := address_verify_unnamed env w (.created entry len) hname
    exact refines_of_refused (fun hadmitted => hadmitted.1 hname) trivial hrefused (hreal.of_same hsame)
  obtain ⟨hagrees, hserved⟩ := address_verify_served env w (e := .created entry len) hname
  rw [requests_of_created env len hname] at hagrees hserved
  by_cases hpresent : h.cfg.Present entry.1
  · have halive : env.alive w.om entry.1 = true := (hreal.alive_iff hcounts entry.1).mpr hpresent
    obtain ⟨-, hzero⟩ := serve_added 0 (w.om, w.writes) halive hwrites
    have hitem (len : UInt8) : Fit env.text (binding_of entry len) := trivial
    have hfirst : ((entry_request env.text entry 0 true).serve env (w.om, w.writes)).1.Renders
        (configured_t.key env.text)
        (Function.update h.held (binding_of entry 0) (some (.l3_binding entry.1 ⟨entry.2, 0⟩))) := by
      have hnone : ∀ before, h.held (binding_of entry 0) = some before →
          before.singular = object.singular (.l3_binding entry.1 ⟨entry.2, 0⟩) := by
        intro before hbefore
        obtain ⟨rfl, -⟩ := (held_binding_eq_some h).mp hbefore
        rfl
      rw [hzero]
      exact hreal.om.write (hreal.alone (hitem 0)) hnone
    have hstill : env.alive ((entry_request env.text entry 0 true).serve env (w.om, w.writes)).1 entry.1 = true :=
      (hcounts _ _).mpr ⟨_, hfirst.mem (Function.update_self ..), by simp [object.keeps]⟩
    obtain ⟨hdone, hwritten⟩ := serve_added len _ hstill hwrites
    have hbound : ((entry_request env.text entry len true).serve env
        ((entry_request env.text entry 0 true).serve env (w.om, w.writes))).1.Renders (configured_t.key env.text)
        ((config_edit_t.address (.created entry len)).take h).held := by
      rw [hwritten, held_created h hfresh len]
      refine hfirst.write (alone_of_fit ?_ (hitem len)) ?_
      · intro item hheld
        by_cases hzero : item = binding_of entry 0
        · rw [hzero]
          exact hitem 0
        · rw [Function.update_of_ne hzero] at hheld
          exact hreal.fit_of_held hheld
      · intro before hbefore
        by_cases hzero : len = 0
        · subst hzero
          rw [Function.update_self] at hbefore
          rw [Option.some.inj hbefore]
        · rw [Function.update_of_ne (by simp [hzero])] at hbefore
          obtain ⟨rfl, -⟩ := (held_binding_eq_some h).mp hbefore
          rfl
    refine refines_of_admitted ⟨hname, hpresent⟩ trivial (hagrees.mpr ?_)
      (hreal.bound hserved hbound (hreal.configured_created entry len))
    simpa [carried] using hdone
  · have hmissing : env.alive w.om entry.1 = false := by
      rw [← Bool.not_eq_true, hreal.alive_iff hcounts]
      exact hpresent
    obtain ⟨-, hzero⟩ := serve_missing 0 (w.om, w.writes) true hmissing
    obtain ⟨hundone, hnothing⟩ := serve_missing len (w.om, w.writes) true hmissing
    rw [List.foldl_cons, List.foldl_cons, List.foldl_nil, hzero, hnothing] at hserved
    refine refines_of_refused (fun hadmitted => hpresent hadmitted.2) trivial ?_
      (hreal.of_same ⟨hserved.om, hserved.instances, hserved.table⟩)
    rw [ne_eq, hagrees]
    simp [carried, hzero, hundone]

omit hcounts in
/-- The deletion with the length zero comes first. -/
theorem deleted_first (halive : env.alive w.om entry.1 = true) :
    ((entry_request env.text entry 0 false).serve env (w.om, w.writes)).1.Renders (configured_t.key env.text)
      (Function.update h.held (binding_of entry 0) none) := by
  obtain ⟨-, hzero⟩ := serve_deleted 0 (w.om, w.writes) halive
  have hitem : Fit env.text (binding_of entry 0) := trivial
  rw [hzero]
  exact hreal.om.remove (hreal.alone hitem)

/-- The second deletion finds the interface unless the first, which was of the
    same binding, has taken the last of what kept it. -/
theorem deleted_alive_iff (hheld : h.cfg.addresses entry = some len) (halive : env.alive w.om entry.1 = true) :
    env.alive ((entry_request env.text entry 0 false).serve env (w.om, w.writes)).1 entry.1 = true ↔
      (len = 0 → { h.cfg with addresses := Function.update h.cfg.addresses entry none }.Present entry.1) := by
  have hfirst := deleted_first hreal halive
  by_cases hlen : len = 0
  · subst hlen
    rw [forall_prop_of_true rfl]
    have hdeleted := held_deleted h hheld
    rw [Function.update_idem] at hdeleted
    rw [← hdeleted] at hfirst
    have hafter : Realises env { w with om := ((entry_request env.text entry 0 false).serve env (w.om, w.writes)).1 }
        ((config_edit_t.address (.deleted entry 0)).take h) :=
      ⟨hfirst, hreal.shared, hreal.table, hreal.plain, hreal.configured_deleted entry 0⟩
    exact hafter.alive_iff hcounts entry.1
  · refine iff_of_true ((hcounts _ _).mpr ?_) (fun hzero => absurd hzero hlen)
    have hleft : Function.update h.held (binding_of entry 0) none (binding_of entry len) =
        some (.l3_binding entry.1 ⟨entry.2, len⟩) := by
      rw [Function.update_of_ne (by simp [hlen]), held_address hheld]
    exact ⟨_, hfirst.mem hleft, by simp [object.keeps]⟩

theorem deleted_refines (hheld : h.cfg.addresses entry = some len) :
    Refines env h (.address (.deleted entry len)) (address_verify env (.deleted entry len) w) := by
  by_cases hname : entry.1 = ""
  · obtain ⟨hrefused, hsame⟩ := address_verify_unnamed env w (.deleted entry len) hname
    exact refines_of_refused (fun hadmitted => hadmitted.1 hname) (fun hnamed => absurd hname hnamed) hrefused
      (hreal.of_same hsame)
  obtain ⟨hagrees, hserved⟩ := address_verify_served env w (e := .deleted entry len) hname
  rw [requests_of_deleted env len hname] at hagrees hserved
  have halive : env.alive w.om entry.1 = true :=
    (hreal.alive_iff hcounts entry.1).mpr (.inr ⟨entry.2, by simp [hheld]⟩)
  have hfirst := deleted_first hreal halive
  have hfits : ∀ item, (Function.update h.held (binding_of entry 0) none item).isSome → Fit env.text item := by
    intro item hsome
    by_cases hzero : item = binding_of entry 0
    · rw [hzero]
      trivial
    · rw [Function.update_of_ne hzero] at hsome
      exact hreal.fit_of_held hsome
  by_cases hkept : len = 0 → { h.cfg with addresses := Function.update h.cfg.addresses entry none }.Present entry.1
  · have hstill := (deleted_alive_iff hcounts hreal hheld halive).mpr hkept
    obtain ⟨hdone, hremoved⟩ := serve_deleted len _ hstill
    have hitem : Fit env.text (binding_of entry len) := trivial
    have hbound : ((entry_request env.text entry len false).serve env
        ((entry_request env.text entry 0 false).serve env (w.om, w.writes))).1.Renders (configured_t.key env.text)
        ((config_edit_t.address (.deleted entry len)).take h).held := by
      rw [hremoved, held_deleted h hheld]
      exact hfirst.remove (alone_of_fit hfits hitem)
    refine refines_of_admitted ⟨hname, hkept⟩ (fun _ => hkept) (hagrees.mpr ?_)
      (hreal.bound hserved hbound (hreal.configured_deleted entry len))
    simpa [carried] using hdone
  · -- the second request is refused, though the binding is gone
    have hmissing :
        env.alive ((entry_request env.text entry 0 false).serve env (w.om, w.writes)).1 entry.1 = false := by
      rw [← Bool.not_eq_true, deleted_alive_iff hcounts hreal hheld halive]
      exact hkept
    obtain ⟨hundone, hnothing⟩ := serve_missing len _ false hmissing
    rw [List.foldl_cons, List.foldl_cons, List.foldl_nil, hnothing] at hserved
    have hrefused : ¬ (config_edit_t.address (.deleted entry len)).Admitted h.cfg :=
      fun hadmitted => hkept hadmitted.2
    refine ⟨iff_of_false ?_ hrefused, iff_of_false (fun hafter => ?_) fun hfaithful => hkept (hfaithful hname)⟩
    · rw [hagrees]
      simp [carried, hundone]
    · rw [step_of_refused hrefused] at hafter
      have hlen : len = 0 := by
        by_contra hlen
        exact hkept fun hzero => absurd hzero hlen
      subst hlen
      have hmem := hafter.om.mem (held_address hheld)
      rw [hserved.om] at hmem
      obtain ⟨item, hkey, hitem⟩ := (hfirst _).mp hmem
      have hfit : Fit env.text (binding_of entry 0) := trivial
      obtain rfl := alone_of_fit hfits hfit item (by simp [hitem]) hkey
      rw [Function.update_self] at hitem
      cases hitem

omit hcounts in
/-- A modified prefix length is agreed to, and stays as it was in OM. -/
theorem modified_refines {old new : UInt8} (hheld : h.cfg.addresses entry = some old) (hchange : old ≠ new) :
    Refines env h (.address (.modified entry old new)) (address_verify env (.modified entry old new) w) := by
  by_cases hname : entry.1 = ""
  · obtain ⟨hrefused, hsame⟩ := address_verify_unnamed env w (.modified entry old new) hname
    exact refines_of_refused (fun hadmitted => hadmitted hname) hname hrefused (hreal.of_same hsame)
  obtain ⟨hagrees, hserved⟩ := address_verify_served env w (e := .modified entry old new) hname
  rw [requests_of_modified env hname] at hagrees hserved
  refine ⟨iff_of_true (hagrees.mpr rfl) hname, iff_of_false (fun hafter => ?_) hname⟩
  have hadmitted : (config_edit_t.address (.modified entry old new)).Admitted h.cfg := hname
  rw [step_of_admitted hadmitted] at hafter
  have hbefore : Realises env (address_verify env (.modified entry old new) w).world h :=
    hreal.of_same ⟨hserved.om, hserved.instances, hserved.table⟩
  exact held_modified_ne hheld hchange (hbefore.held_eq hafter)

/-- The address callback does what an edit of one address asks for, as far as the
    edit is carried over. -/
theorem address_refines (hwrites : ∀ n, env.write_rc n = .OK) {e : address_edit}
    (happlies : e.Applies h.cfg.addresses) : Refines env h (.address e) (address_verify env e w) := by
  obtain ⟨hold, hchange⟩ := happlies
  cases e with
  | created entry len => exact created_refines hcounts hreal hwrites hold
  | deleted entry len => exact deleted_refines hcounts hreal hold
  | modified entry old new => exact modified_refines hreal hold fun h => hchange (congrArg some h)

end refines

end sweetcomb
