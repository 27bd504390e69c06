import Sweetcomb.Configuration.Run
import Sweetcomb.KeyedStore.Inherited

open datastore keyed_store runs sweetcomb.ietf_interface

namespace sweetcomb

/-- The key that OM is populated under when the plugin is initialised. -/
def boot : String := "boot"

/-- A process that has started on a VPP with some objects. Nothing has been
    configured in it yet. -/
def World.populate (held : Finset object) (instances : String → interface_attrs) : World where
  om := held.image fun obj => (boot, obj)
  instances
  static_mapping_table _ := none

/-- The objects that a configuration asks for, in whatever state. -/
def configuration_t.Asks (cfg : configuration_t) (i : object) : Prop :=
  ∃ item, (cfg.wanted item).map object.singular = some i

/-- The objects that are held for a configuration, in whatever state. -/
noncomputable def holding_t.identities (h : holding_t) : configured_t → Option object :=
  Option.map object.singular ∘ h.held

/-- The edits that are carried over wherever their objects are held: the interface
    that has the key of what is populated is not edited, and no address of a named
    interface is modified, or deleted with the length zero. -/
def config_edit_t.Resumable : config_edit_t → Prop
  | .interface e => e.key ≠ boot
  | .address (.created _ _) => True
  | .address (.deleted entry len) => len = 0 → entry.1 = ""
  | .address (.modified entry _ _) => entry.1 = ""
  | .mapping _ => True

section identities

variable (h : holding_t)

theorem identity_of_interface {name : String} {enabled : Bool} (hheld : h.cfg.interfaces name = some enabled) :
    h.identities (.interface name) = some (object.singular (.interface name (ethernet enabled))) := by
  simp [holding_t.identities, hheld]

theorem identity_of_binding {entry : String × address} {len : UInt8} {i : object}
    (hitem : h.identities (binding_of entry len) = some i) : i = .l3_binding entry.1 ⟨entry.2, len⟩ := by
  obtain ⟨obj, hobj, rfl⟩ := Option.map_eq_some_iff.mp hitem
  obtain ⟨rfl, -⟩ := (held_binding_eq_some h).mp hobj
  rfl

theorem identities_interface (name : String) (value : Option Bool) :
    { h with cfg := { h.cfg with interfaces := Function.update h.cfg.interfaces name value } }.identities =
      Function.update h.identities (.interface name)
        (value.map fun enabled => object.singular (.interface name (ethernet enabled))) := by
  rw [holding_t.identities, held_interface, Function.comp_update, Option.map_map]
  rfl

theorem identities_mapping (index : UInt32) (value : Option ietf_nat.mapping_t) :
    { h with cfg := { h.cfg with mappings := Function.update h.cfg.mappings index value } }.identities =
      Function.update h.identities (.mapping 0 index) (value.map fun mapping =>
        .nat_static (ietf_nat.mapping_pair mapping).1 (ietf_nat.mapping_pair mapping).2) := by
  rw [holding_t.identities, held_mapping, Function.comp_update, Option.map_map]
  rfl

theorem identities_created {entry : String × address} (hfresh : h.cfg.addresses entry = none) (len : UInt8) :
    ((config_edit_t.address (.created entry len)).take h).identities =
      Function.update (Function.update h.identities (binding_of entry 0) (some (.l3_binding entry.1 ⟨entry.2, 0⟩)))
        (binding_of entry len) (some (.l3_binding entry.1 ⟨entry.2, len⟩)) := by
  rw [holding_t.identities, held_created h hfresh, Function.comp_update, Function.comp_update]
  rfl

theorem identities_deleted {entry : String × address} {len : UInt8} (hheld : h.cfg.addresses entry = some len) :
    ((config_edit_t.address (.deleted entry len)).take h).identities =
      Function.update (Function.update h.identities (binding_of entry 0) none) (binding_of entry len) none := by
  rw [holding_t.identities, held_deleted h hheld, Function.comp_update, Function.comp_update]
  rfl

theorem fit_of_identity {env : Env} (hplain : ∀ name, (h.cfg.interfaces name).isSome → Plain env.text name)
    {item : configured_t} (hitem : (h.identities item).isSome) : Fit env.text item := by
  rw [holding_t.identities, Function.comp_apply, Option.isSome_map] at hitem
  cases item with
  | interface name => exact hplain name (by simpa using hitem)
  | binding itf pfx => trivial
  | mapping id index =>
    by_contra hid
    have hother : ¬ id = 0 := hid
    simp [hother] at hitem

/-- Beside what is configured there are the bindings of length zero. -/
theorem asked_iff {i : object} : (∃ item, h.identities item = some i) ↔
    h.cfg.Asks i ∨ ∃ entry ∈ h.stale, i = .l3_binding entry.1 ⟨entry.2, 0⟩ := by
  constructor
  · rintro ⟨item, hitem⟩
    cases item with
    | interface name => exact .inl ⟨.interface name, hitem⟩
    | mapping id index => exact .inl ⟨.mapping id index, hitem⟩
    | binding itf pfx =>
      obtain ⟨obj, hobj, rfl⟩ := Option.map_eq_some_iff.mp hitem
      obtain ⟨rfl, hlen | ⟨hzero, hstale⟩⟩ := (held_binding_eq_some h).mp hobj
      · exact .inl ⟨.binding itf pfx, by simp [configuration_t.wanted, hlen]⟩
      · obtain ⟨addr, len⟩ := pfx
        obtain rfl : len = 0 := hzero
        exact .inr ⟨_, hstale, rfl⟩
  · rintro (⟨item, hitem⟩ | ⟨entry, hstale, rfl⟩)
    · cases item with
      | interface name => exact ⟨.interface name, hitem⟩
      | mapping id index => exact ⟨.mapping id index, hitem⟩
      | binding itf pfx =>
        obtain ⟨obj, hobj, rfl⟩ := Option.map_eq_some_iff.mp hitem
        obtain ⟨hlen, hsame⟩ := Option.ite_none_right_eq_some.mp hobj
        obtain rfl := Option.some.inj hsame
        refine ⟨.binding itf pfx, Option.map_eq_some_iff.mpr ⟨_, ?_, rfl⟩⟩
        exact (held_binding_eq_some h).mpr ⟨rfl, .inl hlen⟩
    · refine ⟨binding_of entry 0, Option.map_eq_some_iff.mpr ⟨.l3_binding entry.1 ⟨entry.2, 0⟩, ?_, rfl⟩⟩
      exact (held_binding_eq_some h).mpr ⟨rfl, .inr ⟨rfl, hstale⟩⟩

theorem asks_binding_iff {cfg : configuration_t} {entry : String × address} :
    cfg.Asks (.l3_binding entry.1 ⟨entry.2, 0⟩) ↔ cfg.addresses entry = some 0 := by
  constructor
  · rintro ⟨item, hitem⟩
    obtain ⟨obj, hobj, hsame⟩ := Option.map_eq_some_iff.mp hitem
    cases item with
    | interface name =>
      obtain ⟨enabled, -, rfl⟩ := Option.map_eq_some_iff.mp hobj
      cases hsame
    | mapping id index =>
      obtain ⟨mapping, -, rfl⟩ := Option.map_eq_some_iff.mp (Option.ite_none_right_eq_some.mp hobj).2
      cases hsame
    | binding itf pfx =>
      obtain ⟨hlen, hbinding⟩ := Option.ite_none_right_eq_some.mp hobj
      obtain rfl := Option.some.inj hbinding
      obtain ⟨rfl, rfl⟩ := object.l3_binding.inj hsame
      exact hlen
  · intro hlen
    exact ⟨binding_of entry 0, by simp [configuration_t.wanted, hlen, object.singular]⟩

end identities

theorem key_ne_boot (text : AddressText) {item : configured_t} (hitem : item ≠ .interface boot) :
    item.key text ≠ boot := by
  have hplain : Plain text boot := plain_of_mem text (by decide) (show 'b' ∈ boot.toList by decide) (by decide)
  intro hkey
  exact hplain item ((key_eq_iff text hitem.symm).mp hkey.symm)

/-- A state of a process that has started on a VPP with certain objects. -/
structure Resumed (env : Env) (inherited : Set object) (w : World) (h : holding_t) : Prop where
  om : w.om.Inherits object.singular (configured_t.key env.text) boot inherited h.identities
  plain : ∀ name, (h.cfg.interfaces name).isSome → Plain env.text name

section resumed

variable {env : Env} {inherited : Set object} {w after : World} {h : holding_t}

theorem resumed_populate {held : Finset object} {cfg : configuration_t} (instances : String → interface_attrs)
    (hheld : ∀ i, cfg.Asks i → ∃ obj ∈ held, obj.singular = i)
    (hplain : ∀ name, (cfg.interfaces name).isSome → Plain env.text name) :
    Resumed env { i | ∃ obj ∈ held, obj.singular = i } (.populate held instances) cfg.exact where
  om := by
    refine Store.inherits_start ?_ (fun i => ?_) fun item i hitem => ?_
    · simp [World.populate]
    · simp [World.populate, Store.Has]
    · rcases (asked_iff cfg.exact).mp ⟨item, hitem⟩ with hasks | ⟨entry, hstale, -⟩
      · exact hheld i hasks
      · cases hstale
  plain := hplain

theorem Resumed.of_same (hresumed : Resumed env inherited w h) (hsame : after.Same w) :
    Resumed env inherited after h where
  om := by rw [hsame.om]; exact hresumed.om
  plain := hresumed.plain

theorem Resumed.alone (hresumed : Resumed env inherited w h) {item : configured_t} (hfit : Fit env.text item) :
    Alone (configured_t.key env.text) h.identities item :=
  alone_of_fit (fun _ => fit_of_identity h hresumed.plain) hfit

/-- What is held keeps its interface, wherever it is. -/
theorem alive_of_identity (hcounts : env.Counts) {om : Om} {wanted : configured_t → Option object}
    (hinherits : om.Inherits object.singular (configured_t.key env.text) boot inherited wanted) {item : configured_t}
    {i : object} (hitem : wanted item = some i) {name : String} (hkeeps : i.keeps name = true) :
    env.alive om name = true := by
  obtain ⟨key, obj, hmem, rfl⟩ := hinherits.holds_iff.mpr (.inr ⟨item, hitem⟩)
  exact (hcounts om name).mpr ⟨_, hmem, by rwa [object.keeps_singular] at hkeeps⟩

theorem Resumed.interface_written (hresumed : Resumed env inherited w h) {name : String}
    (hplain : Plain env.text name) (hname : name ≠ boot) {attrs : interface_attrs}
    (hom : after.om = w.om.write object.singular name (.interface name attrs)) (enabled : Bool) :
    Resumed env inherited after
      { h with cfg := { h.cfg with interfaces := Function.update h.cfg.interfaces name (some enabled) } } where
  om := by
    have hitem : (configured_t.interface name).key env.text ≠ boot := hname
    have hident : ∀ before, h.identities (.interface name) = some before →
        before = object.singular (.interface name attrs) := by
      intro before hbefore
      obtain ⟨obj, hobj, rfl⟩ := Option.map_eq_some_iff.mp hbefore
      exact interface_ident h name attrs obj hobj
    rw [hom, identities_interface]
    exact hresumed.om.write hitem hident
  plain := by
    intro other hsome
    by_cases hother : other = name
    · rw [hother]
      exact hplain
    · exact hresumed.plain other (by simpa [hother] using hsome)

theorem Resumed.interface_removed (hresumed : Resumed env inherited w h) {name : String}
    (hplain : Plain env.text name) (hname : name ≠ boot) (hom : after.om = w.om.remove name) :
    Resumed env inherited after
      { h with cfg := { h.cfg with interfaces := Function.update h.cfg.interfaces name none } } where
  om := by
    have hitem : (configured_t.interface name).key env.text ≠ boot := hname
    have hfit : Fit env.text (.interface name) := hplain
    rw [hom, identities_interface]
    exact hresumed.om.remove hitem (hresumed.alone hfit)
  plain := by
    intro other hsome
    by_cases hother : other = name
    · rw [hother]
      exact hplain
    · exact hresumed.plain other (by simpa [hother] using hsome)

theorem Resumed.mapping_written (hresumed : Resumed env inherited w h) {index : UInt32} {mapping : ietf_nat.mapping_t}
    (hfresh : h.cfg.mappings index = none)
    (hom : after.om = w.om.write object.singular (ietf_nat.KEY index)
      (.nat_static (ietf_nat.mapping_pair mapping).1 (ietf_nat.mapping_pair mapping).2)) :
    Resumed env inherited after
      { h with cfg := { h.cfg with mappings := Function.update h.cfg.mappings index (some mapping) } } where
  om := by
    have hitem : (configured_t.mapping 0 index).key env.text ≠ boot := key_ne_boot env.text (by simp)
    have hident : ∀ before, h.identities (.mapping 0 index) = some before → before =
        object.singular (.nat_static (ietf_nat.mapping_pair mapping).1 (ietf_nat.mapping_pair mapping).2) := by
      simp [holding_t.identities, hfresh]
    rw [hom, identities_mapping]
    exact hresumed.om.write hitem hident
  plain := hresumed.plain

theorem Resumed.mapping_removed (hresumed : Resumed env inherited w h) {index : UInt32}
    (hom : after.om = w.om.remove (ietf_nat.KEY index)) :
    Resumed env inherited after
      { h with cfg := { h.cfg with mappings := Function.update h.cfg.mappings index none } } where
  om := by
    have hitem : (configured_t.mapping 0 index).key env.text ≠ boot := key_ne_boot env.text (by simp)
    have hfit : Fit env.text (.mapping 0 index) := rfl
    rw [hom, identities_mapping]
    exact hresumed.om.remove hitem (hresumed.alone hfit)
  plain := hresumed.plain

/-- With the interfaces as they were, OM decides what a state has resumed. -/
theorem Resumed.bound {state : Om × Nat} (hresumed : Resumed env inherited w h) (hserved : Served w state after)
    {e : address_edit} (hom : state.1.Inherits object.singular (configured_t.key env.text) boot inherited
      ((config_edit_t.address e).take h).identities) :
    Resumed env inherited after ((config_edit_t.address e).take h) where
  om := by rw [hserved.om]; exact hom
  plain := hresumed.plain

end resumed

/-- A call leaves such a state, with what is then to be held. -/
def Resumes (env : Env) (inherited : Set object) (h : holding_t) (e : config_edit_t) (result : cb_result) : Prop :=
  Resumed env inherited result.world (if result.outcome = .ok .SR_ERR_OK then e.take h else h)

section calls

variable {env : Env} {inherited : Set object} {w : World} {h : holding_t} {e : config_edit_t} {result : cb_result}

theorem resumes_of_ok (houtcome : result.outcome = .ok .SR_ERR_OK)
    (hresumed : Resumed env inherited result.world (e.take h)) : Resumes env inherited h e result := by
  rw [Resumes, if_pos houtcome]
  exact hresumed

theorem resumes_of_refused (houtcome : result.outcome ≠ .ok .SR_ERR_OK)
    (hresumed : Resumed env inherited result.world h) : Resumes env inherited h e result := by
  rw [Resumes, if_neg houtcome]
  exact hresumed

variable (hwrites : ∀ n, env.write_rc n = .OK) (hresumed : Resumed env inherited w h)

include hwrites hresumed

theorem interface_resumes (hcounts : env.Counts) {c : commit_t String Bool} {e : edit String Bool}
    (hedits : c.edits = [e]) (hc : c.Delivered interface_changes h.cfg.interfaces) (hplain : Plain env.text e.key)
    (hnamed : e.key ≠ "") (hname : e.key ≠ boot) :
    Resumes env inherited h (.interface e) (c.verify (ietf_interface_create_cb env) w) := by
  have haccepts : ∀ change ∈ c.changes, accepts env w.om change = true := by
    refine accepts_of_single hc hedits fun hmodifies => ?_
    have hold : h.cfg.interfaces e.key = e.old := (hc.commits.applies e (by simp [hedits])).1
    obtain ⟨old, hsome⟩ : ∃ old, e.old = some old := by
      cases e with
      | created name enabled => cases hmodifies
      | deleted name enabled => cases hmodifies
      | modified name old new => exact ⟨old, rfl⟩
    exact alive_of_identity hcounts hresumed.om (identity_of_interface h (hold.trans hsome))
      (by rw [object.keeps_singular]; exact beq_self_eq_true e.key)
  cases e with
  | created name enabled =>
    obtain ⟨houtcome, hom, -⟩ := interface_written_of_created hc haccepts hwrites hedits hnamed
    exact resumes_of_ok houtcome (hresumed.interface_written hplain hname hom enabled)
  | modified name old new =>
    obtain ⟨houtcome, attrs, hom⟩ := interface_set_of_modified hc haccepts hwrites hedits
    exact resumes_of_ok houtcome (hresumed.interface_written hplain hname hom new)
  | deleted name enabled =>
    obtain ⟨houtcome, hom, -⟩ := interface_removed_of_deleted hc haccepts hedits
    exact resumes_of_ok houtcome (hresumed.interface_removed hplain hname hom)

theorem mapping_resumes {c : commit_t UInt32 ietf_nat.mapping_t} {e : ietf_nat.mapping_edit} (hedits : c.edits = [e])
    (hdelivered : c.Delivered (ietf_nat.mapping_changes env.text) h.cfg.mappings) :
    Resumes env inherited h (.mapping e) (c.verify (ietf_nat.nat_mapping_table_config_cb env) w) := by
  cases e with
  | created index mapping =>
    have hfresh : h.cfg.mappings index = none :=
      (hdelivered.commits.applies (.created index mapping) (by simp [hedits])).1
    obtain ⟨houtcome, hom, -⟩ := mapping_written_of_created (w := w) hdelivered hwrites hedits
    exact resumes_of_ok houtcome (hresumed.mapping_written hfresh hom)
  | deleted index mapping =>
    obtain ⟨houtcome, hom, -⟩ := mapping_removed_of_deleted (w := w) hdelivered hedits
    exact resumes_of_ok houtcome (hresumed.mapping_removed hom)
  | modified index old new =>
    obtain ⟨houtcome, hsame⟩ := mapping_modified_refused (w := w) hedits hdelivered
    exact resumes_of_refused (by simp [houtcome]) (hresumed.of_same hsame)

/-- Both bindings of an address are written, or neither. -/
theorem created_resumes (hcounts : env.Counts) {entry : String × address} {len : UInt8} (hname : entry.1 ≠ "")
    (hfresh : h.cfg.addresses entry = none) :
    Resumes env inherited h (.address (.created entry len)) (address_verify env (.created entry len) w) := by
  obtain ⟨hagrees, hserved⟩ := address_verify_served env w (e := .created entry len) hname
  rw [requests_of_created env len hname] at hagrees hserved
  have hkey (len : UInt8) : (binding_of entry len).key env.text ≠ boot := key_ne_boot env.text (by simp)
  cases halive : env.alive w.om entry.1 with
  | true =>
    obtain ⟨-, hzero⟩ := serve_added 0 (w.om, w.writes) halive hwrites
    have hfirst : ((entry_request env.text entry 0 true).serve env (w.om, w.writes)).1.Inherits object.singular
        (configured_t.key env.text) boot inherited
        (Function.update h.identities (binding_of entry 0) (some (.l3_binding entry.1 ⟨entry.2, 0⟩))) := by
      have hident : ∀ before, h.identities (binding_of entry 0) = some before →
          before = object.singular (.l3_binding entry.1 ⟨entry.2, 0⟩) := fun before => identity_of_binding h
      rw [hzero]
      exact hresumed.om.write (hkey 0) hident
    have hstill := alive_of_identity hcounts hfirst (Function.update_self ..)
      (show object.keeps entry.1 (.l3_binding entry.1 ⟨entry.2, 0⟩) = true by simp [object.keeps])
    obtain ⟨hdone, hwritten⟩ := serve_added len _ hstill hwrites
    have hident : ∀ before, Function.update h.identities (binding_of entry 0)
        (some (.l3_binding entry.1 ⟨entry.2, 0⟩)) (binding_of entry len) = some before →
          before = object.singular (.l3_binding entry.1 ⟨entry.2, len⟩) := by
      intro before hbefore
      by_cases hlen : len = 0
      · subst hlen
        rw [Function.update_self] at hbefore
        exact (Option.some.inj hbefore).symm
      · rw [Function.update_of_ne (by simp [hlen])] at hbefore
        exact identity_of_binding h hbefore
    have hbound : ((entry_request env.text entry len true).serve env
        ((entry_request env.text entry 0 true).serve env (w.om, w.writes))).1.Inherits object.singular
        (configured_t.key env.text) boot inherited
        ((config_edit_t.address (.created entry len)).take h).identities := by
      rw [hwritten, identities_created h hfresh len]
      exact hfirst.write (hkey len) hident
    exact resumes_of_ok (hagrees.mpr (by simpa [carried] using hdone)) (hresumed.bound hserved hbound)
  | false =>
    obtain ⟨-, hzero⟩ := serve_missing 0 (w.om, w.writes) true halive
    obtain ⟨hundone, hnothing⟩ := serve_missing len (w.om, w.writes) true halive
    rw [List.foldl_cons, List.foldl_cons, List.foldl_nil, hzero, hnothing] at hserved
    refine resumes_of_refused ?_ (hresumed.of_same ⟨hserved.om, hserved.instances, hserved.table⟩)
    rw [ne_eq, hagrees]
    simp [carried, hzero, hundone]

omit hwrites in
/-- A binding that is not of length zero keeps its interface until it goes itself. -/
theorem deleted_resumes (hcounts : env.Counts) {entry : String × address} {len : UInt8} (hname : entry.1 ≠ "")
    (hlen : len ≠ 0) (hheld : h.cfg.addresses entry = some len) :
    Resumes env inherited h (.address (.deleted entry len)) (address_verify env (.deleted entry len) w) := by
  obtain ⟨hagrees, hserved⟩ := address_verify_served env w (e := .deleted entry len) hname
  rw [requests_of_deleted env len hname] at hagrees hserved
  have hkey (len : UInt8) : (binding_of entry len).key env.text ≠ boot := key_ne_boot env.text (by simp)
  have hfit (len : UInt8) : Fit env.text (binding_of entry len) := trivial
  have hitem : h.identities (binding_of entry len) = some (.l3_binding entry.1 ⟨entry.2, len⟩) := by
    simp [holding_t.identities, held_address hheld, object.singular]
  have hkeeps : object.keeps entry.1 (.l3_binding entry.1 ⟨entry.2, len⟩) = true := by simp [object.keeps]
  obtain ⟨-, hzero⟩ := serve_deleted 0 (w.om, w.writes) (alive_of_identity hcounts hresumed.om hitem hkeeps)
  have hfirst : ((entry_request env.text entry 0 false).serve env (w.om, w.writes)).1.Inherits object.singular
      (configured_t.key env.text) boot inherited (Function.update h.identities (binding_of entry 0) none) := by
    rw [hzero]
    exact hresumed.om.remove (hkey 0) (hresumed.alone (hfit 0))
  have hleft : Function.update h.identities (binding_of entry 0) none (binding_of entry len) =
      some (.l3_binding entry.1 ⟨entry.2, len⟩) := by
    rw [Function.update_of_ne (by simp [hlen]), hitem]
  have hstill := alive_of_identity hcounts hfirst hleft hkeeps
  obtain ⟨hdone, hremoved⟩ := serve_deleted len _ hstill
  have hwanted : ∀ item, (Function.update h.identities (binding_of entry 0) none item).isSome →
      Fit env.text item := by
    intro item hsome
    by_cases hfirst : item = binding_of entry 0
    · rw [hfirst]
      exact hfit 0
    · rw [Function.update_of_ne hfirst] at hsome
      exact fit_of_identity h hresumed.plain hsome
  have hbound : ((entry_request env.text entry len false).serve env
      ((entry_request env.text entry 0 false).serve env (w.om, w.writes))).1.Inherits object.singular
      (configured_t.key env.text) boot inherited
      ((config_edit_t.address (.deleted entry len)).take h).identities := by
    rw [hremoved, identities_deleted h hheld]
    exact hfirst.remove (hkey len) (alone_of_fit hwanted (hfit len))
  exact resumes_of_ok (hagrees.mpr (by simpa [carried] using hdone)) (hresumed.bound hserved hbound)

theorem address_resumes (hcounts : env.Counts) {e : address_edit} (happlies : e.Applies h.cfg.addresses)
    (hresumable : (config_edit_t.address e).Resumable) :
    Resumes env inherited h (.address e) (address_verify env e w) := by
  by_cases hname : e.key.1 = ""
  · obtain ⟨hrefused, hsame⟩ := address_verify_unnamed env w e hname
    exact resumes_of_refused hrefused (hresumed.of_same hsame)
  · obtain ⟨hold, -⟩ := happlies
    cases e with
    | created entry len => exact created_resumes hwrites hresumed hcounts hname hold
    | deleted entry len => exact deleted_resumes hresumed hcounts hname (fun hlen => hname (hresumable hlen)) hold
    | modified entry old new => exact absurd hresumable hname

/-- What is configured and held, as the callback has agreed to the edit or not. -/
def populated_step (env : Env) (state : World × holding_t) (p : part_t) : World × holding_t :=
  let result := p.verify env state.1
  (result.world, if result.outcome = .ok .SR_ERR_OK then p.edit.take state.2 else state.2)

/-- Each callback goes on from what the process has started with. -/
theorem part_resumes (hcounts : env.Counts) {p : part_t} (hdelivered : p.Delivered env h.cfg)
    (hresumable : p.edit.Resumable) :
    Resumed env inherited (populated_step env (w, h) p).1 (populated_step env (w, h) p).2 := by
  obtain ⟨e, changes, uninit⟩ := p
  cases e with
  | interface e =>
    exact interface_resumes hwrites hresumed hcounts rfl hdelivered.1 hdelivered.2.1 hdelivered.2.2 hresumable
  | mapping e => exact mapping_resumes hwrites hresumed rfl hdelivered
  | address e =>
    obtain ⟨rfl, happlies⟩ := hdelivered
    exact address_resumes hwrites hresumed hcounts happlies hresumable

end calls

/-- After the commit OM holds what VPP had at the start and what is configured, and
    beside it, with the length zero, the addresses that have been created since. Each
    object is under some key and in some state. -/
def part_t.HoldsInherited (env : Env) (held : Finset object) (state : World × holding_t) (p : part_t) : Prop :=
  let (after, h) := populated_step env state p
  ∀ i, after.om.Holds object.singular i ↔ (∃ obj ∈ held, obj.singular = i) ∨ h.cfg.Asks i ∨
    ∃ entry ∈ h.stale, i = .l3_binding entry.1 ⟨entry.2, 0⟩

/-- After the commit OM holds what is configured and nothing else. -/
def part_t.HoldsExactly (env : Env) (state : World × holding_t) (p : part_t) : Prop :=
  let (after, h) := populated_step env state p
  ∀ i, after.om.Holds object.singular i ↔ h.cfg.Asks i

/-- All that VPP had at the start is configured, and all that has been created since
    has the length zero. -/
def part_t.Covers (env : Env) (held : Finset object) (state : World × holding_t) (p : part_t) : Prop :=
  let (_, h) := populated_step env state p
  (∀ obj ∈ held, h.cfg.Asks obj.singular) ∧ ∀ entry ∈ h.stale, h.cfg.addresses entry = some 0

theorem holdsExactly_iff_covers {env : Env} {held : Finset object} {state : World × holding_t} {p : part_t}
    (hinherits : p.HoldsInherited env held state) : p.HoldsExactly env state ↔ p.Covers env held state := by
  rw [part_t.HoldsExactly, part_t.Covers]
  rw [part_t.HoldsInherited] at hinherits
  constructor
  · intro hexactly
    refine ⟨fun obj hobj => ?_, fun entry hstale => ?_⟩
    · exact (hexactly _).mp ((hinherits _).mpr (.inl ⟨obj, hobj, rfl⟩))
    · exact asks_binding_iff.mp ((hexactly _).mp ((hinherits _).mpr (.inr (.inr ⟨entry, hstale, rfl⟩))))
  · rintro ⟨hheld, hstale⟩ i
    rw [hinherits]
    refine ⟨?_, fun hasks => .inr (.inl hasks)⟩
    rintro (⟨obj, hobj, rfl⟩ | hasks | ⟨entry, hentry, rfl⟩)
    · exact hheld obj hobj
    · exact hasks
    · exact asks_binding_iff.mpr (hstale entry hentry)

/-- A plugin that is started on a VPP with at least what is configured holds, after
    every commit, what VPP had at the start and what is then configured, and beside it
    the length zero of each address that has been created since. It never lets go of
    anything that VPP had, so it follows the configuration exactly as long as all of
    that stays configured, and all addresses that are created have the length zero. -/
theorem populated_throughout_iff {env : Env} (hcounts : env.Counts) (hwrites : ∀ n, env.write_rc n = .OK)
    {held : Finset object} {instances : String → interface_attrs} {cfg : configuration_t}
    (hheld : ∀ i, cfg.Asks i → ∃ obj ∈ held, obj.singular = i)
    (hplain : ∀ name, (cfg.interfaces name).isSome → Plain env.text name) {parts : List part_t}
    (hdelivered : Along (populated_step env) (fun state p => p.Delivered env state.2.cfg ∧ p.edit.Resumable)
      (.populate held instances, cfg.exact) parts) :
    Along (populated_step env) (part_t.HoldsInherited env held) (.populate held instances, cfg.exact) parts ∧
      (Along (populated_step env) (part_t.HoldsExactly env) (.populate held instances, cfg.exact) parts ↔
        Along (populated_step env) (part_t.Covers env held) (.populate held instances, cfg.exact) parts) := by
  let inv (state : World × holding_t) := Resumed env { i | ∃ obj ∈ held, obj.singular = i } state.1 state.2
  have hstart : inv (.populate held instances, cfg.exact) := resumed_populate instances hheld hplain
  have hstep (state : World × holding_t) (p : part_t) (hinv : inv state)
      (hp : p.Delivered env state.2.cfg ∧ p.edit.Resumable) : inv (populated_step env state p) :=
    part_resumes hwrites hinv hcounts hp.1 hp.2
  have hinherits (state : World × holding_t) (p : part_t) (hinv : inv state)
      (hp : p.Delivered env state.2.cfg ∧ p.edit.Resumable) : p.HoldsInherited env held state :=
    fun i => (hstep state p hinv hp).om.holds_iff.trans (or_congr_right (asked_iff _))
  constructor
  · exact along_of_step (fun state p hinv hp => ⟨hinherits state p hinv hp, hstep state p hinv hp⟩) hstart hdelivered
  · exact along_iff_of_step inv (fun state p hinv hp => holdsExactly_iff_covers (hinherits state p hinv hp))
      (fun state p hinv hp _ => hstep state p hinv hp) hstart hdelivered

section samples

/-- One mapping is configured. -/
def one_mapping : configuration_t :=
  { configuration_t.empty with mappings := Function.update (fun _ => none) 1 (some ietf_nat.first_mapping) }

/-- The plugin is started again and the mapping deleted: it stays in OM, and so in
    VPP. -/
theorem mapping_outlives_deletion :
    let mapped : object := .nat_static (ietf_nat.mapping_pair ietf_nat.first_mapping).1
      (ietf_nat.mapping_pair ietf_nat.first_mapping).2
    let after := populated_step counting (.populate {mapped} World.empty.instances, one_mapping.exact)
      (part_of (.mapping (.deleted 1 ietf_nat.first_mapping)))
    after.2.cfg.mappings 1 = none ∧ after.1.om.Holds object.singular mapped := by
  intro mapped after
  have hasks : ∀ i, one_mapping.Asks i → ∃ obj ∈ ({mapped} : Finset object), obj.singular = i := by
    rintro i ⟨item, hitem⟩
    obtain ⟨obj, hobj, rfl⟩ := Option.map_eq_some_iff.mp hitem
    refine ⟨obj, Finset.mem_singleton.mpr ?_, rfl⟩
    cases item with
    | interface name => cases hobj
    | binding itf pfx => cases hobj
    | mapping id index =>
      obtain ⟨mapping, hmapping, rfl⟩ := Option.map_eq_some_iff.mp (Option.ite_none_right_eq_some.mp hobj).2
      by_cases hindex : index = 1
      · subst hindex
        obtain rfl : ietf_nat.first_mapping = mapping := by simpa [one_mapping] using hmapping
        rfl
      · simp [one_mapping, hindex] at hmapping
  have happlies : (edit.deleted 1 ietf_nat.first_mapping).Applies one_mapping.mappings :=
    ⟨by simp [one_mapping], by decide⟩
  have hdelivered : Along (populated_step counting)
      (fun state p => p.Delivered counting state.2.cfg ∧ p.edit.Resumable)
      (.populate {mapped} World.empty.instances, one_mapping.exact)
      [part_of (.mapping (.deleted 1 ietf_nat.first_mapping))] :=
    ⟨⟨mapping_delivered happlies, trivial⟩, trivial⟩
  obtain ⟨⟨hinherits, -⟩, -⟩ := populated_throughout_iff counting_counts (fun _ => rfl) hasks
    (by simp [one_mapping, configuration_t.empty]) hdelivered
  have hagreed : ((part_of (.mapping (.deleted 1 ietf_nat.first_mapping))).verify counting
      (.populate {mapped} World.empty.instances)).outcome = .ok .SR_ERR_OK := by decide
  refine ⟨?_, (hinherits mapped).mpr (.inl ⟨mapped, Finset.mem_singleton_self _, rfl⟩)⟩
  change (if _ then _ else _ : holding_t).cfg.mappings 1 = none
  rw [if_pos hagreed]
  simp [part_of, config_edit_t.take, config_edit_t.apply, edit.apply]

end samples

end sweetcomb
