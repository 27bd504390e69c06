import Sweetcomb.Ietf.Address.Sync
import Sweetcomb.Ietf.Interface.Step
import Sweetcomb.Ietf.Nat.Step
import Sweetcomb.KeyedStore.Render
import Sweetcomb.Subscribers.Keys

open datastore keyed_store sweetcomb.ietf_interface

namespace sweetcomb

/-- What the datastores of the configured models hold: the interfaces with their
    state, the addresses with their prefix length and the NAT mappings. -/
structure configuration_t where
  interfaces : Datastore String Bool
  addresses : address_datastore
  mappings : ietf_nat.mapping_datastore

def configuration_t.empty : configuration_t where
  interfaces _ := none
  addresses _ := none
  mappings _ := none

/-- The edit of one entry of one model. -/
inductive config_edit_t where
  | interface (e : edit String Bool)
  | address (e : address_edit)
  | mapping (e : ietf_nat.mapping_edit)
deriving DecidableEq

def config_edit_t.apply (cfg : configuration_t) : config_edit_t → configuration_t
  | .interface e => { cfg with interfaces := e.apply cfg.interfaces }
  | .address e => { cfg with addresses := e.apply cfg.addresses }
  | .mapping e => { cfg with mappings := e.apply cfg.mappings }

/-- Something is configured that keeps an interface in VOM: the interface or one
    of its addresses. -/
def configuration_t.Present (cfg : configuration_t) (name : String) : Prop :=
  (cfg.interfaces name).isSome ∨ ∃ addr, (cfg.addresses (name, addr)).isSome

/-- The edits that a configuration admits. An address is created on an interface with
    a name that is present. It goes while its interface is present, for as long as
    its deletion is asked for: once with the length zero, and once with its own.
    Mappings are not modified. -/
def config_edit_t.Admitted (cfg : configuration_t) : config_edit_t → Prop
  | .interface _ => True
  | .address (.created entry _) => entry.1 ≠ "" ∧ cfg.Present entry.1
  | .address (.deleted entry len) =>
    entry.1 ≠ "" ∧
      (len = 0 → { cfg with addresses := Function.update cfg.addresses entry none }.Present entry.1)
  | .address (.modified entry _ _) => entry.1 ≠ ""
  | .mapping e => e.modifies = false

/-- The edits that are carried over as they are admitted or refused: no address is
    modified, and none of length zero is deleted that alone keeps its interface. -/
def config_edit_t.Faithful (cfg : configuration_t) : config_edit_t → Prop
  | .address (.deleted entry len) =>
    entry.1 ≠ "" → len = 0 →
      { cfg with addresses := Function.update cfg.addresses entry none }.Present entry.1
  | .address (.modified entry _ _) => entry.1 = ""
  | _ => True

/-- The edits that are carried over and leave nothing else: an address that is
    created has the length zero. -/
def config_edit_t.Exact (cfg : configuration_t) : config_edit_t → Prop
  | .address (.created entry len) => entry.1 ≠ "" → cfg.Present entry.1 → len = 0
  | e => e.Faithful cfg

/-- The object that OM holds for what is configured, if anything. There is one NAT
    instance. -/
def configuration_t.wanted (cfg : configuration_t) : configured_t → Option object
  | .interface name => (cfg.interfaces name).map fun enabled => .interface name (ethernet enabled)
  | .binding itf pfx =>
    if cfg.addresses (itf, pfx.addr) = some pfx.len then some (.l3_binding itf pfx) else none
  | .mapping id index =>
    if id = 0 then
      (cfg.mappings index).map fun mapping =>
        .nat_static (ietf_nat.mapping_pair mapping).1 (ietf_nat.mapping_pair mapping).2
    else none

/-- What the plugin keeps for a configuration. The address callback starts from the
    length zero, and leaves a binding of that length beside that of an address. -/
structure holding_t where
  cfg : configuration_t
  stale : Set (String × address)

/-- What is configured is held, and nothing beside it. -/
def configuration_t.exact (cfg : configuration_t) : holding_t where
  cfg := cfg
  stale := ∅

/-- Every address is held a second time. -/
def configuration_t.doubled (cfg : configuration_t) : holding_t where
  cfg := cfg
  stale := {entry | (cfg.addresses entry).isSome}

/-- The addresses held twice once an edit has been carried over. -/
def config_edit_t.leave (stale : Set (String × sweetcomb.address)) : config_edit_t → Set (String × sweetcomb.address)
  | .address (.created entry _) => insert entry stale
  | .address (.deleted entry _) => stale \ {entry}
  | _ => stale

def config_edit_t.take (h : holding_t) (e : config_edit_t) : holding_t where
  cfg := e.apply h.cfg
  stale := e.leave h.stale

open Classical in
/-- What becomes of a holding when an edit is asked for. -/
noncomputable def config_edit_t.step (h : holding_t) (e : config_edit_t) : holding_t :=
  if e.Admitted h.cfg then e.take h else h

open Classical in
/-- The object that OM holds for an item, if any. -/
noncomputable def holding_t.held (h : holding_t) : configured_t → Option object
  | .interface name => h.cfg.wanted (.interface name)
  | .binding itf pfx =>
    if pfx.len = 0 ∧ (itf, pfx.addr) ∈ h.stale then some (.l3_binding itf pfx) else h.cfg.wanted (.binding itf pfx)
  | .mapping id index => h.cfg.wanted (.mapping id index)

section held

variable (h : holding_t)

@[simp] theorem exact_cfg (cfg : configuration_t) : cfg.exact.cfg = cfg := rfl

@[simp] theorem exact_held (cfg : configuration_t) : cfg.exact.held = cfg.wanted := by
  funext item
  cases item <;> simp [holding_t.held, configuration_t.exact]

@[simp] theorem held_interface_eq (name : String) : h.held (.interface name) =
    (h.cfg.interfaces name).map fun enabled => .interface name (ethernet enabled) := rfl

@[simp] theorem held_mapping_eq (id : UInt32) (index : UInt32) : h.held (.mapping id index) =
    if id = 0 then
      (h.cfg.mappings index).map fun mapping =>
        .nat_static (ietf_nat.mapping_pair mapping).1 (ietf_nat.mapping_pair mapping).2
    else none := rfl

/-- A binding is held for its address, or for the length zero beside it. -/
theorem held_binding_eq_some {itf : String} {pfx : prefix_t} {obj : object} :
    h.held (.binding itf pfx) = some obj ↔ obj = .l3_binding itf pfx ∧
      (h.cfg.addresses (itf, pfx.addr) = some pfx.len ∨ pfx.len = 0 ∧ (itf, pfx.addr) ∈ h.stale) := by
  simp only [holding_t.held, configuration_t.wanted]
  by_cases hstale : pfx.len = 0 ∧ (itf, pfx.addr) ∈ h.stale
  · simp [hstale, eq_comm]
  · simp [hstale, eq_comm, and_comm]

/-- Any binding that is held is the object of its item. -/
theorem held_binding_eq_iff {h' : holding_t} {itf : String} {pfx : prefix_t} :
    h.held (.binding itf pfx) = h'.held (.binding itf pfx) ↔
      (h.held (.binding itf pfx) = some (.l3_binding itf pfx) ↔
        h'.held (.binding itf pfx) = some (.l3_binding itf pfx)) := by
  constructor
  · intro hsame
    rw [hsame]
  · intro hsame
    ext obj
    constructor
    · intro hheld
      obtain ⟨rfl, -⟩ := (held_binding_eq_some h).mp hheld
      exact hsame.mp hheld
    · intro hheld
      obtain ⟨rfl, -⟩ := (held_binding_eq_some h').mp hheld
      exact hsame.mpr hheld

theorem held_interface (name : String) (value : Option Bool) :
    { h with cfg := { h.cfg with interfaces := Function.update h.cfg.interfaces name value } }.held =
      Function.update h.held (.interface name) (value.map fun enabled => .interface name (ethernet enabled)) := by
  funext item
  cases item with
  | interface other =>
    by_cases hother : other = name
    · subst hother
      simp
    · have hitem : configured_t.interface other ≠ .interface name := fun h => hother (configured_t.interface.inj h)
      rw [Function.update_of_ne hitem]
      simp [hother]
  | binding itf pfx => rw [Function.update_of_ne (by simp)]; rfl
  | mapping id index => rw [Function.update_of_ne (by simp)]; rfl

theorem held_mapping (index : UInt32) (value : Option ietf_nat.mapping_t) :
    { h with cfg := { h.cfg with mappings := Function.update h.cfg.mappings index value } }.held =
      Function.update h.held (.mapping 0 index) (value.map fun mapping =>
        .nat_static (ietf_nat.mapping_pair mapping).1 (ietf_nat.mapping_pair mapping).2) := by
  funext item
  cases item with
  | interface name => rw [Function.update_of_ne (by simp)]; rfl
  | binding itf pfx => rw [Function.update_of_ne (by simp)]; rfl
  | mapping id other =>
    by_cases hitem : configured_t.mapping id other = .mapping 0 index
    · obtain ⟨rfl, rfl⟩ := configured_t.mapping.inj hitem
      simp
    · rw [Function.update_of_ne hitem]
      by_cases hid : id = 0
      · have hother : other ≠ index := fun h => hitem (by rw [hid, h])
        simp [hother]
      · simp [hid]

/-- The binding of an address with a prefix length. -/
abbrev binding_of (entry : String × address) (len : UInt8) : configured_t :=
  .binding entry.1 { addr := entry.2, len }

/-- The edit of an address does not touch what is held for another. -/
theorem held_take_other (e : address_edit) {item : configured_t} (hitem : ∀ len, item ≠ binding_of e.key len) :
    ((config_edit_t.address e).take h).held item = h.held item := by
  cases item with
  | interface name => rfl
  | mapping id index => rfl
  | binding itf pfx =>
    have hother : (itf, pfx.addr) ≠ e.key := fun heq => hitem pfx.len (by rw [← heq])
    ext obj
    rw [held_binding_eq_some, held_binding_eq_some]
    cases e with
    | modified entry old new | created entry len | deleted entry len =>
      have hother : (itf, pfx.addr) ≠ entry := hother
      simp [config_edit_t.take, config_edit_t.apply, config_edit_t.leave, edit.apply, hother]

theorem held_created {entry : String × address} (hfresh : h.cfg.addresses entry = none) (len : UInt8) :
    ((config_edit_t.address (.created entry len)).take h).held =
      Function.update
        (Function.update h.held (binding_of entry 0) (some (.l3_binding entry.1 { addr := entry.2, len := 0 })))
        (binding_of entry len) (some (.l3_binding entry.1 { addr := entry.2, len })) := by
  funext item
  by_cases hitem : ∃ other, item = binding_of entry other
  · obtain ⟨other, rfl⟩ := hitem
    ext obj
    rw [held_binding_eq_some]
    by_cases hlen : other = len
    · subst hlen
      simp [config_edit_t.take, config_edit_t.apply, edit.apply, eq_comm]
    · rw [Function.update_of_ne (by simp [hlen])]
      by_cases hzero : other = 0
      · subst hzero
        simp [config_edit_t.take, config_edit_t.leave, eq_comm]
      · rw [Function.update_of_ne (by simp [hzero]), held_binding_eq_some]
        simp [config_edit_t.take, config_edit_t.apply, edit.apply, hfresh, hzero, Ne.symm hlen]
  · have hother : ∀ other, item ≠ binding_of entry other := not_exists.mp hitem
    rw [Function.update_of_ne (hother len), Function.update_of_ne (hother 0), held_take_other h _ hother]

theorem held_deleted {entry : String × address} {len : UInt8} (hheld : h.cfg.addresses entry = some len) :
    ((config_edit_t.address (.deleted entry len)).take h).held =
      Function.update (Function.update h.held (binding_of entry 0) none) (binding_of entry len) none := by
  funext item
  by_cases hitem : ∃ other, item = binding_of entry other
  · obtain ⟨other, rfl⟩ := hitem
    ext obj
    rw [held_binding_eq_some]
    by_cases hlen : other = len
    · subst hlen
      simp [config_edit_t.take, config_edit_t.apply, config_edit_t.leave, edit.apply]
    · rw [Function.update_of_ne (by simp [hlen])]
      by_cases hzero : other = 0
      · subst hzero
        simp [config_edit_t.take, config_edit_t.apply, config_edit_t.leave, edit.apply]
      · rw [Function.update_of_ne (by simp [hzero]), held_binding_eq_some]
        simp [config_edit_t.take, config_edit_t.apply, edit.apply, hheld, hzero, Ne.symm hlen]
  · have hother : ∀ other, item ≠ binding_of entry other := not_exists.mp hitem
    rw [Function.update_of_ne (hother len), Function.update_of_ne (hother 0), held_take_other h _ hother]

end held

/-- A name that is the key of no binding and of no mapping. -/
def Plain (text : AddressText) (name : String) : Prop :=
  ∀ other, ¬ Collide text (.interface name) other

/-- A name without an underscore that is no number. -/
theorem plain_of_mem (text : AddressText) {name : String} (hunderscore : '_' ∉ name.toList) {c : Char}
    (hmem : c ∈ name.toList) (hdigit : c.isDigit = false) : Plain text name := by
  intro other hcollide
  cases other with
  | interface other => exact hcollide
  | binding itf pfx =>
    have hname : name = ietf_interface.KEY text itf pfx := hcollide
    rw [hname] at hunderscore
    exact hunderscore (by simp [ietf_interface.KEY])
  | mapping id index =>
    have hname : name = ietf_nat.KEY index := hcollide
    rw [hname] at hmem
    exact not_mem_repr _ hdigit hmem

/-- What can be configured without taking the key of anything else. -/
def Fit (text : AddressText) : configured_t → Prop
  | .interface name => Plain text name
  | .binding _ _ => True
  | .mapping id _ => id = 0

theorem not_collide_of_fit {text : AddressText} {first second : configured_t} (hfirst : Fit text first)
    (hsecond : Fit text second) (hdistinct : first ≠ second) : ¬ Collide text first second := by
  intro hcollide
  cases first with
  | interface name => exact hfirst second hcollide
  | binding itf pfx =>
    cases second with
    | interface name => exact hsecond (.binding itf pfx) hcollide
    | binding otherItf other => exact hcollide
    | mapping id index => exact hcollide
  | mapping id index =>
    cases second with
    | interface name => exact hsecond (.mapping id index) hcollide
    | binding itf pfx => exact hcollide
    | mapping otherId other =>
      have hindex : index = other := hcollide
      exact hdistinct (by rw [hfirst, hsecond, hindex])

/-- Items that are fit to be configured have keys of their own. -/
theorem alone_of_fit {text : AddressText} {wanted : configured_t → Option object}
    (hwanted : ∀ item, (wanted item).isSome → Fit text item) {item : configured_t} (hfit : Fit text item) :
    Alone (configured_t.key text) wanted item := by
  intro other hother hkey
  by_contra hdistinct
  exact not_collide_of_fit (hwanted other hother) hfit hdistinct ((key_eq_iff text hdistinct).mp hkey)

/-- OM, the interface instances and the NAT table are what a holding says, and nothing
    else is in OM. -/
structure Realises (env : Env) (w : World) (h : holding_t) : Prop where
  om : w.om.Renders (configured_t.key env.text) h.held
  shared : ∀ name, (h.cfg.interfaces name).isSome → (w.instances name).type = "ETHERNET"
  table : ∀ index, w.static_mapping_table index = (h.cfg.mappings index).map ietf_nat.mapping_pair
  plain : ∀ name, (h.cfg.interfaces name).isSome → Plain env.text name
  configured : ∀ entry ∈ h.stale, (h.cfg.addresses entry).isSome

section realises

variable {env : Env} {w : World} {h : holding_t}

theorem realises_empty (env : Env) : Realises env World.empty configuration_t.empty.exact where
  om := by
    intro entry
    refine iff_of_false (Finset.notMem_empty entry) ?_
    rintro ⟨item, -, hwanted⟩
    cases item <;> simp [configuration_t.wanted, configuration_t.empty] at hwanted
  shared := by simp [configuration_t.empty]
  table := by simp [World.empty, configuration_t.empty]
  plain := by simp [configuration_t.empty]
  configured := by simp [configuration_t.exact]

theorem Realises.of_same (hreal : Realises env w h) {after : World} (hsame : after.Same w) :
    Realises env after h where
  om := by rw [hsame.om]; exact hreal.om
  shared := by rw [hsame.instances]; exact hreal.shared
  table := by rw [hsame.static_mapping_table]; exact hreal.table
  plain := hreal.plain
  configured := hreal.configured

/-- A binding is held of a configured address only. -/
theorem Realises.configured_of_held (hreal : Realises env w h) {itf : String} {pfx : prefix_t}
    (hheld : (h.held (.binding itf pfx)).isSome) : (h.cfg.addresses (itf, pfx.addr)).isSome := by
  obtain ⟨obj, hobj⟩ := Option.isSome_iff_exists.mp hheld
  obtain ⟨-, hlen | ⟨-, hstale⟩⟩ := (held_binding_eq_some h).mp hobj
  · rw [hlen]
    rfl
  · exact hreal.configured _ hstale

theorem Realises.fit_of_held (hreal : Realises env w h) {item : configured_t} (hheld : (h.held item).isSome) :
    Fit env.text item := by
  cases item with
  | interface name => exact hreal.plain name (by simpa using hheld)
  | binding itf pfx => trivial
  | mapping id index =>
    by_contra hid
    have hother : ¬ id = 0 := hid
    simp [hother] at hheld

theorem Realises.alone (hreal : Realises env w h) {item : configured_t} (hfit : Fit env.text item) :
    Alone (configured_t.key env.text) h.held item :=
  alone_of_fit (fun _ => hreal.fit_of_held) hfit

/-- What a state holds can be read off it. -/
theorem Realises.held_eq (hreal : Realises env w h) {h' : holding_t} (hreal' : Realises env w h') :
    h.held = h'.held :=
  hreal.om.wanted_eq hreal'.om (fun _ hitem => hreal.alone (hreal'.fit_of_held hitem))
    fun _ hitem => hreal'.alone (hreal.fit_of_held hitem)

theorem held_address {entry : String × address} {len : UInt8} (hlen : h.cfg.addresses entry = some len) :
    h.held (binding_of entry len) = some (.l3_binding entry.1 ⟨entry.2, len⟩) :=
  (held_binding_eq_some h).mpr ⟨rfl, .inl hlen⟩

/-- VOM finds an interface exactly when something configured keeps it. -/
theorem Realises.alive_iff (hreal : Realises env w h) (hcounts : env.Counts) (name : String) :
    env.alive w.om name = true ↔ h.cfg.Present name := by
  rw [hcounts]
  constructor
  · rintro ⟨⟨key, obj⟩, hmem, hkeeps⟩
    obtain ⟨item, hkey, hheld⟩ := (hreal.om _).mp hmem
    cases item with
    | interface other =>
      obtain ⟨enabled, henabled, rfl⟩ := Option.map_eq_some_iff.mp hheld
      obtain rfl : other = name := by simpa [object.keeps] using hkeeps
      exact .inl (by simp [henabled])
    | binding itf pfx =>
      have hsome := hreal.configured_of_held (Option.isSome_of_mem hheld)
      obtain ⟨rfl, -⟩ := (held_binding_eq_some h).mp hheld
      obtain rfl : itf = name := by simpa [object.keeps] using hkeeps
      exact .inr ⟨pfx.addr, hsome⟩
    | mapping id index =>
      rw [held_mapping_eq] at hheld
      obtain ⟨-, hobj⟩ := Option.ite_none_right_eq_some.mp hheld
      obtain ⟨mapping, -, rfl⟩ := Option.map_eq_some_iff.mp hobj
      cases hkeeps
  · rintro (hsome | ⟨addr, hsome⟩)
    · obtain ⟨enabled, henabled⟩ := Option.isSome_iff_exists.mp hsome
      have hheld : h.held (.interface name) = some (.interface name (ethernet enabled)) := by simp [henabled]
      exact ⟨_, hreal.om.mem hheld, by simp [object.keeps]⟩
    · obtain ⟨len, hlen⟩ := Option.isSome_iff_exists.mp hsome
      exact ⟨_, hreal.om.mem (held_address hlen), by simp [object.keeps]⟩

end realises

/-- A call that agrees to an edit exactly when the configuration admits it, and
    that leaves the state that then is to be held exactly when the edit is carried
    over. -/
structure Refines (env : Env) (h : holding_t) (e : config_edit_t) (result : cb_result) : Prop where
  agrees : result.outcome = .ok .SR_ERR_OK ↔ e.Admitted h.cfg
  realises : Realises env result.world (e.step h) ↔ e.Faithful h.cfg

section refines

variable {env : Env} {h : holding_t} {e : config_edit_t} {result : cb_result}

theorem step_of_admitted (hadmitted : e.Admitted h.cfg) : e.step h = e.take h := if_pos hadmitted

theorem step_of_refused (hrefused : ¬ e.Admitted h.cfg) : e.step h = h := if_neg hrefused

theorem refines_of_admitted (hadmitted : e.Admitted h.cfg) (hfaithful : e.Faithful h.cfg)
    (houtcome : result.outcome = .ok .SR_ERR_OK) (hreal : Realises env result.world (e.take h)) :
    Refines env h e result :=
  ⟨iff_of_true houtcome hadmitted, iff_of_true (by rwa [step_of_admitted hadmitted]) hfaithful⟩

theorem refines_of_refused (hrefused : ¬ e.Admitted h.cfg) (hfaithful : e.Faithful h.cfg)
    (houtcome : result.outcome ≠ .ok .SR_ERR_OK) (hreal : Realises env result.world h) : Refines env h e result :=
  ⟨iff_of_false houtcome hrefused, iff_of_true (by rwa [step_of_refused hrefused]) hfaithful⟩

/-- Only a created address leaves something beside what is configured. -/
theorem step_exact {cfg : configuration_t}
    (hother : ∀ entry len, e = .address (.created entry len) → ¬ e.Admitted cfg) :
    e.step cfg.exact = (e.step cfg.exact).cfg.exact := by
  by_cases hadmitted : e.Admitted cfg
  · rw [step_of_admitted hadmitted]
    cases e with
    | interface e => rfl
    | mapping e => rfl
    | address e =>
      cases e with
      | created entry len => exact absurd hadmitted (hother entry len rfl)
      | deleted entry len => simp [config_edit_t.take, config_edit_t.leave, configuration_t.exact]
      | modified entry old new => rfl
  · rw [step_of_refused hadmitted, exact_cfg]

/-- The state is exactly what is then configured when the edit leaves nothing else. -/
theorem Refines.exact_iff {cfg : configuration_t} (hrefines : Refines env cfg.exact e result) :
    Realises env result.world (e.step cfg.exact).cfg.exact ↔ e.Exact cfg := by
  by_cases hcreated : ∃ entry len, e = .address (.created entry len) ∧ e.Admitted cfg
  · obtain ⟨entry, len, rfl, hadmitted⟩ := hcreated
    have hreal := hrefines.realises.mpr trivial
    have hstep := @step_of_admitted cfg.exact _ hadmitted
    have hlen : (config_edit_t.apply cfg (.address (.created entry len))).addresses entry = some len := by
      simp [config_edit_t.apply, edit.apply]
    rw [hstep] at hreal ⊢
    have hexact : (config_edit_t.address (.created entry len)).Exact cfg ↔ len = 0 := by
      simp only [config_edit_t.Exact, hadmitted.1, hadmitted.2, ne_eq, not_false_eq_true, forall_const]
    rw [hexact]
    constructor
    · intro hbare
      have hsame := congrFun (hreal.held_eq hbare) (binding_of entry 0)
      have hdouble : ((config_edit_t.address (.created entry len)).take cfg.exact).held (binding_of entry 0) =
          some (.l3_binding entry.1 ⟨entry.2, 0⟩) :=
        (held_binding_eq_some _).mpr ⟨rfl, .inr ⟨rfl, Set.mem_insert _ _⟩⟩
      rw [hdouble] at hsame
      obtain ⟨-, hzero | ⟨-, hstale⟩⟩ := (held_binding_eq_some _).mp hsame.symm
      · exact Option.some.inj (hlen.symm.trans hzero)
      · cases hstale
    · rintro rfl
      refine ⟨?_, hreal.shared, hreal.table, hreal.plain, by simp [configuration_t.exact]⟩
      have hsame : ((config_edit_t.address (.created entry 0)).take cfg.exact).held =
          ((config_edit_t.address (.created entry 0)).take cfg.exact).cfg.exact.held := by
        funext item
        cases item with
        | interface name => rfl
        | mapping id index => rfl
        | binding itf pfx =>
          rw [held_binding_eq_iff, held_binding_eq_some, held_binding_eq_some]
          refine and_congr_right fun _ => ⟨?_, ?_⟩
          · rintro (hheld | ⟨hzero, rfl | hstale⟩)
            · exact .inl hheld
            · exact .inl (by rw [hzero]; exact hlen)
            · cases hstale
          · rintro (hheld | ⟨-, hstale⟩)
            · exact .inl hheld
            · cases hstale
      rw [← hsame]
      exact hreal.om
  · have hother : ∀ entry len, e = .address (.created entry len) → ¬ e.Admitted cfg :=
      fun entry len he hadmitted => hcreated ⟨entry, len, he, hadmitted⟩
    rw [← step_exact hother, hrefines.realises]
    cases e with
    | interface e => exact Iff.rfl
    | mapping e => exact Iff.rfl
    | address e =>
      cases e with
      | created entry len =>
        exact iff_of_true trivial fun hname hpresent => absurd ⟨hname, hpresent⟩ (hother entry len rfl)
      | deleted entry len => exact Iff.rfl
      | modified entry old new => exact Iff.rfl

end refines

end sweetcomb
