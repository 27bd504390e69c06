import Sweetcomb.Ietf.Address.Inverse
import Sweetcomb.Ietf.Nat.Entry
import Sweetcomb.Subscribers

open keyed_store loop sweetcomb.ietf_interface

namespace sweetcomb

/-- What one configures: an interface, an address with its prefix length, or a
    NAT mapping of an instance. -/
inductive configured_t where
  | interface (name : String)
  | binding (itf : String) (pfx : prefix_t)
  | mapping (id index : UInt32)
deriving DecidableEq

/-- The key under which the plugins put an object in OM. There is one NAT table
    for all instances. -/
def configured_t.key (text : AddressText) : configured_t → String
  | .interface name => name
  | .binding itf pfx => ietf_interface.KEY text itf pfx
  | .mapping _ index => ietf_nat.KEY index

/-- Two different objects under one key: an interface named like the key of
    another object, or one index in two NAT instances. -/
def Collide (text : AddressText) : configured_t → configured_t → Prop
  | .interface name, .binding itf pfx => name = ietf_interface.KEY text itf pfx
  | .binding itf pfx, .interface name => name = ietf_interface.KEY text itf pfx
  | .interface name, .mapping _ index => name = ietf_nat.KEY index
  | .mapping _ index, .interface name => name = ietf_nat.KEY index
  | .mapping _ first, .mapping _ second => first = second
  | _, _ => False

section keys

variable (text : AddressText)

/-- The key of a binding has an underscore, and a number has none. -/
theorem binding_KEY_ne_mapping_KEY (itf : String) (pfx : prefix_t) (index : UInt32) :
    ietf_interface.KEY text itf pfx ≠ ietf_nat.KEY index := by
  intro heq
  have hunderscore : '_' ∈ (ietf_interface.KEY text itf pfx).toList := by simp [ietf_interface.KEY]
  rw [heq] at hunderscore
  exact not_mem_repr _ (by decide) hunderscore

theorem key_eq_iff {first second : configured_t} (hdistinct : first ≠ second) :
    first.key text = second.key text ↔ Collide text first second := by
  cases first with
  | interface name =>
    cases second with
    | interface other =>
      have hname : name ≠ other := fun h => hdistinct (by rw [h])
      simpa [configured_t.key, Collide] using hname
    | binding itf pfx => rfl
    | mapping id index => rfl
  | binding itf pfx =>
    cases second with
    | interface name => exact eq_comm
    | binding otherItf other =>
      have hbinding : ¬ (itf = otherItf ∧ pfx = other) := fun h => hdistinct (by rw [h.1, h.2])
      simpa only [configured_t.key, Collide, KEY_inj, iff_false] using hbinding
    | mapping id index => exact iff_of_false (binding_KEY_ne_mapping_KEY text itf pfx index) (fun h => h)
  | mapping id index =>
    cases second with
    | interface name => exact eq_comm
    | binding itf pfx => exact iff_of_false (binding_KEY_ne_mapping_KEY text itf pfx index).symm (fun h => h)
    | mapping otherId other => exact ietf_nat.KEY_injective.eq_iff

end keys

/-- The configured objects that an object in OM can be the realisation of. A mapping
    does not know its index nor its instance. -/
def object.Realises : object → configured_t → Prop
  | .interface name _, .interface other => name = other
  | .l3_binding itf pfx, .binding otherItf other => itf = otherItf ∧ pfx = other
  | .nat_static _ _, .mapping _ _ => True
  | _, _ => False

/-- The key is that of some configured object that the object realises. -/
def OwnKey (text : AddressText) (obj : object) (key : String) : Prop :=
  ∃ configured : configured_t, obj.Realises configured ∧ key = configured.key text

section keyed

variable {env : Env} {w : World}

theorem ownKey_interface (text : AddressText) (name : String) (attrs : interface_attrs) :
    OwnKey text (.interface name attrs) name :=
  ⟨.interface name, rfl, rfl⟩

theorem ownKey_binding (text : AddressText) (itf : String) (pfx : prefix_t) :
    OwnKey text (.l3_binding itf pfx) (ietf_interface.KEY text itf pfx) :=
  ⟨.binding itf pfx, ⟨rfl, rfl⟩, rfl⟩

theorem ownKey_mapping (text : AddressText) (inside outside : address) (index : UInt32) :
    OwnKey text (.nat_static inside outside) (ietf_nat.KEY index) :=
  ⟨.mapping 0 index, trivial, rfl⟩

/-- What follows the loop of an interface callback keeps every object under its
    own key. -/
theorem create_commit_keyed (l : create_locals) (hkeyed : l.world.om.Keyed (OwnKey env.text)) :
    (create_leave (create_commit env l)).world.om.Keyed (OwnKey env.text) := by
  cases hpending : pending l with
  | some written =>
    obtain ⟨key, attrs⟩ := written
    by_cases hwrite : env.write_rc l.world.writes = .OK
    · rw [(create_commit_written env hpending hwrite).2.1]
      exact hkeyed.write (ownKey_interface env.text key attrs)
    · rw [(create_commit_failed env hpending hwrite).2.1.om]
      exact hkeyed
  | none =>
    by_cases hflag : l.create = true ∨ l.modify = true
    · rw [(create_commit_rejected env hpending hflag).2.1.om]
      exact hkeyed
    · simp only [not_or, Bool.not_eq_true] at hflag
      cases hdropped : dropped l with
      | some name =>
        rw [(create_commit_removed env hdropped).2.1]
        exact hkeyed.remove name
      | none =>
        rw [(create_commit_nothing env hflag.1 hflag.2 hdropped).2.1.om]
        exact hkeyed

theorem create_run_keyed {start : create_locals} (hstart : start.world = w) (hkeyed : w.om.Keyed (OwnKey env.text))
    (changes : List change_t) : (create_run env start changes).world.om.Keyed (OwnKey env.text) := by
  have hfinal (before : List change_t) : (before.foldl advance start).world.om = w.om := by
    rw [foldl_advance_om, hstart]
  rcases accepted_or_split (accepts env start.world.om) changes with
    haccepts | ⟨before, change, after, rfl, haccepts, hrefused⟩
  · rw [create_run_accepted env start haccepts]
    exact create_commit_keyed _ (by rwa [hfinal])
  · rw [(create_run_refused env start after haccepts hrefused).2.1.om, hfinal]
    exact hkeyed

theorem config_run_keyed {start : create_locals} (hstart : start.world = w) (hkeyed : w.om.Keyed (OwnKey env.text))
    (changes : List change_t) :
    (openconfig_interfaces.config_run env start changes).world.om.Keyed (OwnKey env.text) := by
  have hfinal (before : List change_t) : (before.foldl advance start).world.om = w.om := by
    rw [foldl_advance_om, hstart]
  rcases accepted_or_split (openconfig_interfaces.shared env start.world.om) changes with
    hshared | ⟨before, change, after, rfl, hshared, hnot⟩
  · rw [openconfig_interfaces.config_run_shared env start hshared]
    exact create_commit_keyed _ (by rwa [hfinal])
  · rw [(openconfig_interfaces.config_run_left env start after hshared hnot).2.1.om, hfinal]
    exact hkeyed

theorem carried_out_keyed {state : Om × Nat} (hkeyed : state.1.Keyed (OwnKey env.text)) (rs : List request_t) :
    (rs.foldl (request_t.serve env) state).1.Keyed (OwnKey env.text) := by
  induction rs generalizing state with
  | nil => exact hkeyed
  | cons request rs ih =>
    refine ih ?_
    simp only [request_t.serve, request_t.operation]
    cases request.reaches env state with
    | none => exact hkeyed
    | some pfx =>
      by_cases hadd : request.add = true
      · by_cases hwrite : env.write_rc state.2 = .OK
        · simp only [hadd, hwrite, if_true, Option.elim_some]
          exact hkeyed.write (ownKey_binding env.text request.if_name pfx)
        · simp only [hadd, hwrite, if_true, if_false, Option.elim_none]
          exact hkeyed
      · simp only [hadd]
        exact hkeyed.remove _

theorem nat_cb_keyed (uninit : Uninit) (changes : List change_t) (hkeyed : w.om.Keyed (OwnKey env.text)) :
    (ietf_nat.nat_mapping_table_config_cb env uninit (verify changes) w).world.om.Keyed (OwnKey env.text) := by
  by_cases hok : (ietf_nat.nat_mapping_table_config_cb env uninit (verify changes) w).outcome = .ok .SR_ERR_OK
  · rcases accepted_or_split (ietf_nat.accepts env.text) changes with
      haccepts | ⟨before, change, after, rfl, haccepts, hrefused⟩
    · have hended := (ietf_nat.ended_same env uninit w changes).om
      rw [ietf_nat.nat_cb_accepted haccepts, ← ietf_nat.ended] at hok ⊢
      cases hcreate : (ietf_nat.ended env uninit w changes).create with
      | true =>
        cases hmapping : (ietf_nat.ended env uninit w changes).builder.mapping with
        | none =>
          rw [(ietf_nat.nat_commit_rejected env hcreate hmapping).2.om, hended]
          exact hkeyed
        | some pair =>
          by_cases hwrite : env.write_rc (ietf_nat.ended env uninit w changes).world.writes = .OK
          · rw [(ietf_nat.nat_commit_written env hcreate hmapping hwrite).2.1, hended]
            exact hkeyed.write (ownKey_mapping env.text pair.1 pair.2 _)
          · rw [(ietf_nat.nat_commit_failed env hcreate hmapping hwrite).2.om, hended]
            exact hkeyed
      | false =>
        cases hremove : (ietf_nat.ended env uninit w changes).remove with
        | true =>
          rw [(ietf_nat.nat_commit_removed env hcreate hremove).2.1, hended]
          exact hkeyed.remove _
        | false =>
          rw [(ietf_nat.nat_commit_nothing env hcreate hremove).2.om, hended]
          exact hkeyed
    · rw [(ietf_nat.nat_cb_refused haccepts hrefused).1] at hok
      exact absurd hok (ietf_nat.refusal_ne_ok change)
  · rw [(ietf_nat.nat_cb_rejected_same hok).om]
    exact hkeyed

theorem address_cb_keyed (delivery : delivery_t) (hkeyed : w.om.Keyed (OwnKey env.text)) :
    (ietf_interface_ipv46_address_change_cb env delivery w).world.om.Keyed (OwnKey env.text) := by
  unfold ietf_interface_ipv46_address_change_cb
  split
  · exact hkeyed
  · split
    · exact hkeyed
    · simp only
      split
      · exact hkeyed
      · rw [(foldlM_served env { iter := .obtained, world := w } delivery.changes).om]
        exact carried_out_keyed hkeyed _

end keyed

/-- Whatever is delivered to it, a callback keeps every object under its own
    key. -/
theorem subscriber_t.call_keyed (subscriber : subscriber_t) {env : Env} (uninit : Uninit) (delivery : delivery_t)
    {w : World} (hkeyed : w.om.Keyed (OwnKey env.text)) :
    (subscriber.call env uninit delivery w).world.om.Keyed (OwnKey env.text) := by
  obtain ⟨event, iter_rc, changes⟩ := delivery
  by_cases hevent : event = .SR_EV_VERIFY
  · subst hevent
    by_cases hiter : iter_rc = .SR_ERR_OK
    · subst hiter
      cases subscriber with
      | ietf_interface_create_cb =>
        simp only [call, create_cb_verify]
        exact create_run_keyed rfl hkeyed changes
      | ietf_interface_ipv46_address_change_cb => exact address_cb_keyed _ hkeyed
      | nat_mapping_table_config_cb => exact nat_cb_keyed uninit changes hkeyed
      | oc_interfaces_config_cb =>
        simp only [call, openconfig_interfaces.config_cb_verify]
        exact config_run_keyed rfl hkeyed changes
    · rw [(subscriber.unread_same env uninit iter_rc changes w hiter).om]
      exact hkeyed
  · cases subscriber with
    | ietf_interface_create_cb =>
      simp only [call, ietf_interface.ietf_interface_create_cb, ne_eq, hevent, not_false_eq_true, if_true]
      exact hkeyed
    | ietf_interface_ipv46_address_change_cb => exact address_cb_keyed _ hkeyed
    | nat_mapping_table_config_cb =>
      simp only [call, ietf_nat.nat_mapping_table_config_cb, ne_eq, hevent, not_false_eq_true, if_true]
      exact hkeyed
    | oc_interfaces_config_cb =>
      simp only [call, openconfig_interfaces.oc_interfaces_config_cb, ne_eq, hevent, not_false_eq_true, if_true]
      exact hkeyed

/-- A call of one of the callbacks, with all that is delivered to it. -/
structure call_t where
  subscriber : subscriber_t
  uninit : Uninit
  delivery : delivery_t

def call_t.step (env : Env) (w : World) (call : call_t) : World :=
  (call.subscriber.call env call.uninit call.delivery w).world

/-- A state that the callbacks can reach from an empty OM. -/
def Reachable (env : Env) (w : World) : Prop :=
  ∃ (start : World) (calls : List call_t), start.om = ∅ ∧ w = calls.foldl (call_t.step env) start

theorem reachable_keyed {env : Env} {w : World} (hreachable : Reachable env w) : w.om.Keyed (OwnKey env.text) := by
  obtain ⟨start, calls, hempty, rfl⟩ := hreachable
  have hstart : start.om.Keyed (OwnKey env.text) := by
    intro key obj hmem
    rw [hempty] at hmem
    exact absurd hmem (Finset.notMem_empty _)
  clear hempty
  induction calls generalizing start with
  | nil => exact hstart
  | cons call calls ih => exact ih _ (call.subscriber.call_keyed call.uninit call.delivery hstart)

/-- The callbacks put no binding under the key of another. -/
theorem reachable_filed {env : Env} {w : World} (hreachable : Reachable env w) : Filed env.text w.om := by
  intro itf pfx otherItf other hmem
  obtain ⟨configured, hrealises, hkey⟩ := reachable_keyed hreachable _ _ hmem
  cases configured with
  | interface name => exact False.elim hrealises
  | mapping id index => exact False.elim hrealises
  | binding ownItf own =>
    obtain ⟨rfl, rfl⟩ := hrealises
    obtain ⟨hitf, hpfx⟩ := (KEY_inj env.text).mp hkey
    exact ⟨hitf.symm, hpfx.symm⟩

end sweetcomb
