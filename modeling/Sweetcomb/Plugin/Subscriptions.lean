import Mathlib.Data.List.Nodup
import Sweetcomb.Plugin.Cycle

namespace sweetcomb

/-- The callbacks that the models subscribe. -/
inductive callback_name_t where
  | ietf_interface_create_cb
  | ietf_interface_ipv46_address_change_cb
  | ietf_interface_state_cb
  | interface_statistics_cb
  | nat_instance_config_cb
  | nat_mapping_table_config_cb
  | nat_cap_state_cb
  | oc_interfaces_config_cb
  | oc_interfaces_state_cb
deriving DecidableEq

/-- A call of `sr_subtree_change_subscribe` or of `sr_dp_get_items_subscribe`. -/
inductive subscription_t where
  | subtree_change (xpath : String) (callback : callback_name_t) (priority : Nat)
  | dp_get_items (xpath : String) (callback : callback_name_t)
deriving DecidableEq

/-- What is asked of the sysrepo session, with the subscription context that it
    is asked for. -/
inductive sr_call where
  | subscribe (context : Nat) (subscription : subscription_t)
  | unsubscribe (context : Nat)
deriving DecidableEq

def sr_call.context : sr_call → Nat
  | .subscribe context _ => context
  | .unsubscribe context => context

/-- `subscription` is the context of the plugin, `contexts` the number of those
    that the session has handed out. -/
structure subscription_main_t where
  subscription : Option Nat := none
  contexts : Nat := 0
  log : List sr_call := []

section subscribing

variable (rc : subscription_t → sr_error_t)

/-- With `SR_SUBSCR_CTX_REUSE` a subscription goes into the context that there is,
    or else into a new one. -/
def sr_subscribe (pm : subscription_main_t) (subscription : subscription_t) : subscription_main_t :=
  match pm.subscription with
  | some context => { pm with log := pm.log ++ [.subscribe context subscription] }
  | none =>
    { subscription := some pm.contexts
      contexts := pm.contexts + 1
      log := pm.log ++ [.subscribe pm.contexts subscription] }

/-- The subscriptions of an init function, up to the first that fails. -/
def subscribe_all : subscription_main_t → List subscription_t → sr_error_t × subscription_main_t
  | pm, [] => (.SR_ERR_OK, pm)
  | pm, subscription :: rest =>
    if rc subscription ≠ .SR_ERR_OK then (rc subscription, pm)
    else subscribe_all (sr_subscribe pm subscription) rest

def ietf_interface_init (pm : subscription_main_t) : sr_error_t × subscription_main_t :=
  subscribe_all rc pm
    [.subtree_change "/ietf-interfaces:interfaces/interface" .ietf_interface_create_cb 100,
      .subtree_change "/ietf-interfaces:interfaces/interface/ietf-ip:ipv4/address"
        .ietf_interface_ipv46_address_change_cb 99,
      .subtree_change "/ietf-interfaces:interfaces/interface/ietf-ip:ipv6/address"
        .ietf_interface_ipv46_address_change_cb 98,
      .dp_get_items "/ietf-interfaces:interfaces-state" .ietf_interface_state_cb,
      .dp_get_items "/ietf-interfaces:interfaces-state/interface/statistics" .interface_statistics_cb]

def ietf_nat_init (pm : subscription_main_t) : sr_error_t × subscription_main_t :=
  subscribe_all rc pm
    [.subtree_change "/ietf-nat:nat/instances/instance" .nat_instance_config_cb 1,
      .subtree_change "/ietf-nat:nat/instances/instance/mapping-table/mapping-entry"
        .nat_mapping_table_config_cb 10,
      .dp_get_items "/ietf-nat:nat/instances/instance/capabilities" .nat_cap_state_cb]

def openconfig_interface_init (pm : subscription_main_t) : sr_error_t × subscription_main_t :=
  subscribe_all rc pm
    [.subtree_change "/openconfig-interfaces:interfaces/interface/config" .oc_interfaces_config_cb 98,
      .dp_get_items "/openconfig-interfaces:interfaces/interface/state" .oc_interfaces_state_cb]

def model_t.init (model : model_t) : subscription_main_t → sr_error_t × subscription_main_t :=
  match model with
  | .ietf_interface => ietf_interface_init rc
  | .ietf_nat => ietf_nat_init rc
  | .openconfig_interface => openconfig_interface_init rc

end subscribing

/-- What an initialisation of the plugin meets, with the results of the
    subscriptions that it makes. -/
structure attempt_t where
  vpp_pid : Int
  populate_throws : Bool := false
  rc : subscription_t → sr_error_t
  get_vpp_pid : Int := vpp_pid
  running : 0 < vpp_pid := by decide
  found : get_vpp_pid < 0 ∨ get_vpp_pid = vpp_pid := by decide

/-- What a model returns does not depend on the context it subscribes in. -/
def attempt_t.start (attempt : attempt_t) : start_t model_t where
  vpp_pid := attempt.vpp_pid
  populate_throws := attempt.populate_throws
  func_rc model := (model.init attempt.rc {}).1
  get_vpp_pid := attempt.get_vpp_pid
  running := attempt.running
  found := attempt.found

/-- The plugin with its subscriptions, and the private context that sysrepo keeps
    for it. -/
structure subscribed_t where
  plugin : plugin_t model_t
  pm : subscription_main_t
  private_ctx : Option Nat

def subscribed_t.load : subscribed_t where
  plugin := model_t.load
  pm := {}
  private_ctx := none

inductive subscribed_call where
  | init (attempt : attempt_t)
  | cleanup

/-- The init functions that are run subscribe one after the other. The private
    context is set once all have succeeded, before VPP is looked for. -/
def subscribed_t.init (s : subscribed_t) (attempt : attempt_t) : Option subscribed_t :=
  (sr_plugin_init_cb attempt.start s.plugin).map fun (_, plugin) =>
    let pass := sc_call_all_init_function attempt.start.func_rc s.plugin.init_function_registrations
    let pm := pass.ran.foldl (fun pm ran => (ran.1.init attempt.rc pm).2) s.pm
    { plugin
      pm
      private_ctx := if pass.ret = .SR_ERR_OK then pm.subscription else s.private_ctx }

/-- The context is released but not forgotten. -/
def subscribed_t.cleanup (s : subscribed_t) : subscribed_t :=
  { s with
    plugin := sr_plugin_cleanup_cb s.plugin
    pm := { s.pm with log := s.pm.log ++ s.private_ctx.toList.map .unsubscribe } }

/-- A process, until it has exited, after one more call. -/
def subscribed_step : Option subscribed_t → subscribed_call → Option subscribed_t
  | some s, .init attempt => s.init attempt
  | some s, .cleanup => some s.cleanup
  | none, _ => none

section waiting

variable {ι : Type}

/-- The functions that a pass has still to run, in their order. -/
def waiting (registrations : List (sc_function_list_elt_t ι)) : List ι :=
  (registrations.filter fun p => !p.is_called).map (·.func)

/-- A pass runs the first of them, and leaves the rest for the next one. -/
theorem waiting_eq_ran (func_rc : ι → sr_error_t) (registrations : List (sc_function_list_elt_t ι)) :
    waiting registrations = (sc_call_all_init_function func_rc registrations).ran.map Prod.fst ++
      waiting (sc_call_all_init_function func_rc registrations).registrations := by
  induction registrations with
  | nil => rfl
  | cons p next ih =>
    cases hcalled : p.is_called with
    | true =>
      rw [sc_call_all_init_function_called func_rc next hcalled]
      simpa [waiting, hcalled] using ih
    | false =>
      by_cases hrc : func_rc p.func = .SR_ERR_OK
      · rw [sc_call_all_init_function_succeeds next hcalled hrc]
        simpa [waiting, hcalled] using ih
      · rw [sc_call_all_init_function_fails next hcalled hrc]
        simp [waiting, hcalled]

theorem waiting_of_ok {func_rc : ι → sr_error_t} {registrations : List (sc_function_list_elt_t ι)}
    (hok : (sc_call_all_init_function func_rc registrations).ret = .SR_ERR_OK) :
    waiting (sc_call_all_init_function func_rc registrations).registrations = [] := by
  have hcalled := called_of_ok func_rc hok
  rw [waiting, List.map_eq_nil_iff, List.filter_eq_nil_iff]
  intro p hp
  simp [hcalled p hp]

/-- The code recorded for a function is the one that it returns. -/
theorem rc_of_mem_ran {func_rc : ι → sr_error_t} {registrations : List (sc_function_list_elt_t ι)}
    {ran : ι × sr_error_t} (hran : ran ∈ (sc_call_all_init_function func_rc registrations).ran) :
    ran.2 = func_rc ran.1 := by
  induction registrations with
  | nil => simp at hran
  | cons p next ih =>
    cases hcalled : p.is_called with
    | true =>
      rw [sc_call_all_init_function_called func_rc next hcalled] at hran
      exact ih hran
    | false =>
      by_cases hrc : func_rc p.func = .SR_ERR_OK
      · rw [sc_call_all_init_function_succeeds next hcalled hrc, List.mem_cons] at hran
        rcases hran with rfl | hran
        · exact hrc.symm
        · exact ih hran
      · rw [sc_call_all_init_function_fails next hcalled hrc, List.mem_singleton] at hran
        rw [hran]

end waiting

/-- What has been subscribed, in order. -/
def subscribed (log : List sr_call) : List subscription_t :=
  log.filterMap fun
    | .subscribe _ subscription => some subscription
    | .unsubscribe _ => none

/-- The subscriptions of a model, when none fails. -/
def model_t.subscriptions (model : model_t) : List subscription_t :=
  subscribed (model.init (fun _ => .SR_ERR_OK) {}).2.log

/-- Every init function goes through the subscriptions of its model. -/
theorem model_t.init_eq (model : model_t) (rc : subscription_t → sr_error_t) (pm : subscription_main_t) :
    model.init rc pm = subscribe_all rc pm model.subscriptions := by
  cases model <;> rfl

theorem subscriptions_nodup (model : model_t) : model.subscriptions.Nodup := by
  cases model <;> decide

/-- No subscription is made for two models. -/
theorem model_of_subscription {model other : model_t} {subscription : subscription_t}
    (hmem : subscription ∈ model.subscriptions) (hother : subscription ∈ other.subscriptions) : model = other := by
  revert subscription
  cases model <;> cases other <;> decide

/-- All that has been asked of the session are these subscriptions, in one
    context. -/
structure Holding (pm : subscription_main_t) (made : List subscription_t) : Prop where
  log : pm.log = made.map (.subscribe 0)
  context : pm.subscription = if made = [] then none else some 0
  contexts : pm.contexts = if made = [] then 0 else 1

theorem Holding.subscribe {pm : subscription_main_t} {made : List subscription_t} (hholding : Holding pm made)
    (subscription : subscription_t) : Holding (sr_subscribe pm subscription) (made ++ [subscription]) := by
  obtain ⟨hlog, hcontext, hcontexts⟩ := hholding
  by_cases hnone : made = []
  · rw [if_pos hnone] at hcontext hcontexts
    simp only [sr_subscribe, hcontext]
    exact ⟨by simp [hlog, hcontexts], by simp [hcontexts], by simp [hcontexts]⟩
  · rw [if_neg hnone] at hcontext hcontexts
    simp only [sr_subscribe, hcontext]
    exact ⟨by simp [hlog], by simp, by simp [hcontexts]⟩

/-- An init function makes the first of its subscriptions, and all of them when it
    succeeds. -/
theorem subscribe_all_holding (rc : subscription_t → sr_error_t) {pm : subscription_main_t} {made : List subscription_t}
    (hholding : Holding pm made) (subscriptions : List subscription_t) :
    ∃ added, added <+: subscriptions ∧ Holding (subscribe_all rc pm subscriptions).2 (made ++ added) ∧
      ((subscribe_all rc pm subscriptions).1 = .SR_ERR_OK → added = subscriptions) := by
  induction subscriptions generalizing pm made with
  | nil => exact ⟨[], List.prefix_rfl, by rwa [List.append_nil], fun _ => rfl⟩
  | cons subscription rest ih =>
    by_cases hrc : rc subscription = .SR_ERR_OK
    · obtain ⟨added, hfirst, hafter, hall⟩ := ih (hholding.subscribe subscription)
      refine ⟨subscription :: added, List.cons_prefix_cons.mpr ⟨rfl, hfirst⟩, ?_, ?_⟩
      · simpa [subscribe_all, hrc] using hafter
      · intro hok
        rw [hall (by simpa [subscribe_all, hrc] using hok)]
    · refine ⟨[], List.nil_prefix, ?_, fun hok => absurd hok ?_⟩
      · simpa [subscribe_all, hrc] using hholding
      · simp [subscribe_all, hrc]

/-- What a model returns does not depend on what has been subscribed before. -/
theorem subscribe_all_rc (rc : subscription_t → sr_error_t) (pm other : subscription_main_t)
    (subscriptions : List subscription_t) :
    (subscribe_all rc pm subscriptions).1 = (subscribe_all rc other subscriptions).1 := by
  induction subscriptions generalizing pm other with
  | nil => rfl
  | cons subscription rest ih =>
    by_cases hrc : rc subscription = .SR_ERR_OK
    · simpa [subscribe_all, hrc] using ih (sr_subscribe pm subscription) (sr_subscribe other subscription)
    · simp [subscribe_all, hrc]

/-- Every subscription made is one of a model that has been run. -/
structure Made (made : List subscription_t) (left : List model_t) : Prop where
  nodup : made.Nodup
  ran : ∀ subscription ∈ made, ∀ model ∈ left, subscription ∉ model.subscriptions

/-- The init functions of some models, one after the other. -/
theorem foldl_init_holding {attempt : attempt_t} {pm : subscription_main_t} {made : List subscription_t}
    {ran : List (model_t × sr_error_t)} {left : List model_t} (hholding : Holding pm made)
    (hmade : Made made (ran.map Prod.fst ++ left)) (hdistinct : (ran.map Prod.fst ++ left).Nodup)
    (hrc : ∀ model rc, (model, rc) ∈ ran → rc = (model.init attempt.rc {}).1) :
    ∃ added, Holding (ran.foldl (fun pm ran => (ran.1.init attempt.rc pm).2) pm) (made ++ added) ∧
      Made (made ++ added) left ∧
      ∀ model, (model, sr_error_t.SR_ERR_OK) ∈ ran → model.subscriptions ⊆ added := by
  induction ran generalizing pm made with
  | nil => exact ⟨[], by simpa using hholding, by simpa using hmade, nofun⟩
  | cons first ran ih =>
    obtain ⟨model, rc⟩ := first
    obtain ⟨new, hinitial, hafter, hall⟩ := subscribe_all_holding attempt.rc hholding model.subscriptions
    rw [← model_t.init_eq] at hafter hall
    obtain ⟨hfirst, hrest⟩ := List.nodup_cons.mp hdistinct
    have hnew : Made (made ++ new) (ran.map Prod.fst ++ left) := by
      refine ⟨?_, ?_⟩
      · refine List.Nodup.append hmade.nodup ((subscriptions_nodup model).sublist hinitial.sublist) ?_
        intro subscription hold hmem
        exact hmade.ran subscription hold model List.mem_cons_self (hinitial.subset hmem)
      · intro subscription hmem other hother hits
        rcases List.mem_append.mp hmem with hold | hadded
        · exact hmade.ran subscription hold other (List.mem_cons_of_mem _ hother) hits
        · obtain rfl := model_of_subscription (hinitial.subset hadded) hits
          exact hfirst hother
    obtain ⟨added, hlast, hleft, hsucceeded⟩ := ih hafter hnew hrest fun other rc hmem =>
      hrc other rc (List.mem_cons_of_mem _ hmem)
    refine ⟨new ++ added, by rwa [← List.append_assoc], by rwa [← List.append_assoc], ?_⟩
    intro other hmem
    rcases List.mem_cons.mp hmem with heq | hmem
    · obtain ⟨rfl, rfl⟩ := Prod.mk.inj heq
      have hok : (other.init attempt.rc pm).1 = .SR_ERR_OK := by
        rw [model_t.init_eq, subscribe_all_rc attempt.rc pm {}, ← model_t.init_eq]
        exact (hrc other _ List.mem_cons_self).symm
      rw [hall hok]
      exact List.subset_append_left _ _
    · exact List.subset_append_of_subset_right _ (hsucceeded other hmem)

end sweetcomb
