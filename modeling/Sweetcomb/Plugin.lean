import Sweetcomb.Plugin.Functions

namespace sweetcomb

variable {ι : Type}

/-- A call that the plugin makes on VOM's connection or on the whole of OM. -/
inductive hw_call where
  | hw_init
  | om_init
  | connect
  | populate
  | replay
  | disconnect
deriving DecidableEq

/-- The plugin between two calls of sysrepo. `connected` is the pid of the VPP
    instance that HW is connected to, and `cycle` the init functions run since
    the last cleanup, each with the code it returned. -/
structure plugin_t (ι : Type) where
  init_function_registrations : List (sc_function_list_elt_t ι)
  exit_function_registrations : List (sc_function_list_elt_t ι)
  vpp_pid_start : Int := 0
  connected : Option Int := none
  calls : List hw_call := []
  cycle : List (ι × sr_error_t) := []
deriving DecidableEq

/-- The plugin as it is loaded: registered, and nothing called. -/
def plugin_t.load (init exit : List ι) : plugin_t ι where
  init_function_registrations := init.map ({ func := · })
  exit_function_registrations := exit.map ({ func := · })

/-- The models of the plugin. Each registers an init and an exit function. -/
inductive model_t where
  | ietf_interface
  | ietf_nat
  | openconfig_interface
deriving DecidableEq

def model_t.load : plugin_t model_t :=
  .load [.ietf_nat, .openconfig_interface, .ietf_interface] [.ietf_nat, .openconfig_interface, .ietf_interface]

def plugin_t.call (plugin : plugin_t ι) (made : hw_call) : plugin_t ι :=
  { plugin with calls := plugin.calls ++ [made] }

/-- `HW::connect`, repeated until it succeeds, with the instance it reaches. -/
def plugin_t.connect (plugin : plugin_t ι) (vpp_pid : Int) : plugin_t ι :=
  { plugin.call .connect with connected := some vpp_pid }

def plugin_t.disconnect (plugin : plugin_t ι) : plugin_t ι :=
  { plugin.call .disconnect with connected := none }

/-- What `sr_plugin_init_cb` meets: the VPP instance that HW connects to, whether
    `OM::populate` throws, what each init function returns if it is run, and
    what `get_vpp_pid` yields at the end, the pid of that instance or an error
    code. -/
structure start_t (ι : Type) where
  vpp_pid : Int
  populate_throws : Bool := false
  func_rc : ι → sr_error_t
  get_vpp_pid : Int := vpp_pid
  running : 0 < vpp_pid := by decide
  found : get_vpp_pid < 0 ∨ get_vpp_pid = vpp_pid := by decide

/-- No value when the process exits. -/
def sr_plugin_init_cb (start : start_t ι) (plugin : plugin_t ι) : Option (sr_error_t × plugin_t ι) :=
  let plugin := (plugin.call .hw_init).call .om_init
  let plugin := (plugin.connect start.vpp_pid).call .populate
  if start.populate_throws then none
  else
    let pass := sc_call_all_init_function start.func_rc plugin.init_function_registrations
    let plugin := { plugin with
      init_function_registrations := pass.registrations
      cycle := plugin.cycle ++ pass.ran }
    if pass.ret ≠ .SR_ERR_OK then some (pass.ret, plugin)
    else
      let plugin := { plugin with vpp_pid_start := start.get_vpp_pid }
      if plugin.vpp_pid_start < 0 then some (.SR_ERR_DISCONNECT, plugin)
      else some (.SR_ERR_OK, plugin)

def sr_plugin_cleanup_cb (plugin : plugin_t ι) : plugin_t ι :=
  let called := (sc_call_all_exit_function plugin.exit_function_registrations).1
  { plugin.disconnect with exit_function_registrations := called, cycle := [] }

/-- VPP at a health check: running, or down with the error code that
    `get_vpp_pid` then yields and the pid of the instance that comes up before
    HW connects. -/
inductive vpp_t where
  | running (pid : Int) (hpid : 0 < pid := by decide)
  | down (code : Int) (fresh : Int) (hcode : code < 0 := by decide) (hfresh : 0 < fresh := by decide)

/-- What `get_vpp_pid` yields at the start of the check. -/
def vpp_t.get_vpp_pid : vpp_t → Int
  | .running pid _ => pid
  | .down code _ _ _ => code

/-- The instance that runs by the time HW has connected. -/
def vpp_t.reached : vpp_t → Int
  | .running pid _ => pid
  | .down _ fresh _ _ => fresh

def sr_plugin_health_check_cb (vpp : vpp_t) (plugin : plugin_t ι) : sr_error_t × plugin_t ι :=
  let vpp_pid_now := vpp.get_vpp_pid
  if vpp_pid_now = plugin.vpp_pid_start then (.SR_ERR_OK, plugin)
  else
    let plugin := (plugin.disconnect.connect vpp.reached).call .replay
    (.SR_ERR_OK, { plugin with vpp_pid_start := vpp_pid_now })

section fields

variable (plugin : plugin_t ι) (made : hw_call) (vpp_pid : Int)

@[simp] theorem plugin_t.call_init_function_registrations :
    (plugin.call made).init_function_registrations = plugin.init_function_registrations := rfl
@[simp] theorem plugin_t.call_cycle : (plugin.call made).cycle = plugin.cycle := rfl
@[simp] theorem plugin_t.call_connected : (plugin.call made).connected = plugin.connected := rfl

@[simp] theorem plugin_t.connect_init_function_registrations :
    (plugin.connect vpp_pid).init_function_registrations = plugin.init_function_registrations := rfl
@[simp] theorem plugin_t.connect_cycle : (plugin.connect vpp_pid).cycle = plugin.cycle := rfl
@[simp] theorem plugin_t.connect_connected : (plugin.connect vpp_pid).connected = some vpp_pid := rfl

end fields

section init

variable {start : start_t ι} {plugin : plugin_t ι}

/-- What is left by an initialisation that returns. -/
structure Started (start : start_t ι) (plugin : plugin_t ι) (rc : sr_error_t) (after : plugin_t ι) : Prop where
  registrations : after.init_function_registrations =
    (sc_call_all_init_function start.func_rc plugin.init_function_registrations).registrations
  cycle : after.cycle = plugin.cycle ++
    (sc_call_all_init_function start.func_rc plugin.init_function_registrations).ran
  connected : after.connected = some start.vpp_pid
  succeeds : rc = .SR_ERR_OK → after.vpp_pid_start = start.get_vpp_pid ∧ 0 ≤ start.get_vpp_pid

theorem Started.registered_iff {rc : sr_error_t} {after : plugin_t ι} (hstarted : Started start plugin rc after)
    (func : ι) : (∃ p ∈ after.init_function_registrations, p.func = func) ↔
      ∃ p ∈ plugin.init_function_registrations, p.func = func := by
  have hfuncs := sc_call_all_init_function_funcs start.func_rc plugin.init_function_registrations
  rw [← hstarted.registrations] at hfuncs
  rw [← List.mem_map, hfuncs, List.mem_map]

theorem sr_plugin_init_cb_exits_iff :
    sr_plugin_init_cb start plugin = none ↔ start.populate_throws = true := by
  cases hthrows : start.populate_throws with
  | true => simp [sr_plugin_init_cb, hthrows]
  | false =>
    simp only [sr_plugin_init_cb, hthrows, Bool.false_eq_true, if_false, iff_false]
    split
    · exact Option.some_ne_none _
    · split <;> exact Option.some_ne_none _

theorem sr_plugin_init_cb_started {rc : sr_error_t} {after : plugin_t ι}
    (hinit : sr_plugin_init_cb start plugin = some (rc, after)) : Started start plugin rc after := by
  simp only [sr_plugin_init_cb] at hinit
  split at hinit
  · cases hinit
  · split at hinit
    case isTrue hfails =>
      cases hinit
      exact ⟨by simp, by simp, by simp, fun hrc => absurd hrc hfails⟩
    case isFalse =>
      split at hinit
      case isTrue =>
        cases hinit
        exact ⟨by simp, by simp, by simp, fun hrc => by cases hrc⟩
      case isFalse hfound =>
        cases hinit
        exact ⟨by simp, by simp, by simp, fun _ => ⟨rfl, Int.not_lt.mp hfound⟩⟩

end init

end sweetcomb
