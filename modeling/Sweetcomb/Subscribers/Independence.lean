import Sweetcomb.Ietf.Interface.Entry
import Sweetcomb.Ietf.Nat.Sync
import Sweetcomb.Simulation
import Sweetcomb.Subscribers.Sides
import Sweetcomb.Subscribers.Survival

open datastore keyed_store runs simulation sweetcomb.ietf_interface

namespace sweetcomb

/-- A call names no interface by a number. -/
def call_t.Numberless (call : call_t) : Prop :=
  match call.subscriber with
  | .ietf_interface_create_cb => sweetcomb.Numberless call.delivery.changes
  | .oc_interfaces_config_cb => sweetcomb.Numberless call.delivery.changes
  | _ => True

section calls

variable {env : Env} {side : side_t} {call : call_t}

/-- A callback of one side leaves the other as it is. -/
theorem call_leaves (hnumberless : call.Numberless) (hother : call.subscriber.side ≠ side) (w : World) :
    Leaves side w (call.step env w) := by
  obtain ⟨subscriber, uninit, delivery⟩ := call
  by_cases hreads : subscriber.Reads delivery
  · rw [call_t.step, subscriber_t.call_reads env uninit hreads]
    cases subscriber with
    | nat_mapping_table_config_cb =>
      obtain rfl : side = .interfaces := by cases side <;> trivial
      exact nat_cb_leaves w delivery.changes
    | ietf_interface_create_cb =>
      obtain rfl : side = .mappings := by cases side <;> trivial
      exact (create_goes env).leaves (starts_create uninit w) hnumberless
    | ietf_interface_ipv46_address_change_cb =>
      obtain rfl : side = .mappings := by cases side <;> trivial
      exact address_run_leaves w delivery.changes
    | oc_interfaces_config_cb =>
      obtain rfl : side = .mappings := by cases side <;> trivial
      exact (config_goes env).leaves (openconfig_interfaces.starts_config uninit w) hnumberless
  · exact leaves_of_same side (subscriber_t.call_unread env uninit hreads w).2

theorem call_sorted (hnumberless : call.Numberless) {w : World} (hsorted : Sorted w.om) :
    Sorted (call.step env w).om := by
  cases hside : call.subscriber.side with
  | interfaces =>
    have hleaves : Leaves .mappings w (call.step env w) := call_leaves hnumberless (by simp [hside]) w
    exact hleaves.sorted hsorted
  | mappings =>
    have hleaves : Leaves .interfaces w (call.step env w) := call_leaves hnumberless (by simp [hside]) w
    exact hleaves.sorted hsorted

/-- A callback does the same in states that its side cannot tell apart. -/
theorem call_alike (hcounts : env.Counts) {first second : World} (hagrees : Agrees call.subscriber.side first second)
    (hwrites : first.writes = second.writes) (hfirst : Sorted first.om) (hsecond : Sorted second.om) :
    AlikeOn call.subscriber.side (call.subscriber.call env call.uninit call.delivery first)
      (call.subscriber.call env call.uninit call.delivery second) := by
  obtain ⟨subscriber, uninit, delivery⟩ := call
  by_cases hreads : subscriber.Reads delivery
  · rw [subscriber_t.call_reads env uninit hreads, subscriber_t.call_reads env uninit hreads]
    cases subscriber with
    | nat_mapping_table_config_cb => exact nat_cb_alike hagrees hwrites delivery.changes
    | ietf_interface_create_cb =>
      have halive := alive_eq hcounts hagrees.om hfirst hsecond
      have hbeside : Beside (create_start uninit first) (create_start uninit second) :=
        ⟨rfl, rfl, rfl, rfl, rfl, hwrites, hagrees⟩
      refine (create_goes env).alike hbeside ?_ delivery.changes
      funext change
      simp only [accepts, create_start, halive]
    | ietf_interface_ipv46_address_change_cb =>
      exact address_run_alike hcounts ⟨hagrees.om, hwrites, hfirst, hsecond⟩ (hagrees.instances rfl) delivery.changes
    | oc_interfaces_config_cb =>
      have halive := alive_eq hcounts hagrees.om hfirst hsecond
      have hbeside : Beside (openconfig_interfaces.config_start uninit first)
          (openconfig_interfaces.config_start uninit second) := ⟨rfl, rfl, rfl, rfl, rfl, hwrites, hagrees⟩
      refine (config_goes env).alike hbeside ?_ delivery.changes
      funext change
      simp only [openconfig_interfaces.shared, accepts, openconfig_interfaces.config_start, halive]
  · obtain ⟨hends, hsame⟩ := subscriber_t.call_unread env uninit hreads first
    obtain ⟨hends', hsame'⟩ := subscriber_t.call_unread env uninit hreads second
    exact ⟨hends.trans hends'.symm, (agrees_of_same _ hsame).trans (hagrees.trans (agrees_of_same _ hsame'.symm))⟩

/-- It crashes in neither of them or in both. -/
theorem call_survives_alike (hcounts : env.Counts) {first second : World}
    (hagrees : Agrees call.subscriber.side first second) (hwrites : first.writes = second.writes)
    (hfirst : Sorted first.om) (hsecond : Sorted second.om) :
    (call.subscriber.call env call.uninit call.delivery first).survives first =
      (call.subscriber.call env call.uninit call.delivery second).survives second := by
  have hstays : call.subscriber.stays env first.om = call.subscriber.stays env second.om := by
    obtain ⟨subscriber, uninit, delivery⟩ := call
    cases subscriber with
    | nat_mapping_table_config_cb | ietf_interface_ipv46_address_change_cb => rfl
    | ietf_interface_create_cb | oc_interfaces_config_cb =>
      have halive := alive_eq hcounts hagrees.om hfirst hsecond
      funext change
      simp only [subscriber_t.stays, openconfig_interfaces.shared, accepts, halive]
  rw [Bool.eq_iff_iff, subscriber_t.call_survives_iff, subscriber_t.call_survives_iff,
    subscriber_t.withstands_congr hstays hwrites]

end calls

/-- A call, with the number of the first write that it makes. The results of the
    writes are its own, whatever has been called before it. -/
structure placed_t where
  call : call_t
  writes : Nat

def placed_t.result (env : Env) (w : World) (placed : placed_t) : cb_result :=
  placed.call.subscriber.call env placed.call.uninit placed.call.delivery { w with writes := placed.writes }

/-- The code of a call that the process survives, and the state that it leaves. -/
def placed_t.returns (env : Env) (w : World) (placed : placed_t) : Option (sr_error_t × World) :=
  let result := placed.result env w
  if result.survives w then result.outcome.toOption.map fun rc => (rc, result.world) else none

/-- The plugins, called back in any order. A call that crashes is the end of the
    process: it gives no answer, and no later call is made. -/
def plugins_machine (env : Env) : Machine (Option World) placed_t (Option sr_error_t) where
  step process placed := process.bind fun w => (placed.returns env w).map Prod.snd
  answer process placed := process.bind fun w => (placed.returns env w).map Prod.fst

/-- The process does not end at a call. -/
def Outlives (env : Env) (process : Option World) (placed : placed_t) : Prop :=
  ∀ w, process = some w → (placed.result env w).survives w = true

section process

variable {env : Env} {w : World} {placed : placed_t}

theorem returns_of_survives (hsurvives : (placed.result env w).survives w = true) :
    ∃ rc, (placed.result env w).outcome = .ok rc ∧ placed.returns env w = some (rc, (placed.result env w).world) := by
  have hreturns : (placed.result env w).outcome.isOk = true := by
    rw [cb_result.survives, Bool.and_eq_true] at hsurvives
    exact hsurvives.1
  cases houtcome : (placed.result env w).outcome with
  | error fault =>
    rw [houtcome] at hreturns
    cases hreturns
  | ok rc => exact ⟨rc, rfl, by simp [placed_t.returns, hsurvives, houtcome, Except.toOption]⟩

theorem returns_of_not_survives (hcrashes : (placed.result env w).survives w = false) :
    placed.returns env w = none := by
  simp [placed_t.returns, hcrashes]

theorem step_isSome : ((plugins_machine env).step (some w) placed).isSome = (placed.result env w).survives w := by
  cases hsurvives : (placed.result env w).survives w with
  | true =>
    obtain ⟨rc, _, hreturns⟩ := returns_of_survives hsurvives
    simp [plugins_machine, hreturns]
  | false => simp [plugins_machine, returns_of_not_survives hsurvives]

/-- A process that is there at the end has survived every call. -/
theorem run_isSome_iff {process : Option World} {calls : List placed_t} :
    ((plugins_machine env).run process calls).isSome = true ↔
      process.isSome = true ∧ Along (plugins_machine env).step (Outlives env) process calls := by
  induction calls generalizing process with
  | nil => simp [Machine.run]
  | cons placed calls ih =>
    rw [along_cons]
    refine Iff.trans ih ?_
    cases process with
    | none => simp [plugins_machine]
    | some w =>
      rw [step_isSome]
      simp [Outlives]

end process

/-- The calls of one side. -/
def side_t.sees (side : side_t) (placed : placed_t) : Option placed_t :=
  if placed.call.subscriber.side = side then some placed else none

theorem sees_eq_some {side : side_t} {placed seen : placed_t} :
    side.sees placed = some seen ↔ placed.call.subscriber.side = side ∧ placed = seen := by
  simp [side_t.sees]

theorem sees_eq_none {side : side_t} {placed : placed_t} :
    side.sees placed = none ↔ placed.call.subscriber.side ≠ side := by
  simp [side_t.sees]

/-- Processes that a side cannot tell apart, with the numbers left to the
    mappings. -/
inductive Indistinct (side : side_t) : Option World → Option World → Prop
  | ended : Indistinct side none none
  | running {first second : World} (hagrees : Agrees side first second) (hfirst : Sorted first.om)
    (hsecond : Sorted second.om) : Indistinct side (some first) (some second)

theorem Indistinct.rel {side : side_t} {first second : Option World} (hindistinct : Indistinct side first second) :
    Option.Rel (Agrees side) first second := by
  cases hindistinct with
  | ended => exact .none
  | running hagrees _ _ => exact .some hagrees

theorem Indistinct.isSome_eq {side : side_t} {first second : Option World}
    (hindistinct : Indistinct side first second) : first.isSome = second.isSome := by
  cases hindistinct <;> rfl

/-- What a side cannot tell from one process it cannot tell apart. -/
theorem Indistinct.agrees {side : side_t} {alone : Option World} {first second : World}
    (hfirst : Indistinct side alone (some first)) (hsecond : Indistinct side alone (some second)) :
    Agrees side first second := by
  cases hfirst with
  | running hagrees _ _ =>
    cases hsecond with
    | running hagrees' _ _ => exact hagrees.symm.trans hagrees'

theorem agrees_writes (side : side_t) (w : World) (writes : Nat) : Agrees side { w with writes } w :=
  ⟨.refl _ _, fun _ => rfl, fun _ => rfl⟩

section independence

variable {env : Env} (hcounts : env.Counts)

include hcounts

/-- A call of a side is answered alike, and ends neither process or both. -/
theorem Indistinct.call {side : side_t} {first second : Option World} (hindistinct : Indistinct side first second)
    {placed : placed_t} (hside : placed.call.subscriber.side = side) (hnumberless : placed.call.Numberless) :
    (plugins_machine env).answer second placed = (plugins_machine env).answer first placed ∧
      Indistinct side ((plugins_machine env).step first placed) ((plugins_machine env).step second placed) := by
  subst hside
  cases hindistinct with
  | ended => exact ⟨rfl, .ended⟩
  | @running first second hagrees hfirst hsecond =>
    have hbefore : Agrees placed.call.subscriber.side { first with writes := placed.writes }
        { second with writes := placed.writes } :=
      (agrees_writes _ first placed.writes).trans (hagrees.trans (agrees_writes _ second placed.writes).symm)
    have halike : AlikeOn placed.call.subscriber.side (placed.result env first) (placed.result env second) :=
      call_alike hcounts hbefore rfl hfirst hsecond
    have hsurvives : (placed.result env first).survives first = (placed.result env second).survives second :=
      call_survives_alike hcounts hbefore rfl hfirst hsecond
    cases hends : (placed.result env second).survives second with
    | false =>
      simp only [plugins_machine, Option.bind_some, returns_of_not_survives hends,
        returns_of_not_survives (hsurvives.trans hends), Option.map_none, true_and]
      exact .ended
    | true =>
      obtain ⟨rc, houtcome, hreturns⟩ := returns_of_survives (hsurvives.trans hends)
      obtain ⟨rc', houtcome', hreturns'⟩ := returns_of_survives hends
      obtain rfl : rc = rc' := by
        have hsame := halike.outcome
        rw [houtcome, houtcome'] at hsame
        exact Except.ok.inj hsame
      simp only [plugins_machine, Option.bind_some, hreturns, hreturns', Option.map_some, true_and]
      exact .running halike.world (call_sorted hnumberless hfirst) (call_sorted hnumberless hsecond)

omit hcounts in
/-- A call of the other side that the process survives is not noticed. -/
theorem Indistinct.other {side : side_t} {first second : Option World} (hindistinct : Indistinct side first second)
    {placed : placed_t} (hside : placed.call.subscriber.side ≠ side) (hnumberless : placed.call.Numberless)
    (hsurvives : Outlives env second placed) : Indistinct side first ((plugins_machine env).step second placed) := by
  cases hindistinct with
  | ended => exact .ended
  | @running first second hagrees hfirst hsecond =>
    obtain ⟨rc, _, hreturns⟩ := returns_of_survives (hsurvives second rfl)
    simp only [plugins_machine, Option.bind_some, hreturns, Option.map_some]
    have hleaves := @call_leaves env side placed.call hnumberless hside { second with writes := placed.writes }
    refine .running (hagrees.trans ?_) hfirst (call_sorted hnumberless hsecond)
    exact (agrees_writes side second placed.writes).symm.trans hleaves.agrees.symm

/-- The process survives the calls of the other side. -/
abbrev OthersSurvive (env : Env) (side : side_t) (process : Option World) (placed : placed_t) : Prop :=
  placed.call.subscriber.side ≠ side → Outlives env process placed

theorem side_simulates (side : side_t) : Simulates (plugins_machine env) (plugins_machine env) side.sees
    (Indistinct side) (fun process placed => placed.call.Numberless ∧ OthersSurvive env side process placed) := by
  refine ⟨?_, ?_, ?_⟩
  · intro first second placed seen hindistinct hadmits hsees
    obtain ⟨hside, rfl⟩ := sees_eq_some.mp hsees
    exact (hindistinct.call hcounts hside hadmits.1).1
  · intro first second placed seen hindistinct hadmits hsees
    obtain ⟨hside, rfl⟩ := sees_eq_some.mp hsees
    exact (hindistinct.call hcounts hside hadmits.1).2
  · intro first second placed hindistinct hadmits hsees
    have hside := sees_eq_none.mp hsees
    exact hindistinct.other hside hadmits.1 (hadmits.2 hside)

theorem side_run {w : World} (hsorted : Sorted w.om) {calls : List placed_t}
    (hnumberless : ∀ placed ∈ calls, placed.call.Numberless) {side : side_t}
    (hothers : Along (plugins_machine env).step (OthersSurvive env side) (some w) calls) :
    (plugins_machine env).answers side.sees (some w) calls =
        (plugins_machine env).answers some (some w) (calls.filterMap side.sees) ∧
      Indistinct side ((plugins_machine env).run (some w) (calls.filterMap side.sees))
        ((plugins_machine env).run (some w) calls) :=
  (side_simulates hcounts side).run (.running (.refl side w) hsorted hsorted)
    (along_and.mpr ⟨along_forall.mpr hnumberless, hothers⟩)

/-- Neither side notices the other: over any run of callbacks, whatever they are
    delivered and however their writes end, the calls of a side are answered as they
    are without the calls of the other, and leave the side as it then is, or the
    process ended, as long as none of the other side ends it. -/
theorem sides_independent {w : World} (hsorted : Sorted w.om) {calls : List placed_t}
    (hnumberless : ∀ placed ∈ calls, placed.call.Numberless) {side : side_t}
    (hothers : Along (plugins_machine env).step (OthersSurvive env side) (some w) calls) :
    (plugins_machine env).answers side.sees (some w) calls =
        (plugins_machine env).answers some (some w) (calls.filterMap side.sees) ∧
      Option.Rel (Agrees side) ((plugins_machine env).run (some w) (calls.filterMap side.sees))
        ((plugins_machine env).run (some w) calls) := by
  obtain ⟨hanswers, hindistinct⟩ := side_run hcounts hsorted hnumberless hothers
  exact ⟨hanswers, hindistinct.rel⟩

/-- A process survives the calls of both sides if it survives those of each. The
    induction is on the calls, with the process that each side has alone. -/
theorem run_isSome_of_sides {alone : side_t → Option World} {process : Option World} {calls : List placed_t}
    (hnumberless : ∀ placed ∈ calls, placed.call.Numberless)
    (hindistinct : ∀ side, Indistinct side (alone side) process)
    (hsides : ∀ side, ((plugins_machine env).run (alone side) (calls.filterMap side.sees)).isSome = true) :
    ((plugins_machine env).run process calls).isSome = true := by
  induction calls generalizing alone process with
  | nil =>
    have hthere := hsides .interfaces
    rwa [List.filterMap_nil, Machine.run, List.foldl_nil, (hindistinct .interfaces).isSome_eq] at hthere
  | cons placed calls ih =>
    rw [List.forall_mem_cons] at hnumberless
    have hown := hsides placed.call.subscriber.side
    rw [List.filterMap_cons_some (sees_eq_some.mpr ⟨rfl, rfl⟩), Machine.run, List.foldl_cons] at hown
    have hstep := ((hindistinct placed.call.subscriber.side).call hcounts rfl hnumberless.1).2
    have hsurvives : Outlives env process placed := by
      rintro w rfl
      have hthere := (run_isSome_iff.mp hown).1
      rwa [hstep.isSome_eq, step_isSome] at hthere
    refine @ih (Function.update alone placed.call.subscriber.side
      ((plugins_machine env).step (alone placed.call.subscriber.side) placed))
      ((plugins_machine env).step process placed) hnumberless.2 (fun side => ?_) (fun side => ?_)
    · by_cases hside : side = placed.call.subscriber.side
      · subst hside
        rw [Function.update_self]
        exact hstep
      · rw [Function.update_of_ne hside]
        exact (hindistinct side).other (Ne.symm hside) hnumberless.1 hsurvives
    · by_cases hside : side = placed.call.subscriber.side
      · subst hside
        rw [Function.update_self]
        exact hown
      · have hothers := hsides side
        rw [List.filterMap_cons_none (sees_eq_none.mpr (Ne.symm hside))] at hothers
        rw [Function.update_of_ne hside]
        exact hothers

/-- How the calls of the two sides are interleaved does not matter: a process that
    survives them in one order survives them in every other, with the same answers
    and in the same state. -/
theorem interleavings_agree {w after : World} (hsorted : Sorted w.om) {calls calls' : List placed_t}
    (hnumberless : ∀ placed ∈ calls, placed.call.Numberless) (hnumberless' : ∀ placed ∈ calls', placed.call.Numberless)
    (hinterleaved : ∀ side : side_t, calls.filterMap side.sees = calls'.filterMap side.sees)
    (hruns : (plugins_machine env).run (some w) calls = some after) :
    ∃ after', (plugins_machine env).run (some w) calls' = some after' ∧ after.Same after' ∧
      ∀ side : side_t, (plugins_machine env).answers side.sees (some w) calls =
        (plugins_machine env).answers side.sees (some w) calls' := by
  have hothers {calls : List placed_t} (hsome : ((plugins_machine env).run (some w) calls).isSome = true)
      (side : side_t) : Along (plugins_machine env).step (OthersSurvive env side) (some w) calls :=
    @along_of_step _ _ _ (fun _ => True) _ _ (fun _ _ _ houtlives => ⟨fun _ => houtlives, trivial⟩) _ trivial _
      (run_isSome_iff.mp hsome).2
  have hsome : ((plugins_machine env).run (some w) calls).isSome = true := by rw [hruns]; rfl
  have hrun (side : side_t) := side_run hcounts hsorted hnumberless (hothers hsome side)
  have hsome' : ((plugins_machine env).run (some w) calls').isSome = true := by
    refine @run_isSome_of_sides env hcounts (fun _ => some w) _ _ hnumberless'
      (fun side => .running (.refl side w) hsorted hsorted) (fun side => ?_)
    rw [← hinterleaved side, (hrun side).2.isSome_eq]
    exact hsome
  have hrun' (side : side_t) := side_run hcounts hsorted hnumberless' (hothers hsome' side)
  obtain ⟨after', hruns'⟩ := Option.isSome_iff_exists.mp hsome'
  refine ⟨after', hruns', same_of_agrees fun side => ?_, fun side => ?_⟩
  · have hindistinct := (hrun side).2
    have hindistinct' := (hrun' side).2
    rw [hruns] at hindistinct
    rw [← hinterleaved side, hruns'] at hindistinct'
    exact hindistinct.agrees hindistinct'
  · rw [(hrun side).1, (hrun' side).1, hinterleaved side]

end independence

section samples

theorem sorted_empty : Sorted World.empty.om :=
  fun _ _ hmem => absurd hmem (Finset.notMem_empty _)

/-- A name with more in it than digits is not a number. -/
theorem interfaces_of_mem {name : String} {c : Char} (hmem : c ∈ name.toList) (hc : c.isDigit = false) :
    side_t.interfaces.keys name := by
  rintro index rfl
  exact not_mem_repr _ hc hmem

/-- The creation of an interface, and of a mapping after it. -/
def interface_then_mapping : List placed_t :=
  [{ call :=
      { subscriber := .ietf_interface_create_cb
        uninit := cleared
        delivery := verify (interface_changes (.created "host-vpp1" true)) }
     writes := 0 },
    { call :=
      { subscriber := .nat_mapping_table_config_cb
        uninit := cleared
        delivery := verify (ietf_nat.mapping_changes plainText (.created 1 ietf_nat.first_mapping)) }
      writes := 1 }]

theorem interface_then_mapping_numberless : ∀ placed ∈ interface_then_mapping, placed.call.Numberless := by
  have hplain : side_t.interfaces.keys "host-vpp1" := interfaces_of_mem (show 'h' ∈ _ by decide) (by decide)
  have hnumberless : Numberless (interface_changes (.created "host-vpp1" true)) := by
    intro change hmem name hnames
    obtain ⟨value, hvalue, rfl⟩ := List.mem_map.mp hmem
    simp only [interface_entry, List.mem_cons, List.not_mem_nil, or_false] at hvalue
    rcases hvalue with rfl | rfl | rfl | rfl <;>
      simp [Names, named, sets, name_leaf, type_leaf, enabled_leaf] at hnames
    rwa [← hnames]
  rintro _ (_ | ⟨_, _ | ⟨_, hmem⟩⟩)
  · exact hnumberless
  · trivial
  · cases hmem

/-- The mapping is created as it is without the interface. -/
theorem mapping_beside_interface :
    (plugins_machine counting).answers side_t.mappings.sees (some World.empty) interface_then_mapping =
      (plugins_machine counting).answers some (some World.empty)
        (interface_then_mapping.filterMap side_t.mappings.sees) := by
  refine (@sides_independent counting counting_counts World.empty sorted_empty _ interface_then_mapping_numberless
    .mappings ⟨?_, ?_, trivial⟩).1
  · rintro _ _ ⟨⟩
    decide +kernel
  · intro hside
    exact absurd rfl hside

/-- The mapping may as well be created first. -/
theorem mapping_then_interface : ∃ after after',
    (plugins_machine counting).run (some World.empty) interface_then_mapping = some after ∧
      (plugins_machine counting).run (some World.empty) interface_then_mapping.reverse = some after' ∧
      after.Same after' := by
  have hreverse : ∀ placed ∈ interface_then_mapping.reverse, placed.call.Numberless :=
    fun placed hmem => interface_then_mapping_numberless placed (List.mem_reverse.mp hmem)
  have hsome : ((plugins_machine counting).run (some World.empty) interface_then_mapping).isSome = true := by
    decide +kernel
  obtain ⟨after, hruns⟩ := Option.isSome_iff_exists.mp hsome
  obtain ⟨after', hruns', hsame, -⟩ := interleavings_agree counting_counts sorted_empty
    interface_then_mapping_numberless hreverse (by rintro (_ | _) <;> rfl) hruns
  exact ⟨after, after', hruns, hruns', hsame⟩

end samples

end sweetcomb
