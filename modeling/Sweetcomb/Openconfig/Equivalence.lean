import Mathlib.Data.List.TakeWhile
import Sweetcomb.Commit
import Sweetcomb.Ietf.Interface.Entry
import Sweetcomb.Openconfig.Run
import Sweetcomb.Refcount

open loop sweetcomb.ietf_interface

namespace sweetcomb.openconfig_interfaces

/-- Both callbacks end alike, make the same calls, and neither reads a value
    that is absent. -/
def Agree (ietf oc : cb_result) : Prop :=
  ietf.outcome = oc.outcome ∧ ietf.world.calls = oc.world.calls ∧
    ietf.outcome ≠ .error .absent_value ∧ oc.outcome ≠ .error .absent_value

/-- When the callbacks take the same course, in terms of the IETF changes. At the
    first change that is not accepted or has no key in a new value: none is
    there; or both refuse it; or its key is empty, which OpenConfig rejects at
    once, and the IETF callback passes over the rest without a call and then
    rejects the interface that it cannot build. -/
def SameCourse (env : Env) (uninit : Uninit) (om : Om) (changes : List change_t) : Prop :=
  match changes.dropWhile (shared env om) with
  | [] => True
  | change :: after =>
    common change = true ∨
      keyOf change = some "" ∧ (∀ later ∈ change :: after, quiet later = true) ∧
        (uninit.create = true ∨ changes.any creates = true) ∧
        (latest named "" changes = "" ∨ latest typed "" changes = "")

theorem alike_start (uninit : Uninit) (w : World) :
    Alike (create_start uninit w) (config_start uninit w) :=
  ⟨rfl, rfl, rfl, rfl, rfl, rfl, rfl, rfl, rfl⟩

section agree

variable {env : Env} {uninit : Uninit} {w : World} {changes changes' : List change_t}

theorem shared_of_related (hrelated : List.Forall₂ Related changes changes') {om : Om}
    (hshared : ∀ change ∈ changes, shared env om change = true) :
    ∀ change ∈ changes', shared env om change = true := by
  intro change hmem
  obtain ⟨ietf, hietf, hchange⟩ := related_mem hrelated hmem
  have hboth := hshared ietf hietf
  rwa [shared, common, hchange.accepts, hchange.keyOf] at hboth

theorem accepts_of_shared (uninit : Uninit) {before : List change_t}
    (hshared : ∀ earlier ∈ before, shared env w.om earlier = true) :
    ∀ earlier ∈ before, accepts env (create_start uninit w).world.om earlier = true := by
  intro earlier hmem
  have hboth := hshared earlier hmem
  rw [shared, Bool.and_eq_true] at hboth
  exact hboth.1

theorem agree_of_shared (hrelated : List.Forall₂ Related changes changes')
    (hshared : ∀ change ∈ changes, shared env w.om change = true) :
    Agree (create_run env (create_start uninit w) changes) (config_run env (config_start uninit w) changes') := by
  have haccepts := accepts_of_shared uninit hshared
  have hreads := create_run_reads env (create_start uninit w) changes
  obtain ⟨houtcome, hcalls⟩ := ((alike_start uninit w).foldl_advance hrelated).commit env
  rw [create_run_accepted env _ haccepts] at hreads ⊢
  rw [config_run_shared env _ (shared_of_related hrelated hshared)]
  exact ⟨houtcome, hcalls, hreads, by rwa [← houtcome]⟩

section split

variable {before after : List change_t} {change : change_t}
  (hrelated : List.Forall₂ Related (before ++ change :: after) changes')
  (hshared : ∀ earlier ∈ before, shared env w.om earlier = true)

include hrelated hshared

/-- The OpenConfig callback ends at the change that is not shared, in variables
    like those of the IETF callback. -/
theorem config_run_split (uninit : Uninit) :
    ∃ before' change' after' : _, changes' = before' ++ change' :: after' ∧ Related change change' ∧
    Alike (before.foldl advance (create_start uninit w)) (before'.foldl advance (config_start uninit w)) ∧
    ∀ exit, config_round env (before'.foldl advance (config_start uninit w)) change' = .error exit →
      config_run env (config_start uninit w) changes' = config_leave (.error exit) := by
  obtain ⟨before', rest', rfl, hbefore, hrest⟩ := related_append_left hrelated
  cases hrest with
  | cons hchange hafter =>
    exact ⟨before', _, _, rfl, hchange, (alike_start uninit w).foldl_advance hbefore,
      fun exit hexit => config_run_exit env _ _ (shared_of_related hbefore hshared) hexit⟩

theorem agree_of_refused (hcommon : common change = true) (hrefused : accepts env w.om change = false) :
    Agree (create_run env (create_start uninit w) (before ++ change :: after))
      (config_run env (config_start uninit w) changes') := by
  obtain ⟨before', change', after', _, hchange, halike, hrun⟩ :=
    config_run_split hrelated hshared uninit
  have hom : (before'.foldl advance (config_start uninit w)).world.om = w.om := by simp [config_start]
  obtain ⟨exit, hround, houtcome, _, hcalls⟩ := create_round_refused env
    (before'.foldl advance (config_start uninit w)) (by rw [hom, ← hchange.accepts]; exact hrefused)
  have hcommon' : common change' = true := by rwa [common, ← hchange.keyOf]
  obtain ⟨hietf, _, hietf_calls⟩ := create_run_refused env (create_start uninit w) after
    (accepts_of_shared uninit hshared) hrefused
  have hreads := create_run_reads env (create_start uninit w) (before ++ change :: after)
  rw [hrun exit (by rw [config_round_common env _ hcommon']; exact hround), config_leave_eq]
  have hsame : (create_run env (create_start uninit w) (before ++ change :: after)).outcome =
      (create_leave (.error exit)).outcome := by rw [hietf, houtcome, hchange.refusal]
  exact ⟨hsame, by rw [hietf_calls, hcalls, halike.calls], hreads, by rwa [← hsame]⟩

/-- After an empty key the callbacks agree only on an invalid argument. -/
theorem agree_iff_of_unnamed (hkey : keyOf change = some "") :
    Agree (create_run env (create_start uninit w) (before ++ change :: after))
        (config_run env (config_start uninit w) changes') ↔
      (∀ later ∈ change :: after, quiet later = true) ∧
        (uninit.create = true ∨ (before ++ change :: after).any creates = true) ∧
        (latest named "" (before ++ change :: after) = "" ∨ latest typed "" (before ++ change :: after) = "") := by
  obtain ⟨before', change', after', _, hchange, halike, hrun⟩ :=
    config_run_split hrelated hshared uninit
  have hkey' : keyOf change' = some "" := by rw [← hchange.keyOf, hkey]
  have hnot (om : Om) : shared env om change' = false := by simp [shared, common, hkey']
  obtain ⟨exit, hround, houtcome, _, hcalls⟩ := config_round_left env
    (before'.foldl advance (config_start uninit w)) (hnot _)
  rw [config_refusal_of_unnamed hkey'] at houtcome
  have hinvalid := create_run_invalid_iff env (create_start uninit w)
    (accepts_of_shared uninit hshared) fun later hlater =>
      keyed_of_related hrelated later (List.mem_append_right before hlater)
  rw [build_eq_none] at hinvalid
  simp only [foldl_advance_create, foldl_advance_name, foldl_advance_type, Bool.or_eq_true] at hinvalid
  refine Iff.trans ?_ hinvalid
  rw [hrun exit hround]
  constructor
  · rintro ⟨hends, hmakes, _, _⟩
    exact ⟨hends.trans houtcome, by rw [hmakes, hcalls, halike.calls]⟩
  · rintro ⟨hends, hmakes⟩
    exact ⟨hends.trans houtcome.symm, by rw [hmakes, hcalls, halike.calls], by simp [hends], by simp [houtcome]⟩

end split

theorem not_agree_of_deleted {before after : List change_t} {old_val : sr_val_t}
    (hrelated : List.Forall₂ Related (before ++ .deleted old_val :: after) changes')
    (hshared : ∀ earlier ∈ before, shared env w.om earlier = true) :
    ¬ Agree (create_run env (create_start uninit w) (before ++ .deleted old_val :: after))
      (config_run env (config_start uninit w) changes') := by
  obtain ⟨before', change', after', _, hchange, _, hrun⟩ :=
    config_run_split hrelated hshared uninit
  rintro ⟨_, _, _, hreads⟩
  cases hchange with
  | @deleted _ ol hold =>
    have hnot (om : Om) : shared env om (.deleted ol) = false := by simp [shared, common, keyOf]
    obtain ⟨exit, hround, houtcome, _⟩ := config_round_left env
      (before'.foldl advance (config_start uninit w)) (hnot _)
    rw [hrun exit hround] at hreads
    exact hreads houtcome

theorem run_agree_iff (hrelated : List.Forall₂ Related changes changes') :
    Agree (create_run env (create_start uninit w) changes) (config_run env (config_start uninit w) changes') ↔
      SameCourse env uninit w.om changes := by
  rcases accepted_or_split (shared env w.om) changes with hshared | ⟨before, change, after, rfl, hshared, hnot⟩
  · have hdrop : changes.dropWhile (shared env w.om) = [] := List.dropWhile_eq_nil_iff.mpr hshared
    simp only [SameCourse, hdrop, iff_true]
    exact agree_of_shared hrelated hshared
  · have hdrop : (before ++ change :: after).dropWhile (shared env w.om) = change :: after := by
      rw [List.dropWhile_append_of_pos hshared]
      simp [hnot]
    simp only [SameCourse, hdrop]
    by_cases hcommon : common change = true
    · have hrefused : accepts env w.om change = false := by simpa [shared, hcommon] using hnot
      simp only [hcommon, true_or, iff_true]
      exact agree_of_refused hrelated hshared hcommon hrefused
    · simp only [hcommon, Bool.false_eq_true, false_or]
      rcases keyed_of_related hrelated change (by simp) with hkeyed | ⟨old_val, rfl⟩
      · obtain ⟨key, hkey⟩ := Option.isSome_iff_exists.mp hkeyed
        have hempty : key = "" := by simpa [common, hkey] using hcommon
        rw [hempty] at hkey
        rw [agree_iff_of_unnamed hrelated hshared hkey, hkey]
        simp
      · refine iff_of_false (not_agree_of_deleted hrelated hshared) ?_
        simp [keyOf]

end agree

/-- The callbacks are equivalent on related change lists exactly when the list
    can be read and they take the same course through it. -/
theorem callbacks_agree_iff {env : Env} {uninit : Uninit} {w : World} {iter_rc : sr_error_t}
    {changes changes' : List change_t} (hrelated : List.Forall₂ Related changes changes') :
    Agree (ietf_interface_create_cb env uninit { event := .SR_EV_VERIFY, iter_rc, changes } w)
        (oc_interfaces_config_cb env uninit { event := .SR_EV_VERIFY, iter_rc, changes := changes' } w) ↔
      iter_rc = .SR_ERR_OK ∧ SameCourse env uninit w.om changes := by
  by_cases hiter : iter_rc = .SR_ERR_OK
  · subst hiter
    simp only [true_and]
    rw [← run_agree_iff hrelated]
    simp [ietf_interface_create_cb, oc_interfaces_config_cb, create_run, config_run]
  · simp [Agree, ietf_interface_create_cb, oc_interfaces_config_cb, hiter]

section samples

/-- The leaves of an OpenConfig entry. -/
def config_leaf (name leaf : String) (data : sr_data_t) : sr_val_t :=
  { xpath := [{ name := "interfaces" }, { name := "interface", keys := [("name", name)] }, { name := "config" },
      { name := leaf }], data }

theorem name_leaf_same (name : String) :
    SameLeaf (name_leaf name) (config_leaf name "name" { string_val := name }) :=
  ⟨rfl, rfl, fun _ _ => rfl, rfl⟩

theorem type_leaf_same (name : String) :
    SameLeaf (type_leaf name) (config_leaf name "type" { string_val := "iana-if-type:ethernetCsmacd" }) :=
  ⟨rfl, rfl, fun _ _ => rfl, rfl⟩

end samples

theorem callbacks_agree_on_creation :
    Agree
      (ietf_interface_create_cb counting cleared
        (verify [.created (name_leaf "host-vpp1"), .created (type_leaf "host-vpp1")]) World.empty)
      (oc_interfaces_config_cb counting cleared
        (verify [.created (config_leaf "host-vpp1" "name" { string_val := "host-vpp1" }),
          .created (config_leaf "host-vpp1" "type" { string_val := "iana-if-type:ethernetCsmacd" })]) World.empty) := by
  have hdrop : [change_t.created (name_leaf "host-vpp1"), .created (type_leaf "host-vpp1")].dropWhile
      (shared counting World.empty.om) = [] := by decide
  refine (callbacks_agree_iff (.cons (.created (name_leaf_same _)) (.cons (.created (type_leaf_same _)) .nil))).mpr
    ⟨rfl, ?_⟩
  rw [SameCourse, hdrop]
  trivial

/-- Deleting an interface makes the OpenConfig callback read the null pointer. -/
theorem callbacks_differ_on_deletion :
    List.Forall₂ Related [.deleted (name_leaf "host-vpp1")]
        [.deleted (config_leaf "host-vpp1" "name" { string_val := "host-vpp1" })] ∧
      ¬ Agree (ietf_interface_create_cb counting cleared (verify [.deleted (name_leaf "host-vpp1")]) World.empty)
        (oc_interfaces_config_cb counting cleared
          (verify [.deleted (config_leaf "host-vpp1" "name" { string_val := "host-vpp1" })]) World.empty) := by
  refine ⟨.cons (.deleted (name_leaf_same _)) .nil, ?_⟩
  rintro ⟨_, _, _, hreads⟩
  exact hreads (by decide)

end sweetcomb.openconfig_interfaces
