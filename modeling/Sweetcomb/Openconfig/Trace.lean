import Sweetcomb.Ietf.Interface.Trace
import Sweetcomb.Openconfig.Run

open loop sweetcomb.ietf_interface

namespace sweetcomb.openconfig_interfaces

theorem starts_config (uninit : Uninit) (w : World) : Starts uninit w (config_start uninit w) :=
  ⟨rfl, rfl, rfl, rfl, rfl, rfl⟩

section callback

variable {env : Env} {uninit : Uninit} {w : World} {changes : List change_t}

theorem config_cb_verify :
    oc_interfaces_config_cb env uninit (verify changes) w = config_run env (config_start uninit w) changes := by
  simp [oc_interfaces_config_cb, config_run]

theorem config_cb_same_iff
    (hok : (oc_interfaces_config_cb env uninit (verify changes) w).outcome = .ok .SR_ERR_OK) :
    (oc_interfaces_config_cb env uninit (verify changes) w).world.Same w ↔ NothingToDo uninit w changes := by
  rw [config_cb_verify] at hok ⊢
  rcases accepted_or_split (shared env w.om) changes with hshared | ⟨before, change, after, rfl, hshared, hnot⟩
  · rw [config_run_shared env (config_start uninit w) hshared] at hok ⊢
    exact commit_same_iff env (starts_config uninit w) hok
  · rw [(config_run_left env (config_start uninit w) after hshared hnot).1] at hok
    exact absurd hok (config_refusal_ne_ok hnot)

theorem config_cb_rejected_same_iff {rc : sr_error_t}
    (houtcome : (oc_interfaces_config_cb env uninit (verify changes) w).outcome = .ok rc)
    (hrejected : rc ≠ .SR_ERR_OK) :
    (oc_interfaces_config_cb env uninit (verify changes) w).world.Same w ↔
      StatesKept w (changes.takeWhile (shared env w.om)) := by
  rw [config_cb_verify] at houtcome ⊢
  rcases accepted_or_split (shared env w.om) changes with hshared | ⟨before, change, after, rfl, hshared, hnot⟩
  · rw [config_run_shared env (config_start uninit w) hshared] at houtcome ⊢
    rw [List.takeWhile_eq_self_iff.mpr hshared]
    exact commit_rejected_same_iff env (starts_config uninit w) houtcome hrejected
  · obtain ⟨_, hsame, _⟩ := config_run_left env (config_start uninit w) after hshared hnot
    have htaken : (before ++ change :: after).takeWhile (shared env w.om) = before := by
      rw [List.takeWhile_append_of_pos hshared]
      simp [hnot]
    rw [htaken]
    exact (hsame.congr w).trans (foldl_same_iff (starts_config uninit w) before)

end callback

end sweetcomb.openconfig_interfaces
