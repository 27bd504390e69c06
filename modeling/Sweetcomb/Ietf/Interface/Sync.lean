import Sweetcomb.Ietf.Interface.Step
import Sweetcomb.Refcount
import Sweetcomb.Runs

open datastore keyed_store loop runs

namespace sweetcomb.ietf_interface

section step

variable {env : Env} {w : World} {ds : Datastore String Bool} {c : commit_t String Bool}

/-- One builder, one pointer and three flags serve the whole list, so that a
    successful call brings a single interface up to date. -/
def OneInterface (c : commit_t String Bool) : Prop :=
  c.edits.length ≤ 1 ∨ Unbuildable c

theorem inSync_iff (halive : KeepsCommitted env) (hwrites : ∀ n, env.write_rc n = .OK)
    (hsync : Synced w ds) (hc : c.Delivered interface_changes ds) :
    InSync env (w, ds) c ↔ OneInterface c := by
  by_cases hbuildable : Unbuildable c
  · refine iff_of_true (fun hok => ?_) (.inr hbuildable)
    exact absurd hok (verify_unbuildable halive hsync hc hbuildable).1
  · obtain ⟨hok, key, hframe⟩ := verify_buildable halive hwrites hsync hc hbuildable
    constructor
    · intro hin
      by_contra hmany
      obtain ⟨hafter, _⟩ := hin hok
      rw [OneInterface, not_or, not_le] at hmany
      obtain ⟨e, he, hother⟩ := hc.commits.exists_other hmany.1 key
      have hsame : (applyAll ds c.edits e.key).map ethernet = (ds e.key).map ethernet := by
        ext attrs
        have hstays := hframe e.key hother attrs
        rwa [hafter.held, hsync.held, and_iff_right rfl, and_iff_right rfl] at hstays
      exact hc.commits.changes he (Option.map_injective ethernet_injective hsame)
    · intro hone
      have hlength := hone.resolve_right hbuildable
      match hedits : c.edits with
      | [] => exact inSync_of_empty halive hsync hc hedits
      | [e] => exact inSync_of_single halive hwrites hsync hc hedits hbuildable
      | first :: second :: rest => simp [hedits] at hlength

/-- Whether or not the call succeeds, what is in sync stays so. -/
theorem synced_step (halive : KeepsCommitted env) (hwrites : ∀ n, env.write_rc n = .OK)
    (hsync : Synced w ds) (hc : c.Delivered interface_changes ds) (hin : InSync env (w, ds) c) :
    Synced (c.step (ietf_interface_create_cb env) (w, ds)).1 (c.step (ietf_interface_create_cb env) (w, ds)).2 := by
  by_cases hok : (c.verify (ietf_interface_create_cb env) w).outcome = .ok .SR_ERR_OK
  · simp only [commit_t.step, if_pos hok]
    exact (hin hok).1
  · have hunbuildable : Unbuildable c := by
      by_contra hbuildable
      exact hok (verify_buildable halive hwrites hsync hc hbuildable).1
    obtain ⟨_, hom, htype⟩ := verify_unbuildable halive hsync hc hunbuildable
    simp only [commit_t.step, if_neg hok]
    exact ⟨by rw [hom]; exact hsync.held, fun name hsome => (htype name).trans (hsync.shared name hsome)⟩

end step

/-- A run keeps OM and the datastore in sync exactly when each of its commits
    edits one interface at most or is refused. -/
theorem in_sync_iff_oneInterface {env : Env} (halive : KeepsCommitted env)
    (hwrites : ∀ n, env.write_rc n = .OK) {w : World} {ds : Datastore String Bool} (hsync : Synced w ds)
    {commits : List (commit_t String Bool)}
    (hdelivered : Along (fun state c => c.step (ietf_interface_create_cb env) state)
      (fun state c => c.Delivered interface_changes state.2) (w, ds) commits) :
    Along (fun state c => c.step (ietf_interface_create_cb env) state) (InSync env) (w, ds) commits ↔
      ∀ c ∈ commits, OneInterface c := by
  have hrun := along_iff_of_step (fun state : World × Datastore String Bool => Synced state.1 state.2)
    (fun state c hstate hc => inSync_iff halive hwrites hstate hc)
    (fun state c hstate hc => synced_step halive hwrites hstate hc) hsync hdelivered
  exact hrun.trans along_forall

theorem counting_keepsCommitted : KeepsCommitted counting := by
  intro om name attrs hmem
  exact (counting_counts om name).mpr ⟨_, hmem, by simp [object.keeps]⟩

theorem synced_empty : Synced World.empty fun _ => none where
  held := by simp [World.empty]
  shared := by simp

/-- Created in one commit and enabled in the next. -/
theorem in_sync_create_then_enable :
    Along (fun state c => c.step (ietf_interface_create_cb counting) state) (InSync counting)
      (World.empty, fun _ => none)
      [in_order interface_changes [.created "host-vpp1" false],
        in_order interface_changes [.modified "host-vpp1" false true]] := by
  have hcreate : Commits (fun _ => none) [edit.created "host-vpp1" false] :=
    ⟨by simp, by simp [edit.Applies]⟩
  have henable : Commits (commit_t.step (ietf_interface_create_cb counting) (World.empty, fun _ => none)
      (in_order interface_changes [.created "host-vpp1" false])).2 [.modified "host-vpp1" false true] := by
    refine ⟨by simp, fun e he => ?_⟩
    obtain rfl := List.mem_singleton.mp he
    exact ⟨by decide, by decide⟩
  refine (in_sync_iff_oneInterface counting_keepsCommitted (fun _ => rfl) synced_empty ?_).mpr ?_
  · exact ⟨delivered_in_order hcreate, delivered_in_order henable, trivial⟩
  · simp [in_order, OneInterface]

/-- Of two interfaces created in one commit, the first is never written. -/
theorem two_interfaces_not_in_sync :
    (in_order interface_changes [.created "local0" false, .created "host-vpp1" false]).Delivered
        interface_changes (fun _ => none) ∧
      Synced World.empty (fun _ => none) ∧
      ¬ InSync counting (World.empty, fun _ => none)
        (in_order interface_changes [.created "local0" false, .created "host-vpp1" false]) := by
  refine ⟨delivered_in_order ⟨by decide, by simp [edit.Applies]⟩, synced_empty, fun hin => ?_⟩
  have hheld := ((hin (by decide)).1.held "local0" "local0" (ethernet false)).mpr ⟨rfl, by decide⟩
  exact absurd hheld (by decide)

end sweetcomb.ietf_interface
