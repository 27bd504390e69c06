import Sweetcomb.Ietf.Nat.Step
import Sweetcomb.Refcount
import Sweetcomb.Runs

open datastore keyed_store runs

namespace sweetcomb.ietf_nat

section step

variable {env : Env} {w : World} {ds : mapping_datastore} {c : commit_t UInt32 mapping_t}

/-- One index, one builder and two flags serve the whole list, so that a
    successful call brings a single mapping up to date. -/
def OneMapping (env : Env) (w : World) (c : commit_t UInt32 mapping_t) : Prop :=
  c.edits.length ≤ 1 ∨ Unwritten env w c

theorem inSync_iff (hsync : Synced w ds) (hc : Delivered env ds c) :
    InSync env (w, ds) c ↔ OneMapping env w c := by
  by_cases hunwritten : Unwritten env w c
  · refine iff_of_true (fun hok => ?_) (.inr hunwritten)
    exact absurd hok (verify_unwritten hc hunwritten).1
  · obtain ⟨hok, index, hframe⟩ := verify_written hc hunwritten
    constructor
    · intro hin
      by_contra hmany
      rw [OneMapping, not_or, not_le] at hmany
      obtain ⟨e, he, hother⟩ := hc.delivered.commits.exists_other hmany.1 index
      have hsame := hframe e.key hother
      rw [(hin hok).table, hsync.table] at hsame
      have hsame := congrArg Option.isSome hsame
      rw [Option.isSome_map, Option.isSome_map] at hsame
      exact hc.delivered.commits.isSome_changes he (hc.unmodified e he) hsame
    · intro hone
      have hlength := hone.resolve_right hunwritten
      match hedits : c.edits with
      | [] => exact inSync_of_empty hsync hc hedits
      | [e] => exact inSync_of_single hsync hc hedits hunwritten
      | first :: second :: rest => simp [hedits] at hlength

/-- Whether or not the call succeeds, what is in sync stays so. -/
theorem synced_step (hsync : Synced w ds) (hc : Delivered env ds c) (hin : InSync env (w, ds) c) :
    Synced (c.step (nat_mapping_table_config_cb env) (w, ds)).1
      (c.step (nat_mapping_table_config_cb env) (w, ds)).2 := by
  by_cases hok : (c.verify (nat_mapping_table_config_cb env) w).outcome = .ok .SR_ERR_OK
  · simp only [commit_t.step, if_pos hok]
    exact hin hok
  · have hunwritten : Unwritten env w c := by
      by_contra hwritten
      exact hok (verify_written hc hwritten).1
    simp only [commit_t.step, if_neg hok]
    exact hsync.of_same (verify_unwritten hc hunwritten).2

end step

/-- A run keeps the table, OM and the datastore in sync exactly when each of its
    commits edits one mapping at most or is not written. -/
theorem in_sync_iff_oneMapping {env : Env} {w : World} {ds : mapping_datastore} (hsync : Synced w ds)
    {commits : List (commit_t UInt32 mapping_t)}
    (hdelivered : Along (fun state c => c.step (nat_mapping_table_config_cb env) state)
      (fun state c => Delivered env state.2 c) (w, ds) commits) :
    Along (fun state c => c.step (nat_mapping_table_config_cb env) state) (InSync env) (w, ds) commits ↔
      Along (fun state c => c.step (nat_mapping_table_config_cb env) state)
        (fun state c => OneMapping env state.1 c) (w, ds) commits :=
  along_iff_of_step (fun state : World × mapping_datastore => Synced state.1 state.2)
    (fun _ _ hstate hc => inSync_iff hstate hc) (fun _ _ hstate hc => synced_step hstate hc) hsync hdelivered

theorem synced_empty : Synced World.empty fun _ => none where
  table := by simp [World.empty]
  held := by simp [World.empty]

def host (bits : BitVec 32) : utils_prefix_t where
  m_address := .v4 bits
  m_prefix_len := 32

/-- 10.0.0.1 seen as 192.0.2.1. -/
def first_mapping : mapping_t := (host 0x0A000001, host 0xC0000201)

/-- 10.0.0.2 seen as 192.0.2.2. -/
def second_mapping : mapping_t := (host 0x0A000002, host 0xC0000202)

theorem in_sync_create_then_delete :
    Along (fun state c => c.step (nat_mapping_table_config_cb counting) state) (InSync counting)
      (World.empty, fun _ => none)
      [in_order (mapping_changes plainText) [.created 1 first_mapping],
        in_order (mapping_changes plainText) [.deleted 1 first_mapping]] := by
  have hcreate : Commits (fun _ => none) [edit.created (1 : UInt32) first_mapping] :=
    ⟨by simp, by simp [edit.Applies]⟩
  have hdelete : Commits (commit_t.step (nat_mapping_table_config_cb counting) (World.empty, fun _ => none)
      (in_order (mapping_changes plainText) [.created 1 first_mapping])).2 [.deleted 1 first_mapping] := by
    refine ⟨by simp, fun e he => ?_⟩
    obtain rfl := List.mem_singleton.mp he
    exact ⟨by decide, by decide⟩
  refine (in_sync_iff_oneMapping synced_empty ?_).mpr ?_
  · exact ⟨⟨delivered_in_order hcreate, by simp [in_order]⟩,
      ⟨delivered_in_order hdelete, by simp [in_order]⟩, trivial⟩
  · exact ⟨.inl (by simp [in_order]), .inl (by simp [in_order]), trivial⟩

/-- Of two mappings created in one commit, the first is in neither store. -/
theorem two_mappings_not_in_sync :
    Delivered counting (fun _ => none)
        (in_order (mapping_changes plainText) [.created 1 first_mapping, .created 2 second_mapping]) ∧
      Synced World.empty (fun _ => none) ∧
      ¬ InSync counting (World.empty, fun _ => none)
        (in_order (mapping_changes plainText) [.created 1 first_mapping, .created 2 second_mapping]) := by
  refine ⟨⟨delivered_in_order ⟨by decide, by simp [edit.Applies]⟩, by simp [in_order]⟩, synced_empty,
    fun hin => ?_⟩
  have htable := (hin (by decide)).table 1
  exact absurd htable (by decide)

end sweetcomb.ietf_nat
