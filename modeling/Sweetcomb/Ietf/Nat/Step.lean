import Sweetcomb.Ietf.Nat.Entry

open datastore keyed_store loop

namespace sweetcomb.ietf_nat

/-- A commit that creates and deletes mapping entries. -/
structure Delivered (env : Env) (ds : mapping_datastore) (c : commit_t UInt32 mapping_t) : Prop where
  delivered : c.Delivered (mapping_changes env.text) ds
  unmodified : ∀ e ∈ c.edits, e.modifies = false

/-- After a successful call the table and OM hold the mappings of the resulting
    datastore. -/
def InSync (env : Env) (state : World × mapping_datastore) (c : commit_t UInt32 mapping_t) : Prop :=
  let result := c.verify (nat_mapping_table_config_cb env) state.1
  result.outcome = .ok .SR_ERR_OK → Synced result.world (applyAll state.2 c.edits)

/-- The variables after the loop. -/
def final (env : Env) (c : commit_t UInt32 mapping_t) (w : World) : nat_locals :=
  c.changes.foldl (advance env.text) (loop_start c.uninit w)

section step

variable {env : Env} {w : World} {ds : mapping_datastore} {c : commit_t UInt32 mapping_t}

/-- Created prefixes are printed, and can be read. -/
theorem accepts_of_delivered (hc : Delivered env ds c) :
    ∀ change ∈ c.changes, accepts env.text change = true := by
  intro change hmem
  obtain ⟨e, he, hchange⟩ := hc.delivered.mem_iff.mp hmem
  cases e with
  | created index mapping =>
    obtain ⟨value, hvalue, rfl⟩ := List.mem_map.mp hchange
    simp only [mapping_entry, List.mem_cons, List.not_mem_nil, or_false] at hvalue
    rcases hvalue with rfl | rfl | rfl | rfl | rfl <;>
      simp [accepts, address_leaves, index_leaf, type_leaf, prefix_leaf, utils_prefix_t.make_prefix_to_string]
  | deleted index mapping =>
    obtain ⟨value, _, rfl⟩ := List.mem_map.mp hchange
    rfl
  | modified index old new => exact absurd (hc.unmodified _ he) (by simp)

theorem verify_eq_commit (hc : Delivered env ds c) :
    c.verify (nat_mapping_table_config_cb env) w = nat_leave (nat_commit env (final env c w)) :=
  nat_cb_accepted (accepts_of_delivered hc)

theorem final_same : (final env c w).world.Same w :=
  foldl_advance_same env.text _ c.changes

theorem final_create (hc : Delivered env ds c) : (final env c w).create = c.changes.any creates := by
  simp [final, loop_start, nat_start, hc.delivered.cleared.create]

theorem final_remove (hc : Delivered env ds c) : (final env c w).remove = c.changes.any removes := by
  simp [final, loop_start, nat_start, hc.delivered.cleared.remove]

/-- Every entry that is created brings its type along, and no other type is
    ever read. -/
theorem type_of_creates (hc : Delivered env ds c) (hcreates : c.changes.any creates = true) :
    (final env c w).builder.m_type = "static" := by
  rw [final, foldl_advance_type]
  obtain ⟨change, hmem, hcreates⟩ := List.any_eq_true.mp hcreates
  obtain ⟨e, he, hchange⟩ := hc.delivered.mem_iff.mp hmem
  apply latest_eq_of_forall
  · cases e with
    | created index mapping =>
      have htype : change_t.created (type_leaf index) ∈ c.changes :=
        hc.delivered.mem_iff.mpr ⟨_, he, by simp [mapping_changes, mapping_entry]⟩
      exact ⟨_, htype, by simp [typed, type_leaf]⟩
    | deleted index mapping =>
      obtain ⟨value, _, rfl⟩ := List.mem_map.mp hchange
      simp [creates] at hcreates
    | modified index old new => exact absurd (hc.unmodified _ he) (by simp)
  · intro other hother value htyped
    obtain ⟨e', he', hchange'⟩ := hc.delivered.mem_iff.mp hother
    cases e' with
    | created index mapping =>
      obtain ⟨leaf, hleaf, rfl⟩ := List.mem_map.mp hchange'
      simp only [mapping_entry, List.mem_cons, List.not_mem_nil, or_false] at hleaf
      rcases hleaf with rfl | rfl | rfl | rfl | rfl <;>
        simp [typed, index_leaf, type_leaf, prefix_leaf] at htyped
      exact htyped.symm
    | deleted index mapping =>
      obtain ⟨leaf, _, rfl⟩ := List.mem_map.mp hchange'
      simp [typed] at htyped
    | modified index old new => exact absurd (hc.unmodified _ he') (by simp)

theorem mapping_of_creates (hc : Delivered env ds c) (hcreates : c.changes.any creates = true) :
    (final env c w).builder.mapping = some ((final env c w).builder.m_internal_src.m_address,
      (final env c w).builder.m_external_src.m_address) := by
  simp [nat_static_builder.mapping, type_of_creates hc hcreates]

/-- A mapping is created, and the only write of the call fails. -/
def Unwritten (env : Env) (w : World) (c : commit_t UInt32 mapping_t) : Prop :=
  c.changes.any creates = true ∧ env.write_rc w.writes ≠ .OK

theorem final_writes : (final env c w).world.writes = w.writes := by
  simp [final, loop_start, nat_start]

/-- A failing write ends the call without success and without a trace. -/
theorem verify_unwritten (hc : Delivered env ds c) (hunwritten : Unwritten env w c) :
    let result := c.verify (nat_mapping_table_config_cb env) w
    result.outcome ≠ .ok .SR_ERR_OK ∧ result.world.Same w := by
  have hcreate : (final env c w).create = true := by rw [final_create hc, hunwritten.1]
  have hwrite : env.write_rc (final env c w).world.writes ≠ .OK := by rw [final_writes]; exact hunwritten.2
  obtain ⟨houtcome, hsame⟩ := nat_commit_failed env hcreate (mapping_of_creates hc hunwritten.1) hwrite
  rw [verify_eq_commit hc]
  exact ⟨by simp [houtcome], hsame.trans final_same⟩

/-- Otherwise the call succeeds, and it touches one index at most. -/
theorem verify_written (hc : Delivered env ds c) (hwritten : ¬ Unwritten env w c) :
    let result := c.verify (nat_mapping_table_config_cb env) w
    result.outcome = .ok .SR_ERR_OK ∧
      ∃ index, ∀ other ≠ index, result.world.static_mapping_table other = w.static_mapping_table other := by
  rw [verify_eq_commit hc]
  cases hcreates : c.changes.any creates with
  | true =>
    have hcreate : (final env c w).create = true := by rw [final_create hc, hcreates]
    have hwrite : env.write_rc (final env c w).world.writes = .OK := by
      rw [final_writes]
      by_contra hfails
      exact hwritten ⟨hcreates, hfails⟩
    obtain ⟨houtcome, _, htable, _⟩ := nat_commit_written env hcreate (mapping_of_creates hc hcreates) hwrite
    refine ⟨houtcome, (final env c w).xindex, fun other hother => ?_⟩
    rw [htable, Function.update_of_ne hother, final_same.static_mapping_table]
  | false =>
    have hcreate : (final env c w).create = false := by rw [final_create hc, hcreates]
    cases hremove : (final env c w).remove with
    | true =>
      obtain ⟨houtcome, _, htable, _⟩ := nat_commit_removed env hcreate hremove
      refine ⟨houtcome, (final env c w).xindex, fun other hother => ?_⟩
      rw [htable, Function.update_of_ne hother, final_same.static_mapping_table]
    | false =>
      obtain ⟨houtcome, hsame⟩ := nat_commit_nothing env hcreate hremove
      exact ⟨houtcome, 0, fun other _ => by rw [hsame.static_mapping_table, final_same.static_mapping_table]⟩

theorem mem_changes_of_single (hc : Delivered env ds c) {e : mapping_edit} (hedits : c.edits = [e])
    {change : change_t} : change ∈ c.changes ↔ change ∈ mapping_changes env.text e := by
  simp [hc.delivered.mem_iff, hedits]

/-- A whole entry names its index, whether it is created or deleted. -/
theorem xindex_of_entry {index : UInt32} {mapping : mapping_t} (make : sr_val_t → change_t)
    (hmake : ∀ val, indexed (make val) = indexed (.created val))
    (hchanges : ∀ change, change ∈ c.changes ↔ change ∈ (mapping_entry env.text index mapping).map make) :
    (final env c w).xindex = index := by
  rw [final, foldl_advance_xindex]
  apply latest_eq_of_forall
  · refine ⟨make (index_leaf index), (hchanges _).mpr (List.mem_map_of_mem (by simp [mapping_entry])), ?_⟩
    rw [hmake]
    simp [indexed, index_leaf]
  · intro change hmem value hindexed
    obtain ⟨val, hval, rfl⟩ := List.mem_map.mp ((hchanges change).mp hmem)
    rw [hmake] at hindexed
    simp only [mapping_entry, List.mem_cons, List.not_mem_nil, or_false] at hval
    rcases hval with rfl | rfl | rfl | rfl | rfl <;>
      simp [indexed, index_leaf, type_leaf, prefix_leaf] at hindexed
    exact hindexed.symm

section created

variable {index : UInt32} {mapping : mapping_t}

theorem creates_of_created (hc : Delivered env ds c) (hedits : c.edits = [.created index mapping]) :
    c.changes.any creates = true := by
  have hleaf : .created (index_leaf index) ∈ c.changes := by
    simp [mem_changes_of_single hc hedits, mapping_changes, mapping_entry]
  exact List.any_eq_true.mpr ⟨_, hleaf, by simp [creates, index_leaf]⟩

theorem xindex_of_created (hc : Delivered env ds c) (hedits : c.edits = [.created index mapping]) :
    (final env c w).xindex = index :=
  xindex_of_entry .created (fun _ => rfl) fun _ => mem_changes_of_single hc hedits

/-- A prefix leaf is read back through its setter. -/
theorem reads_of_created (hc : Delivered env ds c) (hedits : c.edits = [.created index mapping])
    {leaf : String} {pfx before : utils_prefix_t}
    (hleaf : (leaf, pfx) = ("internal-src-address", mapping.1) ∨ (leaf, pfx) = ("external-src-address", mapping.2)) :
    latest (reads env.text leaf) before c.changes = pfx := by
  apply latest_eq_of_forall
  · refine ⟨.created (prefix_leaf env.text index leaf pfx), ?_, by simp [reads, prefix_leaf,
      utils_prefix_t.make_prefix_to_string]⟩
    rw [mem_changes_of_single hc hedits]
    rcases hleaf with hleaf | hleaf <;>
    · obtain ⟨rfl, rfl⟩ := Prod.mk.inj hleaf
      simp [mapping_changes, mapping_entry]
  · simp only [mem_changes_of_single hc hedits]
    rcases hleaf with hleaf | hleaf <;>
    · obtain ⟨rfl, rfl⟩ := Prod.mk.inj hleaf
      simp [mapping_changes, mapping_entry, reads, index_leaf, type_leaf, prefix_leaf,
        utils_prefix_t.make_prefix_to_string]

theorem mapping_of_created (hc : Delivered env ds c) (hedits : c.edits = [.created index mapping]) :
    (final env c w).builder.mapping = some (mapping_pair mapping) := by
  rw [mapping_of_creates hc (creates_of_created hc hedits)]
  simp only [final, foldl_advance_internal_src, foldl_advance_external_src]
  rw [reads_of_created hc hedits (.inl rfl), reads_of_created hc hedits (.inr rfl)]
  rfl

end created

section deleted

variable {index : UInt32} {mapping : mapping_t}

theorem flags_of_deleted (hc : Delivered env ds c) (hedits : c.edits = [.deleted index mapping]) :
    c.changes.any creates = false ∧ c.changes.any removes = true := by
  simp [mem_changes_of_single hc hedits, mapping_changes, mapping_entry, creates, removes, index_leaf]

theorem xindex_of_deleted (hc : Delivered env ds c) (hedits : c.edits = [.deleted index mapping]) :
    (final env c w).xindex = index :=
  xindex_of_entry .deleted (fun _ => rfl) fun _ => mem_changes_of_single hc hedits

end deleted

/-- A commit of one edit that is written is carried over exactly. -/
theorem inSync_of_single (hsync : Synced w ds) (hc : Delivered env ds c) {e : mapping_edit}
    (hedits : c.edits = [e]) (hwritten : ¬ Unwritten env w c) : InSync env (w, ds) c := by
  simp only [InSync, verify_eq_commit hc, hedits]
  intro _
  cases e with
  | created index mapping =>
    have hcreates := creates_of_created hc hedits
    have hfresh : ds index = none := (hc.delivered.commits.applies (.created index mapping) (by simp [hedits])).1
    have hcreate : (final env c w).create = true := by rw [final_create hc, hcreates]
    have hwrite : env.write_rc (final env c w).world.writes = .OK := by
      rw [final_writes]
      by_contra hfails
      exact hwritten ⟨hcreates, hfails⟩
    obtain ⟨_, hom, htable, _⟩ := nat_commit_written env hcreate (mapping_of_created hc hedits) hwrite
    rw [xindex_of_created hc hedits, final_same.om] at hom
    rw [xindex_of_created hc hedits, final_same.static_mapping_table] at htable
    exact hsync.write hfresh hom htable
  | deleted index mapping =>
    obtain ⟨hcreates, hremoves⟩ := flags_of_deleted hc hedits
    obtain ⟨_, hom, htable, _⟩ := nat_commit_removed env (l := final env c w)
      (by rw [final_create hc, hcreates]) (by rw [final_remove hc, hremoves])
    rw [xindex_of_deleted hc hedits, final_same.om] at hom
    rw [xindex_of_deleted hc hedits, final_same.static_mapping_table] at htable
    exact hsync.remove hom htable
  | modified index old new =>
    have hmem : edit.modified index old new ∈ c.edits := by simp [hedits]
    exact absurd (hc.unmodified _ hmem) (by simp)

theorem Synced.of_same (hsync : Synced w ds) {after : World} (hsame : after.Same w) : Synced after ds where
  table := by rw [hsame.static_mapping_table]; exact hsync.table
  held := by rw [hsame.static_mapping_table, hsame.om]; exact hsync.held

theorem inSync_of_empty (hsync : Synced w ds) (hc : Delivered env ds c) (hedits : c.edits = []) :
    InSync env (w, ds) c := by
  have hchanges : c.changes = [] := by
    have hdelivers := hc.delivered.delivers
    rw [hedits] at hdelivers
    exact List.perm_nil.mp hdelivers
  obtain ⟨_, hsame⟩ := nat_commit_nothing env (l := final env c w)
    (by rw [final_create hc, hchanges]; rfl) (by rw [final_remove hc, hchanges]; rfl)
  simp only [InSync, verify_eq_commit hc, hedits]
  exact fun _ => hsync.of_same (hsame.trans final_same)

end step

end sweetcomb.ietf_nat
