import Sweetcomb.Configuration

open datastore keyed_store sweetcomb.ietf_nat

namespace sweetcomb

variable {env : Env} {w after : World} {h : holding_t} {index : UInt32}

theorem Realises.mapping_written (hreal : Realises env w h) {mapping : mapping_t} (hfresh : h.cfg.mappings index = none)
    (hom : after.om = w.om.write object.singular (KEY index)
      (.nat_static (mapping_pair mapping).1 (mapping_pair mapping).2))
    (hinstances : after.instances = w.instances)
    (htable : after.static_mapping_table =
      Function.update w.static_mapping_table index (some (mapping_pair mapping))) :
    Realises env after
      { h with cfg := { h.cfg with mappings := Function.update h.cfg.mappings index (some mapping) } } where
  om := by
    have halone : Alone (configured_t.key env.text) h.held (.mapping 0 index) := hreal.alone rfl
    rw [hom, held_mapping]
    exact hreal.om.write halone (by simp [hfresh])
  shared := by rw [hinstances]; exact hreal.shared
  table := by
    intro other
    rw [htable]
    by_cases hother : other = index
    · subst hother
      simp
    · simp [hother, hreal.table]
  plain := hreal.plain
  configured := hreal.configured

theorem Realises.mapping_removed (hreal : Realises env w h) (hom : after.om = w.om.remove (KEY index))
    (hinstances : after.instances = w.instances)
    (htable : after.static_mapping_table = Function.update w.static_mapping_table index none) :
    Realises env after
      { h with cfg := { h.cfg with mappings := Function.update h.cfg.mappings index none } } where
  om := by
    have halone : Alone (configured_t.key env.text) h.held (.mapping 0 index) := hreal.alone rfl
    rw [hom, held_mapping]
    exact hreal.om.remove halone
  shared := by rw [hinstances]; exact hreal.shared
  table := by
    intro other
    rw [htable]
    by_cases hother : other = index
    · subst hother
      simp
    · simp [hother, hreal.table]
  plain := hreal.plain
  configured := hreal.configured

/-- A modified mapping ends the loop at its first leaf. -/
theorem mapping_modified_refused {c : commit_t UInt32 mapping_t} {old new : mapping_t}
    (hedits : c.edits = [.modified index old new])
    (hc : c.Delivered (mapping_changes env.text) h.cfg.mappings) :
    (c.verify (nat_mapping_table_config_cb env) w).outcome = .ok .SR_ERR_UNSUPPORTED ∧
      (c.verify (nat_mapping_table_config_cb env) w).world.Same w := by
  have hmodified : ∀ change ∈ c.changes, ∃ before after, change = .modified before after := by
    intro change hmem
    obtain ⟨e, he, hchange⟩ := hc.mem_iff.mp hmem
    rw [hedits, List.mem_singleton] at he
    subst he
    simp only [mapping_changes, List.mem_cons, List.not_mem_nil, or_false] at hchange
    rcases hchange with rfl | rfl <;> exact ⟨_, _, rfl⟩
  have hlength := hc.delivers.length_eq
  rw [hedits] at hlength
  obtain ⟨first, rest, hchanges⟩ : ∃ first rest, c.changes = first :: rest := by
    cases hchanges : c.changes with
    | nil => simp [hchanges, mapping_changes] at hlength
    | cons first rest => exact ⟨first, rest, rfl⟩
  obtain ⟨before, after, rfl⟩ := hmodified first (by simp [hchanges])
  obtain ⟨houtcome, hsame, -⟩ := @nat_cb_refused env c.uninit w [] rest (.modified before after) (by simp) rfl
  rw [commit_t.verify, hchanges]
  exact ⟨houtcome, hsame⟩

section single

variable {c : commit_t UInt32 mapping_t} {mapping : mapping_t}
  (hdelivered : c.Delivered (mapping_changes env.text) h.cfg.mappings)

include hdelivered

theorem delivered_of_single {e : mapping_edit} (hedits : c.edits = [e]) (hunmodified : e.modifies = false) :
    Delivered env h.cfg.mappings c :=
  ⟨hdelivered, fun e' he' => by rw [hedits, List.mem_singleton] at he'; rw [he', hunmodified]⟩

theorem mapping_written_of_created (hwrites : ∀ n, env.write_rc n = .OK) (hedits : c.edits = [.created index mapping]) :
    let result := c.verify (nat_mapping_table_config_cb env) w
    result.outcome = .ok .SR_ERR_OK ∧
      result.world.om = w.om.write object.singular (KEY index)
        (.nat_static (mapping_pair mapping).1 (mapping_pair mapping).2) ∧
      result.world.static_mapping_table = Function.update w.static_mapping_table index (some (mapping_pair mapping)) ∧
      result.world.instances = w.instances := by
  have hc := delivered_of_single hdelivered hedits rfl
  have hcreate : (final env c w).create = true := by rw [final_create hc, creates_of_created hc hedits]
  obtain ⟨houtcome, hom, htable, hinstances⟩ :=
    nat_commit_written env hcreate (mapping_of_created hc hedits) (hwrites _)
  rw [xindex_of_created hc hedits, final_same.om] at hom
  rw [xindex_of_created hc hedits, final_same.static_mapping_table] at htable
  rw [final_same.instances] at hinstances
  rw [verify_eq_commit hc]
  exact ⟨houtcome, hom, htable, hinstances⟩

theorem mapping_removed_of_deleted (hedits : c.edits = [.deleted index mapping]) :
    let result := c.verify (nat_mapping_table_config_cb env) w
    result.outcome = .ok .SR_ERR_OK ∧ result.world.om = w.om.remove (KEY index) ∧
      result.world.static_mapping_table = Function.update w.static_mapping_table index none ∧
      result.world.instances = w.instances := by
  have hc := delivered_of_single hdelivered hedits rfl
  obtain ⟨hcreates, hremoves⟩ := flags_of_deleted hc hedits
  obtain ⟨houtcome, hom, htable, hinstances⟩ := nat_commit_removed env (l := final env c w)
    (by rw [final_create hc, hcreates]) (by rw [final_remove hc, hremoves])
  rw [xindex_of_deleted hc hedits, final_same.om] at hom
  rw [xindex_of_deleted hc hedits, final_same.static_mapping_table] at htable
  rw [final_same.instances] at hinstances
  rw [verify_eq_commit hc]
  exact ⟨houtcome, hom, htable, hinstances⟩

end single

/-- The NAT callback does what an edit of one mapping asks for. -/
theorem mapping_refines (hwrites : ∀ n, env.write_rc n = .OK) (hreal : Realises env w h)
    {c : commit_t UInt32 mapping_t} {e : mapping_edit} (hedits : c.edits = [e])
    (hdelivered : c.Delivered (mapping_changes env.text) h.cfg.mappings) :
    Refines env h (.mapping e) (c.verify (nat_mapping_table_config_cb env) w) := by
  cases e with
  | created index mapping =>
    have hfresh : h.cfg.mappings index = none :=
      (hdelivered.commits.applies (.created index mapping) (by simp [hedits])).1
    obtain ⟨houtcome, hom, htable, hinstances⟩ := mapping_written_of_created (w := w) hdelivered hwrites hedits
    exact refines_of_admitted rfl trivial houtcome (hreal.mapping_written hfresh hom hinstances htable)
  | deleted index mapping =>
    obtain ⟨houtcome, hom, htable, hinstances⟩ := mapping_removed_of_deleted (w := w) hdelivered hedits
    exact refines_of_admitted rfl trivial houtcome (hreal.mapping_removed hom hinstances htable)
  | modified index old new =>
    obtain ⟨houtcome, hsame⟩ := mapping_modified_refused (w := w) hedits hdelivered
    exact refines_of_refused (by simp [config_edit_t.Admitted]) trivial (by simp [houtcome]) (hreal.of_same hsame)

end sweetcomb
