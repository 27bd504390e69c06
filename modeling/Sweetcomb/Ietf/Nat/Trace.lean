import Sweetcomb.Ietf.Nat.Outcome

open keyed_store loop

namespace sweetcomb.ietf_nat

section mapping

variable (text : AddressText) (uninit : Uninit) (changes : List change_t)

/-- The index of the last entry that a list of changes creates or deletes. -/
def lastIndex : UInt32 := latest indexed uninit.xindex changes

/-- The mapping built from all that a list of changes creates. -/
def lastMapping : Option nat_pair_t :=
  if latest typed "" changes = "static" then
    some ((latest (reads text "internal-src-address") (.new uninit.m_prefix_len) changes).m_address,
      (latest (reads text "external-src-address") (.new uninit.m_prefix_len) changes).m_address)
  else none

end mapping

/-- A successful call has nothing to do: the mapping that it writes is in OM and
    in the table already, or what it removes is in neither. -/
def NothingToDo (text : AddressText) (uninit : Uninit) (w : World) (changes : List change_t) : Prop :=
  if (uninit.create || changes.any creates) = true then
    ∀ pair, lastMapping text uninit changes = some pair →
      (KEY (lastIndex uninit changes), .nat_static pair.1 pair.2) ∈ w.om ∧
        w.static_mapping_table (lastIndex uninit changes) = some pair
  else if (uninit.remove || changes.any removes) = true then
    (∀ obj, (KEY (lastIndex uninit changes), obj) ∉ w.om) ∧
      w.static_mapping_table (lastIndex uninit changes) = none
  else True

theorem write_mapping_same_iff {om : Om} {key : String} {inside outside : address} :
    om.write object.singular key (.nat_static inside outside) = om ↔ (key, .nat_static inside outside) ∈ om := by
  rw [Store.write_eq_self_iff]
  exact ⟨And.left, fun hheld => ⟨hheld, fun other _ hsame => rigid_nat_static inside outside other hsame⟩⟩

section ended

variable (env : Env) (uninit : Uninit) (w : World) (changes : List change_t)

/-- The variables after a loop that accepts every change. -/
def ended : nat_locals :=
  changes.foldl (advance env.text) (loop_start uninit w)

theorem ended_same : (ended env uninit w changes).world.Same w := foldl_advance_same _ _ _

theorem ended_create : (ended env uninit w changes).create = (uninit.create || changes.any creates) :=
  foldl_advance_create _ _ _

theorem ended_remove : (ended env uninit w changes).remove = (uninit.remove || changes.any removes) :=
  foldl_advance_remove _ _ _

theorem ended_xindex : (ended env uninit w changes).xindex = lastIndex uninit changes :=
  foldl_advance_xindex _ _ _

theorem ended_mapping : (ended env uninit w changes).builder.mapping = lastMapping env.text uninit changes := by
  simp only [nat_static_builder.mapping, ended, foldl_advance_type, foldl_advance_internal_src,
    foldl_advance_external_src]
  rfl

end ended

section callback

variable {env : Env} {uninit : Uninit} {w : World} {changes : List change_t}

/-- A rejected call leaves no trace. -/
theorem nat_cb_rejected_same
    (hrejected : (nat_mapping_table_config_cb env uninit (verify changes) w).outcome ≠ .ok .SR_ERR_OK) :
    (nat_mapping_table_config_cb env uninit (verify changes) w).world.Same w := by
  rcases accepted_or_split (accepts env.text) changes with haccepts | ⟨before, change, after, rfl, haccepts, hrefused⟩
  · rw [nat_cb_accepted haccepts, ← ended] at hrejected ⊢
    refine World.Same.trans ?_ (ended_same env uninit w changes)
    cases hcreate : (ended env uninit w changes).create with
    | true =>
      cases hmapping : (ended env uninit w changes).builder.mapping with
      | none => exact (nat_commit_rejected env hcreate hmapping).2
      | some pair =>
        by_cases hwrite : env.write_rc (ended env uninit w changes).world.writes = .OK
        · exact absurd (nat_commit_written env hcreate hmapping hwrite).1 hrejected
        · exact (nat_commit_failed env hcreate hmapping hwrite).2
    | false =>
      cases hremove : (ended env uninit w changes).remove with
      | true => exact absurd (nat_commit_removed env hcreate hremove).1 hrejected
      | false => exact (nat_commit_nothing env hcreate hremove).2
  · exact (nat_cb_refused haccepts hrefused).2.1

/-- A successful call moves nothing exactly when there is nothing to do. -/
theorem nat_cb_same_iff
    (hok : (nat_mapping_table_config_cb env uninit (verify changes) w).outcome = .ok .SR_ERR_OK) :
    (nat_mapping_table_config_cb env uninit (verify changes) w).world.Same w ↔
      NothingToDo env.text uninit w changes := by
  rcases accepted_or_split (accepts env.text) changes with haccepts | ⟨before, change, after, rfl, haccepts, hrefused⟩
  · have hended := ended_same env uninit w changes
    rw [nat_cb_accepted haccepts, ← ended] at hok ⊢
    rw [NothingToDo, ← ended_mapping env uninit w, ← ended_xindex env uninit w, ← ended_create env uninit w,
      ← ended_remove env uninit w]
    cases hcreate : (ended env uninit w changes).create with
    | true =>
      rw [if_pos rfl]
      cases hmapping : (ended env uninit w changes).builder.mapping with
      | none =>
        rw [(nat_commit_rejected env hcreate hmapping).1] at hok
        cases hok
      | some pair =>
        by_cases hwrite : env.write_rc (ended env uninit w changes).world.writes = .OK
        · obtain ⟨_, hom, htable, hinstances⟩ := nat_commit_written env hcreate hmapping hwrite
          rw [hended.om] at hom
          rw [hended.static_mapping_table] at htable
          constructor
          · rintro hsame _ ⟨⟩
            exact ⟨write_mapping_same_iff.mp (hom.symm.trans hsame.om),
              (Function.update_eq_self_iff.mp (htable.symm.trans hsame.static_mapping_table)).symm⟩
          · intro hdone
            obtain ⟨hheld, hmapped⟩ := hdone pair rfl
            exact ⟨hom.trans (write_mapping_same_iff.mpr hheld), hinstances.trans hended.instances,
              htable.trans (Function.update_eq_self_iff.mpr hmapped.symm)⟩
        · rw [(nat_commit_failed env hcreate hmapping hwrite).1] at hok
          cases hok
    | false =>
      rw [if_neg Bool.false_ne_true]
      cases hremove : (ended env uninit w changes).remove with
      | true =>
        obtain ⟨_, hom, htable, hinstances⟩ := nat_commit_removed env hcreate hremove
        rw [hended.om] at hom
        rw [hended.static_mapping_table] at htable
        rw [if_pos rfl, ← Store.remove_eq_self_iff]
        constructor
        · intro hsame
          exact ⟨hom.symm.trans hsame.om,
            (Function.update_eq_self_iff.mp (htable.symm.trans hsame.static_mapping_table)).symm⟩
        · rintro ⟨hempty, hmapped⟩
          exact ⟨hom.trans hempty, hinstances.trans hended.instances,
            htable.trans (Function.update_eq_self_iff.mpr hmapped.symm)⟩
      | false => exact iff_of_true ((nat_commit_nothing env hcreate hremove).2.trans hended) trivial
  · rw [(nat_cb_refused haccepts hrefused).1] at hok
    exact absurd hok (refusal_ne_ok change)

end callback

end sweetcomb.ietf_nat
