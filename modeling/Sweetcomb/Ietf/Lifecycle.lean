import Sweetcomb.Ietf.Lifecycle.Calls

open keyed_store

namespace sweetcomb.ietf_interface

/-- The last entry has another prefix length than the entry before, or than the
    length that the loop starts from. -/
def LastDiffers : UInt8 → address_entries → Prop
  | _, [] => True
  | len, (_, own) :: rest => if rest.isEmpty then own ≠ len else LastDiffers own rest

section prefixes

variable {len : UInt8} {entries : address_entries}

theorem addr_of_mem_prefixes {pfx : prefix_t} (hmem : pfx ∈ prefixes_of len entries) :
    pfx.addr ∈ entries.map Prod.fst := by
  induction entries generalizing len with
  | nil => simp [prefixes_of] at hmem
  | cons entry rest ih =>
    rw [prefixes_of, List.mem_cons, List.mem_cons] at hmem
    rcases hmem with rfl | rfl | hmem
    · simp
    · simp
    · exact List.mem_cons_of_mem _ (ih hmem)

/-- When each prefix but the last has been removed, the last is left if it is
    not the one before. -/
theorem last_left_iff (hentries : entries ≠ []) (hnodup : (entries.map Prod.fst).Nodup) :
    ((prefixes_of len entries).toFinset \ (prefixes_of len entries).dropLast.toFinset).Nonempty ↔
      LastDiffers len entries := by
  induction entries generalizing len with
  | nil => exact absurd rfl hentries
  | cons entry rest ih =>
    obtain ⟨hfresh, hrest⟩ := List.nodup_cons.mp hnodup
    cases rest with
    | nil =>
      constructor
      · rintro ⟨pfx, hpfx⟩ hsame
        simp [prefixes_of, hsame] at hpfx
      · intro hdiffers
        have hdiffers : entry.2 ≠ len := hdiffers
        exact ⟨{ addr := entry.1, len := entry.2 }, by simpa [prefixes_of] using hdiffers⟩
    | cons next rest =>
      have hnext : _ ↔ LastDiffers entry.2 (next :: rest) := ih (List.cons_ne_nil _ _) hrest
      refine Iff.trans ?_ hnext
      rw [dropLast_prefixes_of entry len (List.cons_ne_nil _ _), prefixes_of]
      constructor
      · rintro ⟨pfx, hpfx⟩
        simp only [Finset.mem_sdiff, List.mem_toFinset, List.mem_cons, not_or] at hpfx
        obtain ⟨hmem, hfirst, hsecond, hlast⟩ := hpfx
        exact ⟨pfx, by simpa [hfirst, hsecond, hlast] using hmem⟩
      · rintro ⟨pfx, hpfx⟩
        simp only [Finset.mem_sdiff, List.mem_toFinset] at hpfx
        have hother : pfx.addr ≠ entry.1 := fun hsame => hfresh (hsame ▸ addr_of_mem_prefixes hpfx.1)
        refine ⟨pfx, ?_⟩
        simp only [Finset.mem_sdiff, List.mem_toFinset, List.mem_cons, not_or]
        refine ⟨.inr (.inr hpfx.1), ?_, ?_, hpfx.2⟩
        · rintro rfl
          exact hother rfl
        · rintro rfl
          exact hother rfl

end prefixes

section families

variable (config : interface_config)

theorem ipv4_of_mem {pfx : prefix_t} (hmem : pfx ∈ prefixes_of 0 config.ipv4_entries) : pfx.addr.is_v4 = true := by
  obtain ⟨entry, hentry, haddr⟩ := List.mem_map.mp (addr_of_mem_prefixes hmem)
  obtain ⟨_, _, rfl⟩ := List.mem_map.mp hentry
  rw [← haddr]
  rfl

theorem ipv6_of_mem {pfx : prefix_t} (hmem : pfx ∈ prefixes_of 0 config.ipv6_entries) : pfx.addr.is_v4 = false := by
  obtain ⟨entry, hentry, haddr⟩ := List.mem_map.mp (addr_of_mem_prefixes hmem)
  obtain ⟨_, _, rfl⟩ := List.mem_map.mp hentry
  rw [← haddr]
  rfl

theorem ipv4_nodup (hdistinct : config.Distinct) : (config.ipv4_entries.map Prod.fst).Nodup := by
  have hinjective : Function.Injective address.v4 := fun _ _ h => address.v4.inj h
  have hmap := hdistinct.ipv4.map hinjective
  rw [List.map_map] at hmap
  rw [interface_config.ipv4_entries, List.map_map]
  exact hmap

theorem ipv6_nodup (hdistinct : config.Distinct) : (config.ipv6_entries.map Prod.fst).Nodup := by
  have hinjective : Function.Injective address.v6 := fun _ _ h => address.v6.inj h
  have hmap := hdistinct.ipv6.map hinjective
  rw [List.map_map] at hmap
  rw [interface_config.ipv6_entries, List.map_map]
  exact hmap

theorem families_disjoint :
    Disjoint (prefixes_of 0 config.ipv6_entries).toFinset (prefixes_of 0 config.ipv4_entries).toFinset := by
  rw [Finset.disjoint_left]
  intro pfx hipv6 hipv4
  rw [List.mem_toFinset] at hipv6 hipv4
  exact Bool.false_ne_true ((ipv6_of_mem config hipv6).symm.trans (ipv4_of_mem config hipv4))

end families

/-- The deletion of the addresses succeeds throughout exactly when the interface
    is still there at its very last request. -/
theorem deletions_succeed_iff {config : interface_config} (hdistinct : config.Distinct) :
    let ipv4 := prefixes_of 0 config.ipv4_entries
    let ipv6 := prefixes_of 0 config.ipv6_entries
    ((config.ipv4_entries = [] ∨ ((ipv4.toFinset ∪ ipv6.toFinset) \ ipv4.dropLast.toFinset).Nonempty) ∧
      (config.ipv6_entries = [] ∨
        (((ipv4.toFinset ∪ ipv6.toFinset) \ ipv4.toFinset) \ ipv6.dropLast.toFinset).Nonempty)) ↔
      LastDiffers 0 (if config.ipv6_entries = [] then config.ipv4_entries else config.ipv6_entries) := by
  intro ipv4 ipv6
  have hleft : (ipv4.toFinset ∪ ipv6.toFinset) \ ipv4.toFinset = ipv6.toFinset := by
    rw [Finset.union_sdiff_left, (families_disjoint config).sdiff_eq_left]
  rw [hleft]
  by_cases hipv6 : config.ipv6_entries = []
  · have hnone : ipv6 = [] := by simp only [ipv6, hipv6, prefixes_of]
    rw [if_pos hipv6, hnone, List.toFinset_nil, Finset.union_empty]
    simp only [hipv6, true_or, and_true]
    by_cases hipv4 : config.ipv4_entries = []
    · simp [hipv4, LastDiffers]
    · rw [← last_left_iff hipv4 (ipv4_nodup config hdistinct)]
      simp only [hipv4, false_or]
      exact Iff.rfl
  · rw [if_neg hipv6, ← last_left_iff hipv6 (ipv6_nodup config hdistinct)]
    have hkept : ((ipv4.toFinset ∪ ipv6.toFinset) \ ipv4.dropLast.toFinset).Nonempty := by
      obtain ⟨entry, rest, hcons⟩ := List.exists_cons_of_ne_nil hipv6
      have hmem : ({ addr := entry.1, len := 0 } : prefix_t) ∈ ipv6 := by simp [ipv6, hcons, prefixes_of]
      refine ⟨{ addr := entry.1, len := 0 }, Finset.mem_sdiff.mpr ⟨?_, ?_⟩⟩
      · exact Finset.mem_union_right _ (List.mem_toFinset.mpr hmem)
      · intro hdropped
        have hipv4 := ipv4_of_mem config (List.mem_of_mem_dropLast (List.mem_toFinset.mp hdropped))
        exact Bool.false_ne_true ((ipv6_of_mem config hmem).symm.trans hipv4)
    simp only [hkept, or_true, true_and, hipv6, false_or]
    exact Iff.rfl

/-- Creating an interface with its addresses and deleting it again works as a
    whole exactly for a named ethernet interface whose last address to go has
    another prefix length than the address before. -/
theorem lifecycle_iff {env : Env} (hcounts : env.Counts) (hwrites : ∀ n, env.write_rc n = .OK)
    {config : interface_config} (hdistinct : config.Distinct) {w : World} (habsent : Absent w.om config.name)
    {created deleted : Uninit} (hcleared : deleted.Cleared) :
    let result := run_calls (config.created_calls env created ++ config.deleted_calls env deleted) w
    ((∀ outcome ∈ result.1, outcome = .ok .SR_ERR_OK) ∧ Absent result.2.om config.name) ↔
      config.name ≠ "" ∧ config.type = "iana-if-type:ethernetCsmacd" ∧
        LastDiffers 0 (if config.ipv6_entries = [] then config.ipv4_entries else config.ipv6_entries) := by
  let values := address_values env.text config.name config.ipv4_entries ++
    address_values env.text config.name config.ipv6_entries
  have hcreated_values : config.own.map .created ++ (created_addresses env.text config.name config.ipv4_entries ++
      created_addresses env.text config.name config.ipv6_entries) = (config.own ++ values).map .created := by
    simp only [created_addresses_eq, values, List.map_append]
  have hdeleted_values : config.own.map .deleted ++ (deleted_addresses env.text config.name config.ipv4_entries ++
      deleted_addresses env.text config.name config.ipv6_entries) = (config.own ++ values).map .deleted := by
    simp only [deleted_addresses_eq, values, List.map_append]
  have hignored : ∀ val ∈ values, named (.created val) = none ∧ typed (.created val) = none ∧
      named (.deleted val) = none := by
    intro val hmem
    exact (List.mem_append.mp hmem).elim address_value_ignored address_value_ignored
  simp only [interface_config.created_calls, interface_config.deleted_calls, hcreated_values, hdeleted_values,
    List.cons_append, List.nil_append, run_calls, List.forall_mem_cons]
  have hfirst := create_cb_created env created config hwrites
    (fun val hmem => ⟨(hignored val hmem).1, (hignored val hmem).2.1⟩) w
  by_cases hbuilds : config.name ≠ "" ∧ config.type = "iana-if-type:ethernetCsmacd"
  · rw [if_pos hbuilds] at hfirst
    obtain ⟨hcreated, attrs, hom⟩ := hfirst
    have hpresence := (presence_iff_absent env.text).mpr habsent
    have hpresence := hpresence.create attrs
    rw [← hom] at hpresence
    obtain ⟨hipv4_created, hpresence⟩ :=
      address_cb_created hcounts hbuilds.1 hwrites hpresence config.ipv4_entries
    obtain ⟨hipv6_created, hpresence⟩ :=
      address_cb_created hcounts hbuilds.1 hwrites hpresence config.ipv6_entries
    obtain ⟨hdeleted, hom⟩ := create_cb_deleted env deleted config hcleared (fun val hmem => (hignored val hmem).2.2) _
    have hpresence := hpresence.delete
    rw [← hom, Finset.empty_union] at hpresence
    obtain ⟨hipv4_deleted, hpresence⟩ := address_cb_deleted hcounts hbuilds.1 hpresence config.ipv4_entries
    obtain ⟨hipv6_deleted, hpresence⟩ := address_cb_deleted hcounts hbuilds.1 hpresence config.ipv6_entries
    rw [sdiff_sdiff_left, Finset.sup_eq_union, sdiff_self, Finset.bot_eq_empty, presence_iff_absent] at hpresence
    have hsucceed := deletions_succeed_iff hdistinct
    simp only [hcreated, hipv4_created, hipv6_created, hdeleted, hipv4_deleted, hipv6_deleted, hpresence,
      List.not_mem_nil, false_imp_iff, implies_true, and_true, true_and, hbuilds.1, hbuilds.2, ne_eq,
      not_false_eq_true]
    exact hsucceed
  · rw [if_neg hbuilds] at hfirst
    refine iff_of_false (fun hall => hfirst hall.1.1) fun hright => hbuilds ⟨hright.1, hright.2.1⟩

/-- An ethernet interface with two addresses. -/
def two_addresses (first second : UInt8) : interface_config where
  name := "host-vpp1"
  type := "iana-if-type:ethernetCsmacd"
  enabled := none
  ipv4 := [(0xC0A80001, first), (0x8EA80001, second)]
  ipv6 := []

theorem two_addresses_distinct (first second : UInt8) : (two_addresses first second).Distinct :=
  ⟨by simp [two_addresses], by simp [two_addresses]⟩

theorem absent_from_empty (name : String) : Absent World.empty.om name :=
  ⟨by simp [World.empty], by simp [World.empty]⟩

/-- With the prefix lengths 24 and 14 everything succeeds. -/
theorem lifecycle_24_14 :
    let result := run_calls ((two_addresses 24 14).created_calls counting cleared ++
      (two_addresses 24 14).deleted_calls counting cleared) World.empty
    (∀ outcome ∈ result.1, outcome = .ok .SR_ERR_OK) ∧ Absent result.2.om "host-vpp1" :=
  (lifecycle_iff counting_counts (fun _ => rfl) (two_addresses_distinct 24 14) (absent_from_empty _)
    cleared_cleared).mpr ⟨by decide, rfl, by
      simp [two_addresses, interface_config.ipv4_entries, interface_config.ipv6_entries, LastDiffers]⟩

/-- With the same prefix length twice the last deletion is refused. -/
theorem lifecycle_24_24_fails :
    (two_addresses 24 24).Distinct ∧ Absent World.empty.om "host-vpp1" ∧
      ¬ ∀ outcome ∈ (run_calls ((two_addresses 24 24).created_calls counting cleared ++
        (two_addresses 24 24).deleted_calls counting cleared) World.empty).1, outcome = .ok .SR_ERR_OK :=
  ⟨two_addresses_distinct 24 24, absent_from_empty _, by decide +kernel⟩

end sweetcomb.ietf_interface
