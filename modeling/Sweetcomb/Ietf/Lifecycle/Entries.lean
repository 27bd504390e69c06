import Mathlib.Data.Finset.Option
import Sweetcomb.Ietf.Address.Entry
import Sweetcomb.Ietf.Lifecycle.Presence

open datastore keyed_store

namespace sweetcomb.ietf_interface

/-- The addresses of one interface and family, with their prefix lengths. -/
abbrev address_entries := List (address × UInt8)

section changes

variable (text : AddressText) (name : String) (entries : address_entries)

def created_addresses : List change_t :=
  entries.flatMap fun entry => address_changes text (.created (name, entry.1) entry.2)

def deleted_addresses : List change_t :=
  entries.flatMap fun entry => address_changes text (.deleted (name, entry.1) entry.2)

end changes

/-- The prefixes that the loop requests for a list of entries: each address
    with the prefix length of the entry before, then with its own. -/
def prefixes_of : UInt8 → address_entries → List prefix_t
  | _, [] => []
  | len, (addr, own) :: rest => { addr, len } :: { addr, len := own } :: prefixes_of own rest

theorem dropLast_prefixes_of (entry : address × UInt8) (len : UInt8) {rest : address_entries} (hrest : rest ≠ []) :
    (prefixes_of len (entry :: rest)).dropLast =
      { addr := entry.1, len } :: { addr := entry.1, len := entry.2 } :: (prefixes_of entry.2 rest).dropLast := by
  cases rest with
  | nil => exact absurd rfl hrest
  | cons next rest => rfl

section rounds

variable {env : Env} (hcounts : env.Counts) (hwrites : ∀ n, env.write_rc n = .OK) {name : String}
  (hname : name ≠ "")

include hcounts hname

section created

include hwrites

theorem created_round {ctx : context_t} {l : address_locals} {bound : Finset prefix_t}
    (hcarries : Carries env ctx l) (hold : ctx.old.addr = none)
    (hpresence : Presence env.text l.world.om name true bound) (hrc : l.op_rc = .SR_ERR_OK) (addr : address)
    (leaf : leaf_t) :
    ∃ l', address_round env l ((leaf_change.created leaf).change env.text (name, addr)) = .ok l' ∧
      Carries env { ctx with new := leaf.read ctx.new } l' ∧
      Presence env.text l'.world.om name true (bound ∪ (leaf.read ctx.new).pfx.toFinset) ∧
      l'.op_rc = .SR_ERR_OK := by
  have hentry : ((name, addr) : String × address).1 ≠ "" := hname
  obtain ⟨read, hround, hread, hif_name, hop_rc, _, hsame, _⟩ := address_round_leaf hcarries hentry (.created leaf)
  have hpresence : Presence env.text read.world.om name true bound := by rwa [hsame.om]
  have halive : env.alive read.world.om name = true := (hpresence.alive_iff hcounts).mpr (.inl rfl)
  rw [address_del_none hread hold] at hround
  refine ⟨_, hround, carries_create hread (hwrites _), ?_, ?_⟩
  · rw [address_create_eq hread (hwrites _)]
    simp only [leaf_change.read]
    cases hpfx : (leaf.read ctx.new).pfx with
    | none => simpa using hpresence
    | some pfx =>
      have hbind := hpresence.bind pfx
      simpa [hif_name, halive, World.om_write_om, hwrites, Finset.union_comm, ← Finset.insert_eq] using hbind
  · rw [address_create_eq hread (hwrites _)]
    simp only [leaf_change.read]
    cases hpfx : (leaf.read ctx.new).pfx with
    | none => exact hop_rc.trans hrc
    | some pfx => simp [hif_name, halive]

end created

theorem deleted_round {ctx : context_t} {l : address_locals} {bound : Finset prefix_t}
    (hcarries : Carries env ctx l) (hnew : ctx.new.addr = none)
    (hpresence : Presence env.text l.world.om name false bound) (addr : address) (leaf : leaf_t) :
    ∃ l', address_round env l ((leaf_change.deleted leaf).change env.text (name, addr)) = .ok l' ∧
      Carries env { ctx with old := leaf.read ctx.old } l' ∧
      Presence env.text l'.world.om name false (bound \ (leaf.read ctx.old).pfx.toFinset) ∧
      l'.op_rc = (if (leaf.read ctx.old).pfx.isNone then l.op_rc
        else if bound.Nonempty then .SR_ERR_OK else .SR_ERR_INVAL_ARG) := by
  have hentry : ((name, addr) : String × address).1 ≠ "" := hname
  obtain ⟨read, hround, hread, hif_name, hop_rc, _, hsame, _⟩ := address_round_leaf hcarries hentry (.deleted leaf)
  have hpresence : Presence env.text read.world.om name false bound := by rwa [hsame.om]
  have halive : env.alive read.world.om name = true ↔ bound.Nonempty := by
    rw [hpresence.alive_iff hcounts]
    simp
  rw [address_create_none (carries_del hread) hnew] at hround
  refine ⟨_, hround, carries_del hread, ?_, ?_⟩
  · rw [address_del_eq hread]
    simp only [leaf_change.read]
    cases hpfx : (leaf.read ctx.old).pfx with
    | none => simpa using hpresence
    | some pfx =>
      by_cases hbound : bound.Nonempty
      · have hunbind := hpresence.unbind pfx
        simpa [hif_name, halive.mpr hbound, Finset.sdiff_singleton_eq_erase] using hunbind
      · have hmissing : env.alive read.world.om name = false := by rwa [← Bool.not_eq_true, halive]
        rw [Finset.not_nonempty_iff_eq_empty] at hbound
        subst hbound
        simpa [hif_name, hmissing] using hpresence
  · rw [address_del_eq hread]
    simp only [leaf_change.read]
    cases hpfx : (leaf.read ctx.old).pfx with
    | none => simpa using hop_rc
    | some pfx =>
      by_cases hbound : bound.Nonempty
      · simp [hif_name, halive.mpr hbound, hbound]
      · have hmissing : env.alive read.world.om name = false := by rwa [← Bool.not_eq_true, halive]
        simp [hif_name, hmissing, hbound]

section created

include hwrites

/-- A created entry adds its address with the prefix length that it finds, and
    with its own. -/
theorem created_entry {ctx : context_t} {l : address_locals} {bound : Finset prefix_t}
    (hcarries : Carries env ctx l) (hold : ctx.old.addr = none)
    (hpresence : Presence env.text l.world.om name true bound) (hrc : l.op_rc = .SR_ERR_OK) (addr : address)
    (own : UInt8) :
    ∃ l', (address_changes env.text (.created (name, addr) own)).foldlM (address_round env) l = .ok l' ∧
      Carries env { ctx with new := { addr := some addr, len := own } } l' ∧
      Presence env.text l'.world.om name true
        (bound ∪ [{ addr, len := ctx.new.len }, { addr, len := own }].toFinset) ∧
      l'.op_rc = .SR_ERR_OK := by
  obtain ⟨first, hfirst, hcarries, hpresence, hrc⟩ :=
    created_round hcounts hwrites hname hcarries hold hpresence hrc addr .node
  obtain ⟨second, hsecond, hcarries, hpresence, hrc⟩ :=
    created_round hcounts hwrites hname hcarries hold hpresence hrc addr (.ip addr)
  obtain ⟨third, hthird, hcarries, hpresence, hrc⟩ :=
    created_round hcounts hwrites hname hcarries hold hpresence hrc addr (.prefix_length own)
  refine ⟨third, ?_, hcarries, ?_, hrc⟩
  · simp only [address_changes, leaves_of, edit.key, List.map_cons, List.map_nil, List.foldlM_cons,
      List.foldlM_nil, hfirst, hsecond, hthird, ok_bind]
    rfl
  · simpa [leaf_t.read, side_t.pfx, Finset.union_assoc, ← Finset.insert_eq] using hpresence

theorem created_entries {ctx : context_t} {l : address_locals} {bound : Finset prefix_t}
    (hcarries : Carries env ctx l) (hold : ctx.old.addr = none)
    (hpresence : Presence env.text l.world.om name true bound) (hrc : l.op_rc = .SR_ERR_OK)
    (entries : address_entries) :
    ∃ l', (created_addresses env.text name entries).foldlM (address_round env) l = .ok l' ∧
      Presence env.text l'.world.om name true (bound ∪ (prefixes_of ctx.new.len entries).toFinset) ∧
      l'.op_rc = .SR_ERR_OK := by
  induction entries generalizing ctx l bound with
  | nil => exact ⟨l, rfl, by simpa [prefixes_of] using hpresence, hrc⟩
  | cons entry entries ih =>
    obtain ⟨middle, hentry, hcarries, hpresence, hrc⟩ :=
      created_entry hcounts hwrites hname hcarries hold hpresence hrc entry.1 entry.2
    obtain ⟨last, hrest, hpresence, hrc⟩ := ih hcarries hold hpresence hrc
    refine ⟨last, ?_, ?_, hrc⟩
    · rw [created_addresses, List.flatMap_cons, List.foldlM_append, hentry]
      exact hrest
    · simpa [prefixes_of, Finset.union_assoc] using hpresence

end created

/-- A deleted entry removes its address with the prefix length that it finds,
    and then with its own, for which the interface must still be there. -/
theorem deleted_entry {ctx : context_t} {l : address_locals} {bound : Finset prefix_t}
    (hcarries : Carries env ctx l) (hnew : ctx.new.addr = none)
    (hpresence : Presence env.text l.world.om name false bound) (addr : address) (own : UInt8) :
    ∃ l', (address_changes env.text (.deleted (name, addr) own)).foldlM (address_round env) l = .ok l' ∧
      Carries env { ctx with old := { addr := some addr, len := own } } l' ∧
      Presence env.text l'.world.om name false
        (bound \ [{ addr, len := ctx.old.len }, { addr, len := own }].toFinset) ∧
      l'.op_rc = (if (bound \ {{ addr, len := ctx.old.len }}).Nonempty then .SR_ERR_OK else .SR_ERR_INVAL_ARG) := by
  obtain ⟨first, hfirst, hcarries, hpresence, _⟩ :=
    deleted_round hcounts hname hcarries hnew hpresence addr .node
  obtain ⟨second, hsecond, hcarries, hpresence, _⟩ :=
    deleted_round hcounts hname hcarries hnew hpresence addr (.ip addr)
  obtain ⟨third, hthird, hcarries, hpresence, hrc⟩ :=
    deleted_round hcounts hname hcarries hnew hpresence addr (.prefix_length own)
  refine ⟨third, ?_, hcarries, ?_, ?_⟩
  · simp only [address_changes, leaves_of, edit.key, List.map_cons, List.map_nil, List.foldlM_cons,
      List.foldlM_nil, hfirst, hsecond, hthird, ok_bind]
    rfl
  · simpa [leaf_t.read, side_t.pfx, sdiff_sdiff_left, ← Finset.insert_eq] using hpresence
  · simpa [leaf_t.read, side_t.pfx] using hrc

/-- The callback returns the code of its last request. -/
theorem deleted_entries {ctx : context_t} {l : address_locals} {bound : Finset prefix_t}
    (hcarries : Carries env ctx l) (hnew : ctx.new.addr = none)
    (hpresence : Presence env.text l.world.om name false bound) (entries : address_entries) :
    ∃ l', (deleted_addresses env.text name entries).foldlM (address_round env) l = .ok l' ∧
      Presence env.text l'.world.om name false (bound \ (prefixes_of ctx.old.len entries).toFinset) ∧
      l'.op_rc = (if entries = [] then l.op_rc
        else if (bound \ (prefixes_of ctx.old.len entries).dropLast.toFinset).Nonempty then .SR_ERR_OK
        else .SR_ERR_INVAL_ARG) := by
  induction entries generalizing ctx l bound with
  | nil => exact ⟨l, rfl, by simpa [prefixes_of] using hpresence, rfl⟩
  | cons entry entries ih =>
    obtain ⟨middle, hentry, hcarries, hpresence, hrc⟩ :=
      deleted_entry hcounts hname hcarries hnew hpresence entry.1 entry.2
    obtain ⟨last, hrest, hpresence, hrc_last⟩ := ih hcarries hnew hpresence
    refine ⟨last, ?_, ?_, ?_⟩
    · rw [deleted_addresses, List.flatMap_cons, List.foldlM_append, hentry]
      exact hrest
    · simpa [prefixes_of, sdiff_sdiff_left] using hpresence
    · rw [hrc_last, hrc]
      cases entries with
      | nil => simp [prefixes_of]
      | cons next rest =>
        rw [if_neg (List.cons_ne_nil _ _), if_neg (List.cons_ne_nil _ _),
          dropLast_prefixes_of entry _ (List.cons_ne_nil _ _)]
        simp [sdiff_sdiff_left]

end rounds

end sweetcomb.ietf_interface
