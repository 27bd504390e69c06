import Sweetcomb.Ietf.Address.Round
import Sweetcomb.Loop

open datastore keyed_store loop

namespace sweetcomb.ietf_interface

/-- An address entry: its interface and address, with the prefix length as its
    value. -/
abbrev address_edit := edit (String × address) UInt8

/-- The changes of an edit in the form in which sysrepo delivers them. -/
def leaves_of : address_edit → List leaf_change
  | .created entry len => [.created .node, .created (.ip entry.2), .created (.prefix_length len)]
  | .deleted entry len => [.deleted .node, .deleted (.ip entry.2), .deleted (.prefix_length len)]
  | .modified _ old new => [.modified (.prefix_length old) (.prefix_length new)]

def address_changes (text : AddressText) (e : address_edit) : List change_t :=
  (leaves_of e).map fun leaf => leaf.change text e.key

/-- The bindings that a datastore asks for. -/
def configured (ds : Datastore (String × address) UInt8) : Bindings :=
  {binding | ds (binding.1, binding.2.addr) = some binding.2.len}

def side_t.bindings (itf : String) (side : side_t) : Bindings :=
  {binding | binding.1 = itf ∧ side.pfx = some binding.2}

/-- The two requests at the end of a round. -/
def context_t.request (itf : String) (ctx : context_t) (bindings : Bindings) : Bindings :=
  bindings \ ctx.old.bindings itf ∪ ctx.new.bindings itf

/-- The effect of one round, in terms of bindings. -/
def carry (itf : String) (state : context_t × Bindings) (leaf : leaf_change) : context_t × Bindings :=
  (leaf.read state.1, (leaf.read state.1).request itf state.2)

theorem pfx_eq_some {side : side_t} {pfx : prefix_t} :
    side.pfx = some pfx ↔ side.addr = some pfx.addr ∧ side.len = pfx.len := by
  cases side with
  | mk addr len =>
    cases pfx
    cases addr <;> simp [side_t.pfx]

@[simp] theorem mem_bindings {side : side_t} {itf otherItf : String} {pfx : prefix_t} :
    (otherItf, pfx) ∈ side.bindings itf ↔ otherItf = itf ∧ side.pfx = some pfx := Iff.rfl

theorem bindings_of_none (side : side_t) (hpfx : side.pfx = none) (itf : String) :
    side.bindings itf = ∅ := by
  ext binding
  simp [side_t.bindings, hpfx]

theorem bindings_of_some (side : side_t) {pfx : prefix_t} (hpfx : side.pfx = some pfx) (itf : String) :
    side.bindings itf = {(itf, pfx)} := by
  ext ⟨otherItf, other⟩
  simp [side_t.bindings, hpfx, eq_comm]

section rounds

variable {env : Env} {ctx : context_t} {l : address_locals} {bindings : Bindings}

theorem holds_del (hcarries : Carries env ctx l) (halive : ∀ om, env.alive om l.if_name = true)
    (hholds : Holds env.text l.world.om bindings) :
    Holds env.text (address_del env l).world.om (bindings \ ctx.old.bindings l.if_name) ∧
      (address_del env l).if_name = l.if_name := by
  rw [address_del_eq hcarries]
  cases hpfx : ctx.old.pfx with
  | none => simpa [bindings_of_none _ hpfx] using hholds
  | some pfx => simpa [bindings_of_some _ hpfx, halive] using hholds.remove l.if_name pfx

theorem holds_create (hcarries : Carries env ctx l) (halive : ∀ om, env.alive om l.if_name = true)
    (hwrites : ∀ n, env.write_rc n = .OK) (hholds : Holds env.text l.world.om bindings) :
    Holds env.text (address_create env l).world.om (bindings ∪ ctx.new.bindings l.if_name) := by
  rw [address_create_eq hcarries (hwrites _)]
  cases hpfx : ctx.new.pfx with
  | none => simpa [bindings_of_none _ hpfx] using hholds
  | some pfx =>
    simpa [bindings_of_some _ hpfx, halive, World.om_write_om, hwrites] using hholds.write l.if_name pfx

/-- The callback's variables and OM stand for a context and a set of bindings. -/
def Represents (env : Env) (state : context_t × Bindings) (l : address_locals) : Prop :=
  Carries env state.1 l ∧ Holds env.text l.world.om state.2

/-- On an interface that stays present, a round of the loop refines `carry`. -/
theorem address_round_refines {state : context_t × Bindings} (hrep : Represents env state l)
    {entry : String × address} (hname : entry.1 ≠ "") (halive : ∀ om, env.alive om entry.1 = true)
    (hwrites : ∀ n, env.write_rc n = .OK) (leaf : leaf_change) :
    ∃ l', address_round env l (leaf.change env.text entry) = .ok l' ∧
      Represents env (carry entry.1 state leaf) l' := by
  obtain ⟨hcarries, hholds⟩ := hrep
  obtain ⟨read, hround, hread, hif_name, _, _, hsame, _⟩ := address_round_leaf hcarries hname leaf
  rw [← hsame.om] at hholds
  rw [← hif_name] at halive
  obtain ⟨hdel, hdel_name⟩ := holds_del hread halive hholds
  have hcarries_del := carries_del hread
  have hcreate := holds_create hcarries_del (by rwa [hdel_name]) hwrites hdel
  refine ⟨_, hround, carries_create hcarries_del (hwrites _), ?_⟩
  rw [hdel_name, hif_name] at hcreate
  exact hcreate

theorem foldlM_entry {state : context_t × Bindings} (hrep : Represents env state l) {e : address_edit}
    (hname : e.key.1 ≠ "") (halive : ∀ om, env.alive om e.key.1 = true) (hwrites : ∀ n, env.write_rc n = .OK) :
    ∃ l', (address_changes env.text e).foldlM (address_round env) l = .ok l' ∧
      Represents env ((leaves_of e).foldl (carry e.key.1) state) l' := by
  rw [address_changes, List.foldlM_map]
  exact foldlM_simulates (Represents env) (carry e.key.1)
    (fun spec state leaf _ hrelated => address_round_refines hrelated hname halive hwrites leaf) hrep

end rounds

/-- What is carried on after an entry. -/
def context_t.after (ctx : context_t) (e : address_edit) : context_t :=
  (leaves_of e).foldl leaf_change.read ctx

theorem carry_context (itf : String) (state : context_t × Bindings) (leaves : List leaf_change) :
    (leaves.foldl (carry itf) state).1 = leaves.foldl leaf_change.read state.1 := by
  induction leaves generalizing state with
  | nil => rfl
  | cons leaf leaves ih => exact ih (carry itf state leaf)

/-- What an entry must meet in the list before it. The loop requests what it
    remembers after every single leaf: a created entry first takes the prefix
    length of another, and the address of an earlier deletion is deleted again on
    its interface; a deleted entry has the address of an earlier creation created
    again on its interface; a modified entry comes without its address. -/
def EntryOk (ctx : context_t) (ds : Datastore (String × address) UInt8) : address_edit → Prop
  | .created entry len =>
    (ctx.new.len = len ∨ ctx.old.pfx = some { addr := entry.2, len := ctx.new.len }) ∧
      ∀ pfx, ctx.old.pfx = some pfx → ds (entry.1, pfx.addr) ≠ some pfx.len
  | .deleted entry _ =>
    ∀ pfx, ctx.new.pfx = some pfx → pfx.addr ≠ entry.2 ∧ ds (entry.1, pfx.addr) = some pfx.len
  | .modified entry _ _ => ctx.old.addr = some entry.2 ∧ ctx.new.addr = some entry.2

section exact

variable {ctx : context_t} {ds : Datastore (String × address) UInt8}

theorem mem_configured {itf : String} {pfx : prefix_t} :
    (itf, pfx) ∈ configured ds ↔ ds (itf, pfx.addr) = some pfx.len := Iff.rfl

theorem created_bindings (entry : String × address) (len : UInt8) (bindings : Bindings) :
    ((leaves_of (.created entry len)).foldl (carry entry.1) (ctx, bindings)).2 =
      bindings \ ctx.old.bindings entry.1 ∪ ({(entry.1, ⟨entry.2, ctx.new.len⟩)} \ ctx.old.bindings entry.1) ∪
        {(entry.1, ⟨entry.2, len⟩)} := by
  ext ⟨itf, pfx⟩
  simp only [leaves_of, carry, leaf_change.read, leaf_t.read, context_t.request, List.foldl_cons, List.foldl_nil]
  rw [bindings_of_none { addr := none, len := ctx.new.len } rfl,
    bindings_of_some { addr := some entry.2, len := ctx.new.len } rfl,
    bindings_of_some { addr := some entry.2, len := len } rfl]
  simp only [Set.mem_union, Set.mem_sdiff, Set.mem_singleton_iff, Set.mem_empty_iff_false]
  tauto

theorem deleted_bindings (entry : String × address) (len : UInt8) (bindings : Bindings) :
    ((leaves_of (.deleted entry len)).foldl (carry entry.1) (ctx, bindings)).2 =
      bindings \ {(entry.1, ⟨entry.2, ctx.old.len⟩), (entry.1, ⟨entry.2, len⟩)} ∪ ctx.new.bindings entry.1 := by
  ext ⟨itf, pfx⟩
  simp only [leaves_of, carry, leaf_change.read, leaf_t.read, context_t.request, List.foldl_cons, List.foldl_nil]
  rw [bindings_of_none { addr := none, len := ctx.old.len } rfl,
    bindings_of_some { addr := some entry.2, len := ctx.old.len } rfl,
    bindings_of_some { addr := some entry.2, len := len } rfl]
  simp only [Set.mem_union, Set.mem_sdiff, Set.mem_singleton_iff, Set.mem_insert_iff, Set.mem_empty_iff_false]
  tauto

theorem mem_configured_apply {e : address_edit} {itf : String} {pfx : prefix_t} :
    (itf, pfx) ∈ configured (e.apply ds) ↔
      if (itf, pfx.addr) = e.key then e.new = some pfx.len else (itf, pfx) ∈ configured ds := by
  rw [mem_configured]
  split
  · rename_i hkey
    rw [hkey, edit.apply_same]
  · rename_i hkey
    rw [e.apply_other ds hkey, mem_configured]

theorem created_exact {entry : String × address} {len : UInt8} (hfresh : ds entry = none) :
    ((leaves_of (.created entry len)).foldl (carry entry.1) (ctx, configured ds)).2 =
        configured ((edit.created entry len).apply ds) ↔
      EntryOk ctx ds (.created entry len) := by
  obtain ⟨itf, addr⟩ := entry
  rw [created_bindings, Set.ext_iff]
  constructor
  · intro hsame
    constructor
    · have hstale := hsame (itf, ⟨addr, ctx.new.len⟩)
      rw [mem_configured_apply, edit.key, edit.new] at hstale
      simp only [mem_configured, Set.mem_union, Set.mem_sdiff, mem_bindings, Set.mem_singleton_iff, if_true] at hstale
      grind
    · intro pfx hpfx hheld
      have hlost := hsame (itf, pfx)
      rw [mem_configured_apply, edit.key, edit.new] at hlost
      simp only [mem_configured, Set.mem_union, Set.mem_sdiff, mem_bindings, Set.mem_singleton_iff] at hlost
      grind
  · rintro ⟨hlen, hkeep⟩ ⟨otherItf, pfx⟩
    obtain ⟨other, otherLen⟩ := pfx
    rw [mem_configured_apply, edit.key, edit.new]
    simp only [mem_configured, Set.mem_union, Set.mem_sdiff, mem_bindings, Set.mem_singleton_iff]
    by_cases hentry : (otherItf, other) = (itf, addr)
    · grind
    · grind

theorem deleted_exact {entry : String × address} {len : UInt8} (hheld : ds entry = some len) :
    ((leaves_of (.deleted entry len)).foldl (carry entry.1) (ctx, configured ds)).2 =
        configured ((edit.deleted entry len).apply ds) ↔
      EntryOk ctx ds (.deleted entry len) := by
  obtain ⟨itf, addr⟩ := entry
  rw [deleted_bindings, Set.ext_iff]
  constructor
  · intro hsame pfx hpfx
    have hagain := hsame (itf, pfx)
    rw [mem_configured_apply, edit.key, edit.new] at hagain
    simp only [mem_configured, Set.mem_union, Set.mem_sdiff, mem_bindings, Set.mem_singleton_iff,
      Set.mem_insert_iff] at hagain
    grind
  · rintro hagain ⟨otherItf, pfx⟩
    obtain ⟨other, otherLen⟩ := pfx
    simp only [EntryOk] at hagain
    rw [mem_configured_apply, edit.key, edit.new]
    simp only [mem_configured, Set.mem_union, Set.mem_sdiff, mem_bindings, Set.mem_singleton_iff, Set.mem_insert_iff]
    by_cases hentry : (otherItf, other) = (itf, addr)
    · grind
    · grind

theorem modified_exact {entry : String × address} {old new : UInt8} (hheld : ds entry = some old)
    (hchange : old ≠ new) :
    ((leaves_of (.modified entry old new)).foldl (carry entry.1) (ctx, configured ds)).2 =
        configured ((edit.modified entry old new).apply ds) ↔
      EntryOk ctx ds (.modified entry old new) := by
  obtain ⟨itf, addr⟩ := entry
  simp only [leaves_of, carry, leaf_change.read, leaf_t.read, context_t.request, List.foldl_cons, List.foldl_nil]
  rw [Set.ext_iff]
  constructor
  · intro hsame
    have hold := hsame (itf, ⟨addr, old⟩)
    have hnew := hsame (itf, ⟨addr, new⟩)
    rw [mem_configured_apply, edit.key, edit.new] at hold hnew
    simp only [mem_configured, Set.mem_union, Set.mem_sdiff, mem_bindings, pfx_eq_some] at hold hnew
    simp only [EntryOk]
    grind
  · rintro ⟨hdeleted, hcreated⟩ ⟨otherItf, pfx⟩
    obtain ⟨other, otherLen⟩ := pfx
    rw [mem_configured_apply, edit.key, edit.new]
    simp only [mem_configured, Set.mem_union, Set.mem_sdiff, mem_bindings, pfx_eq_some, hdeleted, hcreated]
    grind

/-- An entry leaves OM in sync exactly when it meets `EntryOk`. -/
theorem entry_exact {e : address_edit} (happlies : e.Applies ds) :
    ((leaves_of e).foldl (carry e.key.1) (ctx, configured ds)).2 = configured (e.apply ds) ↔
      EntryOk ctx ds e := by
  cases e with
  | created entry len => exact created_exact happlies.1
  | deleted entry len => exact deleted_exact happlies.1
  | modified entry old new => exact modified_exact happlies.1 fun h => happlies.2 (by simp [h])

end exact

end sweetcomb.ietf_interface
