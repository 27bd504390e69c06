import Mathlib.Data.List.DropRight
import Sweetcomb.KeyedStore

namespace keyed_store

variable {κ α ι : Type} [DecidableEq κ] [DecidableEq α] [DecidableEq ι]

/-- An operation on a store. -/
inductive Operation (κ α : Type) where
  | write (key : κ) (object : α)
  | remove (key : κ)
deriving DecidableEq

def Operation.apply (ident : α → ι) (store : Store κ α) : Operation κ α → Store κ α
  | .write key object => store.write ident key object
  | .remove key => store.remove key

def Store.replay (ident : α → ι) (store : Store κ α) (ops : List (Operation κ α)) : Store κ α :=
  ops.foldl (Operation.apply ident) store

theorem Store.replay_append (ident : α → ι) (store : Store κ α) (ops : List (Operation κ α))
    (op : Operation κ α) : store.replay ident (ops ++ [op]) = op.apply ident (store.replay ident ops) := by
  simp [Store.replay]

/-- The operations after the last removal of a key. -/
def since (key : κ) (ops : List (Operation κ α)) : List (Operation κ α) :=
  ops.rtakeWhile fun op => op ≠ .remove key

theorem since_append (key : κ) (ops : List (Operation κ α)) (op : Operation κ α) :
    since key (ops ++ [op]) = if op = .remove key then [] else since key ops ++ [op] := by
  unfold since
  split
  · rename_i hremove
    exact List.rtakeWhile_concat_neg _ _ _ (by simp [hremove])
  · rename_i hother
    exact List.rtakeWhile_concat_pos _ _ _ (by simpa using hother)

/-- Under a key a replay leaves what was written since its last removal, over
    what was held there if it was never removed. -/
theorem Store.mem_replay {ident : α → ι} {store : Store κ α} {ops : List (Operation κ α)}
    (hrigid : ∀ key object, Operation.write key object ∈ ops → Rigid ident object) {key : κ} {object : α} :
    (key, object) ∈ store.replay ident ops ↔
      .write key object ∈ since key ops ∨ (key, object) ∈ store ∧ .remove key ∉ ops := by
  induction ops using List.reverseRecOn with
  | nil => simp [Store.replay, since]
  | append_singleton ops op ih =>
    have hbefore := ih fun key object hmem => hrigid key object (List.mem_append_left _ hmem)
    rw [Store.replay_append, since_append]
    cases op with
    | write otherKey other =>
      have hother : Rigid ident other := hrigid otherKey other (by simp)
      simp only [Operation.apply, Store.mem_write_of_rigid hother, hbefore,
        reduceCtorEq, if_false, List.mem_append, List.mem_singleton, or_false, Prod.mk.injEq,
        Operation.write.injEq]
      rw [or_left_comm, or_assoc]
    | remove otherKey =>
      simp only [Operation.apply, Store.mem_remove, hbefore,
        Operation.remove.injEq, List.mem_append, List.mem_singleton, not_or]
      by_cases hkey : otherKey = key
      · simp [hkey]
      · have hkey' : key ≠ otherKey := fun h => hkey h.symm
        simp [hkey, hkey']

/-- Operations that come to nothing: what they leave under a key was held there
    before, and what they remove is written again. -/
structure Neutral (store : Store κ α) (ops : List (Operation κ α)) : Prop where
  writes : ∀ key object, .write key object ∈ since key ops → (key, object) ∈ store
  removes : ∀ key object, .remove key ∈ ops → (key, object) ∈ store → .write key object ∈ since key ops

/-- A replay brings a store back exactly when its operations come to nothing. -/
theorem Store.replay_eq_self_iff {ident : α → ι} {store : Store κ α} {ops : List (Operation κ α)}
    (hrigid : ∀ key object, Operation.write key object ∈ ops → Rigid ident object) :
    store.replay ident ops = store ↔ Neutral store ops := by
  constructor
  · intro heq
    refine ⟨fun key object hwrite => ?_, fun key object hremove hmem => ?_⟩
    · rw [← heq, Store.mem_replay hrigid]
      exact .inl hwrite
    · rw [← heq, Store.mem_replay hrigid] at hmem
      exact hmem.resolve_right fun hkept => hkept.2 hremove
  · intro hneutral
    ext ⟨key, object⟩
    rw [Store.mem_replay hrigid]
    constructor
    · rintro (hwrite | ⟨hmem, _⟩)
      · exact hneutral.writes key object hwrite
      · exact hmem
    · intro hmem
      by_cases hremove : Operation.remove key ∈ ops
      · exact .inl (hneutral.removes key object hremove hmem)
      · exact .inr ⟨hmem, hremove⟩

end keyed_store
