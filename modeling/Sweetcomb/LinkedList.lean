import Mathlib.Data.List.Nodup
import Mathlib.Logic.Function.Basic

namespace linked_list

variable {ι : Type}

/-- The nodes met from a pointer on, up to null. -/
def Chain (next : ι → Option ι) : Option ι → List ι → Prop
  | p, [] => p = none
  | p, node :: nodes => p = some node ∧ Chain next (next node) nodes

@[simp]
theorem chain_nil (next : ι → Option ι) (p : Option ι) : Chain next p [] ↔ p = none :=
  Iff.rfl

@[simp]
theorem chain_cons (next : ι → Option ι) (p : Option ι) (node : ι) (nodes : List ι) :
    Chain next p (node :: nodes) ↔ p = some node ∧ Chain next (next node) nodes :=
  Iff.rfl

/-- Only the links of the nodes that are met matter. -/
theorem chain_congr {next other : ι → Option ι} {p : Option ι} {nodes : List ι}
    (hsame : ∀ node ∈ nodes, next node = other node) : Chain next p nodes ↔ Chain other p nodes := by
  induction nodes generalizing p with
  | nil => simp
  | cons node nodes ih =>
    obtain ⟨hnode, hnodes⟩ := List.forall_mem_cons.mp hsame
    rw [chain_cons, chain_cons, hnode, ih hnodes]

section chains

variable {next : ι → Option ι} {p : Option ι} {nodes : List ι}

/-- A pointer leads along one list only. -/
theorem Chain.unique {others : List ι} (hchain : Chain next p nodes) (hothers : Chain next p others) :
    nodes = others := by
  induction nodes generalizing p others with
  | nil =>
    obtain rfl : p = none := hchain
    cases others with
    | nil => rfl
    | cons other others => cases hothers.1
  | cons node nodes ih =>
    obtain ⟨rfl, hnodes⟩ := hchain
    cases others with
    | nil => cases hothers
    | cons other others =>
      obtain ⟨hsame, hothers⟩ := hothers
      cases hsame
      rw [ih hnodes hothers]

theorem Chain.after {before after : List ι} {node : ι} (hchain : Chain next p (before ++ node :: after)) :
    Chain next (some node) (node :: after) := by
  induction before generalizing p with
  | nil => exact ⟨rfl, hchain.2⟩
  | cons first before ih => exact ih hchain.2

/-- A list that ends has no cycle: no node is met twice. -/
theorem Chain.nodup (hchain : Chain next p nodes) : nodes.Nodup := by
  induction nodes generalizing p with
  | nil => exact List.nodup_nil
  | cons node nodes ih =>
    refine List.nodup_cons.mpr ⟨fun hmem => ?_, ih hchain.2⟩
    obtain ⟨before, after, rfl⟩ := List.append_of_mem hmem
    have hparts : Chain next p ((node :: before) ++ node :: after) := hchain
    obtain rfl : p = some node := hchain.1
    have hlength := congrArg List.length (hchain.unique hparts.after)
    simp only [List.length_cons, List.length_append] at hlength
    omega

variable [DecidableEq ι]

/-- A new node in front. -/
theorem Chain.push (hchain : Chain next p nodes) {node : ι} (hfresh : node ∉ nodes) :
    Chain (Function.update next node p) (some node) (node :: nodes) := by
  refine ⟨rfl, ?_⟩
  rw [Function.update_self]
  refine (chain_congr fun other hother => ?_).mpr hchain
  exact Function.update_of_ne (ne_of_mem_of_not_mem hother hfresh) _ _

/-- The second node is taken out by linking past it. -/
theorem Chain.unlink {first second : ι} (hchain : Chain next p (first :: second :: nodes)) :
    Chain (Function.update next first (next second)) p (first :: nodes) := by
  have hnodup := hchain.nodup
  obtain ⟨hp, _, hnodes⟩ := hchain
  refine ⟨hp, ?_⟩
  rw [Function.update_self]
  refine (chain_congr fun node hnode => ?_).mpr hnodes
  have hother : node ≠ first := by
    rintro rfl
    exact (List.nodup_cons.mp hnodup).1 (List.mem_cons_of_mem _ hnode)
  exact Function.update_of_ne hother _ _

end chains

end linked_list
