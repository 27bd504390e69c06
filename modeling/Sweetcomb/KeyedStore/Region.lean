import Sweetcomb.KeyedStore

namespace keyed_store

variable {κ α ι : Type}

/-- Two stores hold the same under the keys of a region. -/
def Store.SameOn (region : κ → Prop) (first second : Store κ α) : Prop :=
  ∀ entry, region entry.1 → (entry ∈ first ↔ entry ∈ second)

section relation

variable {region : κ → Prop} {first second third : Store κ α}

theorem Store.SameOn.refl (region : κ → Prop) (store : Store κ α) : store.SameOn region store :=
  fun _ _ => Iff.rfl

theorem Store.SameOn.symm (hsame : first.SameOn region second) : second.SameOn region first :=
  fun entry hregion => (hsame entry hregion).symm

theorem Store.SameOn.trans (hfirst : first.SameOn region second) (hsecond : second.SameOn region third) :
    first.SameOn region third :=
  fun entry hregion => (hfirst entry hregion).trans (hsecond entry hregion)

/-- Regions that cover the keys tell stores apart. -/
theorem Store.SameOn.eq_of_covers {other : κ → Prop} (hcovers : ∀ key, region key ∨ other key)
    (hregion : first.SameOn region second) (hother : first.SameOn other second) : first = second := by
  ext entry
  rcases hcovers entry.1 with hkey | hkey
  · exact hregion entry hkey
  · exact hother entry hkey

end relation

section operations

variable [DecidableEq κ] [DecidableEq α] [DecidableEq ι] {region : κ → Prop} {first second store : Store κ α}

/-- One operation on both stores keeps what they have in common. -/
theorem Store.SameOn.write (hsame : first.SameOn region second) (ident : α → ι) (key : κ) (object : α) :
    (first.write ident key object).SameOn region (second.write ident key object) := by
  intro entry hregion
  rw [Store.mem_write, Store.mem_write, hsame entry hregion]

omit [DecidableEq α] in
theorem Store.SameOn.remove (hsame : first.SameOn region second) (key : κ) :
    (first.remove key).SameOn region (second.remove key) := by
  intro entry hregion
  rw [Store.mem_remove, Store.mem_remove, hsame entry hregion]

/-- An operation under a key outside of the region is not seen in it. -/
theorem Store.sameOn_write {key : κ} (houtside : ¬ region key) (ident : α → ι) (object : α) :
    (store.write ident key object).SameOn region store := by
  intro entry hregion
  have hkey : entry.1 ≠ key := fun heq => houtside (heq ▸ hregion)
  rw [Store.mem_write]
  constructor
  · rintro (rfl | ⟨hmem, -⟩)
    · exact absurd rfl hkey
    · exact hmem
  · exact fun hmem => .inr ⟨hmem, fun hreplaced => hkey hreplaced.1⟩

omit [DecidableEq α] in
theorem Store.sameOn_remove {key : κ} (houtside : ¬ region key) : (store.remove key).SameOn region store := by
  intro entry hregion
  rw [Store.mem_remove, and_iff_left_iff_imp]
  exact fun _ heq => houtside (heq ▸ hregion)

end operations

end keyed_store
