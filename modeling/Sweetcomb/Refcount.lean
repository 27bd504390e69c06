import Sweetcomb.Asio.Text
import Sweetcomb.Vom

namespace sweetcomb

/-- An object with which VOM keeps the shared instance of an interface: the
    interface itself, or a binding that refers to it. -/
def object.keeps (name : String) : object → Bool
  | .interface other _ => other == name
  | .l3_binding itf _ => itf == name
  | .nat_static _ _ => false

theorem object.keeps_singular (name : String) (obj : object) : obj.singular.keeps name = obj.keeps name := by
  cases obj <;> rfl

/-- VOM finds an interface exactly while OM holds something that keeps it, under
    whatever key. -/
def Env.Counts (env : Env) : Prop :=
  ∀ om name, env.alive om name = true ↔ ∃ entry ∈ om, entry.2.keeps name = true

/-- VOM goes on finding an interface while OM loses nothing. -/
def Env.Persists (env : Env) : Prop :=
  ∀ om after name, om ⊆ after → env.alive om name = true → env.alive after name = true

theorem Env.Counts.persists {env : Env} (hcounts : env.Counts) : env.Persists := by
  intro om after name hsubset halive
  rw [hcounts] at halive ⊢
  obtain ⟨entry, hmem, hkeeps⟩ := halive
  exact ⟨entry, hsubset hmem, hkeeps⟩

/-- An environment in which references are counted and every write succeeds. -/
def counting : Env where
  text := plainText
  alive om name := decide (∃ entry ∈ om, entry.2.keeps name = true)
  write_rc _ := .OK
  little_endian := true

theorem counting_counts : counting.Counts := fun om name => by simp [counting]

/-- OM, the instances and the NAT table before any configuration. -/
def World.empty : World where
  om := ∅
  instances _ := { type := "", state := .DOWN }
  static_mapping_table _ := none

end sweetcomb
