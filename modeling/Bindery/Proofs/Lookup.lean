/-
# Looking up by a key

Tables are lists here, and looking something up in them finds the first entry with a key. So the
order of the entries counts, unless their keys are distinct.
-/

import Mathlib.Data.List.Nodup

namespace Bindery

/-- Where keys are distinct, every entry is found under its own. -/
theorem find?_of_nodup {α κ : Type} [BEq κ] [LawfulBEq κ] {key : α → κ} {l : List α}
    (distinct : (l.map key).Nodup) {a : α} (ha : a ∈ l) :
    l.find? (key · == key a) = some a := by
  obtain ⟨b, hb⟩ : ∃ b, l.find? (key · == key a) = some b :=
    Option.isSome_iff_exists.1 (List.find?_isSome.2 ⟨a, ha, beq_self_eq_true (key a)⟩)
  have hkey : key b = key a := by simpa using List.find?_some hb
  rw [hb, List.inj_on_of_nodup_map distinct (List.mem_of_find?_eq_some hb) ha hkey]

/-- Nothing is found under a key that does not occur. -/
theorem find?_key_eq_none_iff {β : Type} {entries : List (String × β)} {key : String} :
    (entries.find? (·.1 == key)).map (·.2) = none ↔ key ∉ entries.map (·.1) := by
  rw [Option.map_eq_none_iff, List.find?_eq_none, List.mem_map]
  refine ⟨?_, fun h e he heq => h ⟨e, he, eq_of_beq heq⟩⟩
  rintro h ⟨e, he, rfl⟩
  exact h e he (beq_self_eq_true _)

end Bindery
