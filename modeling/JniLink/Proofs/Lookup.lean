import Mathlib.Data.List.Basic

/-!
# What is found in a list

A search through a list finds the first element that has a property: it has the property, and none
that stands before it does. Where no two entries have a key in common, the entry of a key is found
wherever it stands.
-/

namespace JniLink

/-- What is found is the first element with the property. -/
theorem find?_eq_some_iff_first {α : Type} {found : α → Bool} {P : α → Prop}
    (h : ∀ a, found a = true ↔ P a) {l : List α} {a : α} :
    l.find? found = some a ↔
      ∃ before after, l = before ++ a :: after ∧ P a ∧ ∀ other ∈ before, ¬ P other := by
  have hnot (other : α) : (!found other) = true ↔ ¬ P other := by
    rw [← h, Bool.not_eq_true', Bool.not_eq_true]
  rw [List.find?_eq_some_iff_append, h]
  constructor
  · rintro ⟨ha, before, after, heq, hbefore⟩
    exact ⟨before, after, heq, ha, fun other ho => (hnot other).mp (hbefore other ho)⟩
  · rintro ⟨before, after, heq, ha, hbefore⟩
    exact ⟨ha, before, after, heq, fun other ho => (hnot other).mpr (hbefore other ho)⟩

/-- In a list of entries with different keys the one of a key is found. -/
theorem find?_key_eq_some_iff {α : Type} {entries : List (String × α)}
    (h : (entries.map (·.1)).Nodup) {key : String} {a : α} :
    (entries.find? (·.1 = key)).map (·.2) = some a ↔ (key, a) ∈ entries := by
  induction entries with
  | nil => simp
  | cons entry entries ih =>
    obtain ⟨hfresh, hnodup⟩ := List.nodup_cons.mp h
    by_cases hkey : entry.1 = key
    · rw [List.find?_cons_of_pos (by simpa using hkey), Option.map_some, Option.some.injEq,
        List.mem_cons]
      constructor
      · rintro rfl
        exact .inl (by rw [← hkey])
      · rintro (rfl | hmem)
        · rfl
        · subst hkey
          exact absurd (List.mem_map_of_mem (f := (·.1)) hmem) hfresh
    · rw [List.find?_cons_of_neg (by simpa using hkey), ih hnodup, List.mem_cons]
      refine (or_iff_right ?_).symm
      rintro rfl
      exact hkey rfl

end JniLink
