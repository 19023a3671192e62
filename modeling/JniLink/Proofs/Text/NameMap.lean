import JniLink.Text.NameMap
import Mathlib.Data.List.Induction

/-!
# Entries of maps

What is in a map after an entry was put into it, and after all entries of a list were put into it one
after the other: for every name that the list has, the last entry of that name.
-/

namespace JniLink.NameMap

variable {α : Type} {name : String} {value : α} {entries : List (String × α)}

theorem ext {m m' : NameMap α} (h : m.entries = m'.entries) : m = m' := by
  cases m
  cases m'
  cases h
  rfl

theorem nodup_names (m : NameMap α) : (m.entries.map (·.1)).Nodup :=
  List.pairwise_map.mpr (m.ascending.imp String.ne_of_lt)

/-- An entry behind all others is put at the end. -/
theorem insertEntry_of_forall_lt (h : ∀ entry ∈ entries, entry.1 < name) :
    insertEntry name value entries = entries ++ [(name, value)] := by
  induction entries with
  | nil => rfl
  | cons entry entries ih =>
    obtain ⟨hentry, hrest⟩ := List.forall_mem_cons.mp h
    rw [insertEntry, if_neg (fun hlt => String.lt_irrefl _ (String.lt_trans hlt hentry)),
      if_neg (fun heq => String.lt_irrefl _ (heq ▸ hentry)), ih hrest, List.cons_append]

/-- The new entry stands in the place of its name, and all other names keep theirs. -/
theorem mem_insertEntry_iff (h : entries.Pairwise fun a b => a.1 < b.1) {x : String × α} :
    x ∈ insertEntry name value entries ↔ x = (name, value) ∨ x.1 ≠ name ∧ x ∈ entries := by
  induction entries with
  | nil => simp [insertEntry]
  | cons entry rest ih =>
    obtain ⟨hentry, hrest⟩ := List.pairwise_cons.mp h
    rw [insertEntry]
    split
    next hlt =>
      have hother : ∀ x ∈ entry :: rest, x.1 ≠ name :=
        List.forall_mem_cons.mpr ⟨(String.ne_of_lt hlt).symm,
          fun x hx => (String.ne_of_lt (String.lt_trans hlt (hentry x hx))).symm⟩
      rw [List.mem_cons, and_iff_right_of_imp (hother x)]
    next =>
      split
      next heq =>
        subst heq
        have hother : ∀ x ∈ rest, x.1 ≠ entry.1 := fun x hx => (String.ne_of_lt (hentry x hx)).symm
        rw [List.mem_cons, List.mem_cons, and_or_left, and_iff_right_of_imp (hother x)]
        refine or_congr_right (iff_or_self.mpr ?_)
        rintro ⟨hne, rfl⟩
        exact absurd rfl hne
      next hne =>
        rw [List.mem_cons, ih hrest, List.mem_cons, and_or_left, or_left_comm]
        refine or_congr_right (or_congr_left (iff_and_self.mpr ?_))
        rintro rfl
        exact fun heq => hne heq.symm

theorem mem_insert_iff {m : NameMap α} {x : String × α} :
    x ∈ (m.insert name value).entries ↔ x = (name, value) ∨ x.1 ≠ name ∧ x ∈ m.entries :=
  mem_insertEntry_iff m.ascending

/-- The map of a list has the last entry of every name. -/
theorem mem_ofList_iff {x : String × α} : x ∈ (ofList entries).entries ↔
    ∃ before after, entries = before ++ x :: after ∧ ∀ other ∈ after, other.1 ≠ x.1 := by
  induction entries using List.reverseRecOn with
  | nil =>
    refine iff_of_false List.not_mem_nil ?_
    rintro ⟨before, after, heq, -⟩
    exact List.cons_ne_nil _ _ (List.append_eq_nil_iff.mp heq.symm).2
  | append_singleton entries entry ih =>
    have hinsert : ofList (entries ++ [entry]) = (ofList entries).insert entry.1 entry.2 := by
      rw [ofList, List.foldl_append]
      rfl
    rw [hinsert, mem_insert_iff, ih]
    constructor
    · rintro (rfl | ⟨hne, before, after, rfl, hafter⟩)
      · exact ⟨entries, [], rfl, nofun⟩
      · refine ⟨before, after ++ [entry], by simp, fun other ho => ?_⟩
        rcases List.mem_append.mp ho with ho | ho
        · exact hafter other ho
        · rw [List.mem_singleton.mp ho]
          exact hne.symm
    · rintro ⟨before, after, heq, hafter⟩
      rcases List.eq_nil_or_concat after with rfl | ⟨after, last, rfl⟩
      · obtain ⟨-, heq⟩ := List.append_inj' heq rfl
        cases heq
        exact .inl rfl
      · rw [List.concat_eq_append, ← List.cons_append, ← List.append_assoc] at heq
        obtain ⟨rfl, hlast⟩ := List.append_inj' heq rfl
        cases hlast
        refine .inr ⟨(hafter entry (by simp)).symm, before, after, rfl, fun other ho => ?_⟩
        exact hafter other (by simp [ho])

end JniLink.NameMap
