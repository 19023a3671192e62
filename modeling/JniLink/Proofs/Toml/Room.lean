import JniLink.Proofs.Toml.Append
import JniLink.Proofs.Toml.Growth

/-!
# Where tables can be added

Tables that are written under a name can be added to a document exactly where they have room
(`isSome_run_statements_iff`): the name has to lead to a table, to which the last element of an array
of tables counts, and each table has to be new there, or only implied by the header of a table below
it and without the keys that are added. The headers of tables with different names do not get in each
other's way, since opening one changes nothing under another name.
-/

namespace JniLink.Toml

/-- A table with entries, none of which has headers of its own. -/
structure Table.IsPlain (t : Table) : Prop where
  nonempty : t ≠ []
  nodup : (t.map (·.1)).Nodup
  plain : ∀ entry ∈ t, entry.2.isSection = false

/-- The entries of a table that was only implied. -/
def Draft.implied? : Draft → Option Entries
  | .table .implied sub => some sub
  | .table .header _ | .table .dotted _ | .tables _ | .closed _ => none

namespace Entries

variable {e sub : Entries} {name other : String} {d d' : Draft} {keys : List String}

/-! ## Below a name -/

/-- The table that statements below a name go to, an empty one if the name is missing. There is none
below a finished value. -/
def below? (e : Entries) (name : String) : Option Entries :=
  match e.find? name with
  | none => some []
  | some (.table _ sub) => some sub
  | some (.tables elements) => some (elements.getLastD [])
  | some (.closed _) => none

theorem replace_replace : (e.replace name d).replace name d' = e.replace name d' := by
  rw [replace, replace, List.map_map]
  refine List.map_congr_left fun entry _ => ?_
  by_cases hentry : entry.1 = name <;> simp [hentry]

theorem isFocus_replace_table (h : e.find? name = some d) (origin : Origin) :
    IsFocus name fun sub => e.replace name (.table origin sub) := by
  intro sub change
  rw [descend, find?_replace_self h]
  exact congrArg (Option.map · (change sub)) (funext fun _ => replace_replace)

theorem isFocus_replace_tables (h : e.find? name = some d) (elements : List Entries) :
    IsFocus name fun sub => e.replace name (.tables (elements ++ [sub])) := by
  intro sub change
  rw [descend, find?_replace_self h]
  dsimp only
  rw [List.getLastD_concat, List.dropLast_concat]
  exact congrArg (Option.map · (change sub)) (funext fun _ => replace_replace)

/-- Whatever is done below a name is done in one place, if there is a table for it. -/
theorem exists_focus (h : e.below? name = some sub) : ∃ focus,
    (∀ change, e.descend name change = (change sub).map focus) ∧ IsFocus name focus := by
  rw [below?] at h
  split at h
  next hfind =>
    cases h
    exact ⟨_, descend_of_find?_eq_none hfind, isFocus_table hfind .implied⟩
  next hfind =>
    cases h
    exact ⟨_, fun change => by rw [descend, hfind], isFocus_replace_table hfind _⟩
  next hfind =>
    cases h
    exact ⟨_, fun change => by rw [descend, hfind], isFocus_replace_tables hfind _⟩
  next => cases h

theorem descend_of_below?_eq_none (h : e.below? name = none) (change : Entries → Option Entries) :
    e.descend name change = none := by
  rw [below?] at h
  split at h
  next => cases h
  next => cases h
  next => cases h
  next hfind => rw [descend, hfind]

/-! ## One table -/

/-- A table with some keys can be added under a name: whatever the name leads to is a table that was
only implied and has none of the keys. -/
def HasRoom (e : Entries) (name : String) (keys : List String) : Prop :=
  ∀ d ∈ e.find? name, ∃ sub ∈ d.implied?, ∀ key ∈ keys, sub.find? key = none

instance decidableHasRoom (e : Entries) (name : String) (keys : List String) :
    Decidable (e.HasRoom name keys) :=
  inferInstanceAs (Decidable (∀ d ∈ e.find? name, ∃ sub ∈ d.implied?, ∀ key ∈ keys,
    sub.find? key = none))

theorem hasRoom_congr {e' : Entries} (h : e'.find? name = e.find? name) :
    e'.HasRoom name keys ↔ e.HasRoom name keys := by
  rw [HasRoom, HasRoom, h]

/-- A header finds no room, or opens a table behind all others, whose keys decide about the room for
more of them. -/
theorem openTable_cases (e : Entries) (name : String) (keys : List String) :
    (e.openTable [name] = none ∧ ¬ e.HasRoom name keys) ∨
    ∃ rest sub : Entries, e.openTable [name] = some (rest ++ [(name, .table .header sub)]) ∧
      rest.find? name = none ∧ (∀ other, other ≠ name → rest.find? other = e.find? other) ∧
      (e.HasRoom name keys ↔ ∀ key ∈ keys, sub.find? key = none) := by
  rw [openTable, HasRoom]
  split
  next hfind =>
    rw [hfind]
    refine .inr ⟨e, [], rfl, hfind, fun _ _ => rfl, iff_of_true ?_ fun _ _ => rfl⟩
    rintro d ⟨⟩
  next sub hfind =>
    refine .inr ⟨_, sub, rfl, find?_filter_self, fun _ => find?_filter_of_ne, ?_⟩
    simp [hfind, Draft.implied?]
  next d hopened hfind =>
    have himplied : d.implied? = none := by
      rw [Draft.implied?.eq_def]
      split
      next => exact (hopened _ rfl).elim
      all_goals rfl
    refine .inl ⟨rfl, ?_⟩
    simp [hfind, himplied]

end Entries

open Entries

variable {e : Entries} {name : String} {current : List String} {t : Table}

theorem addStatement_pair_of_find?_eq_some {d : Draft} {v : Value} (h : e.find? name = some d) :
    addStatement (e, []) (.pair [] name v) = none := by
  simp only [addStatement, Entries.change, Entries.put, h, Option.map_none]

/-- Keys can be added to a table if it has none of them. -/
theorem isSome_run_pairs_iff (hnodup : (t.map (·.1)).Nodup)
    (hplain : ∀ entry ∈ t, entry.2.isSection = false) :
    (run (e, []) (pairs t)).isSome ↔ ∀ key ∈ t.map (·.1), e.find? key = none := by
  induction t generalizing e with
  | nil => exact iff_of_true rfl (List.forall_mem_nil _)
  | cons entry t ih =>
    obtain ⟨key, v⟩ := entry
    obtain ⟨hkey, hnodup⟩ := List.nodup_cons.mp hnodup
    obtain ⟨hv, hplain⟩ := List.forall_mem_cons.mp hplain
    rw [pairs_cons, if_neg (by simp [hv]), List.map_cons, List.forall_mem_cons, List.singleton_append,
      run, List.foldlM_cons]
    cases hfind : e.find? key with
    | some d =>
      rw [addStatement_pair_of_find?_eq_some hfind]
      exact iff_of_false Bool.false_ne_true fun h => Option.some_ne_none d h.1
    | none =>
      have hother : ∀ other ∈ t.map (·.1), find? (e ++ [(key, .closed v)]) other = e.find? other :=
        fun other hmem => find?_concat_of_ne fun heq => hkey (heq ▸ hmem)
      rw [addStatement_pair hfind]
      refine (ih hnodup hplain).trans ?_
      rw [forall₂_congr fun other hmem => by rw [hother other hmem]]
      exact (and_iff_right rfl).symm

/-- A header and its pairs act as the pairs do in what the header opens. -/
theorem run_header_pairs {rest sub : Entries}
    (hopen : e.openTable [name] = some (rest ++ [(name, .table .header sub)]))
    (hrest : rest.find? name = none) :
    run (e, current) (.header [name] :: pairs t) = (run (sub, []) (pairs t)).map fun state =>
      (rest ++ [(name, .table .header state.1)], name :: state.2) := by
  have hbelow : ∀ st ∈ pairs t, st.IsBelow := by
    intro st hst
    obtain ⟨entry, -, -, rfl⟩ := of_mem_pairs hst
    trivial
  have hfirst : addStatement (e, current) (.header [name]) =
      some (rest ++ [(name, .table .header sub)], [name]) := by
    rw [addStatement, hopen]
    rfl
  rw [run, List.foldlM_cons, hfirst, ← @run_under name [] _ (isFocus_table hrest .header) _ hbelow sub,
    pairs_map_under]
  rfl

/-- A table is added if it has room, and nothing changes under other names. -/
theorem run_header_pairs_cases (e : Entries) (current : List String) (name : String)
    (ht : t.IsPlain) :
    (run (e, current) (.header [name] :: pairs t) = none ∧ ¬ e.HasRoom name (t.map (·.1))) ∨
    e.HasRoom name (t.map (·.1)) ∧ ∃ state,
      run (e, current) (.header [name] :: pairs t) = some state ∧
        ∀ other, other ≠ name → state.1.find? other = e.find? other := by
  rcases openTable_cases e name (t.map (·.1)) with
    ⟨hopen, hroom⟩ | ⟨rest, sub, hopen, hrest, hother, hroom⟩
  · refine .inl ⟨?_, hroom⟩
    rw [run, List.foldlM_cons, addStatement, hopen]
    rfl
  · have hpairs := @isSome_run_pairs_iff sub t ht.nodup ht.plain
    rw [← hroom] at hpairs
    rw [run_header_pairs hopen hrest]
    cases hrun : run (sub, []) (pairs t) with
    | none =>
      rw [hrun] at hpairs
      exact .inl ⟨rfl, fun h => Bool.false_ne_true (hpairs.mpr h)⟩
    | some state =>
      rw [hrun] at hpairs
      refine .inr ⟨hpairs.mp rfl, _, rfl, fun other hne => ?_⟩
      rw [find?_concat_of_ne hne, hother other hne]

/-! ## Tables under a name -/

/-- Tables with names, as entries. -/
def sections (ts : List (String × Table)) : Table :=
  ts.map fun (name, t) => (name, .table t)

theorem sectionStatements_eq_nil (path : List String) (h : ∀ entry ∈ t, entry.2.isSection = false) :
    sectionStatements path t = [] := by
  induction t with
  | nil => rfl
  | cons entry t ih =>
    obtain ⟨key, v⟩ := entry
    obtain ⟨hv, ht⟩ := List.forall_mem_cons.mp h
    rw [sectionStatements, hv, if_neg Bool.false_ne_true, ih ht]
    rfl

/-- A plain table is written as its header and its pairs. -/
theorem Table.IsPlain.statements_eq (ht : t.IsPlain) (path : List String) :
    (Value.table t).statements path = .header path :: pairs t := by
  obtain ⟨entry, hentry⟩ := List.exists_mem_of_ne_nil _ ht.nonempty
  have hheader : (t.isEmpty || t.any (!·.2.isSection)) = true :=
    Bool.or_eq_true_iff.mpr (.inr (List.any_eq_true.mpr ⟨entry, hentry, by rw [ht.plain entry hentry]; rfl⟩))
  rw [Value.statements, if_pos hheader, sectionStatements_eq_nil path ht.plain, List.append_nil]
  rfl

theorem sectionStatements_sections_cons {ts : List (String × Table)} (ht : t.IsPlain) :
    sectionStatements [] (sections ((name, t) :: ts)) =
      .header [name] :: pairs t ++ sectionStatements [] (sections ts) := by
  rw [sections, List.map_cons, sectionStatements, Value.isSection, if_pos rfl, List.nil_append,
    ht.statements_eq]
  rfl

/-- Plain tables with different names can be added one behind the other if each of them has room. -/
theorem isSome_run_sections_iff {ts : List (String × Table)} (hnodup : (ts.map (·.1)).Nodup)
    (hts : ∀ entry ∈ ts, entry.2.IsPlain) :
    (run (e, current) (sectionStatements [] (sections ts))).isSome ↔
      ∀ entry ∈ ts, e.HasRoom entry.1 (entry.2.map (·.1)) := by
  induction ts generalizing e current with
  | nil => exact iff_of_true rfl (List.forall_mem_nil _)
  | cons entry ts ih =>
    obtain ⟨name, t⟩ := entry
    obtain ⟨hname, hnodup⟩ := List.nodup_cons.mp hnodup
    obtain ⟨ht, hts⟩ := List.forall_mem_cons.mp hts
    rw [sectionStatements_sections_cons ht, run_append, List.forall_mem_cons]
    rcases run_header_pairs_cases e current name ht with ⟨hrun, hroom⟩ | ⟨hroom, state, hrun, hother⟩
    · rw [hrun]
      exact iff_of_false Bool.false_ne_true fun h => hroom h.1
    · rw [hrun, Option.bind_some, and_iff_right hroom]
      refine (@ih state.1 state.2 hnodup hts).trans (forall₂_congr fun other hmem => hasRoom_congr ?_)
      exact hother other.1 fun heq => hname (List.mem_map.mpr ⟨other, hmem, heq⟩)

/-- The statements of a table of plain tables are those of the tables, below its name. -/
theorem statements_sections {ts : List (String × Table)} (hne : ts ≠ []) :
    Table.statements [(name, .table (sections ts))] =
      (sectionStatements [] (sections ts)).map (·.under name) := by
  have hall : ∀ entry ∈ sections ts, entry.2.isSection = true := List.forall_mem_map.mpr fun _ _ => rfl
  have hheader : ¬ ((sections ts).isEmpty || (sections ts).any (!·.2.isSection)) = true := by
    rw [Bool.or_eq_true, List.isEmpty_iff, List.any_eq_true]
    rintro (hnil | ⟨entry, hentry, hplain⟩)
    · exact hne (List.map_eq_nil_iff.mp hnil)
    · rw [hall entry hentry] at hplain
      cases hplain
  rw [Table.statements, pairs_eq_nil (List.forall_mem_singleton.mpr rfl), sectionStatements,
    Value.isSection, if_pos rfl, Value.statements, if_neg hheader, pairs_eq_nil hall,
    ← sectionStatements_cons]
  exact List.append_nil _

/-- Plain tables can be added under a name exactly if there is a table for the name in which each of
them has room. -/
theorem isSome_run_statements_iff {ts : List (String × Table)} (hne : ts ≠ [])
    (hnodup : (ts.map (·.1)).Nodup) (hts : ∀ entry ∈ ts, entry.2.IsPlain) :
    (run (e, current) (Table.statements [(name, .table (sections ts))])).isSome ↔
      ∃ sub ∈ e.below? name, ∀ entry ∈ ts, sub.HasRoom entry.1 (entry.2.map (·.1)) := by
  obtain ⟨⟨first, t⟩, rest, rfl⟩ := List.exists_cons_of_ne_nil hne
  have hcons := @sectionStatements_sections_cons first t rest (hts _ List.mem_cons_self)
  have hbelow : ∀ st ∈ sectionStatements [] (sections ((first, t) :: rest)), st.IsBelow :=
    fun _ => isBelow_of_mem_sectionStatements
  rw [statements_sections hne]
  cases hsub : e.below? name with
  | none =>
    rw [hcons, List.cons_append, List.map_cons, run, List.foldlM_cons, Statement.under, addStatement,
      openTable_cons (List.cons_ne_nil _ _), descend_of_below?_eq_none hsub]
    refine iff_of_false Bool.false_ne_true ?_
    rintro ⟨sub, ⟨⟩, -⟩
  | some sub =>
    obtain ⟨focus, hdescend, hfocus⟩ := exists_focus hsub
    have hsections := @isSome_run_sections_iff sub [] _ hnodup hts
    rw [hcons, List.cons_append] at hbelow hsections ⊢
    rw [run_under_of_descend hdescend hfocus (by trivial) hbelow, Option.isSome_map, hsections]
    constructor
    · exact fun h => ⟨sub, rfl, h⟩
    · rintro ⟨_, hmem, h⟩
      cases hmem
      exact h

/-- Tables of plain tables are written without headers of elements. -/
theorem isElement_of_mem_statements_sections {ts : List (String × Table)} (hne : ts ≠ [])
    (hts : ∀ entry ∈ ts, entry.2.IsPlain) :
    ∀ st ∈ Table.statements [(name, .table (sections ts))], st.isElement = false := by
  have hsections : ∀ st ∈ sectionStatements [] (sections ts), st.isElement = false := by
    clear hne
    induction ts with
    | nil => exact List.forall_mem_nil _
    | cons entry ts ih =>
      obtain ⟨key, t⟩ := entry
      obtain ⟨ht, hts⟩ := List.forall_mem_cons.mp hts
      rw [sectionStatements_sections_cons ht, List.cons_append, List.forall_mem_cons,
        List.forall_mem_append]
      refine ⟨rfl, fun st hst => ?_, ih hts⟩
      obtain ⟨entry, -, -, rfl⟩ := of_mem_pairs hst
      rfl
  rw [statements_sections hne]
  refine List.forall_mem_map.mpr fun st hst => ?_
  rw [← hsections st hst]
  cases st <;> rfl

/-! ## Documents -/

/-- What the statements of a document build, before it is finished. -/
def draft? (text : String) : Option Entries :=
  ((documentStatements? text).bind (run ([], []))).map (·.1)

/-- A document spells the table that its statements build. -/
theorem ofString?_eq_map_draft? (text : String) : ofString? text = (draft? text).map entryValues := by
  rw [draft?, Option.map_map, Option.map_bind]
  rfl

theorem isFilled_of_draft? {text : String} (h : draft? text = some e) : e.IsFilled := by
  obtain ⟨state, hstate, rfl⟩ := Option.map_eq_some_iff.mp h
  obtain ⟨sts, -, hrun⟩ := Option.bind_eq_some_iff.mp hstate
  exact isFilled_of_run hrun (List.forall_mem_nil _)

section Append

variable {text text' : String} {sts sts' : List Statement} {ts : List (String × Table)}

/-- Statements behind those of a document go on from what the document builds. -/
theorem exists_ofString?_eq_map_run (hread : documentStatements? text = some sts)
    (hdraft : draft? text = some e) (hread' : documentStatements? text' = some (sts ++ sts')) :
    ∃ current, ofString? text' = (run (e, current) sts').map (entryValues ·.1) := by
  rw [draft?, hread, Option.bind_some] at hdraft
  obtain ⟨⟨e, current⟩, hrun, rfl⟩ := Option.map_eq_some_iff.mp hdraft
  refine ⟨current, ?_⟩
  rw [ofString?_eq_map_draft?, draft?, hread', Option.bind_some, run_append, hrun, Option.map_map]
  rfl

/-- With plain tables under a name behind its statements a document is valid exactly if the tables
have room in what it builds. -/
theorem isSome_ofString?_append_iff (hread : documentStatements? text = some sts)
    (hdraft : draft? text = some e)
    (hread' : documentStatements? text' =
      some (sts ++ Table.statements [(name, .table (sections ts))]))
    (hne : ts ≠ []) (hnodup : (ts.map (·.1)).Nodup) (hts : ∀ entry ∈ ts, entry.2.IsPlain) :
    (ofString? text').isSome ↔
      ∃ sub ∈ e.below? name, ∀ entry ∈ ts, sub.HasRoom entry.1 (entry.2.map (·.1)) := by
  obtain ⟨current, hrun⟩ := exists_ofString?_eq_map_run hread hdraft hread'
  rw [hrun, Option.isSome_map]
  exact isSome_run_statements_iff hne hnodup hts

/-- A document with statements behind it that have no headers of elements holds everything that it
spells alone. -/
theorem holds_of_ofString?_append {new : Table} (hread : documentStatements? text = some sts)
    (hdraft : draft? text = some e) (hread' : documentStatements? text' = some (sts ++ sts'))
    (hsts : ∀ st ∈ sts', st.isElement = false) (hnew : ofString? text' = some new) :
    new.Holds (entryValues e) := by
  obtain ⟨current, hrun⟩ := exists_ofString?_eq_map_run hread hdraft hread'
  rw [hrun] at hnew
  obtain ⟨state, hstate, rfl⟩ := Option.map_eq_some_iff.mp hnew
  exact holds_of_run hstate (isFilled_of_draft? hdraft) hsts

end Append

end JniLink.Toml
