import JniLink.Proofs.Toml.Value
import Mathlib.Data.List.Nodup

/-!
# The statements of a table build it again

A table is taken apart into statements and put together from them. What one of its entries with headers
of its own is made of names that entry in front of every path, so those statements act below that name as
they would act alone on an empty document; the rest of what is built stays as it is. The names of a table
have to differ, and entries with headers have to stand behind those without, since that is the order in
which they are written.
-/

namespace JniLink.Toml

/-! ## Entries -/

namespace Entries

variable {e : Entries} {name other : String} {d d' : Draft}

theorem find?_eq_none_iff : e.find? name = none ↔ name ∉ e.map (·.1) := by
  rw [find?, Option.map_eq_none_iff, List.find?_eq_none, List.mem_map, not_exists]
  refine forall_congr' fun entry => ?_
  rw [not_and, decide_eq_true_eq]

theorem find?_concat_self (h : e.find? name = none) : find? (e ++ [(name, d)]) name = some d := by
  rw [find?, Option.map_eq_none_iff] at h
  rw [find?, List.find?_append, h, Option.none_or, List.find?_cons_of_pos (by simp), Option.map_some]

theorem replace_concat (h : e.find? name = none) :
    replace (e ++ [(name, d)]) name d' = e ++ [(name, d')] := by
  have hother : ∀ entry ∈ e, entry.1 ≠ name := by
    rw [find?, Option.map_eq_none_iff, List.find?_eq_none] at h
    exact fun entry hmem heq => h entry hmem (by simpa using heq)
  rw [replace, List.map_append, List.map_singleton, if_pos rfl]
  congr 1
  exact (List.map_congr_left fun entry hmem => if_neg (hother entry hmem)).trans (List.map_id e)

/-- Entries with one place that a name leads to: whatever is done below the name is done there. -/
def IsFocus (name : String) (focus : Entries → Entries) : Prop :=
  ∀ sub change, (focus sub).descend name change = (change sub).map focus

theorem isFocus_table (h : e.find? name = none) (origin : Origin) :
    IsFocus name fun sub => e ++ [(name, .table origin sub)] := by
  intro sub change
  rw [descend, find?_concat_self h]
  exact congrArg (Option.map · (change sub)) (funext fun sub' => replace_concat h)

theorem isFocus_tables (h : e.find? name = none) (elements : List Entries) :
    IsFocus name fun sub => e ++ [(name, .tables (elements ++ [sub]))] := by
  intro sub change
  rw [descend, find?_concat_self h]
  dsimp only
  rw [List.getLastD_concat, List.dropLast_concat]
  exact congrArg (Option.map · (change sub)) (funext fun sub' => replace_concat h)

/-- Below a name that is missing, everything is done in an implied table. -/
theorem descend_of_find?_eq_none (h : e.find? name = none) (change : Entries → Option Entries) :
    e.descend name change = (change []).map fun sub => e ++ [(name, .table .implied sub)] := by
  rw [descend, h]

theorem openTable_cons {names : List String} (h : names ≠ []) :
    e.openTable (name :: names) = e.descend name fun sub => sub.openTable names := by
  cases names with
  | nil => exact absurd rfl h
  | cons _ _ => rfl

theorem openElement_cons {names : List String} (h : names ≠ []) :
    e.openElement (name :: names) = e.descend name fun sub => sub.openElement names := by
  cases names with
  | nil => exact absurd rfl h
  | cons _ _ => rfl

end Entries

theorem entryValues_append (e e' : Entries) : entryValues (e ++ e') = entryValues e ++ entryValues e' := by
  induction e with
  | nil => rfl
  | cons entry e ih =>
    obtain ⟨name, draft⟩ := entry
    rw [List.cons_append, entryValues, entryValues, ih, List.cons_append]

/-! ## Statements below a name -/

namespace Statement

/-- A statement of an entry's value, among those of the table that holds the entry. -/
def under (name : String) : Statement → Statement
  | .header path => .header (name :: path)
  | .element path => .element (name :: path)
  | .pair path key value => .pair path key value

/-- A header that names something. -/
def IsBelow : Statement → Prop
  | .header path | .element path => path ≠ []
  | .pair .. => True

/-- A header, of a table or of an element. -/
def IsHeader : Statement → Prop
  | .header _ | .element _ => True
  | .pair .. => False

theorem isBelow_under (name : String) (st : Statement) : (st.under name).IsBelow := by
  cases st with
  | header path => exact List.cons_ne_nil name path
  | element path => exact List.cons_ne_nil name path
  | pair => trivial

end Statement

open Entries

/-- Adds statements to what is built so far. -/
def run (state : Entries × List String) (sts : List Statement) : Option (Entries × List String) :=
  sts.foldlM addStatement state

variable {e : Entries} {name : String} {current : List String} {focus : Entries → Entries}

/-- A header below a name acts on the table that is found under the name, whatever table the one before
opened. -/
theorem addStatement_under_of_descend {sub : Entries}
    (hdescend : ∀ change, e.descend name change = (change sub).map focus) {st : Statement}
    (hst : st.IsHeader) (h : st.IsBelow) (current current' : List String) :
    addStatement (e, current) (st.under name) =
      (addStatement (sub, current') st).map fun state => (focus state.1, name :: state.2) := by
  cases st with
  | header path =>
    rw [Statement.under, addStatement, openTable_cons h, hdescend, addStatement, Option.map_map,
      Option.map_map]
    rfl
  | element path =>
    rw [Statement.under, addStatement, openElement_cons h, hdescend, addStatement, Option.map_map,
      Option.map_map]
    rfl
  | pair path key value => exact hst.elim

theorem addStatement_under (hfocus : IsFocus name focus) {st : Statement} (h : st.IsBelow)
    (sub : Entries) :
    addStatement (focus sub, name :: current) (st.under name) =
      (addStatement (sub, current) st).map fun state => (focus state.1, name :: state.2) := by
  cases st with
  | header | element =>
    refine addStatement_under_of_descend (hfocus sub) ?_ h _ _
    trivial
  | pair path key value =>
    rw [Statement.under, addStatement, Entries.change, hfocus, addStatement, Option.map_map,
      Option.map_map]
    rfl

/-- Statements below a name act on what it leads to as they would act alone. -/
theorem run_under (hfocus : IsFocus name focus) {sts : List Statement} (h : ∀ st ∈ sts, st.IsBelow)
    (sub : Entries) :
    run (focus sub, name :: current) (sts.map (·.under name)) =
      (run (sub, current) sts).map fun state => (focus state.1, name :: state.2) := by
  induction sts generalizing sub current with
  | nil => rfl
  | cons st sts ih =>
    obtain ⟨hst, hsts⟩ := List.forall_mem_cons.mp h
    rw [run, List.map_cons, List.foldlM_cons, addStatement_under hfocus hst, run, List.foldlM_cons]
    cases addStatement (sub, current) st with
    | none => rfl
    | some state => exact ih hsts state.1

/-- They act on the table that is there or is made under the name, if they begin with a header, from
whatever table on. -/
theorem run_under_of_descend {sub : Entries}
    (hdescend : ∀ change, e.descend name change = (change sub).map focus)
    (hfocus : IsFocus name focus) {st : Statement} {sts : List Statement} (hst : st.IsHeader)
    (hsts : ∀ st' ∈ st :: sts, st'.IsBelow) :
    run (e, current) ((st :: sts).map (·.under name)) =
      (run (sub, []) (st :: sts)).map fun state => (focus state.1, name :: state.2) := by
  obtain ⟨hbelow, hsts⟩ := List.forall_mem_cons.mp hsts
  rw [run, List.map_cons, List.foldlM_cons,
    addStatement_under_of_descend hdescend hst hbelow current [], run, List.foldlM_cons]
  cases addStatement (sub, []) st with
  | none => rfl
  | some state => exact run_under hfocus hsts state.1

/-- Below a name that is missing they act on an implied table, if they begin with a header. -/
theorem run_under_of_find?_eq_none (hnone : e.find? name = none) {st : Statement}
    {sts : List Statement} (hst : st.IsHeader) (hsts : ∀ st' ∈ st :: sts, st'.IsBelow) :
    run (e, current) ((st :: sts).map (·.under name)) =
      (run ([], []) (st :: sts)).map fun state =>
        (e ++ [(name, .table .implied state.1)], name :: state.2) :=
  run_under_of_descend (descend_of_find?_eq_none hnone) (isFocus_table hnone .implied) hst hsts

theorem run_append (state : Entries × List String) (sts sts' : List Statement) :
    run state (sts ++ sts') = (run state sts).bind fun state => run state sts' :=
  List.foldlM_append

/-! ## The statements of a value -/

theorem of_mem_pairs {t : Table} {st : Statement} (h : st ∈ pairs t) :
    ∃ entry ∈ t, entry.2.isSection = false ∧ st = .pair [] entry.1 entry.2 := by
  rw [pairs, List.mem_filterMap] at h
  obtain ⟨⟨name, value⟩, hentry, h⟩ := h
  dsimp only at h
  split at h
  · cases h
  next hsection =>
    exact ⟨(name, value), hentry, Bool.eq_false_iff.mpr hsection, (Option.some.inj h).symm⟩

theorem pairs_eq_nil {t : Table} (h : ∀ entry ∈ t, entry.2.isSection = true) : pairs t = [] := by
  refine List.eq_nil_iff_forall_not_mem.mpr fun st hst => ?_
  obtain ⟨entry, hentry, hplain, -⟩ := of_mem_pairs hst
  rw [h entry hentry] at hplain
  cases hplain

theorem pairs_map_under (name : String) (t : Table) : (pairs t).map (·.under name) = pairs t := by
  refine (List.map_congr_left fun st hst => ?_).trans (List.map_id _)
  obtain ⟨entry, -, -, rfl⟩ := of_mem_pairs hst
  rfl

mutual

/-- A value under a path has the statements that it has under the rest of the path, below its first
name. -/
theorem statements_cons (name : String) (path : List String) :
    ∀ v : Value, v.statements (name :: path) = (v.statements path).map (·.under name)
  | .table entries => by
    rw [Value.statements, Value.statements, List.map_append, List.map_append, pairs_map_under,
      sectionStatements_cons name path entries]
    split <;> rfl
  | .array elements => by
    rw [Value.statements, Value.statements, elementStatements_cons name path elements]
  | .string _ | .integer _ | .float _ | .boolean _ | .datetime _ => by
    simp only [Value.statements, List.map_nil]

theorem sectionStatements_cons (name : String) (path : List String) :
    ∀ t : List (String × Value),
      sectionStatements (name :: path) t = (sectionStatements path t).map (·.under name)
  | [] => rfl
  | (key, v) :: t => by
    rw [sectionStatements, sectionStatements, List.map_append, sectionStatements_cons name path t,
      List.cons_append, statements_cons name (path ++ [key]) v]
    split <;> rfl

theorem elementStatements_cons (name : String) (path : List String) :
    ∀ vs : List Value,
      elementStatements (name :: path) vs = (elementStatements path vs).map (·.under name)
  | [] => rfl
  | .table entries :: vs => by
    rw [elementStatements, elementStatements, List.map_append, List.map_append, List.map_cons,
      pairs_map_under, sectionStatements_cons name path entries, elementStatements_cons name path vs]
    rfl
  | .string _ :: vs | .integer _ :: vs | .float _ :: vs | .boolean _ :: vs | .datetime _ :: vs
  | .array _ :: vs => by
    simp only [elementStatements, elementStatements_cons name path vs]

end

theorem statements_singleton (name : String) (t : Table) :
    pairs t ++ sectionStatements [name] t = t.statements.map (·.under name) := by
  rw [Table.statements, List.map_append, pairs_map_under, sectionStatements_cons]

theorem isBelow_of_mem_sectionStatements {t : Table} {st : Statement}
    (h : st ∈ sectionStatements [] t) : st.IsBelow := by
  induction t with
  | nil => cases h
  | cons entry t ih =>
    obtain ⟨name, v⟩ := entry
    rw [sectionStatements, List.mem_append] at h
    rcases h with h | h
    · split at h
      · rw [List.nil_append, statements_cons] at h
        obtain ⟨st, -, rfl⟩ := List.mem_map.mp h
        exact st.isBelow_under name
      · cases h
    · exact ih h

theorem isBelow_of_mem_statements {t : Table} {st : Statement} (h : st ∈ t.statements) :
    st.IsBelow := by
  rcases List.mem_append.mp h with h | h
  · obtain ⟨entry, -, -, rfl⟩ := of_mem_pairs h
    trivial
  · exact isBelow_of_mem_sectionStatements h

/-! ## Orderly tables -/

/-- The names of a table differ, and entries with headers of their own stand behind the others. -/
structure Table.IsOrdered (t : Table) : Prop where
  nodup : (t.map (·.1)).Nodup
  sorted : t.Pairwise fun a b => a.2.isSection = true → b.2.isSection = true

/-- A value that is written as it is built again: flat, or made of ordered tables that nest at most so
deep. -/
inductive Value.IsOrderly : Nat → Value → Prop
  | flat {depth : Nat} {v : Value} (h : v.IsFlat) : IsOrderly depth v
  | table {depth : Nat} {t : Table} (ordered : Table.IsOrdered t)
      (values : ∀ entry ∈ t, IsOrderly depth entry.2) : IsOrderly (depth + 1) (.table t)
  | tables {depth : Nat} {ts : List Table} (nonempty : ts ≠ [])
      (ordered : ∀ t ∈ ts, Table.IsOrdered t)
      (values : ∀ t ∈ ts, ∀ entry ∈ t, IsOrderly depth entry.2) :
      IsOrderly (depth + 1) (.array (ts.map .table))

theorem Value.IsFlat.isSection {v : Value} (h : v.IsFlat) : v.isSection = false := by
  cases h with
  | scalar h => cases h <;> rfl
  | @array vs h =>
    cases vs with
    | nil => rfl
    | cons v vs =>
      have hv := h v List.mem_cons_self
      cases hv <;> rfl

/-- A table without a header has entries, and all of them have headers. -/
theorem of_not_hasHeader {t : Table} (h : ¬ (t.isEmpty || t.any (!·.2.isSection)) = true) :
    t ≠ [] ∧ ∀ entry ∈ t, entry.2.isSection = true := by
  rw [Bool.or_eq_true, not_or, List.isEmpty_iff, List.any_eq_true, not_exists] at h
  refine ⟨h.1, fun entry hentry => ?_⟩
  have hsection := h.2 entry
  rw [not_and, Bool.not_eq_true, Bool.not_eq_false'] at hsection
  exact hsection hentry

/-- What has headers of its own begins with one. -/
theorem Value.IsOrderly.exists_statements_eq_cons {depth : Nat} {v : Value} (h : v.IsOrderly depth)
    (hsection : v.isSection = true) (path : List String) :
    ∃ st sts, v.statements path = st :: sts ∧ st.IsHeader := by
  induction h generalizing path with
  | flat h =>
    rw [h.isSection] at hsection
    cases hsection
  | @table depth t ordered values ih =>
    rw [Value.statements]
    split
    · exact ⟨_, _, rfl, trivial⟩
    next hnone =>
      obtain ⟨hne, hall⟩ := of_not_hasHeader hnone
      obtain ⟨⟨name, v⟩, t, rfl⟩ := List.exists_cons_of_ne_nil hne
      have hv := hall (name, v) List.mem_cons_self
      obtain ⟨st, sts, hstatements, hst⟩ := ih (name, v) List.mem_cons_self hv (path ++ [name])
      refine ⟨st, sts ++ sectionStatements path t, ?_, hst⟩
      rw [pairs_eq_nil hall, sectionStatements, if_pos hv, hstatements]
      rfl
  | @tables depth ts nonempty ordered values ih =>
    obtain ⟨t, ts, rfl⟩ := List.exists_cons_of_ne_nil nonempty
    rw [Value.statements, List.map_cons, elementStatements]
    exact ⟨_, _, rfl, trivial⟩

/-! ## Building a table -/

theorem map_fst_entryValues (e : Entries) : (entryValues e).map (·.1) = e.map (·.1) := by
  induction e with
  | nil => rfl
  | cons entry e ih =>
    obtain ⟨name, draft⟩ := entry
    rw [entryValues, List.map_cons, List.map_cons, ih]

theorem pairs_cons (name : String) (v : Value) (t : Table) :
    pairs ((name, v) :: t) = (if v.isSection then [] else [.pair [] name v]) ++ pairs t := by
  rw [pairs, List.filterMap_cons]
  cases hsection : v.isSection <;> simp [hsection, pairs]

theorem addStatement_pair {v : Value} (h : e.find? name = none) :
    addStatement (e, []) (.pair [] name v) = some (e ++ [(name, .closed v)], []) := by
  simp only [addStatement, Entries.change, Entries.put, h, Option.map_some]

/-- Names that are new stay so when one that stands in front of them is added. -/
theorem notMem_map_concat {t : Table} {v : Value} {draft : Draft} {isSection : Bool}
    (hnodup : (((name, v) :: t).map (·.1)).Nodup)
    (hfresh : ∀ entry ∈ (name, v) :: t, entry.2.isSection = isSection → entry.1 ∉ e.map (·.1)) :
    ∀ entry ∈ t, entry.2.isSection = isSection → entry.1 ∉ (e ++ [(name, draft)]).map (·.1) := by
  intro entry hentry hsection hmem
  rw [List.map_append, List.mem_append, List.map_singleton, List.mem_singleton] at hmem
  rcases hmem with hmem | hname
  · exact hfresh entry (List.mem_cons_of_mem _ hentry) hsection hmem
  · exact (List.nodup_cons.mp hnodup).1 (List.mem_map.mpr ⟨entry, hentry, hname⟩)

/-- Entries without headers are added one by one. -/
theorem run_pairs {t : Table} {e : Entries} (hnodup : (t.map (·.1)).Nodup)
    (hfresh : ∀ entry ∈ t, entry.2.isSection = false → entry.1 ∉ e.map (·.1)) :
    ∃ ds, run (e, []) (pairs t) = some (e ++ ds, []) ∧
      entryValues ds = t.filter (!·.2.isSection) := by
  induction t generalizing e with
  | nil => exact ⟨[], by rw [List.append_nil]; rfl, rfl⟩
  | cons entry t ih =>
    obtain ⟨name, v⟩ := entry
    have hrest := (List.nodup_cons.mp hnodup).2
    rw [pairs_cons]
    cases hsection : v.isSection with
    -- a section is no pair: it comes with its own header behind the pairs
    | true =>
      obtain ⟨ds, hrun, hvalues⟩ :=
        ih hrest fun entry hentry => hfresh entry (List.mem_cons_of_mem _ hentry)
      exact ⟨ds, hrun, by rw [hvalues, List.filter_cons_of_neg (by simp [hsection])]⟩
    | false =>
      have hnone := find?_eq_none_iff.mpr (hfresh (name, v) List.mem_cons_self hsection)
      obtain ⟨ds, hrun, hvalues⟩ := ih hrest (notMem_map_concat hnodup hfresh)
      refine ⟨(name, .closed v) :: ds, ?_, ?_⟩
      · rw [run_append]
        change (addStatement (e, []) (.pair [] name v) >>= pure).bind _ = _
        rw [addStatement_pair hnone]
        change run (e ++ [(name, .closed v)], []) (pairs t) = _
        rw [hrun, List.append_assoc]
        rfl
      · rw [entryValues, hvalues, List.filter_cons_of_pos (by simp [hsection])]
        rfl

/-- The statements of a value build it under its name, whatever is built beside it. -/
def Assembles (v : Value) : Prop :=
  ∀ (name : String) (e : Entries) (current : List String), e.find? name = none →
    ∃ draft current', run (e, current) (v.statements [name]) = some (e ++ [(name, draft)], current') ∧
      draft.value = v

/-- Entries with headers are added behind them. -/
theorem run_sectionStatements {t : Table} {e : Entries} {current : List String}
    (hnodup : (t.map (·.1)).Nodup)
    (hfresh : ∀ entry ∈ t, entry.2.isSection = true → entry.1 ∉ e.map (·.1))
    (h : ∀ entry ∈ t, entry.2.isSection = true → Assembles entry.2) :
    ∃ ds current', run (e, current) (sectionStatements [] t) = some (e ++ ds, current') ∧
      entryValues ds = t.filter (·.2.isSection) := by
  induction t generalizing e current with
  | nil => exact ⟨[], current, by rw [List.append_nil]; rfl, rfl⟩
  | cons entry t ih =>
    obtain ⟨name, v⟩ := entry
    obtain ⟨hv, ht⟩ := List.forall_mem_cons.mp h
    have hrest := (List.nodup_cons.mp hnodup).2
    rw [sectionStatements]
    cases hsection : v.isSection with
    | false =>
      obtain ⟨ds, current', hrun, hvalues⟩ := @ih e current hrest
        (fun entry hentry => hfresh entry (List.mem_cons_of_mem _ hentry)) ht
      exact ⟨ds, current', hrun, by rw [hvalues, List.filter_cons_of_neg (by simp [hsection])]⟩
    | true =>
      have hnone := find?_eq_none_iff.mpr (hfresh (name, v) List.mem_cons_self hsection)
      obtain ⟨draft, current₁, hfirst, hdraft⟩ := hv hsection name e current hnone
      obtain ⟨ds, current', hrun, hvalues⟩ :=
        @ih (e ++ [(name, draft)]) current₁ hrest (notMem_map_concat hnodup hfresh) ht
      refine ⟨(name, draft) :: ds, current', ?_, ?_⟩
      · rw [if_pos rfl, List.nil_append, run_append, hfirst]
        change run (e ++ [(name, draft)], current₁) (sectionStatements [] t) = _
        rw [hrun, List.append_assoc]
        rfl
      · rw [entryValues, hvalues, hdraft, List.filter_cons_of_pos (by simp [hsection])]

theorem filter_append_filter_of_sorted {t : Table}
    (h : t.Pairwise fun a b => a.2.isSection = true → b.2.isSection = true) :
    t.filter (!·.2.isSection) ++ t.filter (·.2.isSection) = t := by
  induction t with
  | nil => rfl
  | cons entry t ih =>
    obtain ⟨hentry, ht⟩ := List.pairwise_cons.mp h
    cases hsection : entry.2.isSection with
    | false =>
      rw [List.filter_cons_of_pos (by simp [hsection]), List.filter_cons_of_neg (by simp [hsection]),
        List.cons_append, ih ht]
    | true =>
      have hall := fun other hother => hentry other hother hsection
      have hnone : t.filter (!·.2.isSection) = [] :=
        List.filter_eq_nil_iff.mpr fun other hother => by simp [hall other hother]
      rw [List.filter_cons_of_neg (by simp [hsection]), hnone, List.nil_append,
        List.filter_cons_of_pos (by simp [hsection]), List.filter_eq_self.mpr hall]

/-- The statements of an ordered table build it, if those of its entries do. -/
theorem run_statements {t : Table} (ht : t.IsOrdered)
    (h : ∀ entry ∈ t, entry.2.isSection = true → Assembles entry.2) :
    ∃ e current, run ([], []) t.statements = some (e, current) ∧ entryValues e = t := by
  obtain ⟨plain, hplain, hplainValues⟩ := @run_pairs t [] ht.nodup fun _ _ _ => List.not_mem_nil
  have hfresh : ∀ entry ∈ t, entry.2.isSection = true → entry.1 ∉ plain.map (·.1) := by
    intro entry hentry hsection hmem
    rw [← map_fst_entryValues, hplainValues] at hmem
    obtain ⟨other, hother, hname⟩ := List.mem_map.mp hmem
    obtain ⟨hother, hnone⟩ := List.mem_filter.mp hother
    rw [List.inj_on_of_nodup_map ht.nodup hother hentry hname, hsection] at hnone
    cases hnone
  obtain ⟨sections, current, hsections, hsectionValues⟩ :=
    @run_sectionStatements t plain [] ht.nodup hfresh h
  refine ⟨plain ++ sections, current, ?_, ?_⟩
  · rw [Table.statements, run_append, hplain]
    exact hsections
  · rw [entryValues_append, hplainValues, hsectionValues, filter_append_filter_of_sorted ht.sorted]

/-! ## Building under a name -/

/-- The statements of a table build it under its name: in a table that its header opens, or in an
implied one if it has no header. -/
theorem assembles_table {t : Table} {sub : Entries} {current' : List String}
    (h : run ([], []) t.statements = some (sub, current')) (hvalues : entryValues sub = t)
    (hheader : (t.isEmpty || t.any (!·.2.isSection)) = true ∨
      ∃ st sts, t.statements = st :: sts ∧ st.IsHeader) :
    Assembles (.table t) := by
  intro name e current hnone
  have hbelow : ∀ st ∈ t.statements, st.IsBelow := fun _ => isBelow_of_mem_statements
  rw [Value.statements, List.append_assoc, statements_singleton]
  split
  next hopens =>
    have hopen : addStatement (e, current) (.header [name]) =
        some (e ++ [(name, .table .header [])], [name]) := by
      rw [addStatement, openTable, hnone]
      rfl
    have hrun := @run_under name [] _ (isFocus_table hnone .header) t.statements hbelow []
    rw [h] at hrun
    refine ⟨.table .header sub, name :: current', ?_, by rw [Draft.value, hvalues]⟩
    rw [List.singleton_append, run, List.foldlM_cons, hopen]
    exact hrun
  next hopens =>
    obtain ⟨st, sts, hstatements, hst⟩ := hheader.resolve_left hopens
    rw [hstatements] at h hbelow ⊢
    refine ⟨.table .implied sub, name :: current', ?_, by rw [Draft.value, hvalues]⟩
    rw [List.nil_append, run_under_of_find?_eq_none hnone hst hbelow, h]
    rfl

/-- The statements of one more element of an array of tables build it behind the others. -/
theorem run_element {t : Table} {sub e e' : Entries} {current current' : List String} {name : String}
    {elements : List Entries} (h : run ([], []) t.statements = some (sub, current'))
    (hnone : e.find? name = none)
    (hopen : e'.openElement [name] = some (e ++ [(name, .tables (elements ++ [[]]))])) :
    run (e', current) (.element [name] :: pairs t ++ sectionStatements [name] t) =
      some (e ++ [(name, .tables (elements ++ [sub]))], name :: current') := by
  have hbelow : ∀ st ∈ t.statements, st.IsBelow := fun _ => isBelow_of_mem_statements
  have hrun := @run_under name [] _ (isFocus_tables hnone elements) t.statements hbelow []
  have hfirst : addStatement (e', current) (.element [name]) =
      some (e ++ [(name, .tables (elements ++ [[]]))], [name]) := by
    rw [addStatement, hopen]
    rfl
  rw [h] at hrun
  rw [List.cons_append, statements_singleton, run, List.foldlM_cons, hfirst]
  exact hrun

/-- The elements of an array of tables are built one behind the other. -/
theorem run_elementStatements {ts : List Table} {e : Entries} {current : List String} {name : String}
    {elements : List Entries} (hnone : e.find? name = none)
    (h : ∀ t ∈ ts, ∃ sub current', run ([], []) t.statements = some (sub, current') ∧
      entryValues sub = t) :
    ∃ subs current', run (e ++ [(name, .tables elements)], current)
        (elementStatements [name] (ts.map .table)) =
          some (e ++ [(name, .tables (elements ++ subs))], current') ∧
      elementValues subs = ts.map .table := by
  induction ts generalizing elements current with
  | nil => exact ⟨[], current, by rw [List.append_nil]; rfl, rfl⟩
  | cons t ts ih =>
    obtain ⟨⟨sub, current₁, hrun, hvalues⟩, hts⟩ := List.forall_mem_cons.mp h
    have hopen : openElement (e ++ [(name, .tables elements)]) [name] =
        some (e ++ [(name, .tables (elements ++ [[]]))]) := by
      rw [openElement, find?_concat_self hnone]
      exact congrArg some (replace_concat hnone)
    obtain ⟨subs, current', hrest, hsubs⟩ := @ih (name :: current₁) (elements ++ [sub]) hts
    refine ⟨sub :: subs, current', ?_, ?_⟩
    · rw [List.map_cons, elementStatements, run_append, run_element hrun hnone hopen]
      exact hrest.trans (by rw [List.append_assoc, List.singleton_append])
    · rw [elementValues, hvalues, hsubs, List.map_cons]

theorem assembles_tables {ts : List Table} (hne : ts ≠ [])
    (h : ∀ t ∈ ts, ∃ sub current', run ([], []) t.statements = some (sub, current') ∧
      entryValues sub = t) : Assembles (.array (ts.map .table)) := by
  intro name e current hnone
  obtain ⟨t, ts, rfl⟩ := List.exists_cons_of_ne_nil hne
  obtain ⟨⟨sub, current₁, hrun, hvalues⟩, hts⟩ := List.forall_mem_cons.mp h
  have hopen : e.openElement [name] = some (e ++ [(name, .tables ([] ++ [[]]))]) := by
    rw [openElement, hnone]
    rfl
  obtain ⟨subs, current', hrest, hsubs⟩ :=
    @run_elementStatements ts e (name :: current₁) name ([] ++ [sub]) hnone hts
  refine ⟨.tables (sub :: subs), current', ?_, ?_⟩
  · rw [Value.statements, List.map_cons, elementStatements, run_append,
      run_element hrun hnone hopen]
    exact hrest
  · rw [Draft.value, elementValues, hvalues, hsubs, List.map_cons]

/-- An orderly value with headers of its own is built by its statements. -/
theorem Value.IsOrderly.assembles {depth : Nat} {v : Value} (h : v.IsOrderly depth)
    (hsection : v.isSection = true) : Assembles v := by
  induction h with
  | flat h =>
    rw [h.isSection] at hsection
    cases hsection
  | @table depth t ordered values ih =>
    obtain ⟨sub, current', hrun, hvalues⟩ := run_statements ordered ih
    refine assembles_table hrun hvalues ?_
    by_cases hheader : (t.isEmpty || t.any (!·.2.isSection)) = true
    · exact .inl hheader
    · -- without a header of its own the table begins with the statements of its first entry
      obtain ⟨st, sts, hstatements, hst⟩ :=
        (IsOrderly.table ordered values).exists_statements_eq_cons rfl []
      rw [Value.statements, if_neg hheader] at hstatements
      exact .inr ⟨st, sts, hstatements, hst⟩
  | @tables depth ts nonempty ordered values ih =>
    exact assembles_tables nonempty fun t ht => run_statements (ordered t ht) (ih t ht)

/-- The statements of an ordered table of orderly values are assembled to it. -/
theorem assemble?_statements {t : Table} {depth : Nat} (ht : t.IsOrdered)
    (h : ∀ entry ∈ t, entry.2.IsOrderly depth) : assemble? t.statements = some t := by
  obtain ⟨e, current, hrun, hvalues⟩ := run_statements ht fun entry hentry => (h entry hentry).assembles
  rw [assemble?]
  exact (congrArg (Option.map (entryValues ·.1)) hrun).trans (congrArg some hvalues)

end JniLink.Toml
