import JniLink.Proofs.Toml.Assembly
import JniLink.Proofs.Toml.Statement

/-!
# Documents that are written are read back

The document of a table is read as that table, if its tables are ordered, nest less deep than keys have
names, and hold flat values. Nothing is asked of the names and texts in it.
-/

namespace JniLink.Toml

/-! ## Ordered tables -/

theorem Value.IsFlat.string (text : String) : (Value.string text).IsFlat := .scalar (.string text)

/-- Flat entries in front of any one value are ordered. -/
theorem Table.isOrdered_concat {plain back : Table} (hnames : ((plain ++ back).map (·.1)).Nodup)
    (hplain : ∀ entry ∈ plain, entry.2.IsFlat) (hback : back.length ≤ 1) :
    Table.IsOrdered (plain ++ back) := by
  refine ⟨hnames, List.pairwise_append.mpr ⟨?_, ?_, ?_⟩⟩
  · refine List.pairwise_of_forall_mem_list fun entry hentry _ _ hsection => ?_
    rw [(hplain entry hentry).isSection] at hsection
    cases hsection
  · match back, hback with
    | [], _ => exact .nil
    | [entry], _ => exact List.pairwise_singleton _ _
  · intro entry hentry _ _ hsection
    rw [(hplain entry hentry).isSection] at hsection
    cases hsection

theorem Table.isOrdered_of_isFlat {t : Table} (hnames : (t.map (·.1)).Nodup)
    (ht : ∀ entry ∈ t, entry.2.IsFlat) : t.IsOrdered := by
  have h := @Table.isOrdered_concat t [] (by rwa [List.append_nil]) ht (Nat.zero_le 1)
  rwa [List.append_nil] at h

theorem Table.isOrdered_of_isSection {t : Table} (hnames : (t.map (·.1)).Nodup)
    (ht : ∀ entry ∈ t, entry.2.isSection = true) : t.IsOrdered :=
  ⟨hnames, List.pairwise_of_forall_mem_list fun _ _ entry hentry _ => ht entry hentry⟩

theorem Value.IsOrderly.table_concat {depth : Nat} {plain back : Table}
    (hnames : ((plain ++ back).map (·.1)).Nodup) (hplain : ∀ entry ∈ plain, entry.2.IsFlat)
    (hback : back.length ≤ 1) (hvalues : ∀ entry ∈ back, entry.2.IsOrderly depth) :
    (Value.table (plain ++ back)).IsOrderly (depth + 1) := by
  refine .table (Table.isOrdered_concat hnames hplain hback) fun entry hentry => ?_
  rcases List.mem_append.mp hentry with hentry | hentry
  · exact .flat (hplain entry hentry)
  · exact hvalues entry hentry

theorem Value.IsOrderly.table_of_isFlat {depth : Nat} {t : Table} (hnames : (t.map (·.1)).Nodup)
    (ht : ∀ entry ∈ t, entry.2.IsFlat) : (Value.table t).IsOrderly (depth + 1) :=
  .table (Table.isOrdered_of_isFlat hnames ht) fun entry hentry => .flat (ht entry hentry)

/-! ## Readable statements -/

/-- An orderly value without headers of its own is flat. -/
theorem Value.IsOrderly.isFlat {depth : Nat} {v : Value} (h : v.IsOrderly depth)
    (hsection : v.isSection = false) : v.IsFlat := by
  cases h with
  | flat h => exact h
  | table => cases hsection
  | @tables depth ts nonempty ordered values =>
    obtain ⟨t, ts, rfl⟩ := List.exists_cons_of_ne_nil nonempty
    have hall : (ts.map Value.table).all Value.isTable = true := by
      rw [List.all_map]
      exact List.all_eq_true.mpr fun _ _ => rfl
    rw [List.map_cons, Value.isSection, List.all_cons, hall] at hsection
    cases hsection

theorem isReadable_of_mem_sectionStatements {t : Table} {path : List String}
    (h : ∀ entry ∈ t, entry.2.isSection = true →
      ∀ st ∈ entry.2.statements (path ++ [entry.1]), st.IsReadable)
    {st : Statement} (hst : st ∈ sectionStatements path t) : st.IsReadable := by
  induction t with
  | nil => cases hst
  | cons entry t ih =>
    obtain ⟨name, v⟩ := entry
    obtain ⟨hv, ht⟩ := List.forall_mem_cons.mp h
    rw [sectionStatements, List.mem_append] at hst
    rcases hst with hst | hst
    · split at hst
      next hsection => exact hv hsection st hst
      next => cases hst
    · exact ih ht hst

/-- The statements below a header are readable if those of the entries with headers are. -/
theorem isReadable_of_mem_body {depth : Nat} {t : Table} {path : List String}
    (values : ∀ entry ∈ t, entry.2.IsOrderly depth)
    (h : ∀ entry ∈ t, entry.2.isSection = true →
      ∀ st ∈ entry.2.statements (path ++ [entry.1]), st.IsReadable)
    {st : Statement} (hst : st ∈ pairs t ∨ st ∈ sectionStatements path t) : st.IsReadable := by
  rcases hst with hst | hst
  · obtain ⟨entry, hentry, hplain, rfl⟩ := of_mem_pairs hst
    exact ⟨rfl, (values entry hentry).isFlat hplain⟩
  · exact isReadable_of_mem_sectionStatements h hst

theorem of_mem_elementStatements {ts : List Table} {path : List String} {st : Statement}
    (h : st ∈ elementStatements path (ts.map .table)) :
    st = .element path ∨ ∃ t ∈ ts, st ∈ pairs t ∨ st ∈ sectionStatements path t := by
  induction ts with
  | nil => cases h
  | cons t ts ih =>
    rw [List.map_cons, elementStatements, List.mem_append, List.mem_append, List.mem_cons] at h
    rcases h with ((h | h) | h) | h
    · exact .inl h
    · exact .inr ⟨t, List.mem_cons_self, .inl h⟩
    · exact .inr ⟨t, List.mem_cons_self, .inr h⟩
    · rcases ih h with h | ⟨t', ht', h⟩
      · exact .inl h
      · exact .inr ⟨t', List.mem_cons_of_mem _ ht', h⟩

/-- One name more in front leaves one level less below. -/
theorem length_concat_add_le {path : List String} {name : String} {depth bound : Nat}
    (h : path.length + (depth + 1) ≤ bound) : (path ++ [name]).length + depth ≤ bound := by
  rw [List.length_append, List.length_singleton]
  omega

/-- The statements of an orderly value are readable as long as its headers have not too many names. -/
theorem Value.IsOrderly.isReadable {depth : Nat} {v : Value} (h : v.IsOrderly depth)
    (hsection : v.isSection = true) {path : List String} (hne : path ≠ [])
    (hlength : path.length + depth ≤ depthLimit) :
    ∀ st ∈ v.statements path, st.IsReadable := by
  induction h generalizing path with
  | flat h =>
    rw [h.isSection] at hsection
    cases hsection
  | @table depth t ordered values ih =>
    intro st hst
    rw [Value.statements, List.append_assoc, List.mem_append, List.mem_append] at hst
    rcases hst with hst | hst
    · split at hst
      · rw [List.mem_singleton.mp hst]
        exact ⟨hne, by omega⟩
      · cases hst
    · exact isReadable_of_mem_body values (fun entry hentry hsection =>
        ih entry hentry hsection (List.concat_ne_nil _ _) (length_concat_add_le hlength)) hst
  | @tables depth ts nonempty ordered values ih =>
    intro st hst
    rw [Value.statements] at hst
    rcases of_mem_elementStatements hst with rfl | ⟨t, ht, hst⟩
    · exact ⟨hne, by omega⟩
    · exact isReadable_of_mem_body (values t ht) (fun entry hentry hsection =>
        ih t ht entry hentry hsection (List.concat_ne_nil _ _) (length_concat_add_le hlength)) hst

theorem isReadable_of_mem_statements {t : Table} {depth : Nat}
    (h : ∀ entry ∈ t, entry.2.IsOrderly depth) (hdepth : depth < depthLimit) {st : Statement}
    (hst : st ∈ t.statements) : st.IsReadable := by
  refine isReadable_of_mem_body h (fun entry hentry hsection => ?_) (List.mem_append.mp hst)
  exact (h entry hentry).isReadable hsection (List.cons_ne_nil _ _)
    (by change 1 + depth ≤ depthLimit; omega)

/-! ## Documents -/

theorem toList_write (t : Table) : t.write.toList = writeStatements t.statements :=
  String.toList_ofList

/-- A document is read as the table that it was written for. -/
theorem ofString?_write_of_isOrdered {t : Table} {depth : Nat} (ht : t.IsOrdered)
    (h : ∀ entry ∈ t, entry.2.IsOrderly depth) (hdepth : depth < depthLimit) :
    ofString? t.write = some t := by
  have hreadable : ∀ st ∈ t.statements, st.IsReadable :=
    fun _ => isReadable_of_mem_statements h hdepth
  have hread : IsReadAs t.write.toList t.statements := by
    have hread := IsReadAs.nil.writeStatements hreadable
    rwa [List.append_nil, List.append_nil, ← toList_write] at hread
  have hmark : skipMark t.write.toList = t.write.toList := by
    rw [toList_write, skipMark_writeStatements hreadable]
  rw [hread.ofString? hmark, assemble?_statements ht h]

end JniLink.Toml
