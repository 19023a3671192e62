import JniLink.Proofs.Toml.Assembly
import Mathlib.Data.List.Forall2

/-!
# What was built stays

Statements that are added to a document put entries into its tables, and open tables that were only
implied. None of them takes an entry away or changes a value that is finished. So whatever a path of
keys and indices leads to before, the same path leads to afterwards: the same value, a table, or an
array of as many elements (`holds_of_run`).

Only the header of a new element makes an array of tables longer, and is left out of that law. It also
needs that every array of tables has an element, since statements go to the last one; every document
is built that way (`isFilled_of_run`).
-/

namespace JniLink.Toml

/-! ## Values that hold others -/

/-- A step from a value to one of its parts. -/
inductive Step where
  | key (name : String)
  | index (i : Nat)
  deriving DecidableEq, Repr

namespace Value

/-- The part of a value that a step leads to. -/
def part? : Value → Step → Option Value
  | .table entries, .key name => Table.find? entries name
  | .array elements, .index i => elements[i]?
  | _, _ => none

/-- What a path leads to. -/
def follow? : Value → List Step → Option Value
  | v, [] => some v
  | v, step :: path => (v.part? step).bind fun part => follow? part path

/-- A value without what stands in it: a table without entries, an array of as many of them, or the
value itself if it has no parts. -/
def outline : Value → Value
  | .table _ => .table []
  | .array elements => .array (List.replicate elements.length (.table []))
  | v => v

/-- Whatever a path leads to in another value, it leads to the like of it in this one. -/
def Holds (v v' : Value) : Prop :=
  ∀ path part, (v'.follow? path).map outline = some part → (v.follow? path).map outline = some part

variable {v v' v'' : Value}

theorem Holds.refl (v : Value) : v.Holds v := fun _ _ h => h

theorem Holds.trans (h : v.Holds v') (h' : v'.Holds v'') : v.Holds v'' :=
  fun path part hpart => h path part (h' path part hpart)

/-- One value holds another if they are alike and the parts of the one hold those of the other. -/
theorem holds_of_part? (houtline : v.outline = v'.outline)
    (h : ∀ step part', v'.part? step = some part' → ∃ part, v.part? step = some part ∧ part.Holds part') :
    v.Holds v' := by
  intro path found hfound
  cases path with
  | nil => exact (congrArg some houtline).trans hfound
  | cons step path =>
    rw [follow?, Option.map_bind, Option.bind_eq_some_iff] at hfound
    obtain ⟨part', hpart', hfound⟩ := hfound
    obtain ⟨part, hpart, hholds⟩ := h step part' hpart'
    rw [follow?, hpart, Option.bind_some]
    exact hholds path found hfound

theorem holds_table {t t' : Table}
    (h : ∀ name v', t'.find? name = some v' → ∃ v, t.find? name = some v ∧ v.Holds v') :
    (Value.table t).Holds (.table t') := by
  refine holds_of_part? rfl fun step part' hpart => ?_
  cases step with
  | key name => exact h name part' hpart
  | index i => cases hpart

theorem holds_array {vs vs' : List Value} (h : List.Forall₂ Holds vs vs') :
    (Value.array vs).Holds (.array vs') := by
  refine holds_of_part? (by rw [outline, outline, h.length_eq]) fun step part' hpart => ?_
  cases step with
  | key name => cases hpart
  | index i =>
    obtain ⟨hi', rfl⟩ := List.getElem?_eq_some_iff.mp hpart
    have hi : i < vs.length := h.length_eq ▸ hi'
    exact ⟨vs[i], List.getElem?_eq_getElem hi, h.get hi hi'⟩

end Value

/-- Whatever a path leads to in another table, it leads to the like of it in this one. -/
def Table.Holds (t t' : Table) : Prop := (Value.table t).Holds (.table t')

/-! ## Entries that are looked up -/

namespace Entries

variable {e e' : Entries} {name other : String} {d d' : Draft}

theorem mem_of_find? (h : e.find? name = some d) : (name, d) ∈ e := by
  obtain ⟨entry, hentry, rfl⟩ := Option.map_eq_some_iff.mp h
  obtain rfl : entry.1 = name := by simpa using List.find?_some hentry
  exact List.mem_of_find?_eq_some hentry

theorem find?_append : (e ++ e').find? name = (e.find? name).or (e'.find? name) := by
  rw [find?, List.find?_append, Option.map_or]
  rfl

theorem find?_concat_of_ne (h : other ≠ name) : find? (e ++ [(name, d)]) other = e.find? other := by
  have hlast : find? [(name, d)] other = none :=
    congrArg _ (List.find?_cons_of_neg (by simpa using h.symm))
  rw [find?_append, hlast, Option.or_none]

theorem find?_replace_self (h : e.find? name = some d) : (e.replace name d').find? name = some d' := by
  induction e with
  | nil => cases h
  | cons entry e ih =>
    by_cases hentry : entry.1 = name
    · rw [find?, replace, List.map_cons, if_pos hentry, List.find?_cons_of_pos (by simp)]
      rfl
    · rw [find?, List.find?_cons_of_neg (by simpa using hentry)] at h
      rw [find?, replace, List.map_cons, if_neg hentry, List.find?_cons_of_neg (by simpa using hentry)]
      exact ih h

theorem find?_replace_of_ne (h : other ≠ name) : (e.replace name d).find? other = e.find? other := by
  induction e with
  | nil => rfl
  | cons entry e ih =>
    rw [find?, replace, List.map_cons]
    by_cases hentry : entry.1 = name
    · rw [if_pos hentry, List.find?_cons_of_neg (by simpa using h.symm), find?,
        List.find?_cons_of_neg (by simpa [hentry] using h.symm)]
      exact ih
    · rw [if_neg hentry, find?, List.find?_cons, List.find?_cons]
      split
      · rfl
      · exact ih

theorem find?_filter_of_ne (h : other ≠ name) :
    find? (e.filter (·.1 ≠ name)) other = e.find? other := by
  rw [find?, List.find?_filter, find?]
  congr 2
  funext entry
  by_cases hentry : entry.1 = other <;> simp [hentry, h]

theorem find?_filter_self : find? (e.filter (·.1 ≠ name)) name = none := by
  rw [find?_eq_none_iff]
  intro hmem
  obtain ⟨entry, hentry, hname⟩ := List.mem_map.mp hmem
  exact of_decide_eq_true (List.mem_filter.mp hentry).2 hname

theorem find?_entryValues (e : Entries) (name : String) :
    Table.find? (entryValues e) name = (e.find? name).map Draft.value := by
  induction e with
  | nil => rfl
  | cons entry e ih =>
    obtain ⟨key, draft⟩ := entry
    rw [entryValues, Table.find?, find?]
    by_cases hkey : key = name
    · rw [List.find?_cons_of_pos (by simpa using hkey), List.find?_cons_of_pos (by simpa using hkey)]
      rfl
    · rw [List.find?_cons_of_neg (by simpa using hkey), List.find?_cons_of_neg (by simpa using hkey)]
      exact ih

/-- Entries that hold others when they are finished. -/
def Holds (e e' : Entries) : Prop := Table.Holds (entryValues e) (entryValues e')

theorem holds_of_find?
    (h : ∀ name d', e'.find? name = some d' → ∃ d, e.find? name = some d ∧ d.value.Holds d'.value) :
    e.Holds e' := by
  refine Value.holds_table fun name v' hv' => ?_
  rw [find?_entryValues] at hv'
  obtain ⟨d', hd', rfl⟩ := Option.map_eq_some_iff.mp hv'
  obtain ⟨d, hd, hholds⟩ := h name d' hd'
  exact ⟨d.value, by rw [find?_entryValues, hd, Option.map_some], hholds⟩

theorem holds_append (e e' : Entries) : (e ++ e').Holds e :=
  holds_of_find? fun name d hd => ⟨d, by rw [find?_append, hd, Option.some_or], .refl _⟩

/-- Something is put in the place of what it holds. -/
theorem holds_of_find?_of_ne (hself : e.find? name = some d) (hself' : e'.find? name = some d')
    (hd : d'.value.Holds d.value) (hother : ∀ other, other ≠ name → e'.find? other = e.find? other) :
    e'.Holds e := by
  refine holds_of_find? fun other d₁ hfound => ?_
  by_cases heq : other = name
  · subst heq
    cases hself.symm.trans hfound
    exact ⟨d', hself', hd⟩
  · exact ⟨d₁, (hother other heq).trans hfound, .refl _⟩

theorem holds_replace (h : e.find? name = some d) (hd : d'.value.Holds d.value) :
    (e.replace name d').Holds e :=
  holds_of_find?_of_ne h (find?_replace_self h) hd fun _ => find?_replace_of_ne

theorem find?_filter_append_self : find? (e.filter (·.1 ≠ name) ++ [(name, d)]) name = some d :=
  find?_concat_self find?_filter_self

theorem find?_filter_append_of_ne (h : other ≠ name) :
    find? (e.filter (·.1 ≠ name) ++ [(name, d)]) other = e.find? other := by
  rw [find?_concat_of_ne h, find?_filter_of_ne h]

end Entries

/-! ## How a document grows -/

/-- Every array of tables has an element. -/
inductive Draft.IsFilled : Draft → Prop
  | closed (value : Value) : IsFilled (.closed value)
  | table {origin : Origin} {e : Entries} (h : ∀ entry ∈ e, IsFilled entry.2) :
      IsFilled (.table origin e)
  | tables {elements : List Entries} (hne : elements ≠ [])
      (h : ∀ e ∈ elements, ∀ entry ∈ e, IsFilled entry.2) : IsFilled (.tables elements)

namespace Entries

/-- Every array of tables below these entries has an element. -/
def IsFilled (e : Entries) : Prop := ∀ entry ∈ e, entry.2.IsFilled

/-- What one statement does: an entry is added, or a table that was implied is opened, somewhere in
the tables that are there. The header of an element adds an element instead. -/
inductive Grows (isElement : Bool) : Entries → Entries → Prop
  | added {e : Entries} {name : String} {d : Draft} (hd : d.IsFilled) :
      Grows isElement e (e ++ [(name, d)])
  | opened {e sub : Entries} {name : String} (h : e.find? name = some (.table .implied sub)) :
      Grows isElement e (e.filter (·.1 ≠ name) ++ [(name, .table .header sub)])
  | element {e : Entries} {name : String} {elements : List Entries}
      (h : e.find? name = some (.tables elements)) (hnew : isElement = true) :
      Grows isElement e (e.replace name (.tables (elements ++ [[]])))
  | inTable {e sub sub' : Entries} {name : String} {origin : Origin}
      (h : e.find? name = some (.table origin sub)) (hsub : Grows isElement sub sub') :
      Grows isElement e (e.replace name (.table origin sub'))
  | inLast {e last : Entries} {name : String} {elements : List Entries}
      (h : e.find? name = some (.tables elements))
      (hlast : Grows isElement (elements.getLastD []) last) :
      Grows isElement e (e.replace name (.tables (elements.dropLast ++ [last])))

variable {e e' : Entries} {name : String} {d : Draft} {isElement : Bool}

theorem IsFilled.of_find? (he : e.IsFilled) (h : e.find? name = some d) : d.IsFilled :=
  he _ (mem_of_find? h)

theorem IsFilled.concat (he : e.IsFilled) (hd : d.IsFilled) : IsFilled (e ++ [(name, d)]) :=
  List.forall_mem_append.mpr ⟨he, List.forall_mem_singleton.mpr hd⟩

theorem IsFilled.replace (he : e.IsFilled) (hd : d.IsFilled) : (e.replace name d).IsFilled := by
  refine List.forall_mem_map.mpr fun entry hentry => ?_
  split
  · exact hd
  · exact he entry hentry

theorem IsFilled.of_table {origin : Origin} (h : (Draft.table origin e).IsFilled) : e.IsFilled := by
  cases h with
  | table h => exact h

theorem IsFilled.of_tables {elements : List Entries} (h : (Draft.tables elements).IsFilled) :
    elements ≠ [] ∧ ∀ e ∈ elements, e.IsFilled := by
  cases h with
  | tables hne h => exact ⟨hne, h⟩

/-- Where an array of tables has an element, its last one is written to. -/
theorem dropLast_append_getLastD {elements : List Entries} (h : elements ≠ []) :
    elements.dropLast ++ [elements.getLastD []] = elements := by
  rw [List.getLastD_eq_getLast?, List.getLast?_eq_some_getLast h, Option.getD_some,
    List.dropLast_concat_getLast h]

theorem getLastD_mem {elements : List Entries} (h : elements ≠ []) :
    elements.getLastD [] ∈ elements := by
  rw [List.getLastD_eq_getLast?, List.getLast?_eq_some_getLast h, Option.getD_some]
  exact List.getLast_mem h

theorem Grows.isFilled (h : Grows isElement e e') (he : e.IsFilled) : e'.IsFilled := by
  induction h with
  | added hd => exact he.concat hd
  | opened h =>
    have hsub := IsFilled.of_table (he.of_find? h)
    exact IsFilled.concat (fun entry hentry => he entry (List.mem_of_mem_filter hentry)) (.table hsub)
  | element h =>
    obtain ⟨-, helements⟩ := IsFilled.of_tables (he.of_find? h)
    refine he.replace (.tables (List.concat_ne_nil _ _) (List.forall_mem_append.mpr ⟨helements, ?_⟩))
    exact List.forall_mem_singleton.mpr (List.forall_mem_nil _)
  | inTable h hsub ih => exact he.replace (.table (ih (.of_table (he.of_find? h))))
  | inLast h hlast ih =>
    obtain ⟨hne, helements⟩ := IsFilled.of_tables (he.of_find? h)
    have hlast := ih (helements _ (getLastD_mem hne))
    refine he.replace (.tables (List.concat_ne_nil _ _) (List.forall_mem_append.mpr ⟨?_, ?_⟩))
    · exact fun e hmem => helements e (List.dropLast_subset _ hmem)
    · exact List.forall_mem_singleton.mpr hlast

theorem elementValues_append (elements elements' : List Entries) :
    elementValues (elements ++ elements') = elementValues elements ++ elementValues elements' := by
  induction elements with
  | nil => rfl
  | cons e elements ih => rw [List.cons_append, elementValues, elementValues, ih, List.cons_append]

/-- What grows without new elements holds what it was. -/
theorem Grows.holds (h : Grows false e e') (he : e.IsFilled) : e'.Holds e := by
  induction h with
  | added hd => exact holds_append _ _
  | opened h =>
    exact holds_of_find?_of_ne h find?_filter_append_self (.refl _) fun _ => find?_filter_append_of_ne
  | element h hnew => cases hnew
  | inTable h hsub ih => exact holds_replace h (ih (.of_table (he.of_find? h)))
  | @inLast e last name elements h hlast ih =>
    obtain ⟨hne, helements⟩ := IsFilled.of_tables (he.of_find? h)
    refine holds_replace h ?_
    have hsame : List.Forall₂ Value.Holds (elementValues elements.dropLast ++ elementValues [last])
        (elementValues elements.dropLast ++ elementValues [elements.getLastD []]) :=
      List.rel_append (List.forall₂_same.mpr fun v _ => .refl v)
        (.cons (ih (helements _ (getLastD_mem hne))) .nil)
    rw [← elementValues_append, ← elementValues_append, dropLast_append_getLastD hne] at hsame
    exact Value.holds_array hsame

/-! ## What statements do -/

theorem grows_descend {change : Entries → Option Entries}
    (hchange : ∀ sub sub', change sub = some sub' → Grows isElement sub sub')
    (h : e.descend name change = some e') : Grows isElement e e' := by
  rw [descend] at h
  split at h
  next =>
    obtain ⟨sub, hsub, rfl⟩ := Option.map_eq_some_iff.mp h
    exact .added (.table ((hchange _ _ hsub).isFilled (List.forall_mem_nil _)))
  next hfind =>
    obtain ⟨sub, hsub, rfl⟩ := Option.map_eq_some_iff.mp h
    exact .inTable hfind (hchange _ _ hsub)
  next hfind =>
    obtain ⟨last, hlast, rfl⟩ := Option.map_eq_some_iff.mp h
    exact .inLast hfind (hchange _ _ hlast)
  next => cases h

theorem grows_openTable {path : List String} (h : e.openTable path = some e') :
    Grows isElement e e' := by
  induction path generalizing e e' with
  | nil => cases h
  | cons name names ih =>
    cases names with
    | nil =>
      rw [openTable] at h
      split at h
      next => cases h; exact .added (.table (List.forall_mem_nil _))
      next hfind => cases h; exact .opened hfind
      next => cases h
    | cons name' names => exact grows_descend (fun _ _ => ih) h

theorem grows_openElement {path : List String} (h : e.openElement path = some e') :
    Grows true e e' := by
  induction path generalizing e e' with
  | nil => cases h
  | cons name names ih =>
    cases names with
    | nil =>
      rw [openElement] at h
      split at h
      next =>
        cases h
        exact .added (.tables (List.cons_ne_nil _ _)
          (List.forall_mem_singleton.mpr (List.forall_mem_nil _)))
      next hfind => cases h; exact .element hfind rfl
      next => cases h
    | cons name' names => exact grows_descend (fun _ _ => ih) h

theorem grows_put {path : List String} {value : Value} (h : e.put path name value = some e') :
    Grows isElement e e' := by
  induction path generalizing e e' with
  | nil =>
    rw [put] at h
    split at h
    next => cases h; exact .added (.closed value)
    next => cases h
  | cons key keys ih =>
    rw [put] at h
    split at h
    next =>
      obtain ⟨sub, hsub, rfl⟩ := Option.map_eq_some_iff.mp h
      exact .added (.table ((@ih [] sub hsub).isFilled (List.forall_mem_nil _)))
    next hfind =>
      obtain ⟨sub, hsub, rfl⟩ := Option.map_eq_some_iff.mp h
      exact .inTable hfind (ih hsub)
    next hfind =>
      split at h
      · cases h
      obtain ⟨sub, hsub, rfl⟩ := Option.map_eq_some_iff.mp h
      exact .inTable hfind (ih hsub)
    next hfind =>
      split at h
      · cases h
      obtain ⟨last, hlast, rfl⟩ := Option.map_eq_some_iff.mp h
      exact .inLast hfind (ih hlast)
    next => cases h
    next => cases h

theorem grows_change {f : Entries → Option Entries} {path : List String}
    (hf : ∀ e e', f e = some e' → Grows isElement e e') (h : e.change f path = some e') :
    Grows isElement e e' := by
  induction path generalizing e e' with
  | nil => exact hf e e' h
  | cons name names ih => exact grows_descend (fun _ _ => ih) h

end Entries

/-! ## Runs -/

open Entries

/-- The header of an element of an array of tables. -/
def Statement.isElement : Statement → Bool
  | .element _ => true
  | .header _ | .pair .. => false

variable {state state' : Entries × List String} {sts : List Statement}

theorem grows_addStatement {st : Statement} (h : addStatement state st = some state') :
    Grows st.isElement state.1 state'.1 := by
  cases st with
  | header path =>
    obtain ⟨e, he, rfl⟩ := Option.map_eq_some_iff.mp h
    exact grows_openTable he
  | element path =>
    obtain ⟨e, he, rfl⟩ := Option.map_eq_some_iff.mp h
    exact grows_openElement he
  | pair path name value =>
    obtain ⟨e, he, rfl⟩ := Option.map_eq_some_iff.mp h
    exact grows_change (fun _ _ => grows_put) he

/-- Every array of tables that statements build has an element. -/
theorem isFilled_of_run (h : run state sts = some state') (hfilled : state.1.IsFilled) :
    state'.1.IsFilled := by
  induction sts generalizing state with
  | nil => cases h; exact hfilled
  | cons st sts ih =>
    obtain ⟨next, hnext, hrest⟩ := Option.bind_eq_some_iff.mp h
    exact ih hrest ((grows_addStatement hnext).isFilled hfilled)

/-- Statements without headers of elements leave everything there that was there. -/
theorem holds_of_run (h : run state sts = some state') (hfilled : state.1.IsFilled)
    (hsts : ∀ st ∈ sts, st.isElement = false) : state'.1.Holds state.1 := by
  induction sts generalizing state with
  | nil => cases h; exact .refl _
  | cons st sts ih =>
    obtain ⟨hst, hsts⟩ := List.forall_mem_cons.mp hsts
    obtain ⟨next, hnext, hrest⟩ := Option.bind_eq_some_iff.mp h
    have hgrows := grows_addStatement hnext
    rw [hst] at hgrows
    exact (ih hrest (hgrows.isFilled hfilled) hsts).trans (hgrows.holds hfilled)

end JniLink.Toml
