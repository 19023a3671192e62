import JniLink.Proofs.Android.Toolchain
import JniLink.Proofs.Android.Unclosed
import JniLink.Proofs.Toml.Room

/-!
# A block behind a file

A file without a block gets it at its end, behind an empty line. The block is appended as text and the
file is not read, so whether the two together are a valid document is decided by what the file says
about the targets. The law (`ofString?_merge_block`) names the files for which they are: the table of
a target may be missing, or may only be implied by the headers of tables below it, and then has no
archiver and no linker yet. Of such a file everything is kept.

Every other file is broken by the block. The usual one has a table of its own for one of the targets,
with other settings than the tools (`ofString?_merge_block_configured`).
-/

namespace JniLink.Android.Toolchain

open JniLink.Text

/-! ## The tables of the targets -/

/-- The tables of the tools, by the triples of their targets. -/
def targetTables (bin : Path) (toolchains : List Toolchain) : List (String × Toml.Table) :=
  (tools bin toolchains).entries.map fun (triple, ar, linker) =>
    (triple, [("ar", .string ar), ("linker", .string linker)])

theorem table_eq_sections (bin : Path) (toolchains : List Toolchain) :
    table bin toolchains = [("target", .table (Toml.sections (targetTables bin toolchains)))] := by
  rw [table, Toml.sections, targetTables, List.map_map]
  rfl

theorem isPlain_of_mem_targetTables (bin : Path) (toolchains : List Toolchain) :
    ∀ entry ∈ targetTables bin toolchains, entry.2.IsPlain :=
  List.forall_mem_map.mpr fun _ _ =>
    { nonempty := List.cons_ne_nil _ _
      nodup := show ["ar", "linker"].Nodup by decide
      plain := List.forall_mem_cons.mpr ⟨rfl, List.forall_mem_singleton.mpr rfl⟩ }

theorem nodup_targetTables (bin : Path) (toolchains : List Toolchain) :
    ((targetTables bin toolchains).map (·.1)).Nodup := by
  rw [targetTables, List.map_map]
  exact (tools bin toolchains).nodup_names

/-- Every target that some tools are for has a table, with the same two keys. -/
theorem forall_mem_targetTables_iff {bin : Path} {toolchains : List Toolchain}
    {P : String → List String → Prop} :
    (∀ entry ∈ targetTables bin toolchains, P entry.1 (entry.2.map (·.1))) ↔
      ∀ t ∈ toolchains, P t.target.triple ["ar", "linker"] := by
  rw [targetTables, List.forall_mem_map]
  constructor
  · intro h t ht
    obtain ⟨last, hlast, htarget⟩ := exists_isLast (List.mem_map_of_mem ht)
    rw [← htarget]
    exact h _ (mem_tools_iff.mpr ⟨last, hlast, rfl, rfl, rfl⟩)
  · rintro h ⟨triple, ar, linker⟩ hmem
    obtain ⟨t, hlast, rfl, -⟩ := mem_tools_iff.mp hmem
    exact h t hlast.mem

theorem targetTables_ne_nil (bin : Path) {toolchains : List Toolchain} (h : toolchains ≠ []) :
    targetTables bin toolchains ≠ [] := by
  obtain ⟨t, toolchains, rfl⟩ := List.exists_cons_of_ne_nil h
  obtain ⟨last, hlast, -⟩ := exists_isLast (List.mem_map_of_mem List.mem_cons_self)
  exact List.ne_nil_of_mem (List.mem_map_of_mem (mem_tools_iff.mpr ⟨last, hlast, rfl, rfl, rfl⟩))

/-! ## The text -/

theorem noBlock_of_not_isInfix {existing : String}
    (h : ¬ blockOpening.toList <:+: existing.toList) : NoBlock existing :=
  fun before rest heq => absurd ⟨before, rest, by rw [heq, List.append_assoc]⟩ h

/-- A block that is appended adds its statements to those of the file. -/
theorem documentStatements?_merge_block {existing : String} {sts : List Toml.Statement}
    (hread : Toml.documentStatements? existing = some sts) (h : NoBlock existing) (bin : Path)
    (toolchains : List Toolchain) :
    Toml.documentStatements? (merge existing (block bin toolchains)) =
      some (sts ++ (table bin toolchains).statements) := by
  have htext := toList_merge_of_noBlock h (block bin toolchains)
  have hblock := isReadAs_block bin toolchains
  unfold gap at htext
  split at htext
  next hnil =>
    rw [hnil, List.nil_append, List.nil_append] at htext
    obtain rfl : existing = "" := String.toList_eq_nil_iff.mp hnil
    cases hread
    have hmark : Toml.skipMark (block bin toolchains).toList = (block bin toolchains).toList := by
      rw [toList_block]
      rfl
    rw [Toml.documentStatements?, htext, hmark]
    exact hblock _ (Nat.lt_succ_self _)
  next hne =>
    split at htext
    · exact Toml.documentStatements?_append hread hne hblock htext
    · exact Toml.documentStatements?_append hread hne hblock.lineBreak htext

/-! ## The document -/

/-- A file leaves room for the tools of its targets: what it says under `target` is a table or an
array of tables, if it says anything, and there the table of each of the targets is missing, or is
only implied by headers of tables below it and has neither of the keys. -/
def LeavesRoom (existing : String) (toolchains : List Toolchain) : Prop :=
  ∃ e ∈ Toml.draft? existing, ∃ sub ∈ e.below? "target",
    ∀ t ∈ toolchains, sub.HasRoom t.target.triple ["ar", "linker"]

instance decidableLeavesRoom (existing : String) (toolchains : List Toolchain) :
    Decidable (LeavesRoom existing toolchains) :=
  inferInstanceAs (Decidable (∃ e ∈ Toml.draft? existing, ∃ sub ∈ e.below? "target",
    ∀ t ∈ toolchains, sub.HasRoom t.target.triple ["ar", "linker"]))

section

variable {existing : String} {old new : Toml.Table} {toolchains : List Toolchain}
  (hread : Toml.ofString? existing = some old)
  (hmarker : ¬ blockOpening.toList <:+: existing.toList) (bin : Path)

include hread hmarker

/-- What a valid file says and builds, and what it says with the block behind it. -/
theorem exists_documentStatements?_merge_block (toolchains : List Toolchain) : ∃ sts e,
    Toml.documentStatements? existing = some sts ∧ Toml.draft? existing = some e ∧
    Toml.entryValues e = old ∧
    Toml.documentStatements? (merge existing (block bin toolchains)) =
      some (sts ++ Toml.Table.statements
        [("target", .table (Toml.sections (targetTables bin toolchains)))]) := by
  obtain ⟨sts, hsts, -⟩ := Option.bind_eq_some_iff.mp hread
  obtain ⟨e, hdraft, hold⟩ :=
    Option.map_eq_some_iff.mp ((Toml.ofString?_eq_map_draft? existing).symm.trans hread)
  rw [← table_eq_sections]
  exact ⟨sts, e, hsts, hdraft, hold,
    documentStatements?_merge_block hsts (noBlock_of_not_isInfix hmarker) bin toolchains⟩

/-- A file with the block behind it is valid exactly if it leaves room for the targets. -/
theorem isSome_ofString?_merge_block_iff (hne : toolchains ≠ []) :
    (Toml.ofString? (merge existing (block bin toolchains))).isSome ↔
      LeavesRoom existing toolchains := by
  obtain ⟨sts, e, hsts, hdraft, -, hmerged⟩ :=
    exists_documentStatements?_merge_block hread hmarker bin toolchains
  rw [Toml.isSome_ofString?_append_iff hsts hdraft hmerged (targetTables_ne_nil bin hne)
    (nodup_targetTables bin toolchains) (isPlain_of_mem_targetTables bin toolchains),
    LeavesRoom, hdraft]
  constructor
  · rintro ⟨sub, hsub, h⟩
    exact ⟨e, rfl, sub, hsub, forall_mem_targetTables_iff.mp h⟩
  · rintro ⟨_, he, sub, hsub, h⟩
    cases he
    exact ⟨sub, hsub, forall_mem_targetTables_iff.mpr h⟩

/-- What is read of a file with the block behind it holds everything that the file says. -/
theorem holds_of_ofString?_merge_block (hne : toolchains ≠ [])
    (hnew : Toml.ofString? (merge existing (block bin toolchains)) = some new) : new.Holds old := by
  obtain ⟨sts, e, hsts, hdraft, rfl, hmerged⟩ :=
    exists_documentStatements?_merge_block hread hmarker bin toolchains
  refine Toml.holds_of_ofString?_append hsts hdraft hmerged ?_ hnew
  exact Toml.isElement_of_mem_statements_sections (targetTables_ne_nil bin hne)
    (isPlain_of_mem_targetTables bin toolchains)

end

/-- Appending the block to a valid document without an opening marker gives a valid document exactly
if it leaves room for the targets. That document holds every key and value of the old one. -/
theorem ofString?_merge_block {existing : String} {old : Toml.Table}
    (hread : Toml.ofString? existing = some old)
    (hmarker : ¬ blockOpening.toList <:+: existing.toList) (bin : Path)
    {toolchains : List Toolchain} (hne : toolchains ≠ []) :
    (LeavesRoom existing toolchains → ∃ new,
      Toml.ofString? (merge existing (block bin toolchains)) = some new ∧ new.Holds old) ∧
    (¬ LeavesRoom existing toolchains →
      Toml.ofString? (merge existing (block bin toolchains)) = none) := by
  have hvalid := isSome_ofString?_merge_block_iff hread hmarker bin hne
  constructor
  · intro hroom
    obtain ⟨new, hnew⟩ := Option.isSome_iff_exists.mp (hvalid.mpr hroom)
    exact ⟨new, hnew, holds_of_ofString?_merge_block hread hmarker bin hne hnew⟩
  · intro hroom
    exact Option.not_isSome_iff_eq_none.mp (mt hvalid.mp hroom)

/-- The table of one target is implied by that of its environment, the last line has a comment and no
end, and the other target is new. -/
theorem ofString?_merge_block_implied :
    let existing := "[target.aarch64-linux-android.env]\nA = ['b'] # no end"
    let toolchains := [⟨.aarch64, "llvm-ar", "/opt/clang"⟩, ⟨.armv7, "llvm-ar", "clang"⟩]
    ¬ blockOpening.toList <:+: existing.toList ∧
    ∃ old new, Toml.ofString? existing = some old ∧
      old.write = "[target.aarch64-linux-android.env]\nA = [\"b\"]\n" ∧
      Toml.ofString? (merge existing (block ⟨"/ndk/bin"⟩ toolchains)) = some new ∧
      new.Holds old := by
  intro existing toolchains
  have hmarker : ¬ blockOpening.toList <:+: existing.toList := by decide +kernel
  have hroom : LeavesRoom existing toolchains := by decide +kernel
  have hwritten : (Toml.ofString? existing).map Toml.Table.write =
      some "[target.aarch64-linux-android.env]\nA = [\"b\"]\n" := by
    decide +kernel
  obtain ⟨old, hread, hwrite⟩ := Option.map_eq_some_iff.mp hwritten
  obtain ⟨new, hnew, hholds⟩ :=
    (ofString?_merge_block hread hmarker ⟨"/ndk/bin"⟩ (List.cons_ne_nil _ _)).1 hroom
  exact ⟨hmarker, old, new, hread, hwrite, hnew, hholds⟩

/-- A valid file without markers has a table of its own for a target. The block opens the table once
more, and the two together are no document. -/
theorem ofString?_merge_block_configured :
    let existing := "[target.aarch64-linux-android]\nrustflags = []\n"
    let toolchains := [⟨.aarch64, "llvm-ar", "aarch64-linux-android21-clang"⟩]
    (Toml.ofString? existing).isSome ∧ ¬ blockOpening.toList <:+: existing.toList ∧
      ¬ blockClosing.toList <:+: existing.toList ∧
      Toml.ofString? (merge existing (block ⟨"/ndk/bin"⟩ toolchains)) = none := by
  intro existing toolchains
  have hsome : (Toml.ofString? existing).isSome := by decide +kernel
  have hmarker : ¬ blockOpening.toList <:+: existing.toList := by decide +kernel
  have hroom : ¬ LeavesRoom existing toolchains := by decide +kernel
  obtain ⟨old, hread⟩ := Option.isSome_iff_exists.mp hsome
  refine ⟨hsome, hmarker, by decide +kernel, Option.not_isSome_iff_eq_none.mp ?_⟩
  rwa [isSome_ofString?_merge_block_iff hread hmarker ⟨"/ndk/bin"⟩ (List.cons_ne_nil _ _)]

end JniLink.Android.Toolchain
