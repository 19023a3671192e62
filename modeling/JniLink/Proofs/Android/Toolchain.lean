import JniLink.Config.Basic
import JniLink.Proofs.Text.NameMap
import JniLink.Proofs.Toml.Document

/-!
# What a generated block says

A block of the build's configuration file stands between two marker lines, which are comments, so
that it is read as the table that was written between them. That table has one table for each target
that some tools are for, with the paths of the last ones of the target (`read_block`). The linker of
a configured target is the one that the configuration gives for it under either of its names, and
the development kit's if it gives none.
-/

namespace JniLink

open JniLink.Text

/-- A path from the root is the same from every directory. -/
theorem Path.div_of_isAbsolute (dir : Path) {name : String}
    (h : Path.isAbsolute ⟨name⟩ = true) : dir / name = ⟨name⟩ :=
  if_pos h

namespace Android

/-! ## Targets and their names -/

theorem Target.ofTriple?_triple (t : Target) : ofTriple? t.triple = some t := by
  cases t <;> decide +kernel

theorem Target.triple_injective {t t' : Target} (h : t.triple = t'.triple) : t = t' := by
  have ht' := ofTriple?_triple t'
  rw [← h, ofTriple?_triple] at ht'
  exact Option.some.inj ht'

/-- A target is named by its triple and by its binary interface. -/
theorem Target.ofName?_eq_some_iff {name : String} {t : Target} :
    ofName? name = some t ↔ name = t.triple ∨ name = t.abi := by
  constructor
  · intro h
    rcases Option.or_eq_some_iff.mp h with h | ⟨-, h⟩
    · have htriple : t.triple = name := by simpa using List.find?_some h
      exact .inl htriple.symm
    · have habi : t.abi = name := by simpa using List.find?_some h
      exact .inr habi.symm
  · rintro (rfl | rfl)
    · rw [ofName?, ofTriple?_triple, Option.some_or]
    · cases t <;> decide +kernel

namespace Toolchain

/-! ## The tables of the tools -/

/-- The table of one target's tools, with their paths from a directory on. -/
def toolsTable (bin : Path) (ar linker : String) : Toml.Value :=
  .table [("ar", .string (bin / ar).text), ("linker", .string (bin / linker).text)]

/-- The last tools of their target in a list. -/
def IsLast (toolchains : List Toolchain) (t : Toolchain) : Prop :=
  ∃ before after, toolchains = before ++ t :: after ∧ ∀ other ∈ after, other.target ≠ t.target

/-- Every target that some tools are for has last ones. -/
theorem exists_isLast {toolchains : List Toolchain} {target : Target}
    (h : target ∈ toolchains.map (·.target)) : ∃ t, IsLast toolchains t ∧ t.target = target := by
  induction toolchains with
  | nil => cases h
  | cons first rest ih =>
    by_cases hrest : target ∈ rest.map (·.target)
    · obtain ⟨t, ⟨before, after, rfl, hafter⟩, htarget⟩ := ih hrest
      exact ⟨t, ⟨first :: before, after, rfl, hafter⟩, htarget⟩
    · rcases List.mem_cons.mp h with rfl | h
      · refine ⟨first, ⟨[], rest, rfl, fun other ho htarget => hrest ?_⟩, rfl⟩
        exact List.mem_map.mpr ⟨other, ho, htarget⟩
      · exact absurd h hrest

theorem IsLast.mem {toolchains : List Toolchain} {t : Toolchain} (h : IsLast toolchains t) :
    t ∈ toolchains := by
  obtain ⟨before, after, rfl, -⟩ := h
  exact List.mem_append_right _ List.mem_cons_self

/-- The tables of all targets. -/
def tables (bin : Path) (toolchains : List Toolchain) : Toml.Table :=
  (tools bin toolchains).entries.map fun (triple, ar, linker) =>
    (triple, .table [("ar", .string ar), ("linker", .string linker)])

theorem mem_tools_iff {bin : Path} {toolchains : List Toolchain} {triple ar linker : String} :
    (triple, ar, linker) ∈ (tools bin toolchains).entries ↔
      ∃ t, IsLast toolchains t ∧ triple = t.target.triple ∧ ar = (bin / t.ar).text ∧
        linker = (bin / t.linker).text := by
  rw [tools, NameMap.mem_ofList_iff]
  constructor
  · rintro ⟨before, after, heq, hafter⟩
    obtain ⟨before, rest, rfl, rfl, hrest⟩ := List.map_eq_append_iff.mp heq
    obtain ⟨t, after, rfl, ht, rfl⟩ := List.map_eq_cons_iff.mp hrest
    cases ht
    refine ⟨t, ⟨before, after, rfl, fun other ho htarget => ?_⟩, rfl, rfl, rfl⟩
    exact hafter _ (List.mem_map_of_mem ho) (congrArg Target.triple htarget)
  · rintro ⟨t, ⟨before, after, rfl, hafter⟩, rfl, rfl, rfl⟩
    refine ⟨_, _, List.map_append, ?_⟩
    intro other ho htriple
    obtain ⟨t', ht', rfl⟩ := List.mem_map.mp ho
    exact hafter t' ht' (Target.triple_injective htriple)

theorem mem_tables_iff {bin : Path} {toolchains : List Toolchain} {name : String}
    {value : Toml.Value} : (name, value) ∈ tables bin toolchains ↔
      ∃ t, IsLast toolchains t ∧ name = t.target.triple ∧ value = toolsTable bin t.ar t.linker := by
  rw [tables, List.mem_map]
  constructor
  · rintro ⟨⟨triple, ar, linker⟩, hmem, heq⟩
    obtain ⟨t, hlast, rfl, rfl, rfl⟩ := mem_tools_iff.mp hmem
    cases heq
    exact ⟨t, hlast, rfl, rfl⟩
  · rintro ⟨t, hlast, rfl, rfl⟩
    exact ⟨_, mem_tools_iff.mpr ⟨t, hlast, rfl, rfl, rfl⟩, rfl⟩

theorem map_fst_tables (bin : Path) (toolchains : List Toolchain) :
    (tables bin toolchains).map (·.1) = (tools bin toolchains).entries.map (·.1) := by
  rw [tables, List.map_map]
  rfl

theorem isOrderly_table (bin : Path) (toolchains : List Toolchain) :
    ∀ entry ∈ table bin toolchains, entry.2.IsOrderly 2 := by
  have hvalues : ∀ entry ∈ tables bin toolchains, entry.2.IsOrderly 1 := by
    refine List.forall_mem_map.mpr fun _ _ => .table_of_isFlat ?_ ?_
    · exact show ["ar", "linker"].Nodup by decide
    · exact List.forall_mem_cons.mpr ⟨.string _, List.forall_mem_singleton.mpr (.string _)⟩
  have hordered : (tables bin toolchains).IsOrdered := by
    refine Toml.Table.isOrdered_of_isSection ?_ (List.forall_mem_map.mpr fun _ _ => rfl)
    rw [map_fst_tables]
    exact (tools bin toolchains).nodup_names
  exact List.forall_mem_singleton.mpr (.table hordered hvalues)

theorem toList_block (bin : Path) (toolchains : List Toolchain) :
    (block bin toolchains).toList = '#' :: ("<RustJNI>".toList ++ '\n' :: '#' ::
      ("auto-generated code".toList ++ '\n' ::
        (Toml.writeStatements (table bin toolchains).statements ++
          '#' :: ("</RustJNI>".toList ++ ['\n'])))) := by
  simp only [block, String.toList_append, Toml.toList_write, List.append_assoc]
  rfl

/-- A block is read as the statements of the table in it. -/
theorem isReadAs_block (bin : Path) (toolchains : List Toolchain) :
    Toml.IsReadAs (block bin toolchains).toList (table bin toolchains).statements := by
  have hreadable : ∀ st ∈ (table bin toolchains).statements, st.IsReadable :=
    fun _ => Toml.isReadable_of_mem_statements (isOrderly_table bin toolchains) (by decide)
  -- read from its end: the closing marker, the table, and the two lines in front of it
  have hclosing : Toml.IsReadAs ('#' :: ("</RustJNI>".toList ++ ['\n'])) [] :=
    Toml.IsReadAs.nil.comment (by decide)
  have hopening := ((hclosing.writeStatements hreadable).comment
    (by decide : ∀ c ∈ "auto-generated code".toList, _)).comment
    (by decide : ∀ c ∈ "<RustJNI>".toList, _)
  rwa [← toList_block, List.append_nil] at hopening

/-- A block is read as the table in it. -/
theorem ofString?_block (bin : Path) (toolchains : List Toolchain) :
    Toml.ofString? (block bin toolchains) = some (table bin toolchains) := by
  have hordered : (table bin toolchains).IsOrdered :=
    Toml.Table.isOrdered_of_isSection (List.nodup_singleton "target")
      (List.forall_mem_singleton.mpr rfl)
  have hmark : Toml.skipMark (block bin toolchains).toList = (block bin toolchains).toList := by
    rw [toList_block]
    rfl
  rw [(isReadAs_block bin toolchains).ofString? hmark,
    Toml.assemble?_statements hordered (isOrderly_table bin toolchains)]

/-- The markers stand on lines of their own at both ends. -/
theorem exists_block_eq (bin : Path) (toolchains : List Toolchain) : ∃ body,
    block bin toolchains = blockOpening ++ "\n" ++ body ++ "\n" ++ blockClosing ++ "\n" := by
  obtain ⟨t, ht⟩ := Toml.exists_writeStatements_eq_concat (table bin toolchains).statements
  refine ⟨"#auto-generated code" ++ String.ofList t, String.toList_inj.mp ?_⟩
  have hline : "\n#auto-generated code\n".toList =
      '\n' :: "#auto-generated code".toList ++ ['\n'] :=
    rfl
  have hfeed : "\n".toList = ['\n'] := rfl
  simp only [block, String.toList_append, Toml.toList_write, hline, hfeed, String.toList_ofList]
  simp only [List.append_assoc, List.cons_append, List.nil_append, ht]

end Toolchain

/-! ## The linkers of a configuration -/

/-- A linker that is configured under a name of the target, or the development kit's if none is. -/
theorem linker_cases (a : Config.AndroidSection) (target : Target) :
    (∃ name, (name = target.triple ∨ name = target.abi) ∧
      (name, a.linker target) ∈ a.linkers.entries) ∨
    (∀ entry ∈ a.linkers.entries, entry.1 ≠ target.triple ∧ entry.1 ≠ target.abi) ∧
      a.linker target = defaultLinker target a.apiLevel := by
  rw [Config.AndroidSection.linker]
  split
  next name linker hfind =>
    have hname : Target.ofName? name = some target := by simpa using List.find?_some hfind
    exact .inl ⟨name, Target.ofName?_eq_some_iff.mp hname, List.mem_of_find?_eq_some hfind⟩
  next hnone =>
    refine .inr ⟨fun entry hentry => ?_, rfl⟩
    have hname : Target.ofName? entry.1 ≠ some target := by
      simpa using List.find?_eq_none.mp hnone entry hentry
    exact not_or.mp (mt Target.ofName?_eq_some_iff.mpr hname)

namespace Toolchain

/-- A block begins and ends with its markers, each on a line, and is read as the table of the
targets. It has a table for each target that some tools are for, with the paths of the archiver and
the linker of the last of them; a tool whose name is a path from the root keeps that path. If the
tools are those of a configuration, each of its targets has a table, with the linker that is
configured under a name of the target, or with the development kit's if none is. -/
theorem read_block (bin : Path) (toolchains : List Toolchain) :
    (∃ body, block bin toolchains =
      blockOpening ++ "\n" ++ body ++ "\n" ++ blockClosing ++ "\n") ∧
    (∀ name, Path.isAbsolute ⟨name⟩ = true → bin / name = ⟨name⟩) ∧
    ∃ T : Toml.Table, Toml.ofString? (block bin toolchains) = some [("target", .table T)] ∧
      (T.map (·.1)).Nodup ∧
      (∀ target : Target, target.triple ∈ T.map (·.1) ↔ target ∈ toolchains.map (·.target)) ∧
      (∀ name value, (name, value) ∈ T ↔ ∃ t, IsLast toolchains t ∧ name = t.target.triple ∧
        value = toolsTable bin t.ar t.linker) ∧
      ∀ a : Config.AndroidSection, toolchains = a.toolchains → ∀ target ∈ a.targets, ∃ linker,
        (target.triple, toolsTable bin a.ar linker) ∈ T ∧
        ((∃ name, (name = target.triple ∨ name = target.abi) ∧
          (name, linker) ∈ a.linkers.entries) ∨
        (∀ entry ∈ a.linkers.entries, entry.1 ≠ target.triple ∧ entry.1 ≠ target.abi) ∧
          linker = defaultLinker target a.apiLevel) := by
  refine ⟨exists_block_eq bin toolchains, fun name => Path.div_of_isAbsolute bin,
    tables bin toolchains, ofString?_block bin toolchains, ?_, fun target => ⟨?_, ?_⟩,
    fun _ _ => mem_tables_iff, ?_⟩
  · rw [map_fst_tables]
    exact (tools bin toolchains).nodup_names
  · intro h
    obtain ⟨⟨name, value⟩, hmem, hname⟩ := List.mem_map.mp h
    obtain ⟨t, hlast, rfl, -⟩ := mem_tables_iff.mp hmem
    exact List.mem_map.mpr ⟨t, hlast.mem, Target.triple_injective hname⟩
  · intro h
    obtain ⟨t, hlast, rfl⟩ := exists_isLast h
    exact List.mem_map.mpr ⟨_, mem_tables_iff.mpr ⟨t, hlast, rfl, rfl⟩, rfl⟩
  · rintro a rfl target htarget
    refine ⟨a.linker target, mem_tables_iff.mpr ?_, linker_cases a target⟩
    -- all tools of one target are alike, so the last ones are as good as any
    have hmem : target ∈ a.toolchains.map (·.target) := by
      rwa [Config.AndroidSection.toolchains, List.map_map, Function.comp_def, List.map_id']
    obtain ⟨t, hlast, rfl⟩ := exists_isLast hmem
    obtain ⟨target, -, rfl⟩ := List.mem_map.mp hlast.mem
    exact ⟨_, hlast, rfl, rfl⟩

/-- One target is listed twice, another has a linker under the name of its binary interface, and the
paths of the tools need quotes. -/
theorem read_block_two_targets :
    let a : Config.AndroidSection := {
      targets := [.aarch64, .armv7, .aarch64]
      apiLevel := 30
      ar := "/opt/it's \"ar\""
      linkers := .ofList [("armeabi-v7a", "ld#</RustJNI>")] }
    ∃ T : Toml.Table, Toml.ofString? (block ⟨"/n d k"⟩ a.toolchains) = some [("target", .table T)] ∧
      ("aarch64-linux-android",
        toolsTable ⟨"/n d k"⟩ "/opt/it's \"ar\"" "aarch64-linux-android30-clang") ∈ T ∧
      ("armv7-linux-androideabi",
        toolsTable ⟨"/n d k"⟩ "/opt/it's \"ar\"" "ld#</RustJNI>") ∈ T ∧
      (Path.mk "/n d k" / "/opt/it's \"ar\"").text = "/opt/it's \"ar\"" := by
  intro a
  obtain ⟨-, habsolute, T, hread, -, -, -, htargets⟩ := read_block ⟨"/n d k"⟩ a.toolchains
  refine ⟨T, hread, ?_, ?_, congrArg Path.text (habsolute _ (by decide +kernel))⟩
  · obtain ⟨linker, hmem, ⟨name, hname, hentry⟩ | ⟨-, hlinker⟩⟩ :=
      htargets a rfl .aarch64 (by decide)
    · have hnone : ∀ entry ∈ a.linkers.entries,
          ¬ (entry.1 = Target.aarch64.triple ∨ entry.1 = Target.aarch64.abi) := by
        decide +kernel
      exact absurd hname (hnone _ hentry)
    · have hdefault : defaultLinker .aarch64 a.apiLevel = "aarch64-linux-android30-clang" := by
        decide +kernel
      rwa [hlinker, hdefault] at hmem
  · obtain ⟨linker, hmem, ⟨name, -, hentry⟩ | ⟨hnone, -⟩⟩ := htargets a rfl .armv7 (by decide)
    · have hall : ∀ entry ∈ a.linkers.entries, entry.2 = "ld#</RustJNI>" := by decide +kernel
      obtain rfl : linker = "ld#</RustJNI>" := hall _ hentry
      exact hmem
    · have hmem : ("armeabi-v7a", "ld#</RustJNI>") ∈ a.linkers.entries := by decide +kernel
      exact absurd rfl (hnone _ hmem).2

end Toolchain

end Android

end JniLink
