import JniLink.Config.File
import JniLink.Proofs.File.Tree
import JniLink.Proofs.Text.NameMap
import JniLink.Proofs.Toml.Document

/-!
# The document of a configuration says all of it

A configuration is written as a table and read back field by field. Every field comes back as it was: one
that is always written, also when it has its default or is empty; one that is left out because nothing is
said, whose default is that nothing is said; targets by their triples; linkers in their order. So the
table is read as the configuration, and the document as the table.
-/

namespace JniLink

namespace Config

open JniLink.Android

/-! ## Reading what was written -/

theorem readPath_string (p : Path) : readPath (.string p.text) = .ok p := rfl

theorem readTarget_string (t : Target) : readTarget (.string t.triple) = .ok t := by
  cases t <;> decide +kernel

theorem readNumber_toNat (n : UInt32) : readNumber (.integer n.toNat) = .ok n := by
  have hlt := n.toNat_lt
  rw [readNumber, if_pos ⟨Int.natCast_nonneg _, hlt⟩]
  exact congrArg Except.ok (UInt32.ofNat_toNat)

theorem readMethod_table (m : Method) : readMethod m.table = .ok m := rfl

/-- A list is read back if its elements are. -/
theorem readList_map {α : Type} {read : Toml.Value → Reading α} {write : α → Toml.Value}
    (h : ∀ a, read (write a) = .ok a) (l : List α) :
    readList read (.array (l.map write)) = .ok l := by
  rw [readList]
  induction l with
  | nil => rfl
  | cons a l ih => rw [List.map_cons, List.mapM_cons, h, ih]; rfl

theorem readList_texts {α : Type} {read : Toml.Value → Reading α} {text : α → String}
    (h : ∀ a, read (.string (text a)) = .ok a) (l : List α) :
    readList read (texts (l.map text)) = .ok l := by
  rw [texts, List.map_map]
  exact readList_map h l

/-- A map is read back entry by entry, since its entries stand in their order. -/
theorem readMap_table (m : NameMap String) :
    readMap (.table (m.entries.map fun (name, text) => (name, .string text))) = .ok m := by
  have hfold (rest : List (String × String)) (read : NameMap String)
      (h : read.entries ++ rest = m.entries) :
      readRecord [] (fun m name value => (readText value).map (m.insert name)) read
        (.table (rest.map fun (name, text) => (name, .string text))) = .ok m := by
    induction rest generalizing read with
    | nil => exact congrArg Except.ok (NameMap.ext (by rw [← h, List.append_nil]))
    | cons entry rest ih =>
      obtain ⟨name, text⟩ := entry
      have hlt : ∀ entry ∈ read.entries, entry.1 < name := by
        have hascending := m.ascending
        rw [← h] at hascending
        exact fun entry hentry =>
          (List.pairwise_append.mp hascending).2.2 entry hentry (name, text) List.mem_cons_self
      have hinsert : (read.insert name text).entries = read.entries ++ [(name, text)] :=
        NameMap.insertEntry_of_forall_lt hlt
      refine ih (read.insert name text) ?_
      rw [hinsert, List.append_assoc]
      exact h
  exact hfold m.entries .empty rfl

/-! ## Sections -/

section Record

variable {α : Type} {names : List String} {set : α → String → Toml.Value → Reading α}
  {record record' : α} {name : String} {value : Toml.Value} {rest : Toml.Table}

/-- A record is read field by field. -/
theorem readRecord_cons (h : set record name value = .ok record') :
    readRecord names set record (.table ((name, value) :: rest)) =
      readRecord names set record' (.table rest) := by
  change (set record name value >>= fun record => readRecord names set record (.table rest)) = _
  rw [h]
  rfl

/-- A field that is left out if it has no value is read as it was, if it begins without a value. -/
theorem readRecord_optional (withText : Option String → α)
    (h : ∀ text, set (withText none) name (.string text) = .ok (withText (some text)))
    (text : Option String) :
    readRecord names set (withText none) (.table <| entry? name text ++ rest) =
      readRecord names set (withText text) (.table rest) := by
  cases text with
  | none => rfl
  | some text => exact readRecord_cons (h text)

theorem readRecord_nil : readRecord names set record (.table []) = .ok record := rfl

end Record

theorem map_mk_map_text (p : Option Path) : (p.map Path.text).map Path.mk = p := by
  cases p <;> rfl

theorem readRecord_library (l : LibrarySection) :
    readRecord libraryFields LibrarySection.set {} (.table l.table) = .ok l := by
  have hpaths (record : LibrarySection) :
      record.set "search_paths" (texts (l.searchPaths.map Path.text)) =
        .ok { record with searchPaths := l.searchPaths } := by
    rw [LibrarySection.set, readList_texts readPath_string]
    rfl
  have hstartup := @readRecord_optional _ libraryFields LibrarySection.set "startup_symbol" []
    (fun startupSymbol => { l with startupSymbol }) (fun _ => rfl) l.startupSymbol
  rw [List.append_nil] at hstartup
  rw [LibrarySection.table, List.cons_append, List.cons_append, List.nil_append,
    readRecord_cons rfl, readRecord_cons (hpaths _)]
  exact hstartup

theorem readRecord_host (h : HostSection) :
    readRecord hostFields HostSection.set {} (.table h.table) = .ok h := by
  have hmethods (record : HostSection) :
      record.set "methods" (.array (h.methods.map Method.table)) =
        .ok { record with methods := h.methods } := by
    rw [HostSection.set, readList_map readMethod_table]
    rfl
  rw [HostSection.table, readRecord_cons rfl, readRecord_cons (hmethods _), readRecord_nil]

theorem readRecord_android (a : AndroidSection) :
    readRecord androidFields AndroidSection.set {} (.table a.table) = .ok a := by
  have htargets (record : AndroidSection) :
      record.set "targets" (texts (a.targets.map Target.triple)) =
        .ok { record with targets := a.targets } := by
    rw [AndroidSection.set, readList_texts readTarget_string]
    rfl
  have hlevel (record : AndroidSection) :
      record.set "api_level" (.integer a.apiLevel.toNat) =
        .ok { record with apiLevel := a.apiLevel } := by
    rw [AndroidSection.set, readNumber_toNat]
    rfl
  have hlinkers (record : AndroidSection) :
      record.set "linkers"
          (.table (a.linkers.entries.map fun (name, linker) => (name, .string linker))) =
        .ok { record with linkers := a.linkers } := by
    rw [AndroidSection.set, readMap_table]
    rfl
  have hndk (text : Option String) (rest : Toml.Table) :=
    @readRecord_optional _ androidFields AndroidSection.set "ndk" rest
      (fun ndk => { targets := a.targets, jniLibs := a.jniLibs, ndk := ndk.map Path.mk })
      (fun _ => rfl) text
  have hprebuilt (rest : Toml.Table) :=
    @readRecord_optional _ androidFields AndroidSection.set "prebuilt" rest
      (fun prebuilt => { targets := a.targets, jniLibs := a.jniLibs, ndk := a.ndk, prebuilt })
      (fun _ => rfl) a.prebuilt
  simp only [AndroidSection.table, List.append_assoc, List.cons_append, List.nil_append]
  rw [readRecord_cons (htargets _), readRecord_cons rfl]
  refine (hndk _ _).trans ?_
  rw [map_mk_map_text]
  refine (hprebuilt _).trans ?_
  rw [readRecord_cons (hlevel _), readRecord_cons rfl]
  split
  next hempty =>
    -- nothing is written of linkers if there are none, and without a word of them there are none
    have hnone : a.linkers = .empty := NameMap.ext (List.isEmpty_iff.mp hempty)
    rw [readRecord_nil, ← hnone]
  next => rw [readRecord_cons (hlinkers _), readRecord_nil]

/-- The table of a configuration is read as the configuration. -/
theorem ofTable_table (c : Config) : ofTable c.table = .ok c := by
  have hlibrary (record : Config) : record.set "library" (.table c.library.table) =
      .ok { record with library := c.library } := by
    rw [set, readRecord_library]
    rfl
  have hhost (record : Config) : record.set "jni" (.table c.jni.table) =
      .ok { record with jni := c.jni } := by
    rw [set, readRecord_host]
    rfl
  have handroid (record : Config) : record.set "android" (.table c.android.table) =
      .ok { record with android := c.android } := by
    rw [set, readRecord_android]
    rfl
  rw [ofTable, table, readRecord_cons (hlibrary _), readRecord_cons (hhost _),
    readRecord_cons (handroid _), readRecord_cons rfl, readRecord_nil]

/-! ## The order of the table -/

open Toml (Value Table)

theorem isFlat_texts (items : List String) : (texts items).IsFlat := by
  refine .array fun v hv => ?_
  obtain ⟨text, -, rfl⟩ := List.mem_map.mp hv
  exact .string text

theorem isFlat_of_mem_optional {name : String} {text : Option String} {entry : String × Value}
    (h : entry ∈ entry? name text) : entry.2.IsFlat := by
  cases text with
  | none => cases h
  | some text =>
    rw [List.mem_singleton.mp h]
    exact Value.IsFlat.string text

theorem map_fst_optional (name : String) (text : Option String) :
    (List.map (·.1) <| entry? name text).Sublist [name] := by
  cases text with
  | none => exact List.nil_sublist _
  | some _ => exact List.Sublist.refl _

theorem isOrderly_methods (methods : List Method) :
    (Value.array (methods.map Method.table)).IsOrderly 1 := by
  let entries (m : Method) : Table :=
    [("name", .string m.name), ("descriptor", .string m.descriptor)]
  have hflat (m : Method) : ∀ entry ∈ entries m, entry.2.IsFlat :=
    List.forall_mem_cons.mpr ⟨.string _, List.forall_mem_singleton.mpr (.string _)⟩
  have hordered (m : Method) : (entries m).IsOrdered :=
    Table.isOrdered_of_isFlat (show ["name", "descriptor"].Nodup by decide) (hflat m)
  cases methods with
  | nil => exact .flat (.array fun _ h => nomatch h)
  | cons method methods =>
    have htables : (method :: methods).map Method.table =
        ((method :: methods).map entries).map .table := by
      rw [List.map_map]
      rfl
    rw [htables]
    refine .tables (List.cons_ne_nil _ _) ?_ ?_
    · exact List.forall_mem_map.mpr fun m _ => hordered m
    · exact List.forall_mem_map.mpr fun m _ entry hentry => .flat (hflat m entry hentry)

theorem isOrderly_library (l : LibrarySection) : (Value.table l.table).IsOrderly 2 := by
  have hnames : (l.table.map (·.1)).Sublist libraryFields := by
    rw [LibrarySection.table, List.map_append]
    exact (List.Sublist.refl ["name", "search_paths"]).append (map_fst_optional _ _)
  have hflat : ∀ entry ∈ l.table, entry.2.IsFlat := by
    refine List.forall_mem_append.mpr ⟨?_, fun _ => isFlat_of_mem_optional⟩
    exact List.forall_mem_cons.mpr
      ⟨.string _, List.forall_mem_singleton.mpr (isFlat_texts _)⟩
  exact .table_of_isFlat (hnames.nodup (by decide)) hflat

theorem isOrderly_host (h : HostSection) : (Value.table h.table).IsOrderly 2 := by
  refine @Value.IsOrderly.table_concat 1 [("host", .string h.host)]
    [("methods", .array (h.methods.map Method.table))] (show hostFields.Nodup by decide) ?_
    (Nat.le_refl 1) ?_
  · exact List.forall_mem_singleton.mpr (.string _)
  · exact List.forall_mem_singleton.mpr (isOrderly_methods _)

theorem isOrderly_linkers (linkers : NameMap String) :
    (Value.table (linkers.entries.map fun (name, linker) => (name, .string linker))).IsOrderly 1 := by
  have hflat : ∀ entry ∈ linkers.entries.map fun (name, linker) => (name, Value.string linker),
      entry.2.IsFlat :=
    List.forall_mem_map.mpr fun _ _ => .string _
  refine .table_of_isFlat ?_ hflat
  rw [List.map_map]
  exact linkers.nodup_names

theorem isOrderly_android (a : AndroidSection) : (Value.table a.table).IsOrderly 2 := by
  have hlevel : (Value.integer a.apiLevel.toNat).IsFlat := by
    have hlt := a.apiLevel.toNat_lt
    exact .scalar (.integer (by omega))
  have hnames : (a.table.map (·.1)).Sublist androidFields := by
    rw [AndroidSection.table, List.map_append, List.map_append, List.map_append, List.map_append]
    refine ((((List.Sublist.refl ["targets", "jni_libs"]).append (map_fst_optional _ _)).append
      (map_fst_optional _ _)).append (List.Sublist.refl ["api_level", "ar"])).append ?_
    split
    · exact List.nil_sublist _
    · exact List.Sublist.refl ["linkers"]
  refine Value.IsOrderly.table_concat (hnames.nodup (by decide)) ?_ ?_ ?_
  · simp only [List.forall_mem_append, List.forall_mem_cons]
    exact ⟨⟨⟨⟨isFlat_texts _, .string _, fun _ h => nomatch h⟩, fun _ => isFlat_of_mem_optional⟩,
      fun _ => isFlat_of_mem_optional⟩, hlevel, .string _, fun _ h => nomatch h⟩
  · split
    · exact Nat.zero_le 1
    · exact Nat.le_refl 1
  · split
    · exact fun _ h => nomatch h
    · exact List.forall_mem_singleton.mpr (isOrderly_linkers _)

/-- The table of a configuration is written in its order. -/
theorem isOrderly_of_mem_table (c : Config) : ∀ entry ∈ c.table, entry.2.IsOrderly 2 := by
  have hlog : (Value.table [("level", .string c.log.level)]).IsOrderly 2 := by
    refine .table_of_isFlat (show logFields.Nodup by decide) ?_
    exact List.forall_mem_singleton.mpr (.string _)
  simp only [table, List.forall_mem_cons]
  exact ⟨isOrderly_library _, isOrderly_host _, isOrderly_android _, hlog, fun _ h => nomatch h⟩

theorem isOrdered_table (c : Config) : c.table.IsOrdered :=
  Table.isOrdered_of_isSection (show ["library", "jni", "android", "log"].Nodup by decide)
    (by simp [table, Value.isSection])

/-- The document of a configuration is read as the configuration. -/
theorem ofDocument_document (c : Config) : ofDocument c.document = .ok c := by
  have hdepth : 2 < Toml.depthLimit := by decide
  rw [ofDocument, document,
    Toml.ofString?_write_of_isOrdered c.isOrdered_table c.isOrderly_of_mem_table hdepth]
  exact ofTable_table c

/-! ## Saving and loading -/

variable {s s' : System} {path : Path} {c : Config}

/-- A file is saved wherever a file may be written, whatever the configuration says. -/
theorem save_of_filePlace {place : Place} (h : s.files.filePlace s.workingPlace path = .ok place) :
    save s path c = .ok (s.withFiles (s.files.put place (.file
      (.bytes (Text.Utf8.encode c.document.toList))))) := by
  rw [save, FileTree.writeText, FileTree.write, h]

theorem save_of_fault {fault : FileFault}
    (h : s.files.filePlace s.workingPlace path = .error fault) :
    save s path c = .error (.files fault) := by
  rw [save, FileTree.writeText, FileTree.write, h]

theorem exists_filePlace_of_save (h : save s path c = .ok s') :
    ∃ place, s.files.filePlace s.workingPlace path = .ok place := by
  cases hplace : s.files.filePlace s.workingPlace path with
  | ok place => exact ⟨place, rfl⟩
  | error fault =>
    rw [save_of_fault hplace] at h
    cases h

/-- A saved configuration is loaded again if it is valid, and its conflict is told if it is not. -/
theorem load_of_save (h : save s path c = .ok s') : load s' path = c.validate.map fun _ => c := by
  obtain ⟨place, hplace⟩ := exists_filePlace_of_save h
  rw [save_of_filePlace hplace] at h
  cases h
  have hcontains := FileTree.contains_put_of_filePlace
    (.bytes (Text.Utf8.encode c.document.toList)) hplace
  have htext : (s.files.put place (.file (.bytes (Text.Utf8.encode c.document.toList)))).readText
      s.workingPlace path = .ok c.document :=
    FileTree.readText_writeText (by rw [FileTree.writeText, FileTree.write, hplace])
  simp only [load, System.contains, System.readText, System.withFiles, hcontains, htext,
    Bool.not_true, Bool.false_eq_true, if_false, ofDocument_document]
  cases c.validate <;> rfl

/-- Saving a valid configuration and loading it gives the same configuration. Nothing but the path and
the files decides whether it is saved. -/
theorem load_save (s : System) (path : Path) {c : Config} (hvalid : c.validate = .ok ()) :
    (∀ fault, s.files.filePlace s.workingPlace path = .error fault →
      save s path c = .error (.files fault)) ∧
    ∀ place, s.files.filePlace s.workingPlace path = .ok place →
      ∃ s', save s path c = .ok s' ∧ load s' path = .ok c := by
  refine ⟨fun fault => save_of_fault, fun place hplace => ?_⟩
  refine ⟨_, save_of_filePlace hplace, ?_⟩
  rw [load_of_save (save_of_filePlace hplace), hvalid]
  rfl

/-- Lists that are empty although their defaults are not, texts with quotes and line breaks, and a target
under both of its names. -/
theorem load_save_empty_lists :
    let c : Config := {
      library := { name := "native", searchPaths := [⟨"it's \"here\"\n"⟩], startupSymbol := some "" }
      jni := { host := " ", methods := [] }
      android := {
        targets := []
        jniLibs := ⟨"\\\t"⟩
        ndk := some ⟨"/opt/ndk"⟩
        apiLevel := 4294967295
        ar := "'''"
        linkers := .ofList [("arm64-v8a", "ld\r\n"), ("aarch64-linux-android", "")] }
      log := { level := "\x00" } }
    c.validate = .ok () ∧
      ∃ s', save default ⟨"/rustjni.toml"⟩ c = .ok s' ∧ load s' ⟨"/rustjni.toml"⟩ = .ok c := by
  intro c
  have hvalid : c.validate = .ok () := by decide +kernel
  exact ⟨hvalid,
    (load_save default ⟨"/rustjni.toml"⟩ hvalid).2 ["rustjni.toml"] (by decide +kernel)⟩

end Config

end JniLink
