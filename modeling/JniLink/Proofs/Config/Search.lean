import JniLink.Proofs.Config.Validity
import JniLink.Proofs.File.Path

/-!
# The configuration in force

A configuration file is looked for in a directory and in those above it. The nearest one decides alone:
what stands in it is what is answered, also if it cannot be read, and no file farther up is looked at.
Without any file the default configuration is in force. Whatever is answered is valid, and a valid
configuration declares its methods one by one.
-/

namespace JniLink.Config

/-! ## The nearest file -/

/-- A directory of a list has a configuration file, and none of those in front of it has one. -/
def IsNearest (s : System) (dirs : List Path) (dir : Path) : Prop :=
  ∃ below above, dirs = below ++ dir :: above ∧ s.contains (dir / fileName) = true ∧
    ∀ d ∈ below, s.contains (d / fileName) = false

/-- No directory of a list has a configuration file. -/
def HasNone (s : System) (dirs : List Path) : Prop :=
  ∀ dir ∈ dirs, s.contains (dir / fileName) = false

variable {s : System} {dirs : List Path}

theorem nearest?_eq_none (h : HasNone s dirs) : nearest? s dirs = none := by
  rw [nearest?, List.find?_map, List.find?_eq_none.mpr]
  · rfl
  · intro dir hdir
    rw [Function.comp_apply, h dir hdir]
    exact Bool.false_ne_true

theorem nearest?_eq_some {dir : Path} (h : IsNearest s dirs dir) :
    nearest? s dirs = some (dir / fileName) := by
  obtain ⟨below, above, rfl, hfile, hnone⟩ := h
  have hfind : (below ++ dir :: above).find? (s.contains ∘ (· / fileName)) = some dir :=
    List.find?_eq_some_iff_append.mpr
      ⟨hfile, below, above, rfl, fun d hd => (congrArg Bool.not (hnone d hd) :)⟩
  rw [nearest?, List.find?_map, hfind]
  rfl

/-- Going up from a directory ends at the nearest file or behind the last directory. -/
theorem exists_isNearest_or_hasNone (s : System) (dirs : List Path) :
    (∃ dir, IsNearest s dirs dir) ∨ HasNone s dirs := by
  induction dirs with
  | nil => exact .inr nofun
  | cons dir dirs ih =>
    cases hfile : s.contains (dir / fileName) with
    | true => exact .inl ⟨dir, [], dirs, rfl, hfile, nofun⟩
    | false =>
      rcases ih with ⟨d, below, above, rfl, hd, hnone⟩ | hnone
      · exact .inl ⟨d, dir :: below, above, rfl, hd, List.forall_mem_cons.mpr ⟨hfile, hnone⟩⟩
      · exact .inr (List.forall_mem_cons.mpr ⟨hfile, hnone⟩)

theorem find_of_isNearest {start dir : Path} (h : IsNearest s start.ancestors dir) :
    find s start = load s (dir / fileName) := by
  rw [find, nearest?_eq_some h]

theorem find_of_hasNone {start : Path} (h : HasNone s start.ancestors) : find s start = .ok {} := by
  rw [find, nearest?_eq_none h]

/-! ## What a valid configuration declares -/

/-- A declaration is that of a method in a host class, whose name may stand with slashes. -/
structure Method.IsDeclaredAs (host : String) (m : Method) (d : Declaration) : Prop where
  linkage : d.linkage = .jni
  owner : d.owner = some (Text.dotted host)
  name : d.name = m.name
  signature : Signature.ofDescriptor m.descriptor = .ok d.signature

theorem Method.isDeclaredAs_of_declaration {host : String} {m : Method} {d : Declaration}
    (h : m.declaration host = .ok d) : m.IsDeclaredAs host d := by
  unfold declaration at h
  split at h
  · cases h
  next signature hsignature =>
    cases h
    exact ⟨rfl, rfl, rfl, hsignature⟩

theorem isDeclaredAs_of_declarations {c : Config} {decls : List Declaration}
    (h : c.declarations = .ok decls) :
    List.Forall₂ (Method.IsDeclaredAs c.jni.host) c.jni.methods decls :=
  (forall₂_of_mapM_eq_ok h).imp fun _ _ => Method.isDeclaredAs_of_declaration

/-! ## The configuration in force -/

/-- The search for a configuration: the directories are those that are reached by taking parts off,
the nearest file decides, the default is in force exactly if there is no file or the nearest one says
the same, and every configuration that is found is valid and declares its methods. -/
theorem find_spec (s : System) (start : Path) :
    start.Ascends start.ancestors ∧
    ((∃ dir, IsNearest s start.ancestors dir ∧ find s start = load s (dir / fileName)) ∨
      HasNone s start.ancestors ∧ find s start = .ok {}) ∧
    (find s start = .ok {} ↔ HasNone s start.ancestors ∨
      ∃ dir, IsNearest s start.ancestors dir ∧ load s (dir / fileName) = .ok {}) ∧
    ∀ c, find s start = .ok c → c.validate = .ok () ∧ ∃ decls, c.declarations = .ok decls ∧
      List.Forall₂ (Method.IsDeclaredAs c.jni.host) c.jni.methods decls := by
  have hcases : (∃ dir, IsNearest s start.ancestors dir ∧ find s start = load s (dir / fileName)) ∨
      HasNone s start.ancestors ∧ find s start = .ok {} :=
    (exists_isNearest_or_hasNone s start.ancestors).imp
      (fun ⟨dir, h⟩ => ⟨dir, h, find_of_isNearest h⟩) fun h => ⟨h, find_of_hasNone h⟩
  refine ⟨start.ascends_ancestors, hcases, ⟨fun hdefault => ?_, ?_⟩, fun c hfind => ?_⟩
  · rcases hcases with ⟨dir, hnearest, hload⟩ | ⟨hnone, -⟩
    · exact .inr ⟨dir, hnearest, hload.symm.trans hdefault⟩
    · exact .inl hnone
  · rintro (hnone | ⟨dir, hnearest, hload⟩)
    · exact find_of_hasNone hnone
    · exact (find_of_isNearest hnearest).trans hload
  · have hvalid := validate_of_find hfind
    obtain ⟨-, decls, hdecls⟩ := of_validate hvalid
    exact ⟨hvalid, decls, hdecls, isDeclaredAs_of_declarations hdecls⟩

/-- A broken file in a directory hides a good one above it. -/
theorem find_spec_broken :
    let s : System := { (default : System) with
      files := ⟨[(["rustjni.toml"], .file (.bytes [])), (["a"], .directory),
        (["a", "rustjni.toml"], .file (.bytes [91])), (["a", "b"], .directory)]⟩ }
    IsNearest s (Path.mk "/a/b").ancestors ⟨"/a"⟩ ∧
      find s ⟨"/a/b"⟩ = .error (.document .syntaxError) ∧
      ∃ c, find s ⟨"/"⟩ = .ok c ∧ c.validate = .ok () := by
  intro s
  obtain ⟨-, -, -, hvalid⟩ := find_spec s ⟨"/"⟩
  have hfind : find s ⟨"/"⟩ = .ok {} := by decide +kernel
  exact ⟨⟨[⟨"/a/b"⟩], [⟨"/"⟩], by decide +kernel, by decide +kernel, by decide +kernel⟩,
    by decide +kernel, {}, hfind, (hvalid {} hfind).1⟩

end JniLink.Config
