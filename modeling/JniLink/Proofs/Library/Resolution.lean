import JniLink.Library.Loader
import JniLink.Proofs.Library.Opening
import JniLink.Proofs.Manifest
import Mathlib.Control.Monad.Basic

/-!
# What a declaration is resolved to

A library that was opened has a manifest in which every descriptor can be read, for opening it has
checked that. So a declaration is resolved in one of three ways: none of its symbols is exported, the
first exported one is listed with another signature, or that symbol is the answer. No fault of a
manifest, a symbol or a descriptor comes up any more.

The manifest is believed. Whether what is exported has the listed signature is not said.
-/

namespace JniLink

namespace Library

/-! ## Manifests of opened libraries -/

theorem validate_of_readManifest {name : String} {image : Image} {m : Manifest}
    (h : readManifest name image = .ok (some m)) : m.validate = .ok () := by
  unfold readManifest at h
  split at h
  · cases h
  · split at h
    · cases h
    · cases h
    next text _ =>
      cases hread : Manifest.ofText text with
      | error e =>
        rw [hread] at h
        cases h
      | ok read =>
        rw [hread] at h
        change (read.validate >>= fun _ => pure (some read)) = _ at h
        cases hvalid : read.validate with
        | error e =>
          rw [hvalid] at h
          cases h
        | ok =>
          rw [hvalid] at h
          cases h
          exact hvalid

theorem validate_of_openAt {s : System} {name : String} {path : Path} {searched : Bool}
    {l : Library} (h : openAt s name path searched = .ok l) {m : Manifest}
    (hm : l.manifest = some m) : m.validate = .ok () := by
  obtain ⟨_, _, _, _, -, -, hread, rfl⟩ := of_openAt h
  exact validate_of_readManifest (hread.trans (congrArg Except.ok hm))

/-- A manifest is the document that the library answers. -/
theorem readManifest_eq_ok {name : String} {image : Image} {bytes : List UInt8} {text : String}
    {m : Manifest} (hanswer : image.export? Manifest.symbol = some (some bytes))
    (htext : Text.Utf8.decode (bytes.takeWhile (· ≠ 0)) = .ok text)
    (hread : (Json.ofString? text).bind Manifest.ofJson? = some m) (hvalid : m.validate = .ok ()) :
    readManifest name image = .ok (some m) := by
  have hdecoded : readAnswer (some bytes) = .ok text := by
    rw [readAnswer, htext]
    rfl
  unfold readManifest
  simp only [hanswer, hdecoded, Manifest.ofText, hread]
  exact congrArg (· >>= fun _ => pure (some m)) hvalid

theorem openAt_eq_ok {s : System} {name text : String} {path : Path} {searched : Bool}
    {file : LinkedFile} {image : Image} {manifest : Option Manifest}
    (htext : path.linkerText = .ok text) (hlink : s.link text = .ok (file, image))
    (hmanifest : readManifest name image = .ok manifest) :
    openAt s name path searched = .ok ⟨s.opened, name, path, file, image, manifest⟩ := by
  unfold openAt
  simp only [htext, hlink, hmanifest]

/-! ## Symbols that are exported -/

/-- The library exports a symbol: it is a name that can be looked up, and one of the exported
ones. -/
def Exports (l : Library) (symbol : String) : Prop :=
  symbol ≠ "" ∧ '\x00' ∉ symbol.toList ∧ symbol ∈ l.image.exports.map (·.1)

theorem has_iff {l : Library} {symbol : String} : l.has symbol = true ↔ l.Exports symbol := by
  rw [has, Symbol.isUsable, Image.export?, Option.isSome_map, Bool.and_eq_true, Bool.and_eq_true,
    List.find?_isSome, Exports, List.mem_map, and_assoc]
  simp

/-- The symbol is exported and comes before all others of the declaration that are. -/
def IsFirstExport (l : Library) (d : Declaration) (symbol : String) : Prop :=
  ∃ before after, d.symbols = before ++ symbol :: after ∧ l.Exports symbol ∧
    ∀ other ∈ before, ¬ l.Exports other

theorem IsFirstExport.mem {l : Library} {d : Declaration} {symbol : String}
    (h : l.IsFirstExport d symbol) : symbol ∈ d.symbols ∧ l.Exports symbol := by
  obtain ⟨before, after, heq, hsymbol, -⟩ := h
  exact ⟨by rw [heq]; exact List.mem_append_right _ List.mem_cons_self, hsymbol⟩

theorem find?_has_eq_some_iff {l : Library} {d : Declaration} {symbol : String} :
    d.symbols.find? l.has = some symbol ↔ l.IsFirstExport d symbol :=
  find?_eq_some_iff_first fun _ => has_iff

theorem find?_has_eq_none_iff {l : Library} {d : Declaration} :
    d.symbols.find? l.has = none ↔ ∀ symbol ∈ d.symbols, ¬ l.Exports symbol := by
  simp only [List.find?_eq_none, has_iff]

/-! ## Resolution -/

/-- The first entry of the manifest for a symbol, and it spells another signature than the declared
one. -/
def Contradicts (l : Library) (d : Declaration) (symbol : String) (entry : Manifest.Export) : Prop :=
  ∃ m signature, l.manifest = some m ∧ m.find? symbol = some entry ∧
    Signature.ofDescriptor entry.descriptor = .ok signature ∧ signature ≠ d.signature

theorem Contradicts.entry_eq {l : Library} {d : Declaration} {symbol : String}
    {entry entry' : Manifest.Export} (h : l.Contradicts d symbol entry)
    (h' : l.Contradicts d symbol entry') : entry = entry' := by
  obtain ⟨m, -, hm, hentry, -⟩ := h
  obtain ⟨m', -, hm', hentry', -⟩ := h'
  cases hm.symm.trans hm'
  exact Option.some.inj (hentry.symm.trans hentry')

theorem resolve_of_find?_eq_none {l : Library} {d : Declaration}
    (h : d.symbols.find? l.has = none) :
    l.resolve d = .error (.unsatisfied d.text l.name d.symbols) := by
  rw [resolve, h]

section Opened

variable {s : System} {name : String} {path : Path} {searched : Bool} {l : Library}

theorem exists_signature (h : openAt s name path searched = .ok l) {m : Manifest}
    (hm : l.manifest = some m) {symbol : String} {entry : Manifest.Export}
    (hentry : m.find? symbol = some entry) :
    ∃ signature, Signature.ofDescriptor entry.descriptor = .ok signature :=
  Manifest.validate_eq_ok_iff.mp (validate_of_openAt h hm) entry (List.mem_of_find?_eq_some hentry)

/-- The first exported symbol is the answer, unless its entry contradicts the declaration. -/
theorem resolve_of_isFirstExport (h : openAt s name path searched = .ok l) {d : Declaration}
    {symbol : String} (hfirst : l.IsFirstExport d symbol) :
    (∃ entry, l.Contradicts d symbol entry ∧ l.resolve d =
      .error (.mismatch d.qualifiedName d.signature.descriptor entry.descriptor)) ∨
    (∀ entry, ¬ l.Contradicts d symbol entry) ∧ l.resolve d = .ok symbol := by
  simp only [resolve, find?_has_eq_some_iff.mpr hfirst]
  cases hm : l.manifest with
  | none =>
    refine .inr ⟨?_, rfl⟩
    rintro entry ⟨m, -, hsome, -⟩
    rw [hm] at hsome
    cases hsome
  | some m =>
    cases hentry : m.find? symbol with
    | none =>
      simp only [Manifest.check_of_find?_eq_none hentry]
      refine .inr ⟨?_, trivial⟩
      rintro entry ⟨m', -, hsome, hlisted, -⟩
      cases hm.symm.trans hsome
      rw [hentry] at hlisted
      cases hlisted
    | some entry =>
      obtain ⟨signature, hread⟩ := exists_signature h hm hentry
      simp only [Manifest.check_of_read hentry hread]
      by_cases heq : signature = d.signature
      · rw [if_pos heq]
        refine .inr ⟨?_, rfl⟩
        rintro other ⟨m', signature', hsome, hlisted, hother, hne⟩
        cases hm.symm.trans hsome
        cases hentry.symm.trans hlisted
        cases hread.symm.trans hother
        exact hne heq
      · rw [if_neg heq]
        exact .inl ⟨entry, ⟨m, signature, hm, hentry, hread, heq⟩, rfl⟩

/-- The three ways in which a declaration is resolved. -/
theorem resolve_cases (h : openAt s name path searched = .ok l) (d : Declaration) :
    (∀ symbol ∈ d.symbols, ¬ l.Exports symbol) ∧
      l.resolve d = .error (.unsatisfied d.text l.name d.symbols) ∨
    ∃ symbol, l.IsFirstExport d symbol ∧
      ((∃ entry, l.Contradicts d symbol entry ∧ l.resolve d =
        .error (.mismatch d.qualifiedName d.signature.descriptor entry.descriptor)) ∨
      (∀ entry, ¬ l.Contradicts d symbol entry) ∧ l.resolve d = .ok symbol) := by
  cases hfind : d.symbols.find? l.has with
  | none => exact .inl ⟨find?_has_eq_none_iff.mp hfind, resolve_of_find?_eq_none hfind⟩
  | some symbol =>
    have hfirst := find?_has_eq_some_iff.mp hfind
    exact .inr ⟨symbol, hfirst, resolve_of_isFirstExport h hfirst⟩

theorem resolve_eq_unsatisfied_iff (h : openAt s name path searched = .ok l) (d : Declaration)
    (function library : String) (tried : List String) :
    l.resolve d = .error (.unsatisfied function library tried) ↔
      (∀ symbol ∈ d.symbols, ¬ l.Exports symbol) ∧
        function = d.text ∧ library = l.name ∧ tried = d.symbols := by
  rcases resolve_cases h d with ⟨hnone, hresolve⟩ | ⟨symbol, hfirst, hsome⟩
  · rw [hresolve]
    constructor
    · intro heq
      cases heq
      exact ⟨hnone, rfl, rfl, rfl⟩
    · rintro ⟨-, rfl, rfl, rfl⟩
      rfl
  · have hexported : ¬ ∀ other ∈ d.symbols, ¬ l.Exports other :=
      fun hnone => hnone symbol hfirst.mem.1 hfirst.mem.2
    rcases hsome with ⟨entry, -, hresolve⟩ | ⟨-, hresolve⟩ <;> rw [hresolve]
    · exact ⟨nofun, fun hnone => absurd hnone.1 hexported⟩
    · exact ⟨nofun, fun hnone => absurd hnone.1 hexported⟩

theorem resolve_eq_mismatch_iff (h : openAt s name path searched = .ok l) {d : Declaration}
    {symbol : String} (hfirst : l.IsFirstExport d symbol) (function declared exported : String) :
    l.resolve d = .error (.mismatch function declared exported) ↔
      ∃ entry, l.Contradicts d symbol entry ∧ function = d.qualifiedName ∧
        declared = d.signature.descriptor ∧ exported = entry.descriptor := by
  rcases resolve_of_isFirstExport h hfirst with ⟨entry, hcontra, hresolve⟩ | ⟨hagree, hresolve⟩
  · rw [hresolve]
    constructor
    · intro heq
      cases heq
      exact ⟨entry, hcontra, rfl, rfl, rfl⟩
    · rintro ⟨entry', hcontra', rfl, rfl, rfl⟩
      rw [hcontra.entry_eq hcontra']
  · rw [hresolve]
    refine ⟨nofun, ?_⟩
    rintro ⟨entry, hcontra, -⟩
    exact absurd hcontra (hagree entry)

theorem resolve_eq_ok_iff (h : openAt s name path searched = .ok l) {d : Declaration}
    {symbol : String} (hfirst : l.IsFirstExport d symbol) (answer : String) :
    l.resolve d = .ok answer ↔ answer = symbol ∧ ∀ entry, ¬ l.Contradicts d symbol entry := by
  rcases resolve_of_isFirstExport h hfirst with ⟨entry, hcontra, hresolve⟩ | ⟨hagree, hresolve⟩
  · rw [hresolve]
    exact ⟨nofun, fun hanswer => absurd hcontra (hanswer.2 entry)⟩
  · rw [hresolve, Except.ok.injEq, eq_comm, iff_self_and]
    exact fun _ => hagree

theorem of_resolve_eq_error (h : openAt s name path searched = .ok l) {d : Declaration}
    {e : LinkError} (he : l.resolve d = .error e) :
    (∃ function library tried, e = .unsatisfied function library tried) ∨
      ∃ function declared exported, e = .mismatch function declared exported := by
  rcases resolve_cases h d with
    ⟨-, hresolve⟩ | ⟨symbol, -, ⟨entry, -, hresolve⟩ | ⟨-, hresolve⟩⟩
  · cases hresolve.symm.trans he
    exact .inl ⟨_, _, _, rfl⟩
  · cases hresolve.symm.trans he
    exact .inr ⟨_, _, _, rfl⟩
  · cases hresolve.symm.trans he

/-- A symbol that is answered is listed with the declared signature, if it is listed. -/
theorem signature_of_resolve_eq_ok (h : openAt s name path searched = .ok l) {d : Declaration}
    {symbol : String} (hresolve : l.resolve d = .ok symbol) {m : Manifest} {entry : Manifest.Export}
    (hm : l.manifest = some m) (hentry : m.find? symbol = some entry) :
    Signature.ofDescriptor entry.descriptor = .ok d.signature := by
  obtain ⟨signature, hread⟩ := exists_signature h hm hentry
  rcases resolve_cases h d with ⟨-, herror⟩ | ⟨first, -, ⟨entry', -, herror⟩ | ⟨hagree, hok⟩⟩
  · cases herror.symm.trans hresolve
  · cases herror.symm.trans hresolve
  · cases hok.symm.trans hresolve
    by_cases heq : signature = d.signature
    · rw [hread, heq]
    · exact absurd ⟨m, signature, hm, hentry, hread, heq⟩ (hagree entry)

/-- The outcomes of a resolution in a library that was opened. It is unsatisfied, with all symbols
that were tried, exactly if none of them is exported. Otherwise the first exported one decides: a
mismatch exactly if its entry in the manifest contradicts the declaration, and else that symbol.
There is no other fault, and what is answered is listed with the declared signature or not at all. -/
theorem resolve_outcomes (h : openAt s name path searched = .ok l) (d : Declaration) :
    (∀ function library tried, l.resolve d = .error (.unsatisfied function library tried) ↔
      (∀ symbol ∈ d.symbols, ¬ l.Exports symbol) ∧
        function = d.text ∧ library = l.name ∧ tried = d.symbols) ∧
    (∀ symbol, l.IsFirstExport d symbol →
      (∀ function declared exported,
        l.resolve d = .error (.mismatch function declared exported) ↔
          ∃ entry, l.Contradicts d symbol entry ∧ function = d.qualifiedName ∧
            declared = d.signature.descriptor ∧ exported = entry.descriptor) ∧
      ∀ answer, l.resolve d = .ok answer ↔
        answer = symbol ∧ ∀ entry, ¬ l.Contradicts d symbol entry) ∧
    (∀ e, l.resolve d = .error e →
      (∃ function library tried, e = .unsatisfied function library tried) ∨
        ∃ function declared exported, e = .mismatch function declared exported) ∧
    ∀ symbol m entry, l.resolve d = .ok symbol → l.manifest = some m →
      m.find? symbol = some entry → Signature.ofDescriptor entry.descriptor = .ok d.signature :=
  ⟨resolve_eq_unsatisfied_iff h d,
    fun _ hfirst => ⟨resolve_eq_mismatch_iff h hfirst, resolve_eq_ok_iff h hfirst⟩,
    fun _ he => of_resolve_eq_error h he,
    fun _ _ _ hresolve hm hentry => signature_of_resolve_eq_ok h hresolve hm hentry⟩

end Opened

/-- The manifest lists the long symbol of a method twice, and only that symbol is exported: the first
entry decides, and the same method with another result is a mismatch. -/
theorem resolve_outcomes_listed_twice :
    let document := "\x7b\"library\": \"x\", \"exports\": [" ++
      "\x7b\"symbol\": \"Java_a_B_f__I\", \"descriptor\": \"(I)I\"\x7d, " ++
      "\x7b\"symbol\": \"Java_a_B_f__I\", \"descriptor\": \"(J)V\"\x7d]\x7d"
    let image : Image := ⟨[("rustjni_abi_manifest", some document.toUTF8.data.toList),
      ("Java_a_B_f__I", none)]⟩
    let s : System := { (default : System) with
      files := ⟨[(["libs"], .directory), (["libs", "libx.so"], .file (.image image))]⟩ }
    let path : Path := ⟨"libs/libx.so"⟩
    let l : Library := ⟨0, path.text, path, ⟨["libs", "libx.so"], path⟩, image, some ⟨"x", "",
      [⟨"Java_a_B_f__I", "(I)I", none, none⟩, ⟨"Java_a_B_f__I", "(J)V", none, none⟩]⟩⟩
    let method (name : String) (ret : JvmType) := Declaration.ofMethod "a.B" name ⟨[.primitive .int], ret⟩
    openAt s path.text path false = .ok l ∧
      l.resolve (method "f" (.primitive .int)) = .ok "Java_a_B_f__I" ∧
      l.resolve (method "f" .void) = .error (.mismatch "a.B.f" "(I)V" "(I)I") ∧
      l.resolve (method "g" .void) = .error
        (.unsatisfied "a.B.g(I)V" "libs/libx.so" ["Java_a_B_g", "Java_a_B_g__I"]) := by
  intro document image s path l method
  have hdocument : (Json.ofString? document).bind Manifest.ofJson? = some ⟨"x", "",
      [⟨"Java_a_B_f__I", "(I)I", none, none⟩, ⟨"Java_a_B_f__I", "(J)V", none, none⟩]⟩ := by
    rw [Json.ofString?, ← String.length_toList, String.toList_append, String.toList_append,
      String.toList_ofList, String.toList_ofList, String.toList_ofList]
    decide +kernel
  have hanswer : image.export? Manifest.symbol = some (some document.toUTF8.data.toList) := by
    decide +kernel
  have htext : Text.Utf8.decode (document.toUTF8.data.toList.takeWhile (· ≠ 0)) = .ok document := by
    decide +kernel
  have hlink : path.linkerText = .ok path.text ∧ s.link path.text = .ok (l.file, image) := by
    decide +kernel
  have hopen : openAt s path.text path false = .ok l :=
    openAt_eq_ok hlink.1 hlink.2 (readManifest_eq_ok hanswer htext hdocument (by decide +kernel))
  have hlisted : l.manifest.bind (·.find? "Java_a_B_f__I") =
      some ⟨"Java_a_B_f__I", "(I)I", none, none⟩ := by decide +kernel
  have hread : Signature.ofDescriptor "(I)I" = .ok ⟨[.primitive .int], .primitive .int⟩ := by cbv
  refine ⟨hopen, ?_, ?_, ?_⟩
  · have hfirst : l.IsFirstExport (method "f" (.primitive .int)) "Java_a_B_f__I" :=
      find?_has_eq_some_iff.mp (by decide +kernel)
    refine (((resolve_outcomes hopen _).2.1 _ hfirst).2 _).mpr ⟨rfl, ?_⟩
    rintro entry ⟨m, signature, hm, hentry, hsignature, hne⟩
    rw [hm, Option.bind_some, hentry] at hlisted
    cases hlisted
    cases hread.symm.trans hsignature
    exact hne rfl
  · have hfirst : l.IsFirstExport (method "f" .void) "Java_a_B_f__I" :=
      find?_has_eq_some_iff.mp (by decide +kernel)
    refine (((resolve_outcomes hopen _).2.1 _ hfirst).1 _ _ _).mpr
      ⟨_, ⟨_, _, rfl, hlisted, hread, ?_⟩, ?_, ?_, rfl⟩
    · decide
    · decide +kernel
    · decide +kernel
  · refine ((resolve_outcomes hopen _).1 _ _ _).mpr ⟨?_, ?_, rfl, ?_⟩
    · rw [← find?_has_eq_none_iff]
      decide +kernel
    · decide +kernel
    · decide +kernel

end Library

end JniLink
