import JniLink.Manifest.Basic
import JniLink.Proofs.Descriptor
import JniLink.Proofs.Lookup

/-!
# Declarations checked against manifests

A check reads the descriptor of the first entry for a symbol and compares signatures; what it reports
are texts. Both comparisons agree, since descriptors are read back exactly (`check_answers`).

A manifest that is made of declarations advertises each one under the symbol that is looked up first,
with a descriptor that is read back as its signature. What is listed first under a symbol decides, so
of several declarations with one such symbol those are accepted that have the signature of the first.
Overloaded methods are advertised under their short symbol like all others, and so only the one that
was added first is accepted there (`ofDeclarations_accepts`).
-/

namespace JniLink

/-- A signature that was read is the same as one that its descriptor spells if the texts are. -/
theorem Signature.eq_iff_of_ofDescriptor {text : String} {s s' : Signature}
    (h : ofDescriptor text = .ok s') (hs : ofDescriptor s.descriptor = .ok s) :
    s' = s ↔ text = s.descriptor := by
  have htext : s'.descriptor = text := (ofDescriptor_eq_ok_iff.mp h).2
  constructor
  · rintro rfl
    exact htext.symm
  · rintro rfl
    exact Except.ok.inj (h.symm.trans hs)

namespace Manifest

open Export

/-! ## What a check answers -/

/-- An entry lists a symbol, and none that stands before it does. -/
def IsFirstEntry (m : Manifest) (symbol : String) (entry : Export) : Prop :=
  ∃ before after, m.exports = before ++ entry :: after ∧ entry.symbol = symbol ∧
    ∀ other ∈ before, other.symbol ≠ symbol

section Check

variable {m : Manifest} {symbol : String} {entry : Export} {d : Declaration}

theorem find?_eq_some_iff : m.find? symbol = some entry ↔ m.IsFirstEntry symbol entry :=
  find?_eq_some_iff_first fun _ => decide_eq_true_iff

theorem find?_eq_none_iff : m.find? symbol = none ↔ ∀ entry ∈ m.exports, entry.symbol ≠ symbol := by
  simp only [find?, List.find?_eq_none, decide_eq_true_eq, ne_eq]

theorem check_of_find?_eq_none (h : m.find? symbol = none) : m.check d symbol = .ok () := by
  rw [check, h]

theorem check_of_unreadable (h : m.find? symbol = some entry) {e : DescriptorError}
    (he : Signature.ofDescriptor entry.descriptor = .error e) :
    m.check d symbol = .error (.manifest (.badExportOf symbol m.library e)) := by
  simp only [check, h, he]

theorem check_of_read (h : m.find? symbol = some entry) {signature : Signature}
    (hread : Signature.ofDescriptor entry.descriptor = .ok signature) :
    m.check d symbol = if signature = d.signature then .ok ()
      else .error (.mismatch d.qualifiedName d.signature.descriptor entry.descriptor) := by
  simp only [check, h, hread]

/-- The texts decide, although signatures are compared. -/
theorem check_of_read_text (h : m.find? symbol = some entry) {signature : Signature}
    (hread : Signature.ofDescriptor entry.descriptor = .ok signature)
    (hd : Signature.ofDescriptor d.signature.descriptor = .ok d.signature) :
    m.check d symbol = if entry.descriptor = d.signature.descriptor then .ok ()
      else .error (.mismatch d.qualifiedName d.signature.descriptor entry.descriptor) := by
  simp only [check_of_read h hread, Signature.eq_iff_of_ofDescriptor hread hd]

theorem check_eq_ok_iff (h : m.find? symbol = some entry)
    (hd : Signature.ofDescriptor d.signature.descriptor = .ok d.signature) :
    m.check d symbol = .ok () ↔ entry.descriptor = d.signature.descriptor := by
  cases hread : Signature.ofDescriptor entry.descriptor with
  | error e =>
    rw [check_of_unreadable h hread]
    refine iff_of_false nofun fun htext => ?_
    rw [htext, hd] at hread
    cases hread
  | ok signature =>
    rw [check_of_read_text h hread hd]
    by_cases htext : entry.descriptor = d.signature.descriptor
    · rw [if_pos htext]
      exact iff_of_true rfl htext
    · rw [if_neg htext]
      exact iff_of_false nofun htext

theorem check_eq_mismatch_iff (h : m.find? symbol = some entry)
    (hd : Signature.ofDescriptor d.signature.descriptor = .ok d.signature)
    (function declared exported : String) :
    m.check d symbol = .error (.mismatch function declared exported) ↔
      (∃ signature, Signature.ofDescriptor entry.descriptor = .ok signature) ∧
        declared ≠ exported ∧ function = d.qualifiedName ∧
        declared = d.signature.descriptor ∧ exported = entry.descriptor := by
  cases hread : Signature.ofDescriptor entry.descriptor with
  | error e =>
    rw [check_of_unreadable h hread]
    refine ⟨nofun, ?_⟩
    rintro ⟨⟨_, hok⟩, -⟩
    cases hok
  | ok signature =>
    rw [check_of_read_text h hread hd]
    by_cases htext : entry.descriptor = d.signature.descriptor
    · rw [if_pos htext]
      refine ⟨nofun, ?_⟩
      rintro ⟨-, hne, -, rfl, rfl⟩
      exact absurd htext.symm hne
    · rw [if_neg htext]
      constructor
      · intro hmismatch
        cases hmismatch
        exact ⟨⟨signature, rfl⟩, fun heq => htext heq.symm, rfl, rfl, rfl⟩
      · rintro ⟨-, -, rfl, rfl, rfl⟩
        rfl

theorem check_eq_manifest_iff (h : m.find? symbol = some entry) (fault : ManifestError) :
    m.check d symbol = .error (.manifest fault) ↔
      ∃ e, Signature.ofDescriptor entry.descriptor = .error e ∧
        fault = .badExportOf symbol m.library e := by
  cases hread : Signature.ofDescriptor entry.descriptor with
  | error e =>
    rw [check_of_unreadable h hread]
    constructor
    · intro hfault
      cases hfault
      exact ⟨e, rfl, rfl⟩
    · rintro ⟨_, herror, rfl⟩
      cases herror
      rfl
  | ok signature =>
    rw [check_of_read h hread]
    refine iff_of_false ?_ ?_
    · split
      · exact nofun
      · exact nofun
    · rintro ⟨_, herror, -⟩
      cases herror

end Check

/-- What a check answers for a declaration whose signature is read back. It succeeds if and only if
no entry lists the symbol, or the first one that does has the descriptor of the declaration. It
reports a mismatch if and only if that entry's descriptor can be read and is another text; it reports
both texts, so they differ. It reports a fault of the manifest if and only if that entry's descriptor
cannot be read, and then what is wrong with it. -/
theorem check_answers (m : Manifest) (symbol : String) {d : Declaration}
    (hd : Signature.ofDescriptor d.signature.descriptor = .ok d.signature) :
    (m.check d symbol = .ok () ↔ (∀ entry ∈ m.exports, entry.symbol ≠ symbol) ∨
      ∃ entry, m.IsFirstEntry symbol entry ∧ entry.descriptor = d.signature.descriptor) ∧
    (∀ function declared exported,
      m.check d symbol = .error (.mismatch function declared exported) ↔
        ∃ entry, m.IsFirstEntry symbol entry ∧
          (∃ signature, Signature.ofDescriptor entry.descriptor = .ok signature) ∧
          declared ≠ exported ∧ function = d.qualifiedName ∧
          declared = d.signature.descriptor ∧ exported = entry.descriptor) ∧
    ∀ fault, m.check d symbol = .error (.manifest fault) ↔
      ∃ entry, m.IsFirstEntry symbol entry ∧
        ∃ e, Signature.ofDescriptor entry.descriptor = .error e ∧
          fault = .badExportOf symbol m.library e := by
  simp only [← find?_eq_some_iff, ← find?_eq_none_iff]
  cases hfind : m.find? symbol with
  | none =>
    rw [check_of_find?_eq_none hfind]
    refine ⟨iff_of_true rfl (.inl rfl), fun _ _ _ => ⟨nofun, ?_⟩, fun _ => ⟨nofun, ?_⟩⟩
    · rintro ⟨_, hsome, -⟩
      cases hsome
    · rintro ⟨_, hsome, -⟩
      cases hsome
  | some entry =>
    simp only [reduceCtorEq, Option.some.injEq, exists_eq_left', false_or]
    exact ⟨check_eq_ok_iff hfind hd, check_eq_mismatch_iff hfind hd, check_eq_manifest_iff hfind⟩

/-- Overloads are told apart by the texts, and a descriptor that cannot be read is a fault of the
manifest; a later entry for the same symbol does not count. -/
theorem check_answers_three_entries :
    let d : Declaration := ⟨some "p/C", "f", ⟨[.array (.object "x/Y")], .void⟩, .jni⟩
    let entry (symbol descriptor : String) : Export := ⟨symbol, descriptor, none, none⟩
    let m : Manifest := ⟨"x", "1",
      [entry "a" "([Lx/Y;)V", entry "b" "(Lx/Y;)V", entry "c" "(Lx/Y)V", entry "b" "([Lx/Y;)V"]⟩
    m.check d "a" = .ok () ∧ m.check d "d" = .ok () ∧
      m.check d "b" = .error (.mismatch d.qualifiedName "([Lx/Y;)V" "(Lx/Y;)V") ∧
      ∃ e, m.check d "c" = .error (.manifest (.badExportOf "c" "x" e)) := by
  intro d entry m
  have hd : Signature.ofDescriptor d.signature.descriptor = .ok d.signature :=
    Signature.ofDescriptor_eq_ok_iff.mpr ⟨by decide, rfl⟩
  have htext : d.signature.descriptor = "([Lx/Y;)V" := by decide +kernel
  have hfirst : m.IsFirstEntry "a" (entry "a" "([Lx/Y;)V") := ⟨[], _, rfl, rfl, nofun⟩
  have hsecond : m.IsFirstEntry "b" (entry "b" "(Lx/Y;)V") :=
    ⟨[_], _, rfl, rfl, by simp [entry]⟩
  have hthird : m.IsFirstEntry "c" (entry "c" "(Lx/Y)V") := ⟨[_, _], _, rfl, rfl, by simp [entry]⟩
  have hread : Signature.ofDescriptor "(Lx/Y;)V" = .ok ⟨[.object "x/Y"], .void⟩ :=
    Signature.ofDescriptor_eq_ok_iff.mpr ⟨by decide, by decide +kernel⟩
  obtain ⟨e, he⟩ : ∃ e, Signature.ofDescriptor "(Lx/Y)V" = .error e := ⟨_, by cbv⟩
  refine ⟨(check_answers m "a" hd).1.mpr (.inr ⟨_, hfirst, htext.symm⟩), ?_, ?_, e, ?_⟩
  · exact (check_answers m "d" hd).1.mpr (.inl (by simp [m, entry]))
  · exact ((check_answers m "b" hd).2.1 _ _ _).mpr
      ⟨_, hsecond, ⟨_, hread⟩, by decide, rfl, htext.symm, rfl⟩
  · exact ((check_answers m "c" hd).2.2 _).mpr ⟨_, hthird, e, he, rfl⟩

/-- A manifest is valid if the descriptors of all entries can be read. -/
theorem validate_eq_ok_iff {m : Manifest} : m.validate = .ok () ↔
    ∀ entry ∈ m.exports, ∃ signature, Signature.ofDescriptor entry.descriptor = .ok signature := by
  obtain ⟨library, version, exports⟩ := m
  induction exports with
  | nil => exact iff_of_true rfl nofun
  | cons entry exports ih =>
    rw [List.forall_mem_cons, ← ih]
    simp only [validate, List.forM_eq_forM, List.forM_cons]
    cases hread : Signature.ofDescriptor entry.descriptor with
    | error e =>
      refine iff_of_false nofun ?_
      rintro ⟨⟨_, hok⟩, -⟩
      cases hok
    | ok signature => exact (and_iff_right ⟨signature, rfl⟩).symm

/-! ## Manifests made of declarations -/

/-- The manifest that advertises declarations, one added behind the other. -/
def ofDeclarations (library version : String) (decls : List Declaration) : Manifest :=
  decls.foldl add (empty library version)

theorem foldl_add (m : Manifest) (decls : List Declaration) :
    decls.foldl add m = { m with exports := m.exports ++ decls.map ofDeclaration } := by
  induction decls generalizing m with
  | nil => rw [List.map_nil, List.append_nil, List.foldl_nil]
  | cons d decls ih =>
    rw [List.foldl_cons, ih, add, List.append_assoc, List.map_cons, List.singleton_append]

theorem ofDeclarations_eq (library version : String) (decls : List Declaration) :
    ofDeclarations library version decls = ⟨library, version, decls.map ofDeclaration⟩ :=
  foldl_add (empty library version) decls

theorem find?_ofDeclarations (library version symbol : String) (decls : List Declaration) :
    (ofDeclarations library version decls).find? symbol =
      (decls.find? (·.mainSymbol = symbol)).map ofDeclaration := by
  rw [ofDeclarations_eq, find?, List.find?_map]
  rfl

section WellFormed

variable {decls : List Declaration} (h : ∀ d ∈ decls, d.signature.WellFormed)
include h

theorem validate_ofDeclarations (library version : String) :
    (ofDeclarations library version decls).validate = .ok () := by
  rw [ofDeclarations_eq]
  refine validate_eq_ok_iff.mpr fun entry hentry => ?_
  obtain ⟨d, hd, rfl⟩ := List.mem_map.mp hentry
  exact ⟨d.signature, Signature.ofDescriptor_eq_ok_iff.mpr ⟨h d hd, rfl⟩⟩

/-- The first declaration with the symbol decides. -/
theorem check_ofDeclarations (library version : String) {first d : Declaration}
    (hfirst : decls.find? (·.mainSymbol = d.mainSymbol) = some first) :
    (ofDeclarations library version decls).check d d.mainSymbol =
      if first.signature = d.signature then .ok ()
      else .error (.mismatch d.qualifiedName d.signature.descriptor first.signature.descriptor) := by
  have hread : Signature.ofDescriptor first.signature.descriptor = .ok first.signature :=
    Signature.ofDescriptor_eq_ok_iff.mpr ⟨h first (List.mem_of_find?_eq_some hfirst), rfl⟩
  have hentry : (ofDeclarations library version decls).find? d.mainSymbol =
      some (ofDeclaration first) := by
    rw [find?_ofDeclarations, hfirst, Option.map_some]
  exact check_of_read hentry hread

end WellFormed

/-- A manifest made of declarations is valid. It accepts a declaration under the symbol that it was
advertised under if the first declaration with that symbol has the same signature, and else reports
the two descriptors; so it accepts all of them exactly if no two have the symbol in common and differ
in their signatures. -/
theorem ofDeclarations_accepts (library version : String) {decls : List Declaration}
    (h : ∀ d ∈ decls, d.signature.WellFormed) :
    let m := ofDeclarations library version decls
    m.validate = .ok () ∧
    (∀ d ∈ decls, ∃ first, decls.find? (·.mainSymbol = d.mainSymbol) = some first ∧
      m.check d d.mainSymbol =
        if first.signature = d.signature then .ok ()
        else .error
          (.mismatch d.qualifiedName d.signature.descriptor first.signature.descriptor)) ∧
    ((∀ d ∈ decls, m.check d d.mainSymbol = .ok ()) ↔
      ∀ d ∈ decls, ∀ d' ∈ decls, d.mainSymbol = d'.mainSymbol → d.signature = d'.signature) := by
  intro m
  have hfirst : ∀ d ∈ decls, ∃ first, decls.find? (·.mainSymbol = d.mainSymbol) = some first ∧
      m.check d d.mainSymbol =
        if first.signature = d.signature then .ok ()
        else .error
          (.mismatch d.qualifiedName d.signature.descriptor first.signature.descriptor) := by
    intro d hd
    have hsome : (decls.find? (·.mainSymbol = d.mainSymbol)).isSome = true :=
      List.find?_isSome.mpr ⟨d, hd, by simp⟩
    obtain ⟨first, hfirst⟩ := Option.isSome_iff_exists.mp hsome
    exact ⟨first, hfirst, check_ofDeclarations h library version hfirst⟩
  refine ⟨validate_ofDeclarations h library version, hfirst, fun hall d hd d' hd' hsymbol => ?_,
    fun hall d hd => ?_⟩
  · -- both are accepted under one symbol, so both have the signature of the first entry
    have hsame {d : Declaration} (hd : d ∈ decls) {first : Declaration}
        (hfind : decls.find? (·.mainSymbol = d.mainSymbol) = some first) :
        first.signature = d.signature := by
      have hcheck := hall d hd
      rw [check_ofDeclarations h library version hfind] at hcheck
      split at hcheck
      next heq => exact heq
      next => cases hcheck
    obtain ⟨first, hfind, -⟩ := hfirst d hd
    rw [← hsame hd hfind, hsame hd' (hsymbol ▸ hfind)]
  · obtain ⟨first, hfind, hcheck⟩ := hfirst d hd
    have hsymbol : first.mainSymbol = d.mainSymbol := by
      simpa using List.find?_some hfind
    rw [hcheck, if_pos (hall first (List.mem_of_find?_eq_some hfind) d hd hsymbol)]

/-- A method and an exported function that is named like its symbol are accepted together. -/
theorem ofDeclarations_accepts_namesakes :
    let method : Declaration := ⟨some "p/C", "f", ⟨[.array .string], .void⟩, .jni⟩
    let function := Declaration.ofExport "Java_p_C_f" ⟨[.array .string], .void⟩
    let other := Declaration.ofExport "g" ⟨[], .object "x/Y"⟩
    let m := ofDeclarations "x" "1" [method, other, function]
    m.validate = .ok () ∧ m.check method "Java_p_C_f" = .ok () ∧
      m.check function "Java_p_C_f" = .ok () ∧ m.check other "g" = .ok () := by
  intro method function other m
  have hwell : ∀ d ∈ [method, other, function], d.signature.WellFormed := by decide +kernel
  have hsymbol : method.mainSymbol = "Java_p_C_f" := by decide +kernel
  obtain ⟨hvalid, -, haccepts⟩ := ofDeclarations_accepts "x" "1" hwell
  have hall := haccepts.mpr (by decide +kernel)
  have hmethod := hall method List.mem_cons_self
  rw [hsymbol] at hmethod
  exact ⟨hvalid, hmethod, hall function (by simp), hall other (by simp)⟩

/-- Of two overloaded methods the one that was added second is refused under its symbol. -/
theorem check_ofDeclarations_overloads :
    let f := Declaration.ofMethod "p.C" "f" ⟨[.primitive .int], .void⟩
    let f' := Declaration.ofMethod "p.C" "f" ⟨[.primitive .long], .void⟩
    f.signature.WellFormed ∧ f'.signature.WellFormed ∧ f.signature.params ≠ f'.signature.params ∧
      (ofDeclarations "x" "1" [f, f']).check f' f'.mainSymbol =
        .error (.mismatch "p.C.f" "(J)V" "(I)V") := by
  intro f f'
  have hwell : ∀ d ∈ [f, f'], d.signature.WellFormed := by decide +kernel
  have hfirst : [f, f'].find? (·.mainSymbol = f'.mainSymbol) = some f := by decide +kernel
  have hname : f'.qualifiedName = "p.C.f" := by decide +kernel
  have hdeclared : f'.signature.descriptor = "(J)V" := by decide +kernel
  have hexported : f.signature.descriptor = "(I)V" := by decide +kernel
  refine ⟨hwell f (by simp), hwell f' (by simp), by decide, ?_⟩
  rw [check_ofDeclarations hwell "x" "1" hfirst, if_neg (by decide), hname, hdeclared, hexported]

end Manifest

end JniLink
