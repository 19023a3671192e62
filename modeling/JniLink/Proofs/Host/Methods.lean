import Mathlib.Control.Monad.Basic
import JniLink.Proofs.Host.Initializer

/-!
# The methods of a class are read back, or the class is refused

A class around generated declarations is read with exactly these methods, in order, or refused
because a class in them is not known. Three things have to be kept out for that: a nested class in a
result, a class with the name of a type that the language has without a package, and a library whose
name holds a declaration of its own. Of each there is a source that is read, and not as it was
written.
-/

namespace JniLink

open JniLink.Text JniLink.Host

namespace Host

/-! ## The line that opens a class -/

/-- A class with a body. -/
def classText (name body : String) : String :=
  "class " ++ name ++ " \x7b\n" ++ body ++ "\x7d\n"

theorem classHeader_append {before : Option Char} {name : List Char}
    (hb : before.any isWord = false) (hname : IsIdentifier name) (t : List Char) :
    classHeader before ("class ".toList ++ (name ++ ' ' :: t)) = some (name, ' ' :: t) := by
  have hcut : "class ".toList ++ (name ++ ' ' :: t) = "class".toList ++ ' ' :: (name ++ ' ' :: t) :=
    rfl
  have hkeyword := keyword?_append_space "class" hb (by decide)
    (isBlank_head?_append hname.isBlank hname.ne_nil (' ' :: t))
  rw [classHeader, hcut, hkeyword]
  simp only [Option.orElse_eq_orElse, Option.orElse_some, Option.bind_eq_bind, Option.bind_some]
  rw [identifier?_append_cons (by decide), identifier?_eq_some_self hname]
  rfl

/-- A word that begins a native function is followed by another word, not by a brace. -/
theorem native_eq_none_of_brace {s : List Char} (hs : ∀ c ∈ s, isBlank c = false)
    (language : Language) (before : Option Char) (t : List Char) :
    HostSource.native language before (s ++ ' ' :: '{' :: t) = none := by
  have hkeyword (word : String) (hword : ' ' ∉ word.toList) :
      keyword? word before (s ++ ' ' :: '{' :: t) = none ∨
        keyword? word before (s ++ ' ' :: '{' :: t) = some ('{' :: t) := by
    rw [keyword?]
    split
    · exact (wordAndBlanks?_append hs hword _).imp id fun h => h.2.2
    · exact .inl rfl
  cases language with
  | kotlin =>
    rw [HostSource.native, kotlinNative]
    rcases hkeyword "external" (by decide) with h | h
    · rw [h]
      rfl
    · rw [h]
      rfl
  | java =>
    have hmodifier : javaModifier? ('{' :: t) = none := rfl
    rw [HostSource.native, javaNative]
    rcases hkeyword "native" (by decide) with h | h
    · rw [h]
      rfl
    · rw [h, Option.bind_eq_bind, Option.bind_some, afterModifiers_of_eq_none hmodifier]
      rfl

theorem readsNothing_native_classLine {name : List Char} (hname : IsIdentifier name)
    (language : Language) (before : Option Char) (t : List Char) :
    ReadsNothing (HostSource.native language) before
      ("class ".toList ++ name ++ " \x7b\n".toList) t := by
  have hclass : Apart (nativeWord language) "class ".toList := by
    cases language <;> decide
  have hbrace : Apart (nativeWord language) " \x7b\n".toList := by
    cases language <;> decide
  rw [readsNothing_append_iff, readsNothing_append_iff]
  refine ⟨⟨readsNothing_native hclass _ _, ?_⟩, readsNothing_native hbrace _ _⟩
  rw [readsNothing_iff_forall]
  rintro front c rest rfl
  refine native_eq_none_of_brace (fun d hd => hname.isBlank d ?_) language _ ('\n' :: t)
  exact List.mem_append_right front hd

end Host

namespace HostSource

/-! ## What is made of the native functions -/

theorem methods_nativeOf {language : Language} {decls : List Declaration} (owner : String)
    (hd : ∀ d ∈ decls, d.Spellable)
    (hs : ∀ d ∈ decls, ∀ t ∈ d.signature.ret :: d.signature.params, t.ReadsBack language) :
    ReadsOr
      ((decls.map (nativeOf language)).mapM fun n => do
        return Declaration.ofMethod owner (String.ofList n.name) (← signature language n))
      (decls.map fun d => .ofMethod owner d.name d.signature)
      (∃ d ∈ decls, ∃ t ∈ d.signature.ret :: d.signature.params,
        ¬ t.AllNames (IsKnown language)) := by
  rw [List.mapM_map]
  refine readsOr_mapM fun d hmem => ?_
  have hnames := fun t ht => (hd d hmem).types t (List.mem_cons_of_mem d.signature.ret ht)
  refine (signature_nativeOf hnames (hs d hmem)).bind ?_
  rw [nativeOf, String.ofList_toList]
  exact readsOr_pure _ _

/-- A class whose native functions are those of some declarations is read with these methods, or
refused because a class in them is not known. -/
theorem ofCode_of_natives {language : Language} {code : List Char} {decls : List Declaration}
    {name rest owner : List Char}
    (hclass : firstMatch? classHeader none code = some (name, rest))
    (howner : (match firstMatch? packageLine none code with
      | some (package, _) => package ++ '.' :: name
      | none => name) = owner)
    (hnatives : allMatches (native language) none 0 code = decls.map (nativeOf language))
    (hd : ∀ d ∈ decls, d.Spellable)
    (hs : ∀ d ∈ decls, ∀ t ∈ d.signature.ret :: d.signature.params, t.ReadsBack language) :
    ReadsOr (ofCode language code)
      { language
        owner := String.ofList owner
        libraries := (allMatches libraryLoad none 0 code).map String.ofList
        methods := decls.map fun d => .ofMethod (String.ofList owner) d.name d.signature }
      (∃ d ∈ decls, ∃ t ∈ d.signature.ret :: d.signature.params,
        ¬ t.AllNames (IsKnown language)) := by
  subst howner
  rw [ofCode, hclass, hnatives]
  exact (methods_nativeOf _ hd hs).bind (readsOr_pure _ _)

end HostSource

namespace Host

/-! ## Generated declarations in a class -/

theorem toList_classText (name body : String) :
    (classText name body).toList =
      "class ".toList ++ name.toList ++ " \x7b\n".toList ++ body.toList ++ "\x7d\n".toList := by
  simp only [classText, String.toList_append]

theorem toList_declarations (library : String) (decls : List Declaration) (language : Language) :
    (declarations library decls language).toList =
      declarationLines language [] decls ++ (['\n'] ++ loadLines language library) :=
  String.toList_ofList

/-- There is no comment and no literal in a class up to the initializer. -/
theorem stripComments_classText {language : Language} {name : String} {decls : List Declaration}
    (hname : IsIdentifier name.toList) (hd : ∀ d ∈ decls, d.Spellable) (library : String) :
    stripComments (classText name (declarations library decls language)).toList =
      "class ".toList ++ name.toList ++ " \x7b\n".toList ++ (declarationLines language [] decls ++
        (['\n'] ++ stripComments (loadLines language library ++ "\x7d\n".toList))) := by
  have hlines := isPlain_of_mem_declarationLines language (by simp : ∀ c ∈ [], IsPlain c) hd
  have hplain : ∀ c ∈ "class ".toList ++ name.toList ++ " \x7b\n".toList ++
      (declarationLines language [] decls ++ ['\n']), IsPlain c := by
    simp only [List.forall_mem_append]
    exact ⟨⟨⟨by decide, isPlain_of_isIdentifier hname⟩, by decide⟩, hlines, by decide⟩
  have htext : (classText name (declarations library decls language)).toList =
      "class ".toList ++ name.toList ++ " \x7b\n".toList ++ (declarationLines language [] decls ++
        ['\n']) ++ (loadLines language library ++ "\x7d\n".toList) := by
    rw [toList_classText, toList_declarations]
    simp only [List.append_assoc]
  rw [htext, stripComments, stripFrom_code_append hplain, ← stripComments]
  simp only [List.append_assoc]

theorem head?_trimStart_loadLines (language : Language) (library : String) (t : List Char) :
    (trimStart (['\n'] ++ stripComments (loadLines language library ++ t))).head? ≠ some ':' := by
  have hplain := isPlain_of_mem_beforeLoad language (by simp : ∀ c ∈ [], IsPlain c)
  rw [loadLines_eq, loadText, List.append_assoc, List.append_assoc, stripComments,
    stripFrom_code_append hplain]
  exact head?_trimStart_beforeLoad (by simp) language _

end Host

namespace HostSource

theorem allMatches_native_classText {language : Language} {name library : String}
    {decls : List Declaration} (hname : IsIdentifier name.toList) (hd : ∀ d ∈ decls, d.Spellable)
    (hsilent : Silent language library) :
    allMatches (native language) none 0
        (stripComments (classText name (declarations library decls language)).toList) =
      decls.map (nativeOf language) := by
  have hindent : ∀ c ∈ ([] : List Char), isBlank c = true := by simp
  have hfeed : Apart (nativeWord language) ['\n'] := apart_nativeWord_of_blank (by decide) language
  have hlast : lastOr none ("class ".toList ++ name.toList ++ " \x7b\n".toList) = some '\n' := by
    rw [lastOr_append]
    rfl
  rw [stripComments_classText hname hd, allMatches_append (readsNothing_native_classLine hname _ _ _),
    hlast, allMatches_declarationLines hd hindent (head?_trimStart_loadLines _ _ _),
    allMatches_append (readsNothing_native hfeed _ _), lastOr_cons, lastOr_nil, hsilent,
    List.append_nil]

/-- A class around generated declarations is read with exactly these methods, or refused because a
class in them is not known. Left out are nested classes in a result type, classes whose spelling
stands for another type, and libraries whose names declare native functions. -/
theorem ofText_declarations {language : Language} {name library : String} {decls : List Declaration}
    (hname : IsIdentifier name.toList) (hd : ∀ d ∈ decls, d.Spellable)
    (hs : ∀ d ∈ decls, ∀ t ∈ d.signature.ret :: d.signature.params,
      t.AllNames (· ∉ shadowedNames language))
    (hsilent : Silent language library) :
    ((∃ e, ofText language (classText name (declarations library decls language)) = .error e) ∧
      ∃ d ∈ decls, ∃ t ∈ d.signature.ret :: d.signature.params, ¬ t.AllNames (IsKnown language)) ∨
    ∃ src, ofText language (classText name (declarations library decls language)) = .ok src ∧
      src.methods = decls.map fun d => .ofMethod src.owner d.name d.signature := by
  have hclass : ∃ rest, firstMatch? classHeader none
      (stripComments (classText name (declarations library decls language)).toList) =
        some (name.toList, rest) := by
    rw [stripComments_classText hname hd, List.append_assoc, List.append_assoc]
    exact ⟨_, firstMatch?_of_eq_some (classHeader_append rfl hname _)⟩
  have hnatives := allMatches_native_classText hname hd hsilent
  have hreads : ∀ d ∈ decls, ∀ t ∈ d.signature.ret :: d.signature.params, t.ReadsBack language :=
    fun d hmem t ht => JvmType.readsBack (((hd d hmem).types t ht).and (hs d hmem t ht))
  obtain ⟨rest, hclass⟩ := hclass
  rcases ofCode_of_natives hclass rfl hnatives hd hreads with hok | herror
  · exact .inr ⟨_, hok, rfl⟩
  · exact .inl herror

/-- Nested classes are read among the parameters, and a library may be named by any words. -/
theorem ofText_declarations_nested_parameter :
    ∃ src, ofText .kotlin (classText "C" (declarations "fun x: external native"
        [.ofMethod "C" "f" ⟨[.object "a/B$C", .array (.primitive .int)], .array (.object "a/B")⟩]
        .kotlin)) = .ok src ∧
      src.methods = [.ofMethod src.owner "f"
        ⟨[.object "a/B$C", .array (.primitive .int)], .array (.object "a/B")⟩] := by
  let d := Declaration.ofMethod "C" "f"
    ⟨[.object "a/B$C", .array (.primitive .int)], .array (.object "a/B")⟩
  have hd : ∀ d' ∈ [d], d'.Spellable := by decide +kernel
  have hs : ∀ d' ∈ [d], ∀ t ∈ d'.signature.ret :: d'.signature.params,
      t.AllNames (· ∉ shadowedNames .kotlin) := by
    decide +kernel
  have hknown : ¬ ∃ d' ∈ [d], ∃ t ∈ d'.signature.ret :: d'.signature.params,
      ¬ t.AllNames (IsKnown .kotlin) := by
    decide +kernel
  have hsilent : Silent .kotlin "fun x: external native" := silent_of_notMem (by decide) _
  rcases ofText_declarations (by decide : IsIdentifier "C".toList) hd hs hsilent with
    ⟨-, hunknown⟩ | hread
  · exact absurd hunknown hknown
  · exact hread

/-- A dollar sign ends the result type in Kotlin, so another class is read, and in Java it keeps the
whole function from being read. -/
theorem ofText_declarations_nested_result :
    IsBinaryName "a/B$C" ∧
      ofText .kotlin (classText "C"
          (declarations "x" [.ofMethod "C" "f" ⟨[], .object "a/B$C"⟩] .kotlin)) =
        .ok ⟨.kotlin, "C", ["x"], [.ofMethod "C" "f" ⟨[], .object "a/B"⟩]⟩ ∧
      ofText .java (classText "C"
          (declarations "x" [.ofMethod "C" "f" ⟨[], .object "a/B$C"⟩] .java)) =
        .ok ⟨.java, "C", ["x"], []⟩ := by
  refine ⟨by decide, ?_, ?_⟩
  · rw [ofText, toList_classText, toList_declarations]
    decide +kernel
  · rw [ofText, toList_classText, toList_declarations]
    decide +kernel

/-- A class without a package may be spelled like a primitive type. -/
example : ofText .kotlin (classText "C"
      (declarations "x" [.ofMethod "C" "f" ⟨[.object "Int"], .void⟩] .kotlin)) =
    .ok ⟨.kotlin, "C", ["x"], [.ofMethod "C" "f" ⟨[.primitive .int], .void⟩]⟩ := by
  rw [ofText, toList_classText, toList_declarations]
  decide +kernel

end HostSource

end JniLink
