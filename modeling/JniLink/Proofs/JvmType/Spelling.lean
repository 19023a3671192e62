import JniLink.JvmType.Spelling
import JniLink.Proofs.Text.Match
import JniLink.Proofs.Text.Word

/-!
# Type spellings are read back, or not at all

What a language makes of the spelling of a type is that type or nothing, as long as no class of the
type has the name of a type that the language has without a package. It is the type exactly if every
class has a package, and Java knows those of `java.lang` without it.

Nothing is said of spellings that are written for no type: a question mark, dots behind a type, a
box inside Kotlin's angle brackets.
-/

namespace JniLink

open JniLink.Text

namespace Primitive

/-- The name of the box without its package. -/
def boxSimpleName : Primitive → String
  | boolean => "Boolean" | byte => "Byte" | char => "Character" | short => "Short"
  | int => "Integer" | long => "Long" | float => "Float" | double => "Double"

theorem boxName_eq (p : Primitive) : p.boxName = "java/lang/" ++ p.boxSimpleName := by
  cases p <;> rfl

end Primitive

/-! ## Names of classes -/

/-- A binary class name: parts between slashes, none of them empty, of word characters and dollar
signs. -/
def IsBinaryName (name : String) : Prop :=
  ∀ part ∈ splitWhere (· == '/') name.toList, part ≠ [] ∧ ∀ c ∈ part, isWord c = true ∨ c = '$'

/-- A character of a class name in dotted form. -/
def IsNameChar (c : Char) : Prop :=
  isWord c = true ∨ c = '$' ∨ c = '.'

theorem IsNameChar.isBlank {c : Char} (h : IsNameChar c) : isBlank c = false := by
  rcases h with hword | rfl | rfl
  · exact isBlank_of_isWord hword
  · rfl
  · rfl

theorem IsNameChar.ne {c d : Char} (h : IsNameChar c) (hword : isWord d = false) (hdollar : d ≠ '$')
    (hdot : d ≠ '.') : c ≠ d := by
  rintro rfl
  rcases h with h | h | h
  · rw [hword] at h
    cases h
  · exact hdollar h
  · exact hdot h

instance decidableIsBinaryName (name : String) : Decidable (IsBinaryName name) :=
  inferInstanceAs (Decidable (∀ part ∈ _, _ ∧ ∀ c ∈ part, _))

/-- The names of types that a language has without a package. -/
def builtinNames : Language → List String
  | .kotlin =>
    "Unit" :: "String" :: "Any" ::
      Primitive.all.flatMap fun p => [p.kotlinName, p.kotlinName ++ "Array"]
  | .java =>
    "void" :: "String" :: "Object" :: Primitive.all.flatMap fun p => [p.javaName, p.boxSimpleName]

theorem Primitive.kotlinName_mem_builtinNames (p : Primitive) :
    p.kotlinName ∈ builtinNames .kotlin := by
  cases p <;> decide

theorem Primitive.kotlinArray_mem_builtinNames (p : Primitive) :
    p.kotlinName ++ "Array" ∈ builtinNames .kotlin := by
  cases p <;> decide

theorem Primitive.javaName_mem_builtinNames (p : Primitive) : p.javaName ∈ builtinNames .java := by
  cases p <;> decide

/-- The names of classes whose spelling stands for another type. In Java a keyword in `java.lang` is
one of them, because that package is left out. -/
def shadowedNames : Language → List String
  | .kotlin => builtinNames .kotlin
  | .java =>
    builtinNames .java ++ ("void" :: Primitive.all.map Primitive.javaName).map ("java/lang/" ++ ·)

/-- The classes of `java.lang` that Java's reader knows. -/
def javaLangNames : List String :=
  "String" :: "Object" :: Primitive.all.map Primitive.boxSimpleName

/-- A class that the reader of a language knows by its spelling. -/
def IsKnown : Language → String → Prop
  | .kotlin, name => '/' ∈ name.toList
  | .java, name =>
    '/' ∈ name.toList ∧ ∀ simple ∈ JvmType.javaLangName? name, simple ∈ javaLangNames

instance decidableIsKnown : (language : Language) → (name : String) →
    Decidable (IsKnown language name)
  | .kotlin, _ => inferInstanceAs (Decidable (_ ∈ _))
  | .java, _ => inferInstanceAs (Decidable (_ ∧ ∀ simple ∈ _, _))

theorem notMem_shadowedNames {language : Language} {name : String} (h : IsKnown language name) :
    name ∉ shadowedNames language := by
  have hnone : ∀ name ∈ shadowedNames language, ¬ IsKnown language name := by
    cases language <;> decide +kernel
  exact fun hmem => hnone name hmem h

theorem isWord_of_mem_builtinNames {language : Language} {name : String}
    (h : name ∈ builtinNames language) {c : Char} (hc : c ∈ name.toList) : isWord c = true := by
  have hall : ∀ name ∈ builtinNames language, ∀ c ∈ name.toList, isWord c = true := by
    cases language <;> decide +kernel
  exact hall name h c hc

theorem notMem_builtinNames {language : Language} {name : String} (h : '.' ∈ name.toList) :
    name ∉ builtinNames language :=
  fun hmem => absurd (isWord_of_mem_builtinNames hmem h) (by decide)

namespace IsBinaryName

variable {name : String}

theorem of_mem (h : IsBinaryName name) {c : Char} (hc : c ∈ name.toList) :
    isWord c = true ∨ c = '$' ∨ c = '/' := by
  rcases mem_splitWhere (· == '/') hc with hslash | ⟨part, hpart, hmem⟩
  · exact .inr (.inr (eq_of_beq hslash))
  · exact ((h part hpart).2 c hmem).imp id .inl

theorem dot_notMem (h : IsBinaryName name) : '.' ∉ name.toList := by
  intro hdot
  rcases h.of_mem hdot with hword | hdollar | hslash
  · exact absurd hword (by decide)
  · cases hdollar
  · cases hslash

theorem forall_mem (h : IsBinaryName name) : ∀ c ∈ name.toList, c = '/' ∨ IsNameChar c := by
  intro c hc
  rcases h.of_mem hc with hword | hdollar | hslash
  · exact .inr (.inl hword)
  · exact .inr (.inr (.inl hdollar))
  · exact .inl hslash

end IsBinaryName

namespace JvmType

theorem dotted_eq_self {name : String} (h : '/' ∉ name.toList) : dotted name = name := by
  rw [dotted, List.map_congr_left (g := id) fun c hc => ?_, List.map_id, String.ofList_toList]
  rw [if_neg (ne_of_mem_of_not_mem hc h), id]

theorem dot_mem_dotted {name : String} (h : '/' ∈ name.toList) :
    '.' ∈ (dotted name).toList := by
  rw [dotted, String.toList_ofList]
  exact List.mem_map.mpr ⟨'/', h, rfl⟩

/-- The slashes are put back into a name that has no dots of its own. -/
theorem ofClassName_dotted {name : String} (h : '.' ∉ name.toList) :
    ofClassName (dotted name) = .object name := by
  rw [ofClassName, dotted, String.toList_ofList, List.map_map,
    List.map_congr_left (g := id) fun c hc => ?_, List.map_id, String.ofList_toList]
  have hdot : c ≠ '.' := ne_of_mem_of_not_mem hc h
  by_cases hslash : c = '/' <;> simp [hslash, hdot]

theorem ofQualified?_dotted {name : String} (h : IsBinaryName name) :
    ofQualified? (dotted name).toList =
      if '/' ∈ name.toList then some (.object name) else none := by
  rw [ofQualified?]
  by_cases hslash : '/' ∈ name.toList
  · rw [if_pos (dot_mem_dotted hslash), if_pos hslash, String.ofList_toList,
      ofClassName_dotted h.dot_notMem]
  · rw [dotted_eq_self hslash, if_neg h.dot_notMem, if_neg hslash]

theorem javaLangName?_eq_some_iff {name simple : String} :
    javaLangName? name = some simple ↔ name = "java/lang/" ++ simple ∧ '/' ∉ simple.toList := by
  have hcut : stripStart? "java/lang/".toList name.toList = some simple.toList ↔
      name = "java/lang/" ++ simple := by
    rw [stripStart?_eq_some_iff, ← String.toList_append, String.toList_inj]
  rw [← hcut, javaLangName?]
  cases stripStart? "java/lang/".toList name.toList with
  | none => simp
  | some rest =>
    by_cases hslash : '/' ∈ rest
    · simp only [if_pos hslash, reduceCtorEq, Option.some.injEq, false_iff]
      rintro ⟨rfl, hnot⟩
      exact hnot hslash
    · simp only [if_neg hslash, Option.some.injEq, ← String.toList_inj, String.toList_ofList]
      exact ⟨fun h => ⟨h, h ▸ hslash⟩, And.left⟩

/-- Whether a type names only classes of a kind. -/
def AllNames (p : String → Prop) : JvmType → Prop
  | .object name => p name
  | .array element => element.AllNames p
  | .void | .primitive _ => True

instance decidableAllNames (p : String → Prop) [DecidablePred p] :
    (t : JvmType) → Decidable (t.AllNames p)
  | .object name => inferInstanceAs (Decidable (p name))
  | .array element => decidableAllNames p element
  | .void | .primitive _ => .isTrue trivial

theorem allNames_of_forall {p : String → Prop} (h : ∀ name, p name) (t : JvmType) :
    t.AllNames p := by
  induction t with
  | object name => exact h name
  | array element ih => exact ih
  | void => trivial
  | primitive q => trivial

theorem AllNames.imp {p q : String → Prop} {t : JvmType} (h : t.AllNames p)
    (himp : ∀ name, p name → q name) : t.AllNames q := by
  induction t with
  | object name => exact himp name h
  | array element ih => exact ih h
  | _ => trivial

theorem AllNames.and {p q : String → Prop} {t : JvmType} (hp : t.AllNames p) (hq : t.AllNames q) :
    t.AllNames fun name => p name ∧ q name := by
  induction t with
  | object name => exact ⟨hp, hq⟩
  | array element ih => exact ih hp hq
  | _ => trivial

/-! ## Names without arguments -/

theorem ofKotlinName?_of_notMem {name : List Char} (h : String.ofList name ∉ builtinNames .kotlin) :
    ofKotlinName? name = ofQualified? name := by
  simp only [builtinNames, List.mem_cons, List.mem_flatMap, List.not_mem_nil, or_false, not_or,
    not_exists, not_and] at h
  obtain ⟨hunit, hstring, hany, hprimitive⟩ := h
  have hplain : Primitive.ofKotlin? (String.ofList name) = none :=
    List.find?_eq_none.mpr fun p hp heq => (hprimitive p hp).1 (eq_of_beq heq).symm
  have harray : Primitive.ofKotlinArray? (String.ofList name) = none :=
    List.find?_eq_none.mpr fun p hp heq => (hprimitive p hp).2 (eq_of_beq heq).symm
  simp only [ofKotlinName?, if_neg hunit, if_neg hstring, if_neg hany, hplain, harray]

theorem ofJavaName?_of_notMem {name : List Char} (h : String.ofList name ∉ builtinNames .java) :
    ofJavaName? name = ofQualified? name := by
  simp only [builtinNames, List.mem_cons, List.mem_flatMap, List.not_mem_nil, or_false, not_or,
    not_exists, not_and] at h
  obtain ⟨hvoid, hstring, hobject, hprimitive⟩ := h
  have hplain : Primitive.ofJava? (String.ofList name) = none :=
    List.find?_eq_none.mpr fun p hp heq => (hprimitive p hp).1 (eq_of_beq heq).symm
  have hbox : Primitive.ofBox? (String.ofList name) = none := by
    refine List.find?_eq_none.mpr fun p hp heq => (hprimitive p hp).2 ?_
    have hname := eq_of_beq heq
    rw [p.boxName_eq, String.append_right_inj] at hname
    exact hname.symm
  simp only [ofJavaName?, if_neg hvoid, if_neg hstring, if_neg hobject, hplain, hbox]

@[simp] theorem ofKotlinName?_kotlinName (p : Primitive) :
    ofKotlinName? p.kotlinName.toList = some (.primitive p) := by
  cases p <;> rfl

@[simp] theorem ofKotlinName?_kotlinName_array (p : Primitive) :
    ofKotlinName? (p.kotlinName ++ "Array").toList = some (.array (.primitive p)) := by
  cases p <;> rfl

@[simp] theorem ofJavaName?_javaName (p : Primitive) :
    ofJavaName? p.javaName.toList = some (.primitive p) := by
  cases p <;> rfl

theorem ofJavaName?_of_mem_javaLangNames {simple : String} (h : simple ∈ javaLangNames) :
    ofJavaName? simple.toList = some (.object ("java/lang/" ++ simple)) := by
  revert simple
  decide +kernel

/-! ## Spellings -/

theorem ofKotlin?_eq (t : List Char) :
    ofKotlin? t =
      match stripEnd? ['?'] (trim t) with
      | some inner => (ofKotlin? inner).map boxed
      | none =>
        match between? "Array<".toList ['>'] (trim t) with
        | some inner => (ofKotlin? inner).map fun element => .array element.boxed
        | none => ofKotlinName? (trim t) := by
  rw [ofKotlin?]
  split
  next hnullable => simp only [hnullable]
  next hnullable =>
    simp only [hnullable]
    split
    next hbetween => simp only [hbetween]
    next hbetween => simp only [hbetween]

theorem ofJava?_eq (t : List Char) :
    ofJava? t =
      match stripJavaArray? (trim t) with
      | some inner => (ofJava? inner).map .array
      | none => ofJavaName? (trim t) := by
  rw [ofJava?]
  split
  next hstrip => simp only [hstrip]
  next hstrip => simp only [hstrip]

theorem ofKotlin?_eq_ofKotlinName? {t : List Char} (h : ∀ c ∈ t, IsNameChar c) :
    ofKotlin? t = ofKotlinName? t := by
  have hmark : '?' ∉ t := fun hmem => (h _ hmem).ne (by decide) (by decide) (by decide) rfl
  have hangle : '<' ∉ t := fun hmem => (h _ hmem).ne (by decide) (by decide) (by decide) rfl
  have htrim : trim t = t := trim_eq_self fun c hc => (h c hc).isBlank
  have hnullable : stripEnd? ['?'] t = none := stripEnd?_eq_none_of_mem List.mem_cons_self hmark
  have harray : between? "Array<".toList ['>'] t = none := by
    rw [between?, stripStart?_eq_none_of_mem (by decide) hangle, Option.bind_none]
  simp only [ofKotlin?_eq, htrim, hnullable, harray]

theorem ofKotlin?_array (t : List Char) :
    ofKotlin? ("Array<".toList ++ t ++ ['>']) =
      (ofKotlin? t).map fun element => .array element.boxed := by
  have htrim : trim ("Array<".toList ++ t ++ ['>']) = "Array<".toList ++ t ++ ['>'] :=
    trim_eq_self_of_ends (fun c hc => by cases hc; rfl) fun c hc => by
      rw [List.getLast?_concat] at hc
      cases hc
      rfl
  have hnullable : stripEnd? ['?'] ("Array<".toList ++ t ++ ['>']) = none := by
    refine stripEnd?_eq_none_of_getLast?_ne (by decide) ?_
    rw [List.getLast?_concat]
    decide
  have harray : between? "Array<".toList ['>'] ("Array<".toList ++ t ++ ['>']) = some t := by
    rw [between?, List.append_assoc, stripStart?_eq_some_iff.mpr rfl, Option.bind_some,
      stripEnd?_eq_some_iff]
  rw [ofKotlin?_eq]
  simp only [htrim, hnullable, harray]

/-- No two dots stand side by side. -/
def DotsApart (t : List Char) : Prop :=
  t.IsChain fun c d => ¬ (c = '.' ∧ d = '.')

theorem dotsApart_of_notMem {t : List Char} (h : '.' ∉ t) : DotsApart t := by
  induction t with
  | nil => exact .nil
  | cons c t ih =>
    rw [List.mem_cons, not_or] at h
    exact List.isChain_cons.mpr ⟨fun d _ hcd => h.1 hcd.1.symm, ih h.2⟩

theorem DotsApart.append {s t : List Char} (h : DotsApart s) (ht : '.' ∉ t) : DotsApart (s ++ t) :=
  List.isChain_append.mpr
    ⟨h, dotsApart_of_notMem ht, fun _ _ _ hd hcd => ht (hcd.2 ▸ List.mem_of_mem_head? hd)⟩

theorem stripEnd?_dots_eq_none {t : List Char} (h : DotsApart t) :
    stripEnd? ['.', '.', '.'] t = none := by
  rw [Option.eq_none_iff_forall_ne_some]
  intro rest hrest
  rw [stripEnd?_eq_some_iff] at hrest
  subst hrest
  have hdots := (List.isChain_append.mp h).2.1
  exact (List.isChain_cons_cons.mp hdots).1 ⟨rfl, rfl⟩

theorem ofJava?_eq_ofJavaName? {t : List Char} (h : ∀ c ∈ t, IsNameChar c) (hdots : DotsApart t) :
    ofJava? t = ofJavaName? t := by
  have hbracket : ']' ∉ t := fun hmem => (h _ hmem).ne (by decide) (by decide) (by decide) rfl
  have htrim : trim t = t := trim_eq_self fun c hc => (h c hc).isBlank
  have harray : stripJavaArray? t = none := by
    rw [stripJavaArray?, stripEnd?_eq_none_of_mem (by decide) hbracket, stripEnd?_dots_eq_none hdots]
  simp only [ofJava?_eq, htrim, harray]

/-- Brackets or dots behind a type make an array of it. -/
theorem ofJava?_of_stripJavaArray? {s t : List Char} (hblank : ∀ c ∈ s, isBlank c = false)
    (harray : stripJavaArray? s = some t) : ofJava? s = (ofJava? t).map .array := by
  have htrim : trim s = s := trim_eq_self hblank
  rw [ofJava?_eq]
  simp only [htrim, harray]

theorem ofJava?_array {t : List Char} (hblank : ∀ c ∈ t, isBlank c = false) :
    ofJava? (t ++ ['[', ']']) = (ofJava? t).map .array := by
  have hbrackets : ∀ c ∈ ['[', ']'], isBlank c = false := by decide
  apply ofJava?_of_stripJavaArray?
  · exact fun c hc => (List.mem_append.mp hc).elim (hblank c) (hbrackets c)
  · rw [stripJavaArray?, stripEnd?_eq_some_iff.mpr rfl]

theorem stripJavaArray?_append_dots (t : List Char) :
    stripJavaArray? (t ++ ['.', '.', '.']) = some t := by
  have hbrackets : stripEnd? ['[', ']'] (t ++ ['.', '.', '.']) = none := by
    refine stripEnd?_eq_none_of_getLast?_ne (by decide) ?_
    rw [List.getLast?_append_of_ne_nil _ (by decide)]
    decide
  rw [stripJavaArray?, hbrackets, stripEnd?_eq_some_iff.mpr rfl]

theorem isBlank_of_mem_append_dots {t : List Char} (hblank : ∀ c ∈ t, isBlank c = false) :
    ∀ c ∈ t ++ ['.', '.', '.'], isBlank c = false := by
  have hdots : ∀ c ∈ ['.', '.', '.'], isBlank c = false := by decide
  exact fun c hc => (List.mem_append.mp hc).elim (hblank c) (hdots c)

theorem ofJava?_dots {t : List Char} (hblank : ∀ c ∈ t, isBlank c = false) :
    ofJava? (t ++ ['.', '.', '.']) = (ofJava? t).map .array :=
  ofJava?_of_stripJavaArray? (isBlank_of_mem_append_dots hblank) (stripJavaArray?_append_dots t)

/-- The type as a language writes it. -/
def spelling (language : Language) (t : JvmType) : String :=
  match language with
  | .kotlin => t.kotlinName
  | .java => t.javaName

/-- The signs that the spelling of an array has. -/
def signs : Language → List Char
  | .kotlin => ['<', '>']
  | .java => ['[', ']']

theorem exists_eq_primitive_or (t : JvmType) : (∃ p, t = .primitive p) ∨ t.isPrimitive = false := by
  cases t with
  | primitive p => exact .inl ⟨p, rfl⟩
  | _ => exact .inr rfl

theorem kotlinName_array {element : JvmType} (h : element.isPrimitive = false) :
    (JvmType.array element).kotlinName = "Array<" ++ element.kotlinName ++ ">" := by
  cases element with
  | primitive p => cases h
  | _ => rfl

section Characters

variable {p : Char → Prop} {language : Language}

theorem forall_mem_dotted {name : String} (hdot : p '.')
    (h : ∀ c ∈ name.toList, c = '/' ∨ p c) : ∀ c ∈ (dotted name).toList, p c := by
  intro c hc
  rw [dotted, String.toList_ofList, List.mem_map] at hc
  obtain ⟨d, hd, rfl⟩ := hc
  split
  · exact hdot
  next hslash => exact (h d hd).resolve_left hslash

theorem forall_mem_spelling_object {name : String} (hword : ∀ c, isWord c = true → p c)
    (hdot : p '.') (h : ∀ c ∈ name.toList, c = '/' ∨ p c) :
    ∀ c ∈ ((JvmType.object name).spelling language).toList, p c := by
  cases language with
  | kotlin =>
    simp only [spelling, kotlinName]
    split
    · exact fun c hc => hword c (isWord_of_mem_builtinNames (by decide : _ ∈ builtinNames .kotlin) hc)
    split
    · exact fun c hc => hword c (isWord_of_mem_builtinNames (by decide : _ ∈ builtinNames .kotlin) hc)
    · exact forall_mem_dotted hdot h
  | java =>
    simp only [spelling, javaName]
    cases hlang : javaLangName? name with
    | none => exact forall_mem_dotted hdot h
    | some simple =>
      obtain ⟨rfl, hslash⟩ := javaLangName?_eq_some_iff.mp hlang
      intro c hc
      refine (h c ?_).resolve_left (ne_of_mem_of_not_mem hc hslash)
      rw [String.toList_append]
      exact List.mem_append_right _ hc

/-- What holds of all word characters, of the dot and the signs, and of the characters of all class
names holds of the characters of a spelling. -/
theorem forall_mem_spelling {t : JvmType} (hword : ∀ c, isWord c = true → p c) (hdot : p '.')
    (hsigns : ∀ c ∈ signs language, p c)
    (h : t.AllNames fun name => ∀ c ∈ name.toList, c = '/' ∨ p c) :
    ∀ c ∈ (t.spelling language).toList, p c := by
  have hbuiltin : ∀ name ∈ builtinNames language, ∀ c ∈ name.toList, p c :=
    fun name hname c hc => hword c (isWord_of_mem_builtinNames hname hc)
  induction t with
  | void => cases language <;> exact hbuiltin _ (by decide)
  | primitive q =>
    cases language with
    | kotlin => exact hbuiltin _ q.kotlinName_mem_builtinNames
    | java => exact hbuiltin _ q.javaName_mem_builtinNames
  | object name => exact forall_mem_spelling_object hword hdot h
  | array element ih =>
    cases language with
    | kotlin =>
      rcases element.exists_eq_primitive_or with ⟨q, rfl⟩ | hprimitive
      · exact hbuiltin _ q.kotlinArray_mem_builtinNames
      · have hopening : ∀ c ∈ "Array<".toList, isWord c = true ∨ c ∈ signs .kotlin := by decide
        simp only [spelling, kotlinName_array hprimitive, String.toList_append, List.mem_append]
        rintro c ((hc | hc) | hc)
        · exact (hopening c hc).elim (hword c) (hsigns c)
        · exact ih h c hc
        · exact hsigns c (by rw [List.mem_singleton.mp hc]; decide)
    | java =>
      have hbrackets : ∀ c ∈ "[]".toList, c ∈ signs .java := by decide
      simp only [spelling, javaName, String.toList_append, List.mem_append]
      rintro c (hc | hc)
      · exact ih h c hc
      · exact hsigns c (hbrackets c hc)

end Characters

theorem mem_spelling {language : Language} {t : JvmType} (h : t.AllNames IsBinaryName) :
    ∀ c ∈ (t.spelling language).toList, IsNameChar c ∨ c ∈ signs language :=
  forall_mem_spelling (fun _ hc => .inl (.inl hc)) (.inl (.inr (.inr rfl))) (fun _ => .inr)
    (h.imp fun _ hname c hc => (hname.forall_mem c hc).imp id .inl)

theorem notMem_spelling {language : Language} {t : JvmType} (h : t.AllNames IsBinaryName) {c : Char}
    (hword : isWord c = false) (hsigns : c ∉ "$.<>[]".toList) : c ∉ (t.spelling language).toList := by
  have hall : ∀ d ∈ signs language, d ∈ "$.<>[]".toList := by
    cases language <;> decide
  intro hc
  rcases mem_spelling h c hc with hname | hsign
  · refine hname.ne hword ?_ ?_ rfl
    all_goals
      rintro rfl
      exact hsigns (by decide)
  · exact hsigns (hall c hsign)

theorem dollar_notMem_spelling {language : Language} {t : JvmType}
    (h : t.AllNames fun name => '$' ∉ name.toList) : '$' ∉ (t.spelling language).toList := by
  have hne : ∀ c ∈ (t.spelling language).toList, c ≠ '$' :=
    forall_mem_spelling (fun c hc => ne_of_isWord hc (by decide)) (by decide)
      (by cases language <;> decide)
      (h.imp fun name hname c hc => .inr (ne_of_mem_of_not_mem hc hname))
  exact fun hmem => hne '$' hmem rfl

/-- No spelling has a slash, whatever the classes are called. -/
theorem slash_notMem_spelling (language : Language) (t : JvmType) :
    '/' ∉ (t.spelling language).toList := by
  have hne : ∀ c ∈ (t.spelling language).toList, c ≠ '/' :=
    forall_mem_spelling (fun c hc => ne_of_isWord hc (by decide)) (by decide)
      (by cases language <;> decide)
      (allNames_of_forall (fun name c _ => Classical.em (c = '/')) t)
  exact fun hmem => hne '/' hmem rfl

theorem isBlank_of_mem_spelling (language : Language) {t : JvmType} (h : t.AllNames IsBinaryName) :
    ∀ c ∈ (t.spelling language).toList, isBlank c = false := by
  have hsigns : ∀ c ∈ signs language, isBlank c = false := by
    cases language <;> decide
  exact fun c hc => (mem_spelling h c hc).elim IsNameChar.isBlank (hsigns c)

theorem dotted_ne_nil {name : String} (h : IsBinaryName name) : (dotted name).toList ≠ [] := by
  rw [dotted, String.toList_ofList, ne_eq, List.map_eq_nil_iff]
  intro hnil
  rw [IsBinaryName, hnil] at h
  exact (h [] List.mem_cons_self).1 rfl

theorem spelling_ne_nil (language : Language) {t : JvmType} (h : t.AllNames IsBinaryName) :
    (t.spelling language).toList ≠ [] := by
  cases t with
  | void => cases language <;> decide
  | primitive p => cases language <;> cases p <;> decide
  | object name =>
    cases language with
    | kotlin =>
      simp only [spelling, kotlinName]
      split
      · decide
      split
      · decide
      · exact dotted_ne_nil h
    | java =>
      simp only [spelling, javaName]
      cases hlang : javaLangName? name with
      | none => exact dotted_ne_nil h
      | some simple =>
        obtain ⟨rfl, -⟩ := javaLangName?_eq_some_iff.mp hlang
        rintro hnil
        rw [Option.getD_some, String.toList_eq_nil_iff] at hnil
        subst hnil
        exact absurd h (by decide)
  | array element =>
    cases language with
    | kotlin =>
      cases element with
      | primitive p => cases p <;> decide
      | _ =>
        rw [spelling, kotlinName_array rfl, String.toList_append]
        exact List.append_ne_nil_of_right_ne_nil _ (by decide)
    | java =>
      rw [spelling, javaName, String.toList_append]
      exact List.append_ne_nil_of_right_ne_nil _ (by decide)

theorem dotsApart_dotted {name : String} (h : IsBinaryName name) :
    DotsApart (dotted name).toList := by
  have hslashes := isChain_of_splitWhere fun part hpart => (h part (List.mem_of_mem_tail hpart)).1
  have hslash : ∀ c ∈ name.toList, (if c = '/' then '.' else c) = '.' → c = '/' := by
    intro c hc heq
    by_contra hne
    rw [if_neg hne] at heq
    exact h.dot_notMem (heq ▸ hc)
  rw [dotted, String.toList_ofList, DotsApart, List.isChain_map]
  refine hslashes.imp_of_mem_imp fun c d hc hd hcd hdots => hcd ?_
  rw [beq_iff_eq, beq_iff_eq]
  exact ⟨hslash c hc hdots.1, hslash d hd hdots.2⟩

theorem dotsApart_javaName {t : JvmType} (h : t.AllNames IsBinaryName) :
    DotsApart t.javaName.toList := by
  induction t with
  | void => exact dotsApart_of_notMem (by decide)
  | primitive p => exact dotsApart_of_notMem (by cases p <;> decide)
  | object name =>
    rw [javaName]
    cases hlang : javaLangName? name with
    | some simple =>
      obtain ⟨rfl, -⟩ := javaLangName?_eq_some_iff.mp hlang
      refine dotsApart_of_notMem fun hdot => IsBinaryName.dot_notMem h ?_
      rw [String.toList_append]
      exact List.mem_append_right _ hdot
    | none => exact dotsApart_dotted h
  | array element ih =>
    rw [javaName, String.toList_append]
    exact (ih h).append (by decide)

/-! ## Reading a spelling -/

/-- What a language makes of the spelling of a type is the type, or nothing because a class in it is
not known. -/
def ReadsBack (language : Language) (t : JvmType) : Prop :=
  ofSpelling? language (t.spelling language).toList = some t ∨
    ofSpelling? language (t.spelling language).toList = none ∧ ¬ t.AllNames (IsKnown language)

theorem ofQualified?_of_dot_notMem {name : List Char} (h : '.' ∉ name) : ofQualified? name = none := by
  rw [ofQualified?, if_neg h]

theorem dotted_notMem_builtinNames {language : Language} {name : String}
    (h : name ∉ builtinNames language) :
    String.ofList (dotted name).toList ∉ builtinNames language := by
  rw [String.ofList_toList]
  by_cases hslash : '/' ∈ name.toList
  · exact notMem_builtinNames (dot_mem_dotted hslash)
  · rwa [dotted_eq_self hslash]

theorem ofSpelling?_kotlin_object {name : String} (h : IsBinaryName name)
    (hs : name ∉ shadowedNames .kotlin) :
    ofSpelling? .kotlin ((JvmType.object name).spelling .kotlin).toList =
      if IsKnown .kotlin name then some (.object name) else none := by
  have hchars : ∀ c ∈ ((JvmType.object name).spelling .kotlin).toList, IsNameChar c :=
    forall_mem_spelling_object (fun _ => .inl) (.inr (.inr rfl)) h.forall_mem
  rw [ofSpelling?, ofKotlin?_eq_ofKotlinName? hchars, spelling, kotlinName]
  split
  next heq => subst heq; rfl
  split
  next heq => subst heq; rfl
  · rw [ofKotlinName?_of_notMem (dotted_notMem_builtinNames hs)]
    exact ofQualified?_dotted h

/-- A class of `java.lang` is known if its own name is. -/
theorem isKnown_java_iff {name simple : String} (h : javaLangName? name = some simple) :
    IsKnown .java name ↔ simple ∈ javaLangNames := by
  obtain ⟨rfl, -⟩ := javaLangName?_eq_some_iff.mp h
  have hslash : '/' ∈ ("java/lang/" ++ simple).toList := by
    rw [String.toList_append]
    exact List.mem_append_left _ (by decide)
  rw [IsKnown, and_iff_right hslash, h]
  exact ⟨fun hall => hall simple rfl, fun hmem _ heq => Option.some.inj heq ▸ hmem⟩

theorem ofSpelling?_java_object {name : String} (h : IsBinaryName name)
    (hs : name ∉ shadowedNames .java) :
    ofSpelling? .java ((JvmType.object name).spelling .java).toList =
      if IsKnown .java name then some (.object name) else none := by
  have hchars : ∀ c ∈ ((JvmType.object name).spelling .java).toList, IsNameChar c :=
    forall_mem_spelling_object (fun _ => .inl) (.inr (.inr rfl)) h.forall_mem
  have hdots := dotsApart_javaName (t := .object name) h
  rw [ofSpelling?, ofJava?_eq_ofJavaName? hchars hdots, spelling, javaName]
  cases hlang : javaLangName? name with
  | none =>
    have hknown : IsKnown .java name ↔ '/' ∈ name.toList := by
      rw [IsKnown, hlang]
      exact and_iff_left fun simple hmem => absurd hmem (Option.not_mem_none simple)
    have hplain : name ∉ builtinNames .java := fun hmem => hs (List.mem_append_left _ hmem)
    rw [Option.getD_none, ofJavaName?_of_notMem (dotted_notMem_builtinNames hplain),
      ofQualified?_dotted h]
    simp only [hknown]
  | some simple =>
    have hknown := isKnown_java_iff hlang
    obtain ⟨rfl, -⟩ := javaLangName?_eq_some_iff.mp hlang
    rw [Option.getD_some]
    by_cases hmem : simple ∈ javaLangNames
    · rw [if_pos (hknown.mpr hmem)]
      exact ofJavaName?_of_mem_javaLangNames hmem
    · have hplain : simple ∉ builtinNames .java := by
        have hall : ∀ simple ∈ builtinNames .java,
            simple ∈ javaLangNames ∨ "java/lang/" ++ simple ∈ shadowedNames .java := by
          decide +kernel
        exact fun hbuiltin => (hall simple hbuiltin).elim hmem hs
      have hdot : '.' ∉ simple.toList := fun hdot =>
        h.dot_notMem (by rw [String.toList_append]; exact List.mem_append_right _ hdot)
      rw [if_neg (mt hknown.mp hmem), ofJavaName?_of_notMem (by rwa [String.ofList_toList]),
        ofQualified?_of_dot_notMem hdot]

theorem boxed_eq_self {t : JvmType} (h : t.isPrimitive = false) : t.boxed = t := by
  cases t with
  | primitive p => cases h
  | _ => rfl

theorem ofKotlin?_builtin {name : String} (h : name ∈ builtinNames .kotlin) :
    ofKotlin? name.toList = ofKotlinName? name.toList :=
  ofKotlin?_eq_ofKotlinName? fun _ hc => .inl (isWord_of_mem_builtinNames h hc)

theorem ofJava?_builtin {name : String} (h : name ∈ builtinNames .java) :
    ofJava? name.toList = ofJavaName? name.toList :=
  ofJava?_eq_ofJavaName? (fun _ hc => .inl (isWord_of_mem_builtinNames h hc))
    (dotsApart_of_notMem fun hdot => absurd (isWord_of_mem_builtinNames h hdot) (by decide))

theorem ofSpelling?_kotlin_primitives (p : Primitive) :
    ofSpelling? .kotlin ((JvmType.array (.primitive p)).spelling .kotlin).toList =
      some (.array (.primitive p)) := by
  rw [ofSpelling?, spelling, kotlinName, ofKotlin?_builtin p.kotlinArray_mem_builtinNames,
    ofKotlinName?_kotlinName_array]

theorem ofSpelling?_kotlin_array {element : JvmType} (h : element.isPrimitive = false) :
    ofSpelling? .kotlin ((JvmType.array element).spelling .kotlin).toList =
      (ofSpelling? .kotlin (element.spelling .kotlin).toList).map fun t => .array t.boxed := by
  rw [spelling, kotlinName_array h, String.toList_append, String.toList_append]
  exact ofKotlin?_array _

theorem ofSpelling?_java_array {element : JvmType} (h : element.AllNames IsBinaryName) :
    ofSpelling? .java ((JvmType.array element).spelling .java).toList =
      (ofSpelling? .java (element.spelling .java).toList).map .array := by
  rw [spelling, javaName, String.toList_append]
  exact ofJava?_array (isBlank_of_mem_spelling .java h)

/-- A type none of whose classes is taken for another type is read back from its spelling if every
class in it is known, and is not read at all otherwise. -/
theorem ofSpelling?_spelling {language : Language} {t : JvmType}
    (h : t.AllNames fun name => IsBinaryName name ∧ name ∉ shadowedNames language) :
    ofSpelling? language (t.spelling language).toList =
      if t.AllNames (IsKnown language) then some t else none := by
  induction t with
  | void =>
    cases language with
    | kotlin => exact ofKotlin?_builtin (by decide)
    | java => exact ofJava?_builtin (by decide)
  | primitive p =>
    cases language with
    | kotlin =>
      exact (ofKotlin?_builtin p.kotlinName_mem_builtinNames).trans (ofKotlinName?_kotlinName p)
    | java =>
      exact (ofJava?_builtin p.javaName_mem_builtinNames).trans (ofJavaName?_javaName p)
  | object name =>
    cases language with
    | kotlin => exact ofSpelling?_kotlin_object h.1 h.2
    | java => exact ofSpelling?_java_object h.1 h.2
  | array element ih =>
    have hlift : (if (JvmType.array element).AllNames (IsKnown language) then
        some (JvmType.array element) else none) =
        (if element.AllNames (IsKnown language) then some element else none).map .array := by
      by_cases hknown : element.AllNames (IsKnown language)
      · rw [if_pos (show (JvmType.array element).AllNames _ from hknown), if_pos hknown,
          Option.map_some]
      · rw [if_neg (show ¬ (JvmType.array element).AllNames _ from hknown), if_neg hknown,
          Option.map_none]
    rw [hlift]
    cases language with
    | kotlin =>
      rcases element.exists_eq_primitive_or with ⟨p, rfl⟩ | hprimitive
      · exact ofSpelling?_kotlin_primitives p
      · rw [ofSpelling?_kotlin_array hprimitive, ih h]
        split
        · rw [Option.map_some, Option.map_some, boxed_eq_self hprimitive]
        · rfl
    | java =>
      rw [ofSpelling?_java_array (AllNames.imp (t := element) h fun _ => And.left), ih h]

theorem readsBack {language : Language} {t : JvmType}
    (h : t.AllNames fun name => IsBinaryName name ∧ name ∉ shadowedNames language) :
    ReadsBack language t := by
  rw [ReadsBack, ofSpelling?_spelling h]
  split
  next => exact .inl rfl
  next hunknown => exact .inr ⟨rfl, hunknown⟩

end JvmType

end JniLink
