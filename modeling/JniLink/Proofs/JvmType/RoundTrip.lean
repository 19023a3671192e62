import JniLink.Proofs.JvmType.Spelling

/-!
# Types that are read back from their spelling

A language reads a type back from its own spelling of it exactly if it knows every class in the type.
Kotlin knows a class by its package, whichever it is. Java leaves the package out when it writes a class
that stands in `java.lang` itself, and knows ten names without a package when it reads. So every other
class of `java.lang` is written and not read back; it stands for nothing then, not for another type.

Classes with the name of another type are part of the statement: they are read, as that other type.
Under an array the question is not the same for the element in Kotlin, where the box of a primitive type
is put for it; but then the element would be that box, which is known.
-/

namespace JniLink.JvmType

open JniLink.Text

variable {language : Language} {t : JvmType}

theorem slash_mem_boxName (p : Primitive) : '/' ∈ p.boxName.toList := by
  rw [p.boxName_eq, String.toList_append]
  exact List.mem_append_left _ (by decide)

theorem slash_mem_of_ofQualified? {name : String} {s : List Char}
    (h : ofQualified? s = some (.object name)) : '/' ∈ name.toList := by
  rw [ofQualified?] at h
  split at h
  next hdot =>
    cases h
    rw [String.toList_ofList, String.toList_ofList]
    exact List.mem_map.mpr ⟨'.', hdot, rfl⟩
  next => cases h

theorem slash_mem_of_ofKotlinName? {name : String} {s : List Char}
    (h : ofKotlinName? s = some (.object name)) : '/' ∈ name.toList := by
  rw [ofKotlinName?] at h
  split at h
  · cases h
  split at h
  · cases h
    decide
  split at h
  · cases h
    decide
  split at h
  · cases h
  · cases h
  · exact slash_mem_of_ofQualified? h

theorem slash_mem_of_ofJavaName? {name : String} {s : List Char}
    (h : ofJavaName? s = some (.object name)) : '/' ∈ name.toList := by
  rw [ofJavaName?] at h
  split at h
  · cases h
  split at h
  · cases h
    decide
  split at h
  · cases h
    decide
  split at h
  · cases h
  next p _ _ =>
    cases h
    exact slash_mem_boxName p
  · exact slash_mem_of_ofQualified? h

/-- A class that is read has a package, whatever was written. -/
theorem slash_mem_of_ofSpelling? {name : String} {s : List Char}
    (h : ofSpelling? language s = some (.object name)) : '/' ∈ name.toList := by
  cases language with
  | kotlin =>
    simp only [ofSpelling?] at h
    fun_induction ofKotlin? s with
    | case1 s inner _ _ ih =>
      obtain ⟨u, hu, heq⟩ := Option.map_eq_some_iff.mp h
      cases u with
      | primitive p =>
        cases heq
        exact slash_mem_boxName p
      | object name' =>
        cases heq
        exact ih hu
      | _ => cases heq
    | case2 =>
      obtain ⟨u, -, heq⟩ := Option.map_eq_some_iff.mp h
      cases heq
    | case3 => exact slash_mem_of_ofKotlinName? h
  | java =>
    simp only [ofSpelling?] at h
    unfold ofJava? at h
    split at h
    · obtain ⟨u, -, heq⟩ := Option.map_eq_some_iff.mp h
      cases heq
    · exact slash_mem_of_ofJavaName? h

/-- A class of `java.lang` with a name that stands for a type without a package is written as that
name. -/
theorem ofSpelling?_java_builtin {simple : String} (h : simple ∈ builtinNames .java) :
    ofSpelling? .java ((JvmType.object ("java/lang/" ++ simple)).spelling .java).toList =
      ofJavaName? simple.toList := by
  have hplain : '/' ∉ simple.toList :=
    fun hslash => absurd (isWord_of_mem_builtinNames h hslash) (by decide)
  rw [spelling, javaName, javaLangName?_eq_some_iff.mpr ⟨rfl, hplain⟩, Option.getD_some,
    ofSpelling?, ofJava?_builtin h]

/-- A class with the name of another type is not read back. -/
theorem ofSpelling?_object_ne {name : String} (h : name ∈ shadowedNames language) :
    ofSpelling? language ((JvmType.object name).spelling language).toList ≠ some (.object name) := by
  intro hread
  have hslash := slash_mem_of_ofSpelling? hread
  have hword (hbuiltin : name ∈ builtinNames language) : False :=
    absurd (isWord_of_mem_builtinNames hbuiltin hslash) (by decide)
  cases language with
  | kotlin => exact hword h
  | java =>
    refine (List.mem_append.mp h).elim hword fun hkeyword => ?_
    obtain ⟨keyword, hmem, rfl⟩ := List.mem_map.mp hkeyword
    rcases List.mem_cons.mp hmem with rfl | hprimitive
    · rw [ofSpelling?_java_builtin (by decide)] at hread
      cases hread
    · obtain ⟨p, -, rfl⟩ := List.mem_map.mp hprimitive
      rw [ofSpelling?_java_builtin p.javaName_mem_builtinNames, ofJavaName?_javaName] at hread
      cases hread

theorem boxName_notMem_shadowedNames (p : Primitive) : p.boxName ∉ shadowedNames .kotlin := by
  have hknown : IsKnown .kotlin p.boxName := slash_mem_boxName p
  exact notMem_shadowedNames hknown

/-- What is read back has no class with the name of another type. -/
theorem allNames_notMem_shadowedNames (h : t.AllNames IsBinaryName)
    (hread : ofSpelling? language (t.spelling language).toList = some t) :
    t.AllNames (· ∉ shadowedNames language) := by
  induction t with
  | void => trivial
  | primitive p => trivial
  | object name => exact fun hmem => ofSpelling?_object_ne hmem hread
  | array element ih =>
    cases language with
    | kotlin =>
      rcases element.exists_eq_primitive_or with ⟨p, rfl⟩ | hprimitive
      · trivial
      · rw [ofSpelling?_kotlin_array hprimitive] at hread
        obtain ⟨u, hu, heq⟩ := Option.map_eq_some_iff.mp hread
        obtain rfl : u.boxed = element := JvmType.array.inj heq
        cases u with
        | primitive p => exact boxName_notMem_shadowedNames p
        | _ => exact ih h hu
    | java =>
      have helement : element.AllNames IsBinaryName := h
      rw [ofSpelling?_java_array helement] at hread
      obtain ⟨u, hu, heq⟩ := Option.map_eq_some_iff.mp hread
      obtain rfl : u = element := JvmType.array.inj heq
      exact ih h hu

/-- A type is read back exactly if the language knows every class in it. -/
theorem ofSpelling?_spelling_eq_some_iff (h : t.AllNames IsBinaryName) :
    ofSpelling? language (t.spelling language).toList = some t ↔
      t.AllNames (IsKnown language) := by
  constructor
  · intro hread
    have hs := allNames_notMem_shadowedNames h hread
    rw [ofSpelling?_spelling (h.and hs)] at hread
    by_contra hunknown
    rw [if_neg hunknown] at hread
    cases hread
  · intro hknown
    have hs : t.AllNames (· ∉ shadowedNames language) := hknown.imp fun _ => notMem_shadowedNames
    rw [ofSpelling?_spelling (h.and hs), if_pos hknown]

/-- A name with a slash is one of several parts. -/
theorem slash_mem_iff (name : String) :
    '/' ∈ name.toList ↔ 2 ≤ (splitWhere (· == '/') name.toList).length := by
  rw [length_splitWhere, Nat.succ_le_succ_iff, Nat.one_le_iff_ne_zero, ← Nat.pos_iff_ne_zero,
    List.countP_pos_iff]
  constructor
  · exact fun h => ⟨'/', h, beq_self_eq_true '/'⟩
  · rintro ⟨c, hc, hslash⟩
    exact eq_of_beq hslash ▸ hc

theorem allNames_congr {p q : String → Prop} (h : ∀ name, p name ↔ q name) :
    t.AllNames p ↔ t.AllNames q :=
  ⟨fun hp => hp.imp fun name => (h name).mp, fun hq => hq.imp fun name => (h name).mpr⟩

/-- Kotlin reads a type back from its spelling, under whatever arrays, exactly if every class in it has
a package. -/
theorem ofKotlin?_kotlinName_eq_some_iff (h : t.AllNames IsBinaryName) :
    ofKotlin? t.kotlinName.toList = some t ↔
      t.AllNames fun name => 2 ≤ (splitWhere (· == '/') name.toList).length := by
  have hread : ofSpelling? .kotlin (t.spelling .kotlin).toList = some t ↔
      t.AllNames (IsKnown .kotlin) := ofSpelling?_spelling_eq_some_iff h
  exact hread.trans (allNames_congr slash_mem_iff)

/-- The two classes with short names, a box and a nested class are all told apart inside arrays. -/
theorem ofKotlin?_kotlinName_eq_some_iff_arrays :
    let types : List JvmType :=
      [.array (.array .any), .array (.array (.primitive .int)), .array (.object "java/lang/Integer"),
        .array .void, .array (.object "a/B$1")]
    (∀ t ∈ types, t.AllNames IsBinaryName) ∧ ∀ t ∈ types, ofKotlin? t.kotlinName.toList = some t := by
  intro types
  have hnames : ∀ t ∈ types, t.AllNames IsBinaryName := by decide
  have hparts : ∀ t ∈ types,
      t.AllNames fun name => 2 ≤ (splitWhere (· == '/') name.toList).length := by decide
  exact ⟨hnames, fun t ht => (ofKotlin?_kotlinName_eq_some_iff (hnames t ht)).mpr (hparts t ht)⟩

/-- Java reads a type back from its spelling, under whatever arrays, exactly if every class in it has a
package and is one of the known ten if that is `java.lang`; otherwise it reads nothing, unless a class
has the name of another type. -/
theorem ofJava?_javaName_eq_some_iff (h : t.AllNames IsBinaryName) :
    (ofJava? t.javaName.toList = some t ↔ t.AllNames fun name =>
      2 ≤ (splitWhere (· == '/') name.toList).length ∧
        ∀ simple ∈ javaLangName? name, simple ∈ javaLangNames) ∧
    (t.AllNames (· ∉ shadowedNames .java) →
      ofJava? t.javaName.toList = some t ∨ ofJava? t.javaName.toList = none) := by
  have hread : ofSpelling? .java (t.spelling .java).toList = some t ↔
      t.AllNames (IsKnown .java) := ofSpelling?_spelling_eq_some_iff h
  refine ⟨hread.trans (allNames_congr fun name => and_congr_left' (slash_mem_iff name)), ?_⟩
  intro hs
  have hnever : t.ReadsBack .java := readsBack (h.and hs)
  exact hnever.imp_right And.left

/-- A class in a package below `java.lang` is written with its package; of those in `java.lang` itself,
`String` is one of the ten and `Class` is not. -/
theorem ofJava?_javaName_eq_some_iff_arrays :
    let types : List JvmType := [.array (.object "java/lang/ref/Cleaner"), .array (.array .string)]
    let unread : JvmType := .array (.object "java/lang/Class")
    (∀ t ∈ unread :: types, t.AllNames IsBinaryName ∧ t.AllNames (· ∉ shadowedNames .java)) ∧
      (∀ t ∈ types, ofJava? t.javaName.toList = some t) ∧
        ofJava? unread.javaName.toList = none := by
  intro types unread
  have hnames : ∀ t ∈ unread :: types,
      t.AllNames IsBinaryName ∧ t.AllNames (· ∉ shadowedNames .java) := by decide
  have hknown : ∀ t ∈ types, t.AllNames fun name =>
      2 ≤ (splitWhere (· == '/') name.toList).length ∧
        ∀ simple ∈ javaLangName? name, simple ∈ javaLangNames := by decide
  refine ⟨hnames, fun t ht => ?_, ?_⟩
  · exact (ofJava?_javaName_eq_some_iff (hnames t (List.mem_cons_of_mem _ ht)).1).1.mpr (hknown t ht)
  · obtain ⟨hbinary, hs⟩ := hnames unread List.mem_cons_self
    obtain ⟨hread, hnone⟩ := ofJava?_javaName_eq_some_iff hbinary
    exact (hnone hs).resolve_left fun hsome => absurd (hread.mp hsome) (by decide)

/-- `java.lang.Class` is written without its package, and the reader does not know it by that name. -/
theorem ofJava?_javaName_class :
    (JvmType.object "java/lang/Class").javaName = "Class" ∧
      ofJava? (JvmType.object "java/lang/Class").javaName.toList ≠
        some (.object "java/lang/Class") := by
  have hbinary : (JvmType.object "java/lang/Class").AllNames IsBinaryName := by decide
  have hunknown : ¬ (JvmType.object "java/lang/Class").AllNames (IsKnown .java) := by decide
  refine ⟨by decide, fun hread => hunknown ?_⟩
  exact (ofSpelling?_spelling_eq_some_iff hbinary).mp hread

end JniLink.JvmType
