import JniLink.Proofs.Descriptor
import JniLink.Proofs.JvmType.Spelling
import JniLink.Proofs.Symbol.Escape

/-!
# Which spellings stand for valid types

The signs of a spelling are peeled off one by one, and a name without signs is left (`core`). What
the spelling stands for is decided there. The name of nothing makes nothing or an array of nothing,
under whatever signs; a name with dots makes a class with whatever stands between the dots; every
other name makes a type that is valid. So a type is a value of the virtual machine exactly if the
name is not the one of nothing and its parts are those of a class name (`IsValueName`).
-/

namespace JniLink

open JniLink.Text

/-! ## Valid types and signatures -/

/-- The signs that no part of a class name holds. -/
def nameSigns : List Char := ".;[<>".toList

/-- A name of parts, none of them empty or with a sign in it. -/
def HasParts (p : Char → Bool) (name : List Char) : Prop :=
  ∀ part ∈ splitWhere p name, part ≠ [] ∧ ∀ c ∈ part, c ∉ nameSigns

instance decidableHasParts (p : Char → Bool) (name : List Char) : Decidable (HasParts p name) :=
  inferInstanceAs (Decidable (∀ part ∈ _, _ ∧ ∀ c ∈ part, _))

/-- A class name in binary form, with slashes between its parts. -/
def IsSlashedName (name : String) : Prop :=
  HasParts (· == '/') name.toList

instance decidableIsSlashedName (name : String) : Decidable (IsSlashedName name) :=
  inferInstanceAs (Decidable (HasParts _ _))

theorem isClassName_of_isSlashedName {name : String} (h : IsSlashedName name) :
    JvmType.IsClassName name := by
  constructor
  · rintro rfl
    exact (h [] List.mem_cons_self).1 rfl
  · intro hmem
    rcases mem_splitWhere (· == '/') hmem with hslash | ⟨part, hpart, hc⟩
    · cases hslash
    · exact (h part hpart).2 ';' hc (by decide)

/-- The slashes that are put for the dots of a name part it where the dots did. -/
theorem isSlashedName_map_iff {name : List Char} :
    IsSlashedName (String.ofList (name.map fun c => if c = '.' then '/' else c)) ↔
      HasParts Symbol.isSeparator name := by
  have hseparator (c : Char) :
      ((if c = '.' then '/' else c) == '/') = Symbol.isSeparator c := by
    by_cases hdot : c = '.'
    · rw [if_pos hdot, hdot]
      rfl
    · rw [if_neg hdot, Symbol.isSeparator, beq_false_of_ne hdot, Bool.false_or]
  have hkept : ∀ part ∈ splitWhere Symbol.isSeparator name,
      part.map (fun c => if c = '.' then '/' else c) = part := by
    intro part hpart
    rw [List.map_congr_left (g := id) fun c hc => ?_, List.map_id]
    have hc' := not_of_mem_splitWhere hpart hc
    rw [if_neg (fun hdot => ?_), id]
    rw [hdot] at hc'
    cases hc'
  rw [IsSlashedName, HasParts, String.toList_ofList, splitWhere_map hseparator, List.forall_mem_map]
  refine forall₂_congr fun part hpart => ?_
  rw [hkept part hpart]

namespace JvmType

/-- A type that a value can have: neither nothing nor an array of it, and with a class name in binary
form if it has one. -/
def IsValue (t : JvmType) : Prop :=
  t.levels.2 ≠ .void ∧ t.AllNames IsSlashedName

theorem wellFormed_of_isValue {t : JvmType} (h : t.IsValue) : t ≠ .void ∧ t.WellFormed := by
  induction t with
  | void => exact absurd rfl h.1
  | primitive p => exact ⟨nofun, trivial⟩
  | object name => exact ⟨nofun, isClassName_of_isSlashedName h.2⟩
  | array element ih => exact ⟨nofun, ih h⟩

theorem isValue_of_wellFormed {t : JvmType} (hne : t ≠ .void) (h : t.WellFormed)
    (hnames : t.AllNames IsSlashedName) : t.IsValue := by
  refine ⟨?_, hnames⟩
  clear hnames
  induction t with
  | void => exact absurd rfl hne
  | primitive p => exact nofun
  | object name => exact nofun
  | array element ih => exact ih h.1 h.2

end JvmType

/-- A signature of the virtual machine: its descriptor is read back, and the class names in it are in
binary form. -/
structure Signature.IsJvm (s : Signature) : Prop where
  readsBack : Signature.ofDescriptor s.descriptor = .ok s
  names : ∀ t ∈ s.ret :: s.params, t.AllNames IsSlashedName

theorem Signature.isJvm_iff {s : Signature} :
    s.IsJvm ↔ (∀ t ∈ s.params, t.IsValue) ∧ (s.ret = .void ∨ s.ret.IsValue) := by
  constructor
  · rintro ⟨hread, hnames⟩
    obtain ⟨⟨hparams, hret⟩, -⟩ := Signature.ofDescriptor_eq_ok_iff.mp hread
    rw [List.forall_mem_cons] at hnames
    refine ⟨fun t ht => ?_, or_iff_not_imp_left.mpr fun hne => ?_⟩
    · exact JvmType.isValue_of_wellFormed (hparams t ht).1 (hparams t ht).2 (hnames.2 t ht)
    · exact JvmType.isValue_of_wellFormed hne hret hnames.1
  · rintro ⟨hparams, hret⟩
    have hwf : s.WellFormed := by
      refine ⟨fun t ht => JvmType.wellFormed_of_isValue (hparams t ht), ?_⟩
      rcases hret with hvoid | hret
      · rw [hvoid]
        exact trivial
      · exact (JvmType.wellFormed_of_isValue hret).2
    refine ⟨Signature.ofDescriptor_eq_ok_iff.mpr ⟨hwf, rfl⟩, ?_⟩
    rw [List.forall_mem_cons]
    refine ⟨?_, fun t ht => (hparams t ht).2⟩
    rcases hret with hvoid | hret
    · rw [hvoid]
      exact trivial
    · exact hret.2

namespace JvmType

/-! ## The name under the signs of a spelling -/

/-- The spelling under the outermost sign, and whether the sign makes an array. -/
def peel? : Language → List Char → Option (Bool × List Char)
  | .kotlin, t =>
    match stripEnd? ['?'] (trim t) with
    | some inner => some (false, inner)
    | none => (between? "Array<".toList ['>'] (trim t)).map (true, ·)
  | .java, t => (stripJavaArray? (trim t)).map (true, ·)

/-- What the sign makes of the type under it. Kotlin boxes a primitive type there. -/
def nest : Language → Bool → JvmType → JvmType
  | _, false, t => t.boxed
  | .kotlin, true, t => .array t.boxed
  | .java, true, t => .array t

/-- The type that a name without signs stands for. -/
def ofName? : Language → List Char → Option JvmType
  | .kotlin => ofKotlinName?
  | .java => ofJavaName?

theorem length_stripJavaArray? {t inner : List Char} (h : stripJavaArray? t = some inner) :
    inner.length < t.length := by
  rw [stripJavaArray?] at h
  split at h
  next hbrackets =>
    cases h
    have hlength := length_stripEnd? hbrackets
    simp only [List.length_cons, List.length_nil] at hlength
    omega
  next =>
    have hlength := length_stripEnd? h
    simp only [List.length_cons, List.length_nil] at hlength
    omega

theorem length_peel? {language : Language} {t inner : List Char} {isArray : Bool}
    (h : peel? language t = some (isArray, inner)) : inner.length < t.length := by
  have htrim := length_trim_le t
  cases language with
  | kotlin =>
    rw [peel?] at h
    split at h
    next inner' hnullable =>
      cases h
      have hlength := length_stripEnd? hnullable
      rw [List.length_singleton] at hlength
      omega
    next =>
      obtain ⟨_, hbetween, heq⟩ := Option.map_eq_some_iff.mp h
      cases heq
      have hlength := length_between? hbetween
      rw [List.length_singleton] at hlength
      omega
  | java =>
    obtain ⟨_, hstrip, heq⟩ := Option.map_eq_some_iff.mp h
    cases heq
    exact Nat.lt_of_lt_of_le (length_stripJavaArray? hstrip) htrim

/-- How many arrays the signs of a spelling make, and the name under them. -/
def core (language : Language) (t : List Char) : Nat × List Char :=
  match h : peel? language t with
  | some (isArray, inner) =>
    have : inner.length < t.length := length_peel? h
    ((core language inner).1 + isArray.toNat, (core language inner).2)
  | none => (0, trim t)
termination_by t.length

theorem core_of_eq_some {language : Language} {t inner : List Char} {isArray : Bool}
    (h : peel? language t = some (isArray, inner)) :
    core language t = ((core language inner).1 + isArray.toNat, (core language inner).2) := by
  rw [core]
  split
  next h' =>
    cases h.symm.trans h'
    rfl
  next h' => cases h.symm.trans h'

/-- A spelling is read from the outside in. -/
theorem ofSpelling?_eq (language : Language) (t : List Char) :
    ofSpelling? language t =
      match peel? language t with
      | some (isArray, inner) => (ofSpelling? language inner).map (nest language isArray)
      | none => ofName? language (trim t) := by
  cases language with
  | kotlin =>
    rw [ofSpelling?, ofKotlin?_eq, peel?]
    cases stripEnd? ['?'] (trim t) with
    | some inner => rfl
    | none => cases between? "Array<".toList ['>'] (trim t) <;> rfl
  | java =>
    rw [ofSpelling?, ofJava?_eq, peel?]
    cases stripJavaArray? (trim t) <;> rfl

/-! ## What a spelling stands for -/

/-- The name that a language has for nothing. -/
def voidName : Language → List Char
  | .kotlin => "Unit".toList
  | .java => "void".toList

/-- A name without signs that stands for a value: not that of nothing, and a class name with dots or
slashes between its parts if it has a dot. -/
def IsValueName (language : Language) (name : List Char) : Prop :=
  name ≠ voidName language ∧ ('.' ∈ name → HasParts Symbol.isSeparator name)

instance decidableIsValueName (language : Language) (name : List Char) :
    Decidable (IsValueName language name) :=
  inferInstanceAs (Decidable (_ ∧ _))

/-- A type as a spelling with this core makes it. -/
def IsMade (language : Language) (core : Nat × List Char) (t : JvmType) : Prop :=
  (core.2 = voidName language ∧ t = arrayOf core.1 .void) ∨
    (core.2 ≠ voidName language ∧ t.levels.2 ≠ .void ∧
      (t.AllNames IsSlashedName ↔ ('.' ∈ core.2 → HasParts Symbol.isSeparator core.2)))

instance decidableIsMade (language : Language) (core : Nat × List Char) (t : JvmType) :
    Decidable (IsMade language core t) :=
  inferInstanceAs (Decidable (_ ∨ _))

section Made

variable {language : Language} {core : Nat × List Char} {t : JvmType}

theorem levels_arrayOf_void (n : Nat) : (arrayOf n .void).levels.2 = .void := by
  induction n with
  | zero => rfl
  | succ n ih => exact ih

theorem arrayOf_eq_void_iff {n : Nat} : arrayOf n .void = .void ↔ n = 0 := by
  cases n with
  | zero => exact iff_of_true rfl rfl
  | succ n => exact iff_of_false nofun nofun

theorem IsMade.isValue_iff (h : IsMade language core t) :
    t.IsValue ↔ IsValueName language core.2 := by
  rcases h with ⟨hname, rfl⟩ | ⟨hname, hvoid, hparts⟩
  · exact iff_of_false (fun h => h.1 (levels_arrayOf_void _)) fun h => h.1 hname
  · rw [IsValue, hparts, IsValueName, and_iff_right hvoid, and_iff_right hname]

theorem IsMade.isResult_iff (h : IsMade language core t) :
    t = .void ∨ t.IsValue ↔ core = (0, voidName language) ∨ IsValueName language core.2 := by
  rw [h.isValue_iff, Prod.ext_iff]
  refine or_congr_left ?_
  rcases h with ⟨hname, rfl⟩ | ⟨hname, hvoid, -⟩
  · rw [arrayOf_eq_void_iff, and_iff_left hname]
  · refine iff_of_false ?_ fun heq => hname heq.2
    rintro rfl
    exact hvoid rfl

theorem IsMade.array (h : IsMade language core t) :
    IsMade language (core.1 + 1, core.2) (.array t) := by
  rcases h with ⟨hname, rfl⟩ | h
  · exact .inl ⟨hname, rfl⟩
  · exact .inr h

theorem IsMade.boxed (h : IsMade language core t) : IsMade language core t.boxed := by
  have hbox (p : Primitive) : IsSlashedName p.boxName := by
    cases p <;> decide +kernel
  cases t with
  | primitive p =>
    rcases h with ⟨-, heq⟩ | ⟨hname, -, hparts⟩
    · cases hn : core.1 <;> rw [hn] at heq <;> cases heq
    · refine .inr ⟨hname, nofun, ?_⟩
      exact ⟨fun _ => hparts.mp trivial, fun _ => hbox p⟩
  | void => exact h
  | object name => exact h
  | array element => exact h

theorem IsMade.nest (h : IsMade language core t) (isArray : Bool) :
    IsMade language (core.1 + isArray.toNat, core.2) (nest language isArray t) := by
  cases isArray with
  | false => exact h.boxed
  | true =>
    cases language with
    | kotlin => exact h.boxed.array
    | java => exact h.array

end Made

theorem isMade_of_mem_builtinNames {language : Language} {name : String}
    (h : name ∈ builtinNames language) {t : JvmType} (ht : ofName? language name.toList = some t) :
    IsMade language (0, name.toList) t := by
  have hall : ∀ name ∈ builtinNames language, ∀ t ∈ ofName? language name.toList,
      IsMade language (0, name.toList) t := by
    cases language <;> decide +kernel
  exact hall name h t ht

theorem isMade_of_ofQualified? {language : Language} {name : List Char} {t : JvmType}
    (hvoid : name ≠ voidName language) (h : ofQualified? name = some t) :
    IsMade language (0, name) t := by
  rw [ofQualified?] at h
  split at h
  next hdot =>
    cases h
    have hclass : (ofClassName (String.ofList name)).levels.2 ≠ .void := by
      rw [ofClassName]
      exact JvmType.noConfusion
    refine .inr ⟨hvoid, hclass, ?_⟩
    rw [forall_prop_of_true hdot, ofClassName, String.toList_ofList]
    exact isSlashedName_map_iff
  next => cases h

theorem isMade_ofName? {language : Language} {name : List Char} {t : JvmType}
    (h : ofName? language name = some t) : IsMade language (0, name) t := by
  by_cases hbuiltin : String.ofList name ∈ builtinNames language
  · have hmade := isMade_of_mem_builtinNames (t := t) hbuiltin
    rw [String.toList_ofList] at hmade
    exact hmade h
  · have hvoid : name ≠ voidName language := by
      rintro rfl
      apply hbuiltin
      cases language <;> decide +kernel
    apply isMade_of_ofQualified? hvoid
    cases language with
    | kotlin => rwa [ofName?, ofKotlinName?_of_notMem hbuiltin] at h
    | java => rwa [ofName?, ofJavaName?_of_notMem hbuiltin] at h

/-- What a spelling stands for is decided by the name under its signs. -/
theorem isMade_ofSpelling? {language : Language} {text : List Char} {t : JvmType}
    (h : ofSpelling? language text = some t) : IsMade language (core language text) t := by
  fun_induction core language text generalizing t with
  | case1 text isArray inner hpeel hlt ih =>
    rw [ofSpelling?_eq, hpeel] at h
    obtain ⟨t, hinner, rfl⟩ := Option.map_eq_some_iff.mp h
    exact (ih hinner).nest isArray
  | case2 text hpeel =>
    rw [ofSpelling?_eq, hpeel] at h
    exact isMade_ofName? h

end JvmType

end JniLink
