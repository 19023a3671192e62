import JniLink.Proofs.Symbol.RoundTrip

/-!
# Symbols tell methods apart

Two native methods have the same short symbol only if class and method are the same, the same long
symbol only if their parameters are the same too, and never one the short symbol that the other has
as its long one. All of it follows from reading: equal symbols are read as the same names and the
same descriptors, and a short symbol is read without any.

The parameters have to be such that their descriptors come back unchanged. A dot in a class name
would come back as a slash, and a slash before a low digit as an escape.
-/

namespace JniLink

open JniLink.Text JniLink.Symbol

/-- A type whose class name, if it has one, is read back from a symbol as it is: no dot stands in
it and no low digit behind a slash. -/
def JvmType.HasPlainName : JvmType → Prop
  | .void | .primitive _ => True
  | .object name => '.' ∉ name.toList ∧ SeparatorsKept name.toList
  | .array element => element.HasPlainName

/-- A native method of `owner` whose names and parameters can be read from its symbols. -/
structure Declaration.IsPlainMethod (d : Declaration) (owner : String) : Prop where
  linkage : d.linkage = .jni
  owner_eq : d.owner = some owner
  names : ValidNames owner d.name
  params : ∀ p ∈ d.signature.params, p ≠ .void ∧ p.WellFormed ∧ p.HasPlainName

/-! ## Plain descriptors -/

theorem Symbol.SeparatorsKept.append_cons {s t : List Char} {c : Char} (hs : SeparatorsKept s)
    (hlow : isLowDigit c = false) (ht : SeparatorsKept (c :: t)) : SeparatorsKept (s ++ c :: t) := by
  induction s with
  | nil => exact ht
  | cons d s ih =>
    refine ⟨fun hd => ?_, ih hs.2⟩
    cases s with
    | nil => simp [hlow]
    | cons e s => exact hs.1 hd

theorem Symbol.separatorsKept_cons {c : Char} (hc : isSeparator c = false) {t : List Char}
    (ht : SeparatorsKept t) : SeparatorsKept (c :: t) := by
  refine ⟨fun hsep => ?_, ht⟩
  rw [hc] at hsep
  cases hsep

namespace JvmType

theorem separatorsKept_spell_append {p : JvmType} (h : p.HasPlainName) {t : List Char}
    (ht : SeparatorsKept t) : SeparatorsKept (p.spell ++ t) := by
  induction p with
  | void => exact separatorsKept_cons rfl ht
  | primitive p => exact separatorsKept_cons (by cases p <;> rfl) ht
  | object name =>
    rw [spell, List.cons_append, List.cons_append, List.append_assoc]
    exact separatorsKept_cons rfl (SeparatorsKept.append_cons h.2 rfl (separatorsKept_cons rfl ht))
  | array element ih => exact separatorsKept_cons rfl (ih h)

theorem dot_notMem_spell {p : JvmType} (h : p.HasPlainName) : '.' ∉ p.spell := by
  induction p with
  | void => decide
  | primitive p => cases p <;> decide
  | object name => simpa [spell] using h.1
  | array element ih => simpa [spell] using ih h

end JvmType

theorem separatorsKept_flatMap_spell {params : List JvmType} (h : ∀ p ∈ params, p.HasPlainName) :
    SeparatorsKept (params.flatMap JvmType.spell) := by
  induction params with
  | nil => trivial
  | cons p params ih =>
    rw [List.flatMap_cons]
    exact JvmType.separatorsKept_spell_append (h p List.mem_cons_self)
      (ih fun q hq => h q (List.mem_cons_of_mem _ hq))

theorem dot_notMem_flatMap_spell {params : List JvmType} (h : ∀ p ∈ params, p.HasPlainName) :
    '.' ∉ params.flatMap JvmType.spell := by
  rw [List.mem_flatMap]
  rintro ⟨p, hp, hdot⟩
  exact JvmType.dot_notMem_spell (h p hp) hdot

/-! ## The symbols of a class do not depend on its form -/

theorem escapeChars_dotted (owner : String) :
    escapeChars (dotted owner).toList = escapeChars owner.toList := by
  have hchar (c : Char) : (Utf16.encodeChar (if c = '/' then '.' else c)).flatMap escapeUnit =
      (Utf16.encodeChar c).flatMap escapeUnit := by
    split
    next hc => subst hc; rfl
    next => rfl
  rw [dotted, String.toList_ofList]
  simp only [escapeChars, Utf16.encode, List.flatMap_assoc, List.flatMap_map, hchar]

theorem shortChars_congr {owner owner' : String}
    (h : dotted owner = dotted owner') (method : String) :
    shortChars owner method = shortChars owner' method := by
  rw [shortChars, shortChars, ← escapeChars_dotted owner, h, escapeChars_dotted owner']

namespace Declaration

theorem IsPlainMethod.symbols_eq {d : Declaration} {owner : String} (h : d.IsPlainMethod owner) :
    d.symbols = [short owner d.name, long owner d.name d.signature] := by
  rw [symbols, h.linkage, h.owner_eq]

/-- The short symbol of a plain method is read as its names. -/
theorem IsPlainMethod.read_short {d : Declaration} {owner : String} (h : d.IsPlainMethod owner) :
    Symbol.ofText (short owner d.name) = .ok ⟨dotted owner, d.name, none⟩ := by
  rw [short_eq]
  exact ofText_written h.names nofun

/-- The long symbol of a plain method is read as its names and its parameters. -/
theorem IsPlainMethod.read_long {d : Declaration} {owner : String} (h : d.IsPlainMethod owner) :
    Symbol.ofText (long owner d.name d.signature) =
      .ok ⟨dotted owner, d.name, some d.signature.paramsDescriptor⟩ := by
  have hplain : ∀ p ∈ d.signature.params, p.HasPlainName := fun p hp => (h.params p hp).2.2
  have hargs : ∀ a ∈ some d.signature.spellParams,
      SeparatorsKept a ∧ a.head?.any isLowDigit = false := by
    rintro a ⟨⟩
    exact ⟨separatorsKept_flatMap_spell hplain, isLowDigit_head?_spellParams d.signature⟩
  have hslashed : slashed d.signature.spellParams = d.signature.spellParams :=
    slashed_eq_self (dot_notMem_flatMap_spell hplain)
  rw [long_eq, ofText_written h.names hargs, Option.map_some, hslashed, Signature.paramsDescriptor]

/-- Parameters of plain methods are told apart by their descriptors. -/
theorem IsPlainMethod.params_eq {d₁ d₂ : Declaration} {owner₁ owner₂ : String}
    (h₁ : d₁.IsPlainMethod owner₁) (h₂ : d₂.IsPlainMethod owner₂)
    (h : d₁.signature.paramsDescriptor = d₂.signature.paramsDescriptor) :
    d₁.signature.params = d₂.signature.params :=
  Signature.params_eq_of_spellParams_eq
    (fun p hp => ⟨(h₁.params p hp).1, (h₁.params p hp).2.1⟩)
    (fun p hp => ⟨(h₂.params p hp).1, (h₂.params p hp).2.1⟩) (String.ofList_inj.mp h)

/-- The symbols of two methods agree exactly as far as class, method and parameters do: the short
ones in class and method, the long ones in the parameters as well, a short one with a long one
never. -/
theorem symbols_eq_iff {d₁ d₂ : Declaration} {owner₁ owner₂ : String}
    (h₁ : d₁.IsPlainMethod owner₁) (h₂ : d₂.IsPlainMethod owner₂) :
    ∃ short₁ long₁ short₂ long₂, d₁.symbols = [short₁, long₁] ∧ d₂.symbols = [short₂, long₂] ∧
      (short₁ = short₂ ↔ dotted owner₁ = dotted owner₂ ∧ d₁.name = d₂.name) ∧
      (long₁ = long₂ ↔ dotted owner₁ = dotted owner₂ ∧ d₁.name = d₂.name ∧
        d₁.signature.params = d₂.signature.params) ∧
      short₁ ≠ long₂ ∧ long₁ ≠ short₂ := by
  -- equal symbols are read as both methods, and reading has one answer
  refine ⟨_, _, _, _, h₁.symbols_eq, h₂.symbols_eq, ⟨fun h => ?_, ?_⟩, ⟨fun h => ?_, ?_⟩,
    fun h => ?_, fun h => ?_⟩
  · have hread := h₁.read_short
    rw [h, h₂.read_short] at hread
    simp only [Except.ok.injEq, Symbol.mk.injEq, and_true] at hread
    exact ⟨hread.1.symm, hread.2.symm⟩
  · rintro ⟨howner, hname⟩
    rw [short, short, hname, shortChars_congr howner]
  · have hread := h₁.read_long
    rw [h, h₂.read_long] at hread
    simp only [Except.ok.injEq, Symbol.mk.injEq, Option.some.injEq] at hread
    exact ⟨hread.1.symm, hread.2.1.symm, h₁.params_eq h₂ hread.2.2.symm⟩
  · rintro ⟨howner, hname, hparams⟩
    rw [long, long, hname, shortChars_congr howner, Signature.spellParams, hparams,
      Signature.spellParams]
  · have hread := h₁.read_short
    rw [h, h₂.read_long] at hread
    simp only [Except.ok.injEq, Symbol.mk.injEq, reduceCtorEq, and_false] at hread
  · have hread := h₂.read_short
    rw [← h, h₁.read_long] at hread
    simp only [Except.ok.injEq, Symbol.mk.injEq, reduceCtorEq, and_false] at hread

/-- Two overloads, the class of one in slashed form, have the short symbol in common and no other. -/
theorem symbols_eq_iff_overloads :
    IsPlainMethod ⟨some "a/B", "f", ⟨[.array (.primitive .int)], .void⟩, .jni⟩ "a/B" ∧
      IsPlainMethod ⟨some "a.B", "f", ⟨[.object "x_/Y", .primitive .int], .void⟩, .jni⟩ "a.B" ∧
      ∃ short₁ long₁ short₂ long₂,
        symbols ⟨some "a/B", "f", ⟨[.array (.primitive .int)], .void⟩, .jni⟩ = [short₁, long₁] ∧
        symbols ⟨some "a.B", "f", ⟨[.object "x_/Y", .primitive .int], .void⟩, .jni⟩ =
          [short₂, long₂] ∧
        short₁ = short₂ ∧ long₁ ≠ long₂ ∧ short₁ ≠ long₂ ∧ long₁ ≠ short₂ := by
  have h₁ : IsPlainMethod ⟨some "a/B", "f", ⟨[.array (.primitive .int)], .void⟩, .jni⟩ "a/B" := by
    refine ⟨rfl, rfl, by decide +kernel, fun p hp => ?_⟩
    rw [List.mem_singleton] at hp
    subst hp
    exact ⟨nofun, ⟨nofun, trivial⟩, trivial⟩
  have h₂ : IsPlainMethod ⟨some "a.B", "f", ⟨[.object "x_/Y", .primitive .int], .void⟩, .jni⟩
      "a.B" := by
    refine ⟨rfl, rfl, by decide +kernel, fun p hp => ?_⟩
    rw [List.mem_cons, List.mem_singleton] at hp
    rcases hp with rfl | rfl
    · exact ⟨nofun, ⟨by decide, by decide +kernel⟩, by decide +kernel, by decide +kernel⟩
    · exact ⟨nofun, trivial, trivial⟩
  obtain ⟨s₁, l₁, s₂, l₂, hs₁, hs₂, hshort, hlong, hne, hne'⟩ := symbols_eq_iff h₁ h₂
  refine ⟨h₁, h₂, s₁, l₁, s₂, l₂, hs₁, hs₂, hshort.mpr ⟨by decide +kernel, rfl⟩, ?_, hne, hne'⟩
  intro h
  exact absurd (hlong.mp h).2.2 (by decide)

end Declaration

end JniLink
