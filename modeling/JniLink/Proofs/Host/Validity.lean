import JniLink.Host.Source
import JniLink.Proofs.Host.Signature
import JniLink.Proofs.JvmType.Validity

/-!
# Which methods have a signature of the virtual machine

A native function is read with a type for each parameter and for the result. Any type that has a
spelling is let through, in every place: a parameter of type `void`, an array of it, a class name
with type arguments or with nothing between two dots. So a method has a signature that the virtual
machine knows exactly if the function that it was read from spells one (`SpellsJvm`).

That a function is read at all is not decided here: one with a type that has no spelling makes the
whole source unreadable.
-/

namespace JniLink

open JniLink.Text JniLink.Host JvmType

namespace Host

/-- The spelling of a parameter's type: behind the colon and up to the default value in Kotlin, the
first word that is no modifier in Java. -/
def paramType : Language → List Char → List Char
  | .kotlin, param => trim (((param.dropWhile (· != ':')).drop 1).takeWhile (· != '='))
  | .java, param => (((words (HostSource.spaceDots param)).filter (· ≠ "final".toList)).head?).getD []

/-- The names in the parameter types of a native function. -/
def Native.paramNames (language : Language) (n : Native) : List (List Char) :=
  (((splitWhere (· == ',') n.params).map trim).filter (· ≠ [])).map fun param =>
    (core language (paramType language param)).2

/-- Whether a native function spells a signature of the virtual machine: every parameter is named
like a value, and the result like a value or nothing. -/
structure Native.SpellsJvm (language : Language) (n : Native) : Prop where
  params : ∀ name ∈ n.paramNames language, IsValueName language name
  ret : ∀ type ∈ n.ret,
    core language type = (0, voidName language) ∨ IsValueName language (core language type).2

instance decidableSpellsJvm (language : Language) (n : Native) :
    Decidable (n.SpellsJvm language) :=
  decidable_of_iff
    ((∀ name ∈ n.paramNames language, IsValueName language name) ∧ ∀ type ∈ n.ret,
      core language type = (0, voidName language) ∨ IsValueName language (core language type).2)
    ⟨fun ⟨params, ret⟩ => ⟨params, ret⟩, fun ⟨params, ret⟩ => ⟨params, ret⟩⟩

end Host

namespace HostSource

variable {language : Language} {method text : List Char} {t : JvmType}

theorem isMade_of_resolve (h : resolve language method text = .ok t) :
    IsMade language (core language text) t := by
  rw [resolve] at h
  split at h
  next hread =>
    cases h
    exact isMade_ofSpelling? hread
  next => cases h

/-! ## Parameters -/

theorem isBlank_of_mem_words {word : List Char} (h : word ∈ words text) :
    ∀ c ∈ word, isBlank c = false :=
  fun _ hc => not_of_mem_splitWhere (List.mem_of_mem_filter h) hc

/-- The dots behind a type make an array of it. -/
theorem core_append_dots (h : ∀ c ∈ text, isBlank c = false) :
    core .java (text ++ ['.', '.', '.']) = ((core .java text).1 + 1, (core .java text).2) := by
  have hpeel : peel? .java (text ++ ['.', '.', '.']) = some (true, text) := by
    rw [peel?, trim_eq_self (isBlank_of_mem_append_dots h), stripJavaArray?_append_dots]
    rfl
  exact core_of_eq_some hpeel

theorem isValue_of_kotlinParam {param : List Char} (h : kotlinParam method param = .ok t) :
    t.IsValue ↔ IsValueName .kotlin (core .kotlin (paramType .kotlin param)).2 := by
  rw [kotlinParam, upTo?] at h
  cases hcut : param.dropWhile (· != ':') with
  | nil =>
    rw [hcut] at h
    cases h
  | cons c rest =>
    rw [hcut] at h
    obtain ⟨type, hread, h⟩ := bind_eq_ok.mp h
    have hmade := isMade_of_resolve hread
    rw [paramType, hcut, List.drop_one, List.tail_cons]
    cases h
    split
    · exact hmade.array.isValue_iff
    · exact hmade.isValue_iff

theorem isValue_of_javaParam {param : List Char} (h : javaParam method param = .ok t) :
    t.IsValue ↔ IsValueName .java (core .java (paramType .java param)).2 := by
  rw [javaParam] at h
  rw [paramType]
  split at h
  next type name hwords =>
    rw [hwords]
    exact (isMade_of_resolve h).isValue_iff
  next type name hwords =>
    have hmem : type ∈ words (spaceDots param) := by
      apply List.mem_of_mem_filter
      rw [hwords]
      exact List.mem_cons_self
    have hmade := isMade_of_resolve h
    rw [core_append_dots (isBlank_of_mem_words hmem)] at hmade
    rw [hwords]
    exact hmade.isValue_iff
  next => cases h

theorem isValue_of_param {param : List Char} (h : HostSource.param language method param = .ok t) :
    t.IsValue ↔ IsValueName language (core language (paramType language param)).2 := by
  cases language with
  | kotlin => exact isValue_of_kotlinParam h
  | java => exact isValue_of_javaParam h

theorem forall_isValue_of_params {n : Native} {types : List JvmType}
    (h : params language method n.params = .ok types) :
    (∀ t ∈ types, t.IsValue) ↔ ∀ name ∈ n.paramNames language, IsValueName language name := by
  rw [Native.paramNames, List.forall_mem_map]
  refine (forall_mem_iff_of_forall₂ ?_).symm
  exact (forall₂_of_mapM_eq_ok h).imp fun _ _ hread => (isValue_of_param hread).symm

/-! ## Methods -/

/-- The result and the parameters are read one after the other, in the order of the language. -/
theorem of_signature_eq_ok {n : Native} {s : Signature} (h : signature language n = .ok s) :
    (match n.ret with
      | some type => resolve language n.name type
      | none => .ok .void) = .ok s.ret ∧ params language n.name n.params = .ok s.params := by
  unfold signature at h
  cases language with
  | kotlin =>
    obtain ⟨types, hparams, h⟩ := bind_eq_ok.mp h
    obtain ⟨ret, hret, h⟩ := bind_eq_ok.mp h
    cases h
    exact ⟨hret, hparams⟩
  | java =>
    obtain ⟨ret, hret, h⟩ := bind_eq_ok.mp h
    obtain ⟨types, hparams, h⟩ := bind_eq_ok.mp h
    cases h
    exact ⟨hret, hparams⟩

theorem isJvm_iff_of_signature {n : Native} {s : Signature} (h : signature language n = .ok s) :
    s.IsJvm ↔ n.SpellsJvm language := by
  obtain ⟨hret, hparams⟩ := of_signature_eq_ok h
  have hresult : s.ret = .void ∨ s.ret.IsValue ↔ ∀ type ∈ n.ret,
      core language type = (0, voidName language) ∨ IsValueName language (core language type).2 := by
    cases htext : n.ret with
    | none =>
      rw [htext, Except.ok.injEq] at hret
      exact iff_of_true (.inl hret.symm) nofun
    | some type =>
      rw [htext] at hret
      rw [(isMade_of_resolve hret).isResult_iff]
      simp only [Option.mem_def, Option.some.injEq, forall_eq']
  rw [Signature.isJvm_iff, hresult, forall_isValue_of_params hparams]
  exact ⟨fun ⟨hparams, hret⟩ => ⟨hparams, hret⟩, fun ⟨hparams, hret⟩ => ⟨hparams, hret⟩⟩

/-- The methods of a source are those of its native functions, in order, and a method has a signature
of the virtual machine if and only if its function spells one. -/
theorem isJvm_methods_iff {text : String} {src : HostSource} (h : ofText language text = .ok src) :
    List.Forall₂ (fun n d => d.signature.IsJvm ↔ n.SpellsJvm language)
      (allMatches (native language) none 0 (stripComments text.toList)) src.methods := by
  obtain ⟨⟨name, rest⟩, -, h⟩ := bind_eq_ok.mp h
  obtain ⟨methods, hmethods, h⟩ := bind_eq_ok.mp h
  cases h
  refine (forall₂_of_mapM_eq_ok hmethods).imp fun n d hread => ?_
  obtain ⟨s, hs, heq⟩ := bind_eq_ok.mp hread
  cases heq
  exact isJvm_iff_of_signature hs

/-- Boxes, an array and nothing in the place of the result are let through, and so is a class name
with nothing between two dots. -/
theorem isJvm_methods_iff_signs :
    ∃ f g : Declaration, (ofText .kotlin
        "class C\nexternal fun f(vararg a: p.T?): Unit?\nexternal fun g(): p..T").map (·.methods) =
          .ok [f, g] ∧
      f.signature.IsJvm ∧ ¬ g.signature.IsJvm := by
  let f := Declaration.ofMethod "C" "f" ⟨[.array (.object "p/T")], .void⟩
  let g := Declaration.ofMethod "C" "g" ⟨[], .object "p//T"⟩
  have hread : ofText .kotlin
      "class C\nexternal fun f(vararg a: p.T?): Unit?\nexternal fun g(): p..T" =
        .ok ⟨.kotlin, "C", [], [f, g]⟩ := by
    decide +kernel
  have hvalid := isJvm_methods_iff hread
  have hnatives : allMatches (native .kotlin) none 0 (stripComments
      "class C\nexternal fun f(vararg a: p.T?): Unit?\nexternal fun g(): p..T".toList) =
        [⟨"f".toList, "vararg a: p.T?".toList, some "Unit?".toList⟩,
          ⟨"g".toList, [], some "p..T".toList⟩] := by
    decide +kernel
  rw [hnatives, List.forall₂_cons, List.forall₂_cons] at hvalid
  obtain ⟨hf, hg, -⟩ := hvalid
  refine ⟨f, g, by rw [hread]; rfl, hf.mpr (by decide +kernel), ?_⟩
  rw [hg]
  decide +kernel

/-- A parameter of type `void` is read, and so is a class with type arguments. -/
theorem not_isJvm_methods :
    ∃ f g : Declaration, (ofText .java ("class C \x7b native void f(void a);" ++
        "native void g(java.util.List<String> a); \x7d")).map (·.methods) = .ok [f, g] ∧
      Signature.ofDescriptor f.signature.descriptor ≠ .ok f.signature ∧
      ¬ ∀ t ∈ g.signature.ret :: g.signature.params, t.AllNames IsSlashedName :=
  ⟨.ofMethod "C" "f" ⟨[.void], .void⟩, .ofMethod "C" "g" ⟨[.object "java/util/List<String>"], .void⟩,
    by decide +kernel, by decide +kernel, by decide +kernel⟩

end HostSource

end JniLink
