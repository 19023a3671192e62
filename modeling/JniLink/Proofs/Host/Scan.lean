import JniLink.Proofs.Host.Signature
import JniLink.Proofs.Symbol.Short

/-!
# What is found in a host source

Every native function is found with an identifier for its name, whatever stands around it. So all
methods of a source that was read are methods of its one class, and each of them is told apart from
the others by its short symbol as far as its name does.
-/

namespace JniLink

open JniLink.Text JniLink.Symbol

namespace Host

variable {t rest : List Char} {before : Option Char}

theorem isIdentifier_of_identifier? {name : List Char} (h : identifier? t = some (name, rest)) :
    IsIdentifier name := by
  cases t with
  | nil => cases h
  | cons c t =>
    rw [identifier?] at h
    split at h
    next hc =>
      cases h
      exact ⟨c, _, rfl, hc, fun d hd => List.mem_takeWhile_imp hd⟩
    next => cases h

theorem isIdentifier_of_nameAndParams? {found : List Char × List Char}
    (h : nameAndParams? t = some (found, rest)) : IsIdentifier found.1 := by
  simp only [nameAndParams?, Option.bind_eq_bind, Option.bind_eq_some_iff, Prod.exists] at h
  obtain ⟨name, r, hname, s, -, params, r', -, heq⟩ := h
  cases heq
  exact isIdentifier_of_identifier? hname

theorem isIdentifier_of_kotlinNative {n : Native} (h : kotlinNative before t = some (n, rest)) :
    IsIdentifier n.name := by
  simp only [kotlinNative, Option.bind_eq_bind, Option.bind_eq_some_iff, Prod.exists] at h
  obtain ⟨r, -, s, -, name, params, r', hread, h⟩ := h
  have hname := isIdentifier_of_nameAndParams? hread
  split at h <;> cases h <;> exact hname

theorem isIdentifier_of_javaNative {n : Native} (h : javaNative before t = some (n, rest)) :
    IsIdentifier n.name := by
  obtain ⟨r, -, h⟩ := Option.bind_eq_some_iff.mp h
  obtain ⟨place, -, h⟩ := List.exists_of_findSome?_eq_some h
  simp only [javaTail?, Option.bind_eq_bind, Option.bind_eq_some_iff, Prod.exists] at h
  obtain ⟨ret, s, -, s', -, name, params, r', hread, r'', -, heq⟩ := h
  cases heq
  exact isIdentifier_of_nameAndParams? hread

theorem isIdentifier_of_native {language : Language} {n : Native}
    (h : HostSource.native language before t = some (n, rest)) : IsIdentifier n.name := by
  cases language with
  | kotlin => exact isIdentifier_of_kotlinNative h
  | java => exact isIdentifier_of_javaNative h

theorem IsIdentifier.isSeparator {name : List Char} (h : IsIdentifier name) :
    ∀ c ∈ name, Symbol.isSeparator c = false := by
  intro c hc
  rw [Bool.eq_false_iff]
  intro hseparator
  rcases isSeparator_iff.mp hseparator with rfl | rfl
  · exact absurd (h.isWord _ hc) (by decide)
  · exact absurd (h.isWord _ hc) (by decide)

end Host

/-- A native method of a class as a host source declares it. -/
structure Declaration.IsScanned (owner : String) (d : Declaration) : Prop where
  linkage : d.linkage = .jni
  owner_eq : d.owner = some owner
  name : Host.IsIdentifier d.name.toList

/-- All methods of a source are declared by its class. -/
theorem HostSource.isScanned_of_mem {language : Language} {text : String} {src : HostSource}
    (h : ofText language text = .ok src) {d : Declaration} (hd : d ∈ src.methods) :
    d.IsScanned (dotted src.owner) := by
  obtain ⟨⟨name, rest⟩, -, h⟩ := bind_eq_ok.mp h
  obtain ⟨methods, hmethods, h⟩ := bind_eq_ok.mp h
  cases h
  obtain ⟨n, hn, hread⟩ := exists_of_mem_mapM_eq_ok hmethods hd
  obtain ⟨signature, -, heq⟩ := bind_eq_ok.mp hread
  cases heq
  obtain ⟨before, place, rest', -, hplace⟩ := exists_of_mem_allMatches hn
  refine ⟨rfl, rfl, ?_⟩
  rw [Declaration.ofMethod, String.toList_ofList]
  exact Host.isIdentifier_of_native hplace

namespace Declaration.IsScanned

variable {owner : String} {d d' : Declaration}

theorem mainSymbol_eq (h : d.IsScanned owner) : d.mainSymbol = Symbol.short owner d.name := by
  rw [mainSymbol, h.linkage, h.owner_eq]

theorem symbols_eq (h : d.IsScanned owner) :
    d.symbols = [d.mainSymbol, Symbol.long owner d.name d.signature] := by
  rw [h.mainSymbol_eq, symbols, h.linkage, h.owner_eq]

/-- Methods of one class have their short symbol in common if they have their name in common. -/
theorem mainSymbol_eq_iff (h : d.IsScanned owner) (h' : d'.IsScanned owner) :
    d.mainSymbol = d'.mainSymbol ↔ d.name = d'.name := by
  rw [h.mainSymbol_eq, h'.mainSymbol_eq]
  exact Symbol.short_inj h.name.isSeparator h'.name.isSeparator

end Declaration.IsScanned

end JniLink
