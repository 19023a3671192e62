import JniLink.Proofs.Symbol.Uniqueness
import JniLink.Proofs.Text.Word

/-!
# Short symbols within a class

Within one class the short symbol tells methods apart by their names alone, as long as no name has a
separator in it. Nothing is asked of the class, which both symbols have in common, and so the symbols
need not be readable as a whole. A short symbol is written with word characters, so a library can
export it.
-/

namespace JniLink.Symbol

open JniLink.Text

theorem separatorsKept_of_forall {t : List Char} (h : ∀ c ∈ t, isSeparator c = false) :
    SeparatorsKept t := by
  induction t with
  | nil => trivial
  | cons c t ih =>
    rw [List.forall_mem_cons] at h
    exact separatorsKept_cons h.1 (ih h.2)

/-- Texts without separators are told apart by their escaped forms. -/
theorem escapeChars_inj {s t : List Char} (hs : ∀ c ∈ s, isSeparator c = false)
    (ht : ∀ c ∈ t, isSeparator c = false) (h : escapeChars s = escapeChars t) : s = t := by
  have hread {t : List Char} (ht : ∀ c ∈ t, isSeparator c = false) :
      readPart? (Utf8.encode (escapeChars t)) = some t := by
    have hdot : '.' ∉ t := fun hmem => absurd (ht '.' hmem) (by decide)
    rw [encode_escapeChars, readPart?_textBytes (separatorsKept_of_forall ht), slashed_eq_self hdot]
  exact Option.some.inj ((hread hs).symm.trans (h ▸ hread ht))

theorem short_inj {owner method method' : String}
    (h : ∀ c ∈ method.toList, isSeparator c = false)
    (h' : ∀ c ∈ method'.toList, isSeparator c = false) :
    short owner method = short owner method' ↔ method = method' := by
  refine ⟨fun heq => ?_, fun heq => heq ▸ rfl⟩
  rw [short, short, String.ofList_inj, shortChars, shortChars, List.append_cancel_left_eq,
    List.cons.injEq] at heq
  exact String.toList_inj.mp (escapeChars_inj h h' heq.2)

/-! ## The characters of a symbol -/

theorem isWord_lower {n : Nat} (h : n < 16) : isWord (Hex.lower n) = true := by
  revert n
  decide

theorem isWord_of_mem_escapeUnit {u : UInt16} {c : Char} (h : c ∈ escapeUnit u) :
    isWord c = true := by
  unfold escapeUnit at h
  split at h
  · exact (by decide : ∀ c ∈ ['_'], isWord c = true) c h
  split at h
  · exact (by decide : ∀ c ∈ ['_', '1'], isWord c = true) c h
  split at h
  · exact (by decide : ∀ c ∈ ['_', '2'], isWord c = true) c h
  split at h
  · exact (by decide : ∀ c ∈ ['_', '3'], isWord c = true) c h
  split at h
  next halnum =>
    have hchar : (Char.ofNat u.toNat).toNat = u.toNat :=
      Utf16.toNat_ofNat (by have := lt_of_isAlphanumeric halnum; omega)
    rw [List.mem_singleton.mp h]
    refine isWord_of_isAlphanum (isAlphanum_iff.mpr ?_)
    simp only [isAlphanumeric, Bool.or_eq_true, Bool.and_eq_true, decide_eq_true_eq] at halnum
    omega
  next =>
    have hdigit (n : Nat) : isWord (Hex.lower (n % 16)) = true :=
      isWord_lower (Nat.mod_lt n (by decide))
    simp only [Hex.four, List.cons_append, List.nil_append, List.mem_cons, List.not_mem_nil,
      or_false] at h
    rcases h with rfl | rfl | rfl | rfl | rfl | rfl
    · decide
    · decide
    · exact hdigit _
    · exact hdigit _
    · exact hdigit _
    · exact hdigit _

theorem isWord_of_mem_escapeChars {t : List Char} {c : Char} (h : c ∈ escapeChars t) :
    isWord c = true := by
  obtain ⟨u, -, hc⟩ := List.mem_flatMap.mp h
  exact isWord_of_mem_escapeUnit hc

theorem isWord_of_mem_short {owner method : String} {c : Char}
    (h : c ∈ (short owner method).toList) : isWord c = true := by
  have hopening : ∀ c ∈ opening, isWord c = true := by decide
  rw [short, String.toList_ofList, shortChars, List.mem_append, List.mem_append, List.mem_cons] at h
  rcases h with (h | h) | rfl | h
  · exact hopening c h
  · exact isWord_of_mem_escapeChars h
  · decide
  · exact isWord_of_mem_escapeChars h

theorem isUsable_short (owner method : String) : isUsable (short owner method) = true := by
  have hne : short owner method ≠ "" := by
    intro h
    rw [short, ← String.toList_inj, String.toList_ofList] at h
    cases h
  have hnul : '\x00' ∉ (short owner method).toList := fun h =>
    absurd (isWord_of_mem_short h) (by decide)
  simp [isUsable, hne, hnul]

end JniLink.Symbol
