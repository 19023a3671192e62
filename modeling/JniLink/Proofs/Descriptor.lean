import JniLink.Proofs.Text.Split
import JniLink.Signature

/-!
# Descriptors are read back

Reading a descriptor undoes writing it, and nothing else is read: `read` answers a type and a rest
exactly if the text is the spelling of a well-formed type with that rest behind it. A spelling is
self-delimiting. A letter ends with itself, a class name with its first `;`, an array with its
element, and so a list of parameters needs no separators; the parenthesis that closes it begins no
type.

The last section collects both laws for types and for method descriptors. They do not say with which
fault a text that is no descriptor is refused.
-/

namespace JniLink

namespace Primitive

theorem tag_of_ofTag? {c : Char} {p : Primitive} (h : ofTag? c = some p) : p.tag = c := by
  unfold ofTag? at h
  split at h <;> cases h <;> rfl

theorem digits_lt_tag (p : Primitive) : '9' < p.tag := by
  cases p <;> decide

end Primitive

namespace JvmType

/-! ## Types -/

theorem readName_append {name : String} (h : IsClassName name) (rest : List Char) :
    readName (name.toList ++ ';' :: rest) = .ok (.object name, rest) := by
  have hne : name.toList ≠ [] := fun hnil => h.1 (String.toList_eq_nil_iff.mp hnil)
  have hall : ∀ c ∈ name.toList, (c != ';') = true := by
    intro c hc
    simpa using fun heq : c = ';' => h.2 (heq ▸ hc)
  unfold readName
  rw [List.dropWhile_append_of_pos hall, List.takeWhile_append_of_pos hall]
  simp [hne]

theorem of_readName {t rest : List Char} {ty : JvmType} (h : readName t = .ok (ty, rest)) :
    ∃ name, ty = .object name ∧ IsClassName name ∧ t = name.toList ++ ';' :: rest := by
  unfold readName at h
  split at h
  · cases h
  next c rest' hdrop =>
    split at h
    · cases h
    next hne =>
      cases h
      have hclear : ';' ∉ t.takeWhile (· != ';') := fun hmem => by
        simpa using List.all_eq_true.mp List.all_takeWhile _ hmem
      refine ⟨_, rfl, ⟨fun hempty => hne (String.ofList_eq_empty_iff.mp hempty), ?_⟩, ?_⟩
      · simpa using hclear
      · rw [String.toList_ofList]
        exact (Text.takeWhile_append_of_dropWhile_ne hdrop).symm

/-- Reading takes a spelling off the front of any text. -/
theorem read_spell_append {t : JvmType} (h : t.WellFormed) (rest : List Char) :
    read (t.spell ++ rest) = .ok (t, rest) := by
  induction t with
  | void => rfl
  | primitive p => cases p <;> rfl
  | object name =>
    simpa [spell, read] using readName_append h rest
  | array element ih =>
    obtain ⟨hne, hwf⟩ := h
    have hread := ih hwf
    cases element with
    | void => exact absurd rfl hne
    | _ => simp only [spell, List.cons_append, read] at hread ⊢; rw [hread]

/-- Whatever is read stands at the front of the text, and a descriptor can spell it. -/
theorem of_read {t rest : List Char} {ty : JvmType} (h : read t = .ok (ty, rest)) :
    ty.WellFormed ∧ t = ty.spell ++ rest := by
  fun_induction read t generalizing ty rest with
  | case1 | case2 | case3 => cases h
  -- an array: its element is not void, or nothing would have been read
  | case4 r element rest' hvoid hr ih =>
    cases h
    obtain ⟨hwf, rfl⟩ := ih hr
    exact ⟨⟨fun heq => hvoid heq, hwf⟩, rfl⟩
  | case5 r =>
    obtain ⟨name, rfl, hname, rfl⟩ := of_readName h
    exact ⟨hname, by simp [spell]⟩
  | case6 r =>
    cases h
    exact ⟨trivial, rfl⟩
  | case7 c r _ _ _ p hp =>
    cases h
    exact ⟨trivial, by rw [spell, Primitive.tag_of_ofTag? hp]; rfl⟩
  | case8 => cases h

theorem read_eq_ok_iff {t rest : List Char} {ty : JvmType} :
    read t = .ok (ty, rest) ↔ ty.WellFormed ∧ t = ty.spell ++ rest := by
  constructor
  · exact of_read
  · rintro ⟨hwf, rfl⟩
    exact read_spell_append hwf rest

theorem ofDescriptor_eq_ok_iff {text : String} {t : JvmType} :
    ofDescriptor text = .ok t ↔ t.WellFormed ∧ t.descriptor = text := by
  have hread : ofDescriptor text = .ok t ↔ read text.toList = .ok (t, []) := by
    unfold ofDescriptor
    split <;> simp_all
  rw [hread, read_eq_ok_iff, List.append_nil, descriptor, ← String.toList_inj, String.toList_ofList,
    eq_comm (a := t.spell)]

/-- A spelling begins with a letter or a bracket, which are above all digits and parentheses. -/
theorem spell_eq_cons (t : JvmType) : ∃ c r, t.spell = c :: r ∧ '9' < c := by
  cases t with
  | void => exact ⟨'V', [], rfl, by decide⟩
  | primitive p => exact ⟨p.tag, [], rfl, p.digits_lt_tag⟩
  | object name => exact ⟨'L', _, rfl, by decide⟩
  | array element => exact ⟨'[', _, rfl, by decide⟩

end JvmType

namespace Signature

/-! ## Method descriptors -/

theorem readParams_spell_append {params : List JvmType}
    (h : ∀ p ∈ params, p ≠ .void ∧ p.WellFormed) (rest : List Char) :
    readParams (params.flatMap JvmType.spell ++ ')' :: rest) = .ok (params, rest) := by
  induction params with
  | nil => rw [List.flatMap_nil, List.nil_append, readParams]
  | cons p params ih =>
    obtain ⟨hne, hwf⟩ := h p List.mem_cons_self
    obtain ⟨c, r, hspell, hc⟩ := p.spell_eq_cons
    have hread := JvmType.read_spell_append hwf (params.flatMap JvmType.spell ++ ')' :: rest)
    have htail := ih fun q hq => h q (List.mem_cons_of_mem _ hq)
    rw [hspell, List.cons_append] at hread
    -- no spelling begins with a parenthesis, so another parameter is read
    rw [List.flatMap_cons, List.append_assoc, hspell, List.cons_append, readParams]
    · split
      next heq => cases hread.symm.trans heq
      next heq => cases hread.symm.trans heq; exact absurd rfl hne
      next heq => cases hread.symm.trans heq; rw [htail]
    · rintro rfl
      exact absurd hc (by decide)

/-- The parameters that are read are spelled in front of the parenthesis. -/
theorem of_readParams {t rest : List Char} {params : List JvmType}
    (h : readParams t = .ok (params, rest)) :
    (∀ p ∈ params, p ≠ .void ∧ p.WellFormed) ∧
      t = params.flatMap JvmType.spell ++ ')' :: rest := by
  fun_induction readParams t generalizing params rest with
  | case1 => cases h
  | case2 rest' =>
    cases h
    exact ⟨nofun, rfl⟩
  | case3 | case4 | case5 => cases h
  | case6 c r hc param rest' hvoid hread hlt params' rest'' hparams ih =>
    cases h
    obtain ⟨hwf, hspell⟩ := JvmType.of_read hread
    obtain ⟨hall, htail⟩ := ih hparams
    constructor
    · intro p hp
      rcases List.mem_cons.mp hp with rfl | hp
      · exact ⟨fun heq => hvoid heq, hwf⟩
      · exact hall p hp
    · rw [hspell, htail, List.flatMap_cons, List.append_assoc]

/-- Parameters that a descriptor can spell are told apart by their spelling, although nothing
stands between them. -/
theorem params_eq_of_spellParams_eq {s s' : Signature}
    (h : ∀ p ∈ s.params, p ≠ .void ∧ p.WellFormed) (h' : ∀ p ∈ s'.params, p ≠ .void ∧ p.WellFormed)
    (heq : s.spellParams = s'.spellParams) : s.params = s'.params := by
  have hread := readParams_spell_append h []
  have hread' := readParams_spell_append h' []
  rw [← spellParams, heq, spellParams, hread'] at hread
  simp only [Except.ok.injEq, Prod.mk.injEq] at hread
  exact hread.1.symm

theorem read_eq_ok_iff {t : List Char} {s : Signature} :
    read t = .ok s ↔ s.WellFormed ∧ t = s.spell := by
  constructor
  · intro h
    unfold read at h
    split at h
    next r =>
      split at h
      · cases h
      next params rest hparams =>
        split at h
        · cases h
        next ret hret =>
          cases h
          obtain ⟨hall, rfl⟩ := of_readParams hparams
          obtain ⟨hwf, rfl⟩ := JvmType.of_read hret
          exact ⟨⟨hall, hwf⟩, by simp [spell, spellParams]⟩
        · cases h
    · cases h
  · rintro ⟨⟨hall, hwf⟩, rfl⟩
    have hret := JvmType.read_spell_append hwf []
    rw [List.append_nil] at hret
    simp only [spell, spellParams, List.cons_append, read, readParams_spell_append hall, hret]

theorem ofDescriptor_eq_ok_iff {text : String} {s : Signature} :
    ofDescriptor text = .ok s ↔ s.WellFormed ∧ s.descriptor = text := by
  have hread : ofDescriptor text = .ok s ↔ read text.toList = .ok s := by
    unfold ofDescriptor
    split <;> simp_all
  rw [hread, read_eq_ok_iff, descriptor, ← String.toList_inj, String.toList_ofList,
    eq_comm (a := s.spell)]

end Signature

/-! ## Both laws -/

/-- Descriptors and what they spell determine each other, for methods and for types: a text that is
read is the descriptor of what was read, and exactly the well-formed signatures and types come back
from their descriptors. -/
theorem descriptors_read_back :
    (∀ text s, Signature.ofDescriptor text = .ok s → s.descriptor = text) ∧
    (∀ s : Signature, Signature.ofDescriptor s.descriptor = .ok s ↔ s.WellFormed) ∧
    (∀ text t, JvmType.ofDescriptor text = .ok t → t.descriptor = text) ∧
    (∀ t : JvmType, JvmType.ofDescriptor t.descriptor = .ok t ↔ t.WellFormed) := by
  refine ⟨fun text s h => ?_, fun s => ?_, fun text t h => ?_, fun t => ?_⟩
  · exact (Signature.ofDescriptor_eq_ok_iff.mp h).2
  · rw [Signature.ofDescriptor_eq_ok_iff, and_iff_left rfl]
  · exact (JvmType.ofDescriptor_eq_ok_iff.mp h).2
  · rw [JvmType.ofDescriptor_eq_ok_iff, and_iff_left rfl]

/-- Names of classes may hold the signs of other types and characters of any script. -/
theorem descriptors_read_back_nested :
    Signature.ofDescriptor "([La)[(é;[[I)[Lx/Y;" =
        .ok ⟨[.array (.object "a)[(é"), .array (.array (.primitive .int))], .array (.object "x/Y")⟩ ∧
      JvmType.ofDescriptor "[[Lé😀/V;" = .ok (.array (.array (.object "é😀/V"))) ∧
      Signature.descriptor ⟨[.array (.object "a)[(é"), .array (.array (.primitive .int))],
        .array (.object "x/Y")⟩ = "([La)[(é;[[I)[Lx/Y;" ∧
      JvmType.descriptor (.array (.array (.object "é😀/V"))) = "[[Lé😀/V;" := by
  have hs : Signature.ofDescriptor "([La)[(é;[[I)[Lx/Y;" = .ok
      ⟨[.array (.object "a)[(é"), .array (.array (.primitive .int))], .array (.object "x/Y")⟩ := by
    cbv
  have ht : JvmType.ofDescriptor "[[Lé😀/V;" = .ok (.array (.array (.object "é😀/V"))) := by
    cbv
  exact ⟨hs, ht, descriptors_read_back.1 _ _ hs, descriptors_read_back.2.2.1 _ _ ht⟩

end JniLink
