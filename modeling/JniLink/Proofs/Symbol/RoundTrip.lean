import JniLink.Declaration
import JniLink.Proofs.Descriptor
import JniLink.Proofs.Symbol.Reading

/-!
# Symbols are read back

A class and a method come back from their short symbol, the class in dotted form, exactly if the
names are valid: no part of them is empty, the method is one part, and no part but the first one of
the class begins with a low digit. Then the long symbol gives back the parameters as well, whatever
types they have, as long as no separator in their descriptors has a low digit behind it.

That nothing else comes back is an argument on lengths. A symbol holds one unit for every unit of
the names and none of its own; where names are not valid a unit is lost on the way, or the marker of
the parameters is found inside of them, or a part is empty and the symbol is refused.
-/

namespace JniLink.Symbol

open JniLink.Text

/-! ## Valid names -/

/-- The names of a class and a method that a symbol can hold. -/
structure ValidNames (owner method : String) : Prop where
  /-- No part of the class is empty. -/
  parts : ∀ part ∈ splitWhere isSeparator owner.toList, part ≠ []
  method_ne : method ≠ ""
  /-- The method is one part. -/
  flat : ∀ c ∈ method.toList, isSeparator c = false
  /-- Neither the method nor a later part of the class begins with a low digit. -/
  starts : ∀ part ∈ method.toList :: (splitWhere isSeparator owner.toList).tail,
    part.head?.any isLowDigit = false

theorem validNames_iff {owner method : String} : ValidNames owner method ↔
    ((splitWhere isSeparator owner.toList).all (!·.isEmpty) && method != "" &&
      method.toList.all (!isSeparator ·) &&
      (method.toList :: (splitWhere isSeparator owner.toList).tail).all
        (!·.head?.any isLowDigit)) = true := by
  simp only [Bool.and_eq_true, List.all_eq_true, Bool.not_eq_true', bne_iff_ne,
    List.isEmpty_eq_false_iff]
  exact ⟨fun ⟨h₁, h₂, h₃, h₄⟩ => ⟨⟨⟨h₁, h₂⟩, h₃⟩, h₄⟩, fun ⟨⟨⟨h₁, h₂⟩, h₃⟩, h₄⟩ => ⟨h₁, h₂, h₃, h₄⟩⟩

instance (owner method : String) : Decidable (ValidNames owner method) :=
  decidable_of_iff' _ validNames_iff

/-- A class and a method as one text. -/
def fullName (owner method : String) : List Char := owner.toList ++ '/' :: method.toList

theorem shortChars_eq (owner method : String) :
    shortChars owner method = opening ++ escapeChars (fullName owner method) := by
  simp only [shortChars, escapeChars, Utf16.encode, fullName, List.flatMap_append,
    List.flatMap_cons, List.append_assoc]
  rfl

theorem splitWhere_fullName (owner method : String) :
    splitWhere isSeparator (fullName owner method) =
      splitWhere isSeparator owner.toList ++ splitWhere isSeparator method.toList :=
  splitWhere_append_cons rfl _ _

/-- The parts of a class are followed by the method as one part. -/
theorem ValidNames.splitWhere_eq {owner method : String} (h : ValidNames owner method) :
    splitWhere isSeparator (fullName owner method) =
      splitWhere isSeparator owner.toList ++ [method.toList] := by
  rw [splitWhere_fullName, splitWhere_eq_singleton h.flat]

theorem separatorsInside_iff (t : List Char) : SeparatorsInside t ↔
    ∀ piece ∈ (splitWhere isSeparator t).tail, piece ≠ [] ∧ piece.head?.any isLowDigit = false := by
  rw [SeparatorsInside, afterSeparators_iff]
  · refine forall₂_congr fun piece hpiece => ?_
    cases piece with
    | nil => simp
    | cons c piece =>
      have hc := not_of_mem_splitWhere (List.mem_of_mem_tail hpiece) (List.mem_cons_self (a := c))
      simp [hc]
  · intro c hc
    simp [hc]

theorem ValidNames.separatorsInside {owner method : String} (h : ValidNames owner method) :
    SeparatorsInside (fullName owner method) := by
  rw [separatorsInside_iff, h.splitWhere_eq,
    List.tail_append_of_ne_nil (splitWhere_ne_nil _ _)]
  intro piece hpiece
  rcases List.mem_append.mp hpiece with hpiece | hpiece
  · exact ⟨h.parts piece (List.mem_of_mem_tail hpiece),
      h.starts piece (List.mem_cons_of_mem _ hpiece)⟩
  · rw [List.mem_singleton] at hpiece
    subst hpiece
    exact ⟨fun hnil => h.method_ne (String.toList_eq_nil_iff.mp hnil), h.starts _ List.mem_cons_self⟩

theorem SeparatorsInside.kept {t : List Char} (h : SeparatorsInside t) : SeparatorsKept t := by
  rw [separatorsInside_iff] at h
  rw [separatorsKept_iff]
  exact fun piece hpiece => (h piece hpiece).2

/-! ## Splitting a decoded name -/

/-- A text without dots is its own slashed form. -/
theorem slashed_eq_self {t : List Char} (h : '.' ∉ t) : slashed t = t := by
  have hsame : ∀ c ∈ t, (if c = '.' then '/' else c) = id c := by
    intro c hc
    refine if_neg ?_
    rintro rfl
    exact h hc
  rw [slashed, List.map_congr_left hsame, List.map_id]

theorem splitWhere_slashed (t : List Char) :
    splitWhere (· == '/') (slashed t) = splitWhere isSeparator t := by
  have hslash (c : Char) : ((if c = '.' then '/' else c) == '/') = isSeparator c := by
    by_cases hc : c = '.' <;> simp [hc, isSeparator]
  have hsame : ∀ piece ∈ splitWhere isSeparator t, slashed piece = id piece := by
    intro piece hpiece
    refine slashed_eq_self fun hdot => ?_
    cases not_of_mem_splitWhere hpiece hdot
  rw [slashed, splitWhere_map hslash]
  exact (List.map_congr_left hsame).trans (List.map_id _)

/-- A decoded name is a class and a method if it has at least two parts, none of them empty; the
last part is the method. -/
theorem splitName?_eq_some_iff {name owner method : List Char} :
    splitName? name = some (owner, method) ↔
      ∃ parts, splitWhere (· == '/') name = parts ++ [method] ∧ parts ≠ [] ∧ method ≠ [] ∧
        (∀ part ∈ parts, part ≠ []) ∧ joinWith ['.'] parts = owner := by
  obtain ⟨parts, last, hsplit⟩ := exists_splitWhere_eq_concat (· == '/') name
  have hname : splitName? name =
      if parts.isEmpty || last.isEmpty || parts.any List.isEmpty then none
      else some (joinWith ['.'] parts, last) := by
    simp [splitName?, hsplit]
  rw [hname, hsplit]
  constructor
  · intro h
    split at h
    · cases h
    next hne =>
      cases h
      simp only [Bool.or_eq_true, not_or, List.isEmpty_iff, List.any_eq_true, not_exists,
        not_and] at hne
      exact ⟨parts, rfl, hne.1.1, hne.1.2, hne.2, rfl⟩
  · rintro ⟨parts', hparts, hne, hmethod, hall, rfl⟩
    obtain ⟨rfl, hlast⟩ := List.append_inj' hparts rfl
    cases hlast
    refine if_neg ?_
    simp only [Bool.or_eq_true, not_or, List.isEmpty_iff, List.any_eq_true, not_exists, not_and]
    exact ⟨⟨hne, hmethod⟩, hall⟩

theorem toList_dotted (name : String) :
    (dotted name).toList = joinWith ['.'] (splitWhere isSeparator name.toList) := by
  rw [joinWith_splitWhere, dotted, String.toList_ofList]
  refine List.map_congr_left fun c _ => ?_
  by_cases hdot : c = '.' <;> by_cases hslash : c = '/' <;> simp [isSeparator, hdot, hslash]

/-- Valid names are found in the slashed form of their text. -/
theorem ValidNames.splitName? {owner method : String} (h : ValidNames owner method) :
    splitName? (slashed (fullName owner method)) =
      some ((dotted owner).toList, method.toList) := by
  rw [splitName?_eq_some_iff]
  refine ⟨splitWhere isSeparator owner.toList, ?_, splitWhere_ne_nil _ _, ?_, h.parts,
    (toList_dotted owner).symm⟩
  · rw [splitWhere_slashed, h.splitWhere_eq]
  · exact fun hnil => h.method_ne (String.toList_eq_nil_iff.mp hnil)

/-! ## Reading written symbols -/

/-- The characters that the parameters of an overloaded method add to its symbol. -/
def argsChars : Option (List Char) → List Char
  | none => []
  | some args => '_' :: '_' :: escapeChars args

/-- The marker is found behind the name and nowhere before, and in a short symbol not at all. -/
theorem splitArgs_eq {t : List Char} (h : SeparatorsInside t) {args : Option (List Char)}
    (hargs : ∀ a ∈ args, a.head?.any isLowDigit = false) :
    splitArgs (Utf8.encode (escapeChars t ++ argsChars args)) =
      (textBytes t, args.map textBytes) := by
  rw [Utf8.encode, List.flatMap_append, ← Utf8.encode, ← Utf8.encode, encode_escapeChars]
  cases args with
  | none =>
    have hmarker : argsMarker? (textBytes t ++ Utf8.encode (argsChars none)) = none := by
      rw [argsMarker?, argsMarkerFrom?_textBytes h]
      rfl
    rw [splitArgs, hmarker]
    simp only [argsChars, Utf8.encode, List.flatMap_nil, List.append_nil, Option.map_none]
  | some args =>
    have hbytes : Utf8.encode (argsChars (some args)) =
        underscore :: underscore :: textBytes args := by
      rw [← encode_escapeChars]
      rfl
    have hmarker : argsMarker? (textBytes t ++ underscore :: underscore :: textBytes args) =
        some (textBytes t).length := by
      rw [argsMarker?, argsMarkerFrom?_textBytes h, argsMarkerFrom?_marker, Nat.zero_add]
      rw [head?_textBytes]
      exact hargs args rfl
    rw [hbytes, splitArgs, hmarker]
    simp only [List.take_left, List.drop_length_add_append, List.drop_succ_cons, List.drop_zero,
      Option.map_some]

/-- What is written for valid names is read back, with or without parameters. -/
theorem ofText_written {owner method : String} (h : ValidNames owner method)
    {args : Option (List Char)}
    (hargs : ∀ a ∈ args, SeparatorsKept a ∧ a.head?.any isLowDigit = false) :
    ofText (String.ofList (shortChars owner method ++ argsChars args)) =
      .ok ⟨dotted owner, method, args.map fun a => String.ofList (slashed a)⟩ := by
  have hbody : stripStart? opening (shortChars owner method ++ argsChars args) =
      some (escapeChars (fullName owner method) ++ argsChars args) := by
    rw [stripStart?_eq_some_iff, shortChars_eq, List.append_assoc]
  have hsplit := splitArgs_eq h.separatorsInside fun a ha => (hargs a ha).2
  have hname := readPart?_textBytes h.separatorsInside.kept
  simp only [ofText, String.toList_ofList, hbody, hsplit, hname, h.splitName?, String.ofList_toList]
  cases args with
  | none => rfl
  | some a => simp only [Option.map_some, readPart?_textBytes (hargs a rfl).1]

/-! ## What is read comes from valid names -/

/-- Separators have one unit each, in whatever form they are written. -/
theorem length_encode_joinWith_splitWhere {p : Char → Bool}
    (hp : ∀ c, p c = true → isSeparator c = true) (t : List Char) :
    (Utf16.encode (joinWith ['.'] (splitWhere p t))).length = (Utf16.encode t).length := by
  rw [joinWith_splitWhere]
  induction t with
  | nil => rfl
  | cons c t ih =>
    have hchar : (Utf16.encodeChar (if p c then '.' else c)).length =
        (Utf16.encodeChar c).length := by
      split
      next hc => rw [length_encodeChar_of_isSeparator (hp c hc)]; rfl
      next => rfl
    rw [List.map_cons, Utf16.length_encode_cons, Utf16.length_encode_cons, hchar, ih]

/-- A symbol that is read without parameters is decoded as one name. -/
theorem of_ofText {body : List Char} {s : Symbol}
    (h : ofText (String.ofList (opening ++ body)) = .ok s) (hargs : s.args = none) :
    ∃ name owner method, readPart? (Utf8.encode body) = some name ∧
      Symbol.splitName? name = some (owner, method) ∧
      s = ⟨String.ofList owner, String.ofList method, none⟩ := by
  have hbody : stripStart? opening (opening ++ body) = some body :=
    stripStart?_eq_some_iff.mpr rfl
  simp only [ofText, String.toList_ofList, hbody, splitArgs] at h
  cases hmarker : argsMarker? (Utf8.encode body) with
  | none =>
    simp only [hmarker] at h
    split at h
    · cases h
    next name hname =>
      split at h
      · cases h
      next owner method hsplit =>
        cases h
        exact ⟨name, owner, method, hname, hsplit, rfl⟩
  | some index =>
    simp only [hmarker] at h
    split at h
    · cases h
    · split at h
      · cases h
      · split at h
        · cases h
        · cases h
          -- a marker is never found without parameters behind it
          cases hargs

/-- A decoded name has as many units as the class and the method that are found in it. -/
theorem length_encode_of_splitName? {name : List Char} {owner method : String}
    (h : splitName? name = some ((dotted owner).toList, method.toList)) :
    (Utf16.encode name).length = (Utf16.encode (fullName owner method)).length := by
  obtain ⟨parts, hparts, hne, -, -, hjoin⟩ := splitName?_eq_some_iff.mp h
  have hslash : ∀ c, (c == '/') = true → isSeparator c = true := fun c hc => by
    simp [isSeparator, hc]
  calc (Utf16.encode name).length
      = (Utf16.encode (joinWith ['.'] (splitWhere (· == '/') name))).length :=
        (length_encode_joinWith_splitWhere hslash name).symm
    _ = (Utf16.encode (dotted owner).toList).length + 1 +
          (Utf16.encode method.toList).length := by
        rw [hparts, joinWith_concat hne, hjoin, Utf16.length_encode_append,
          Utf16.length_encode_append]
        rfl
    _ = (Utf16.encode owner.toList).length + 1 + (Utf16.encode method.toList).length := by
        rw [toList_dotted, length_encode_joinWith_splitWhere fun c hc => hc]
    _ = (Utf16.encode (fullName owner method)).length := by
        rw [fullName, Utf16.length_encode_append, Utf16.length_encode_cons, Nat.add_assoc]
        rfl

/-- A method that is the last part of the full name is one part. -/
theorem flat_of_splitWhere_fullName {owner method : String} {parts : List (List Char)}
    (h : splitWhere isSeparator (fullName owner method) = parts ++ [method.toList]) :
    (∀ c ∈ method.toList, isSeparator c = false) ∧ splitWhere isSeparator owner.toList = parts := by
  obtain ⟨pieces, last, hsplit⟩ := exists_splitWhere_eq_concat isSeparator method.toList
  rw [splitWhere_fullName] at h
  have hlast : last = method.toList := by
    rw [hsplit, ← List.append_assoc] at h
    exact List.singleton_inj.mp (List.append_inj' h rfl).2
  have hflat : ∀ c ∈ method.toList, isSeparator c = false := by
    intro c hc
    refine not_of_mem_splitWhere (t := method.toList) ?_ hc
    rw [hsplit, hlast]
    exact List.mem_append_right _ List.mem_cons_self
  rw [splitWhere_eq_singleton hflat] at h
  exact ⟨hflat, List.append_cancel_right h⟩

/-- A full name whose separators stay and in which the class and the method are found is one of
valid names. -/
theorem validNames_of_splitName? {owner method : String}
    (hkept : SeparatorsKept (fullName owner method))
    (h : splitName? (slashed (fullName owner method)) =
      some ((dotted owner).toList, method.toList)) : ValidNames owner method := by
  obtain ⟨parts, hparts, hne, hmethod, hall, -⟩ := splitName?_eq_some_iff.mp h
  rw [splitWhere_slashed] at hparts
  obtain ⟨hflat, rfl⟩ := flat_of_splitWhere_fullName hparts
  rw [separatorsKept_iff, hparts, List.tail_append_of_ne_nil hne] at hkept
  refine ⟨hall, ?_, hflat, fun part hpart => ?_⟩
  · rintro rfl
    exact hmethod rfl
  · rcases List.mem_cons.mp hpart with rfl | hpart
    · exact hkept _ (List.mem_append_right _ List.mem_cons_self)
    · exact hkept _ (List.mem_append_left _ hpart)

theorem validNames_of_ofText {owner method : String}
    (h : ofText (short owner method) = .ok ⟨dotted owner, method, none⟩) :
    ValidNames owner method := by
  rw [short, shortChars_eq] at h
  obtain ⟨name, o, m, hread, hsplit, heq⟩ := of_ofText h rfl
  rw [encode_escapeChars, readPart?, Option.bind_eq_some_iff] at hread
  obtain ⟨us, hus, hname⟩ := hread
  injection heq with howner hm
  have ho : o = (dotted owner).toList := by rw [howner, String.toList_ofList]
  have hm : m = method.toList := by rw [hm, String.toList_ofList]
  subst ho hm
  -- as many units were read as the names have, so no separator was lost
  have hlength : us.length = (Utf16.encode (fullName owner method)).length := by
    rw [← Utf16.encode_of_decode? hname, length_encode_of_splitName? hsplit]
  have hkept := (length_readUnits? hus).2 hlength
  rw [readUnits?_textBytes hkept, Option.some.injEq] at hus
  rw [← hus, Utf16.decode?_encode, Option.some.injEq] at hname
  subst hname
  exact validNames_of_splitName? hkept hsplit

/-! ## Round trips -/

theorem short_eq (owner method : String) :
    short owner method = String.ofList (shortChars owner method ++ argsChars none) := by
  rw [argsChars, List.append_nil, short]

theorem long_eq (owner method : String) (s : Signature) :
    long owner method s = String.ofList (shortChars owner method ++ argsChars (some s.spellParams)) :=
  rfl

/-- No parameter list begins with a digit. -/
theorem isLowDigit_head?_spellParams (s : Signature) :
    s.spellParams.head?.any isLowDigit = false := by
  rw [Signature.spellParams]
  cases s.params with
  | nil => rfl
  | cons p params =>
    obtain ⟨c, r, hspell, hc⟩ := p.spell_eq_cons
    rw [List.flatMap_cons, hspell, List.cons_append, List.head?_cons, Option.any_some,
      ← Bool.not_eq_true, isLowDigit_iff]
    intro hlow
    have hlt : '9'.toNat < c.toNat := hc
    rw [show '9'.toNat = 0x39 from rfl] at hlt
    omega

/-- A short symbol is read back as the class and the method it was written for exactly if their
names are valid. -/
theorem ofText_short_eq_ok_iff (owner method : String) :
    ofText (short owner method) = .ok ⟨dotted owner, method, none⟩ ↔
      ValidNames owner method := by
  constructor
  · exact validNames_of_ofText
  · intro h
    rw [short_eq]
    exact ofText_written h nofun

/-- A long symbol of valid names is read back with its parameter descriptors in slashed form, if
no separator in them has a low digit behind it. -/
theorem ofText_long {owner method : String} (h : ValidNames owner method) {s : Signature}
    (hs : SeparatorsKept s.paramsDescriptor.toList) :
    ofText (long owner method s) =
      .ok ⟨dotted owner, method,
        some (String.ofList (slashed s.paramsDescriptor.toList))⟩ := by
  rw [Signature.paramsDescriptor, String.toList_ofList] at hs ⊢
  rw [long_eq]
  refine ofText_written h fun a ha => ?_
  cases ha
  exact ⟨hs, isLowDigit_head?_spellParams s⟩

/-- Here the marker has to be told from a separator before an escape (`__00e9`), and an array follows
it (`___3I`). -/
theorem ofText_long_array :
    ValidNames "com/ex_ample.Outer$In" "é_" ∧
      SeparatorsKept (Signature.paramsDescriptor
        ⟨[.array (.primitive .int), .object "a.b_c/😀"], .void⟩).toList ∧
      ofText (long "com/ex_ample.Outer$In" "é_"
          ⟨[.array (.primitive .int), .object "a.b_c/😀"], .void⟩) =
        .ok ⟨"com.ex_ample.Outer$In", "é_", some "[ILa/b_c/😀;"⟩ := by
  have h : ValidNames "com/ex_ample.Outer$In" "é_" := by decide +kernel
  have hs : SeparatorsKept (Signature.paramsDescriptor
      ⟨[.array (.primitive .int), .object "a.b_c/😀"], .void⟩).toList := by decide +kernel
  refine ⟨h, hs, (ofText_long h hs).trans ?_⟩
  rfl

end JniLink.Symbol
