import JniLink.Proofs.Symbol.RoundTrip
import JniLink.Proofs.Text.Utf8

/-!
# Canonical symbols are written as they were read

Some texts are read alike, for a unit may be escaped by its number where a shorter form exists, and
the number may be written in digits of either case. A symbol is canonical if no escape in it makes
use of that. What a canonical symbol is read as is written as that symbol again, with the parameters
if there are any, and neither the method nor a part of the class is empty.

A symbol is canonical as a whole, while its name and its parameters are read apart. Both are
canonical by themselves, since the marker between them is found where an escape ends.
-/

namespace JniLink.Symbol

open JniLink.Text

/-! ## Canonical escapes -/

/-- A hexadecimal digit in lower case. -/
def isLowerDigit (b : UInt8) : Bool := (0x30 ≤ b && b ≤ 0x39) || (0x61 ≤ b && b ≤ 0x66)

/-- A unit that has no form but the escape of its number. -/
def needsNumber (u : UInt16) : Bool :=
  !isAlphanumeric u.toNat && !([0x2E, 0x2F, 0x5F, 0x3B, 0x5B] : List UInt16).contains u

/-- Read from left to right, every escape of a number has four digits in lower case and stands for a
unit that needs it. -/
def isCanonical : List UInt8 → Bool
  | [] => true
  | a :: r =>
    if a == underscore then
      match r with
      | [] => true
      | b :: s =>
        if b == 0x30 then
          match s with
          | h :: i :: j :: k :: s =>
            [h, i, j, k].all isLowerDigit && (hexUnit? h i j k).any needsNumber && isCanonical s
          | _ => false
        else if isEscapeDigit b then isCanonical s
        else isCanonical (b :: s)
    else isCanonical r

theorem isCanonical_cons_of_ne {b : UInt8} (h : (b == underscore) = false) (rest : List UInt8) :
    isCanonical (b :: rest) = isCanonical rest := by
  rw [isCanonical.eq_def]
  simp only [h, Bool.false_eq_true, if_false]

theorem isCanonical_mark {d : UInt8} (h : isEscapeDigit d = true) (hzero : d ≠ 0x30)
    (rest : List UInt8) : isCanonical (underscore :: d :: rest) = isCanonical rest := by
  rw [isCanonical.eq_def]
  simp only [beq_self_eq_true, if_true, beq_iff_eq, hzero, if_false, h]

theorem isCanonical_number (h i j k : UInt8) (rest : List UInt8) :
    isCanonical (underscore :: 0x30 :: h :: i :: j :: k :: rest) =
      ([h, i, j, k].all isLowerDigit && (hexUnit? h i j k).any needsNumber && isCanonical rest) := by
  rw [isCanonical.eq_def]
  rfl

theorem isCanonical_separator {rest : List UInt8} (h : rest.head?.any isEscapeDigit = false) :
    isCanonical (underscore :: rest) = isCanonical rest := by
  cases rest with
  | nil => rfl
  | cons b rest =>
    rw [List.head?_cons, Option.any_some] at h
    have hzero : b ≠ 0x30 := by
      rintro rfl
      cases h
    rw [isCanonical.eq_def]
    simp only [beq_self_eq_true, if_true, beq_iff_eq, hzero, if_false, h, Bool.false_eq_true]

/-! ## Escapes of a number -/

theorem exists_digitByte {b : UInt8} (h : isLowerDigit b = true) : ∃ n < 16, b = digitByte n := by
  have hall : ∀ n < 256, isLowerDigit (UInt8.ofNat n) = true →
      ∃ m < 16, UInt8.ofNat n = digitByte m := by decide +kernel
  have hb := hall b.toNat b.toNat_lt
  rw [UInt8.ofNat_toNat] at hb
  exact hb h

/-- Four digits in lower case are the ones in which their number is written. -/
theorem digitByte_of_hexUnit? {h i j k : UInt8} {u : UInt16}
    (hdigits : [h, i, j, k].all isLowerDigit = true) (hu : hexUnit? h i j k = some u) :
    [h, i, j, k] = [digitByte (u.toNat / 4096 % 16), digitByte (u.toNat / 256 % 16),
      digitByte (u.toNat / 16 % 16), digitByte (u.toNat % 16)] := by
  have hdigit := List.all_eq_true.mp hdigits
  obtain ⟨a, ha, rfl⟩ := exists_digitByte (hdigit h (by simp))
  obtain ⟨b, hb, rfl⟩ := exists_digitByte (hdigit i (by simp))
  obtain ⟨c, hc, rfl⟩ := exists_digitByte (hdigit j (by simp))
  obtain ⟨d, hd, rfl⟩ := exists_digitByte (hdigit k (by simp))
  have hnumber := hexUnit?_digitByte (UInt16.ofNat (((a * 16 + b) * 16 + c) * 16 + d))
  rw [Utf16.toNat_unit (by omega), show (((a * 16 + b) * 16 + c) * 16 + d) / 4096 % 16 = a by omega,
    show (((a * 16 + b) * 16 + c) * 16 + d) / 256 % 16 = b by omega,
    show (((a * 16 + b) * 16 + c) * 16 + d) / 16 % 16 = c by omega,
    show (((a * 16 + b) * 16 + c) * 16 + d) % 16 = d by omega, hu, Option.some.injEq] at hnumber
  rw [hnumber, Utf16.toNat_unit (by omega)]
  congr <;> omega

/-- The escape of a number by which a unit is read is the one by which it is written. -/
theorem unitBytes_of_number {h i j k : UInt8} {u : UInt16}
    (hdigits : [h, i, j, k].all isLowerDigit = true) (hu : hexUnit? h i j k = some u)
    (hneeds : needsNumber u = true) : unitBytes u = [underscore, 0x30, h, i, j, k] := by
  have hbytes := digitByte_of_hexUnit? hdigits hu
  simp only [needsNumber, Bool.and_eq_true, Bool.not_eq_true', List.contains_eq_mem,
    decide_eq_false_iff_not, List.mem_cons, List.not_mem_nil, or_false, not_or] at hneeds
  obtain ⟨halpha, hdot, hslash, hmarks⟩ := hneeds
  rcases unitBytes_escape hdot hslash halpha with ⟨d, hd, -⟩ | hescape
  · simp [marks, hmarks] at hd
  · rw [hescape, hbytes]

/-! ## The units that bytes spell -/

/-- How bytes are read as units, piece by piece. -/
inductive Spells : List UInt8 → List UInt16 → Prop
  | nil : Spells [] []
  | alphanumeric {b rest us} (h : isAlphanumeric b.toNat = true) (hrest : Spells rest us) :
      Spells (b :: rest) (b.toUInt16 :: us)
  | mark {d u rest us} (h : (d, u) ∈ marks) (hrest : Spells rest us) :
      Spells (underscore :: d :: rest) (u :: us)
  | number {h i j k u rest us} (hu : hexUnit? h i j k = some u) (hrest : Spells rest us) :
      Spells (underscore :: 0x30 :: h :: i :: j :: k :: rest) (u :: us)
  | separator {rest us} (h : rest.head?.any isEscapeDigit = false) (hrest : Spells rest us) :
      Spells (underscore :: rest) (0x2F :: us)

/-- An underscore is read together with what stands behind it, or alone. -/
theorem spells_underscore {rest : List UInt8} {us : List UInt16}
    (h : readUnits? (underscore :: rest) = some us)
    (ih : ∀ rest' us', rest'.length ≤ rest.length → readUnits? rest' = some us' → Spells rest' us') :
    Spells (underscore :: rest) us := by
  cases hdigit : rest.head?.any isEscapeDigit with
  | false =>
    rw [readUnits?_separator hdigit] at h
    obtain ⟨us', hus', rfl⟩ := Option.map_eq_some_iff.mp h
    exact .separator hdigit (ih rest us' (Nat.le_refl _) hus')
  | true =>
    cases rest with
    | nil => cases hdigit
    | cons d rest =>
      have hmark {u : UInt16} (hd : (d, u) ∈ marks) : Spells (underscore :: d :: rest) us := by
        rw [readUnits?_mark hd] at h
        obtain ⟨us', hus', rfl⟩ := Option.map_eq_some_iff.mp h
        exact .mark hd (ih rest us' (Nat.le_succ _) hus')
      rcases isEscapeDigit_cases hdigit with rfl | rfl | rfl | rfl
      · obtain ⟨a, b, c, e, rest, u, us', rfl, hu, hus', rfl⟩ := exists_of_readUnits?_number h
        refine .number hu (ih rest us' ?_ hus')
        simp only [List.length_cons]
        omega
      · exact @hmark 0x5F (by decide)
      · exact @hmark 0x3B (by decide)
      · exact @hmark 0x5B (by decide)

theorem spells_of_readUnits? {bytes : List UInt8} {us : List UInt16}
    (h : readUnits? bytes = some us) : Spells bytes us := by
  -- an escape takes several bytes away, so the tail is not enough to induct on
  induction hn : bytes.length using Nat.strongRecOn generalizing bytes us with
  | ind n ih =>
    subst hn
    cases bytes with
    | nil =>
      cases h
      exact .nil
    | cons b rest =>
      cases hb : b == underscore with
      | true =>
        rw [beq_iff_eq] at hb
        subst hb
        exact spells_underscore h fun rest' us' hle hus' =>
          ih rest'.length (Nat.lt_succ_of_le hle) hus' rfl
      | false =>
        rw [readUnits?_cons_of_ne hb] at h
        split at h
        next halpha =>
          obtain ⟨us', hus', rfl⟩ := Option.map_eq_some_iff.mp h
          exact .alphanumeric halpha (ih rest.length (Nat.lt_succ_self _) hus' rfl)
        next => cases h

theorem ne_underscore_of_isAlphanumeric {b : UInt8} (h : isAlphanumeric b.toNat = true) :
    (b == underscore) = false := by
  rw [beq_eq_false_iff_ne]
  rintro rfl
  exact absurd h (by decide)

theorem ne_zero_of_mem_marks {m : UInt8 × UInt16} (h : m ∈ marks) : m.1 ≠ 0x30 :=
  List.forall_iff_forall_mem.mp (by decide : marks.Forall fun m => m.1 ≠ 0x30) m h

theorem unitBytes_mark {m : UInt8 × UInt16} (h : m ∈ marks) :
    unitBytes m.2 = [underscore, m.1] ∧ m.2 ≠ 0x2E :=
  List.forall_iff_forall_mem.mp
    (by decide : marks.Forall fun m => unitBytes m.2 = [underscore, m.1] ∧ m.2 ≠ 0x2E) m h

/-- The units of canonical bytes are written as these bytes, and none of them is a dot. -/
theorem Spells.flatMap_unitBytes {bytes : List UInt8} {us : List UInt16} (h : Spells bytes us)
    (hc : isCanonical bytes = true) : us.flatMap unitBytes = bytes ∧ ∀ u ∈ us, u ≠ 0x2E := by
  induction h with
  | nil => exact ⟨rfl, nofun⟩
  | @alphanumeric b rest us halpha _ ih =>
    rw [isCanonical_cons_of_ne (ne_underscore_of_isAlphanumeric halpha)] at hc
    obtain ⟨hbytes, hdot⟩ := ih hc
    have hunit : b.toUInt16.toNat = b.toNat := UInt8.toNat_toUInt16 b
    have hwrite : unitBytes b.toUInt16 = [b] := by
      rw [unitBytes_alphanumeric (by rwa [hunit]), hunit, UInt8.ofNat_toNat]
    have hne : b.toUInt16 ≠ 0x2E := by
      intro heq
      rw [← hunit, heq] at halpha
      cases halpha
    rw [List.flatMap_cons, hwrite, hbytes]
    exact ⟨rfl, List.forall_mem_cons.mpr ⟨hne, hdot⟩⟩
  | @mark d u rest us hd _ ih =>
    rw [isCanonical_mark (isEscapeDigit_of_mem_marks _ hd) (ne_zero_of_mem_marks hd)] at hc
    obtain ⟨hbytes, hdot⟩ := ih hc
    obtain ⟨hwrite, hne⟩ := unitBytes_mark hd
    rw [List.flatMap_cons, hwrite, hbytes]
    exact ⟨rfl, List.forall_mem_cons.mpr ⟨hne, hdot⟩⟩
  | @number h i j k u rest us hu _ ih =>
    rw [isCanonical_number, hu, Option.any_some, Bool.and_eq_true, Bool.and_eq_true] at hc
    obtain ⟨⟨hdigits, hneeds⟩, hrest⟩ := hc
    obtain ⟨hbytes, hdot⟩ := ih hrest
    -- a dot is written like a separator and needs no number
    have hne : u ≠ 0x2E := by
      rintro rfl
      cases hneeds
    rw [List.flatMap_cons, unitBytes_of_number hdigits hu hneeds, hbytes]
    exact ⟨rfl, List.forall_mem_cons.mpr ⟨hne, hdot⟩⟩
  | @separator rest us hhead _ ih =>
    rw [isCanonical_separator hhead] at hc
    obtain ⟨hbytes, hdot⟩ := ih hc
    rw [List.flatMap_cons, hbytes]
    exact ⟨rfl, List.forall_mem_cons.mpr ⟨by decide, hdot⟩⟩

/-- A canonical part of a symbol is written as it was read, and has no dot. -/
theorem textBytes_of_readPart? {bytes : List UInt8} {t : List Char} (h : readPart? bytes = some t)
    (hc : isCanonical bytes = true) : textBytes t = bytes ∧ '.' ∉ t := by
  obtain ⟨us, hus, ht⟩ := Option.bind_eq_some_iff.mp h
  obtain ⟨hbytes, hdot⟩ := (spells_of_readUnits? hus).flatMap_unitBytes hc
  rw [← Utf16.encode_of_decode? ht] at hbytes hdot
  constructor
  · rw [← hbytes, Utf16.encode, List.flatMap_assoc]
    rfl
  · intro hmem
    exact hdot 0x2E (List.mem_flatMap.mpr ⟨'.', hmem, List.mem_singleton_self _⟩) rfl

/-! ## The name and the parameters -/

/-- If the marker is found behind a name that is read, the name and what follows the marker are
canonical by themselves. -/
theorem Spells.isCanonical_append {name : List UInt8} {us : List UInt16} (h : Spells name us)
    {args : List UInt8} (hargs : args.head?.any isEscapeDigit = false) {index : Nat}
    (hmarker : argsMarkerFrom? index 0 (name ++ underscore :: underscore :: args) =
      some (index + name.length)) :
    isCanonical (name ++ underscore :: underscore :: args) =
      (isCanonical name && isCanonical args) := by
  induction h generalizing index with
  | nil =>
    rw [List.nil_append, isCanonical_separator rfl, isCanonical_separator hargs]
    rfl
  | @alphanumeric b rest us halpha _ ih =>
    have hne := ne_underscore_of_isAlphanumeric halpha
    rw [List.cons_append, argsMarkerFrom?_cons_of_ne hne, List.length_cons, Nat.add_comm rest.length,
      ← Nat.add_assoc] at hmarker
    rw [List.cons_append, isCanonical_cons_of_ne hne, isCanonical_cons_of_ne hne, ih hmarker]
  | @mark d u rest us hd _ ih =>
    have hdigit := isEscapeDigit_of_mem_marks _ hd
    have hzero := ne_zero_of_mem_marks hd
    have hskip := (whole_mark hd).skip index (rest ++ underscore :: underscore :: args)
    rw [List.cons_append, List.cons_append] at hmarker ⊢
    rw [isCanonical_mark hdigit hzero, isCanonical_mark hdigit hzero]
    refine @ih (index + 2) (hskip.symm.trans (hmarker.trans ?_))
    rw [List.length_cons, List.length_cons]
    congr 1
    omega
  | @number h i j k u rest us hu _ ih =>
    have hskip := (whole_number hu).skip index (rest ++ underscore :: underscore :: args)
    simp only [List.cons_append] at hmarker ⊢
    rw [isCanonical_number, isCanonical_number,
      @ih (index + 6) (hskip.symm.trans (hmarker.trans ?_)), Bool.and_assoc, Bool.and_assoc,
      Bool.and_assoc]
    simp only [List.length_cons]
    congr 1
    omega
  | @separator rest us hhead _ ih =>
    cases rest with
    | nil =>
      -- three underscores in a row: the marker is found at the first one
      rw [List.singleton_append, argsMarkerFrom?_marker rfl, List.length_singleton] at hmarker
      exact absurd (Option.some.inj hmarker) (by omega)
    | cons b rest =>
      rw [List.head?_cons, Option.any_some] at hhead
      have hnext : b = underscore →
          (rest ++ underscore :: underscore :: args).head?.any isEscapeDigit = true := by
        rintro rfl
        rw [← Bool.not_eq_false]
        intro hnone
        rw [List.cons_append, List.cons_append, argsMarkerFrom?_marker hnone,
          List.length_cons] at hmarker
        exact absurd (Option.some.inj hmarker) (by omega)
      rw [List.cons_append, List.cons_append, argsMarkerFrom?_separator hhead hnext, List.length_cons,
        Nat.add_comm (b :: rest).length, ← Nat.add_assoc] at hmarker
      rw [List.cons_append, isCanonical_separator (by simpa using hhead),
        isCanonical_separator (by simpa using hhead), ih hmarker]

/-- The parameters of a symbol stand behind its marker; without a marker all bytes are the name. -/
theorem splitArgs_cases (bytes : List UInt8) :
    splitArgs bytes = (bytes, none) ∨
      ∃ name args, splitArgs bytes = (name, some args) ∧
        argsMarker? bytes = some name.length ∧ MarkerBetween bytes name args := by
  rw [splitArgs]
  cases hmarker : argsMarker? bytes with
  | none => exact .inl rfl
  | some index =>
    obtain ⟨name, args, hindex, hbytes, hhead⟩ := exists_markerBetween hmarker
    rw [Nat.zero_add] at hindex
    subst hindex
    refine .inr ⟨name, args, ?_, rfl, hbytes, hhead⟩
    dsimp only
    rw [hbytes, List.take_left, List.drop_length_add_append]
    rfl

/-! ## Reading a symbol -/

/-- What reading a symbol went through: its name, and its parameters if it has any. -/
structure IsRead (body : List Char) (s : Symbol) (name : List Char) : Prop where
  read_name : readPart? (splitArgs (Utf8.encode body)).1 = some name
  split_name : splitName? name = some (s.owner.toList, s.method.toList)
  read_args : (splitArgs (Utf8.encode body)).2.map readPart? = s.args.map fun args => some args.toList

theorem exists_isRead {symbol : String} {s : Symbol} (h : ofText symbol = .ok s) :
    ∃ body name, symbol.toList = opening ++ body ∧ IsRead body s name := by
  unfold ofText at h
  split at h
  · cases h
  next body hbody =>
    dsimp only at h
    split at h
    · cases h
    next name hname =>
      split at h
      · cases h
      next owner method hnames =>
        refine ⟨body, name, stripStart?_eq_some_iff.mp hbody, ?_⟩
        split at h
        next hargs =>
          cases h
          exact ⟨hname, by simpa using hnames, by rw [hargs]; rfl⟩
        next args hargs =>
          split at h
          · cases h
          next t ht =>
            cases h
            refine ⟨hname, by simpa using hnames, ?_⟩
            rw [hargs, Option.map_some, ht, Option.map_some, String.toList_ofList]

theorem charBytes_dotted (c : Char) : charBytes (if c == '/' then '.' else c) = charBytes c := by
  by_cases hc : c = '/'
  · subst hc
    rfl
  · rw [if_neg (by rwa [beq_iff_eq])]

/-- A decoded name has the bytes of the class and the method that are found in it. -/
theorem textBytes_of_splitName? {name owner method : List Char}
    (h : splitName? name = some (owner, method)) :
    textBytes owner ++ underscore :: textBytes method = textBytes name := by
  obtain ⟨parts, hparts, hne, -, -, rfl⟩ := splitName?_eq_some_iff.mp h
  have hdotted : name.map (fun c => if c == '/' then '.' else c) =
      joinWith ['.'] parts ++ '.' :: method := by
    rw [← joinWith_splitWhere, hparts, joinWith_concat hne, List.append_assoc,
      List.singleton_append]
  calc textBytes (joinWith ['.'] parts) ++ underscore :: textBytes method
      = textBytes (joinWith ['.'] parts ++ '.' :: method) := by
        rw [textBytes, textBytes, textBytes, List.flatMap_append, List.flatMap_cons]
        rfl
    _ = textBytes (name.map fun c => if c == '/' then '.' else c) := by rw [hdotted]
    _ = textBytes name := by
        simp only [textBytes, List.flatMap_map, charBytes_dotted]

/-- No part of a class that is found in a name without dots is empty. -/
theorem ne_nil_of_splitName? {name owner method : List Char}
    (h : splitName? name = some (owner, method)) (hdot : '.' ∉ name) :
    ∀ piece ∈ splitWhere (· == '.') owner, piece ≠ [] := by
  obtain ⟨parts, hparts, hne, -, hall, rfl⟩ := splitName?_eq_some_iff.mp h
  rw [splitWhere_joinWith hne]
  · exact hall
  · intro part hpart hmem
    have hmem' : part ∈ splitWhere (· == '/') name := hparts ▸ List.mem_append_left _ hpart
    exact hdot ((isInfix_of_mem_splitWhere hmem').subset hmem)

/-! ## Writing what was read -/

/-- The bytes of a symbol's parameters, behind their marker. -/
theorem encode_argsChars (args : Option (List Char)) :
    Utf8.encode (argsChars args) =
      (args.map fun a => underscore :: underscore :: textBytes a).getD [] := by
  cases args with
  | none => rfl
  | some a =>
    rw [Option.map_some, Option.getD_some, ← encode_escapeChars]
    rfl

/-- A canonical body has the bytes of the symbol that is read from it. -/
theorem IsRead.encode_eq {body : List Char} {s : Symbol} {name : List Char} (h : IsRead body s name)
    (hc : isCanonical (Utf8.encode body) = true) :
    Utf8.encode body = textBytes name ++ Utf8.encode (argsChars (s.args.map String.toList)) ∧
      '.' ∉ name := by
  obtain ⟨hname, -, hargs⟩ := h
  rcases splitArgs_cases (Utf8.encode body) with hsplit | ⟨n, a, hsplit, hmarker, hbytes, hhead⟩
  · rw [hsplit] at hname hargs
    cases hs : s.args with
    | some args => rw [hs] at hargs; cases hargs
    | none =>
      obtain ⟨htext, hdot⟩ := textBytes_of_readPart? hname hc
      rw [htext]
      exact ⟨(List.append_nil _).symm, hdot⟩
  · rw [hsplit] at hname hargs
    cases hs : s.args with
    | none => rw [hs] at hargs; cases hargs
    | some args =>
      rw [hs, Option.map_some, Option.map_some, Option.some.injEq] at hargs
      obtain ⟨us, hus, -⟩ := Option.bind_eq_some_iff.mp hname
      rw [hbytes] at hmarker hc ⊢
      rw [(spells_of_readUnits? hus).isCanonical_append hhead (hmarker.trans (by rw [Nat.zero_add])),
        Bool.and_eq_true] at hc
      obtain ⟨htext, hdot⟩ := textBytes_of_readPart? hname hc.1
      rw [encode_argsChars, Option.map_some, Option.map_some, Option.getD_some, htext,
        (textBytes_of_readPart? hargs hc.2).1]
      exact ⟨rfl, hdot⟩

/-- A symbol that is read and is canonical is the short symbol of the class and the method that are
read, with the escaped parameters behind it if there are any; and the method and every part of the
class have a name. -/
theorem eq_written_of_isCanonical {symbol : String} {s : Symbol} (h : ofText symbol = .ok s)
    (hc : isCanonical (Utf8.encode (symbol.toList.drop opening.length)) = true) :
    symbol = short s.owner s.method ++ (s.args.elim "" fun args => "__" ++ escape args) ∧
      s.method ≠ "" ∧ ∀ piece ∈ splitWhere (· == '.') s.owner.toList, piece ≠ [] := by
  obtain ⟨body, name, hsymbol, hread⟩ := exists_isRead h
  rw [hsymbol, List.drop_left] at hc
  obtain ⟨hbytes, hdot⟩ := hread.encode_eq hc
  obtain ⟨parts, -, -, hmethod, -, -⟩ := splitName?_eq_some_iff.mp hread.split_name
  refine ⟨?_, fun hempty => ?_, ne_nil_of_splitName? hread.split_name hdot⟩
  · have hbody : body = escapeChars (fullName s.owner s.method) ++
        argsChars (s.args.map String.toList) := by
      apply Utf8.encode_injective
      rw [hbytes, Utf8.encode_append, encode_escapeChars, ← textBytes_of_splitName? hread.split_name,
        fullName, textBytes, textBytes, textBytes, List.flatMap_append, List.flatMap_cons]
      rfl
    rw [← String.toList_inj, hsymbol, hbody, String.toList_append, short, String.toList_ofList,
      shortChars_eq, List.append_assoc]
    cases s.args with
    | none => rfl
    | some args =>
      simp only [Option.map_some, argsChars, Option.elim_some, String.toList_append, escape,
        String.toList_ofList]
      rfl
  · exact hmethod (by rw [hempty]; rfl)

/-- A symbol with a surrogate pair, marks, and an array behind the marker. -/
theorem eq_written_of_isCanonical_pair :
    let symbol := "Java_a_b_00024_0d83d_0de00_g_1_000e9___3ILa_b_2"
    let s : Symbol := ⟨"a.b$😀", "g_é", some "[ILa/b;"⟩
    ofText symbol = .ok s ∧
      isCanonical (Utf8.encode (symbol.toList.drop opening.length)) = true ∧
      symbol = short s.owner s.method ++ ("__" ++ escape "[ILa/b;") ∧
      s.method ≠ "" ∧ ∀ piece ∈ splitWhere (· == '.') s.owner.toList, piece ≠ [] := by
  intro symbol s
  have h : ofText symbol = .ok s := by decide +kernel
  have hc : isCanonical (Utf8.encode (symbol.toList.drop opening.length)) = true := by
    decide +kernel
  exact ⟨h, hc, eq_written_of_isCanonical h hc⟩

/-- A symbol that escapes a letter is read, and written without the escape. -/
example : ofText "Java_a_f_00041" = .ok ⟨"a", "fA", none⟩ ∧ short "a" "fA" = "Java_a_fA" := by
  decide +kernel

end JniLink.Symbol
