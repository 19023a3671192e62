import JniLink.Proofs.Symbol.Escape
import JniLink.Proofs.Text.Walk

/-!
# Symbols are read within their bounds

A symbol is read by positions: the marker in front of the parameters is searched for, the text is
cut there, and in each part a byte says what comes next. The four digits of an escape are cut out of
the text before they are looked at.

The search steps over an escape without looking at it, two bytes or six, and can come out inside a
character or behind the end. The first does no harm, because the marker is two ASCII bytes, and
these have boundaries on all sides whatever way led to them (`isBoundary_of_argsMarker?`). Behind
the end the search is over (`argsMarkerFrom?_drop`). A piece of four bytes that would end inside a
character is none, and its bytes would be no digits (`hexPiece?_slice?`), so that both refuse the
same text.

`outcome_walk` is the law: nothing breaks, and what is answered is what is read from the front. It
does not say that a symbol is cut at the right place.
-/

namespace JniLink.Symbol

open JniLink.Text
open Utf8 (encode)

variable {ε : Type} {bytes : List UInt8} {i : Nat}

/-! ## The marker -/

/-- Wherever the search went on its way, the marker stands between characters. -/
theorem isBoundary_of_argsMarker? {t : List Char} {marker : Nat}
    (h : argsMarker? (encode t) = some marker) :
    marker + 2 ≤ (encode t).length ∧ IsBoundary t marker ∧ IsBoundary t (marker + 2) := by
  obtain ⟨front, rest, rfl, heq, -⟩ := exists_markerBetween h
  have hfirst : (encode t)[0 + front.length]? = some underscore := by simp [heq]
  have hsecond : (encode t)[0 + front.length + 1]? = some underscore := by simp [heq]
  refine ⟨?_, (isBoundary_of_getElem? (by decide) hfirst).1,
    (isBoundary_of_getElem? (by decide) hsecond).2⟩
  rw [heq]
  simp only [List.length_append, List.length_cons]
  omega

/-- The search for the marker by positions, from one of them on. -/
def markerWalk (bytes : List UInt8) (i : Nat) : Walk ε (Option Nat) :=
  if h : i + 1 < bytes.length then do
    let a ← Walk.byte bytes i
    if a == underscore then
      let b ← Walk.byte bytes (i + 1)
      if b == underscore && !bytes[i + 2]?.any isEscapeDigit then return some i
      else if b == 0x30 then markerWalk bytes (i + 6)
      else if isEscapeDigit b then markerWalk bytes (i + 2)
      else markerWalk bytes (i + 1)
    else markerWalk bytes (i + 1)
  else return none
termination_by bytes.length - i

/-- The walk finds the marker that is behind its position. -/
theorem outcome_markerWalk (ε : Type) (bytes : List UInt8) (i : Nat) :
    (markerWalk bytes i : Walk ε (Option Nat)).outcome =
      some (.ok (argsMarkerFrom? i 0 (bytes.drop i))) := by
  induction hn : bytes.length - i using Nat.strongRecOn generalizing i with
  | ind n ih =>
    have hstep (k : Nat) (hk : 0 < k) (hlt : i < bytes.length) :
        (markerWalk bytes (i + k) : Walk ε (Option Nat)).outcome =
          some (.ok (argsMarkerFrom? (i + k) 0 (bytes.drop (i + k)))) :=
      ih (bytes.length - (i + k)) (by omega) (i + k) rfl
    rw [markerWalk]
    split
    next h =>
      have hi : i < bytes.length := Nat.lt_of_succ_lt h
      have hdrop : bytes.drop i = bytes[i] :: bytes[i + 1] :: bytes.drop (i + 2) := by
        rw [List.drop_eq_getElem_cons hi, List.drop_eq_getElem_cons h]
      rw [Walk.outcome_byte_bind (List.getElem?_eq_getElem hi), hdrop]
      by_cases ha : bytes[i] = underscore
      · rw [ha, if_pos (beq_self_eq_true _), Walk.outcome_byte_bind (List.getElem?_eq_getElem h),
          argsMarkerFrom?_underscore, List.head?_drop]
        have hrest : bytes[i + 1] :: bytes.drop (i + 2) = bytes.drop (i + 1) :=
          (List.drop_eq_getElem_cons h).symm
        split
        · rfl
        split
        · rw [hstep 6 (by decide) hi, hrest, argsMarkerFrom?_drop (i + 1) 5, List.drop_drop]
        split
        · rw [hstep 2 (by decide) hi, hrest, argsMarkerFrom?_drop (i + 1) 1, List.drop_drop]
        · rw [hstep 1 (by decide) hi, hrest]
      · have hne : (bytes[i] == underscore) = false := beq_eq_false_iff_ne.mpr ha
        rw [hne, if_neg (by decide), argsMarkerFrom?_cons_of_ne hne, hstep 1 (by decide) hi,
          List.drop_eq_getElem_cons h]
    next h =>
      -- at most one byte is left, and that is no marker
      have hshort : (bytes.drop i).length ≤ 1 := by
        rw [List.length_drop]
        omega
      match hdrop : bytes.drop i with
      | [] => rfl
      | [b] => cases hb : b == underscore <;> simp [argsMarkerFrom?, hb] <;> rfl
      | _ :: _ :: _ => simp [hdrop] at hshort

/-- The step over the escape ends inside `😀`, and the search goes on from there. -/
example : (markerWalk (encode ['_', '0', 'é', '😀', '_', '_']) 0 : Walk ε (Option Nat)) =
    ⟨[0, 1, 6, 7, 8, 9], some (.ok (some 8))⟩ := by
  cbv

/-! ## Escapes -/

/-- The unit that a piece of four bytes writes. -/
def hexPiece? (piece : List Char) : Option UInt16 :=
  match encode piece with
  | [h, i, j, k] => hexUnit? h i j k
  | _ => none

theorem digit?_eq_none_of_le {b : UInt8} (h : 0x80 ≤ b.toNat) :
    Hex.digit? (Char.ofNat b.toNat) = none := by
  have hnot {d : Char} (hd : d.toNat < 0x80) : ¬Char.ofNat b.toNat ≤ d := by
    intro hle
    have hle : (Char.ofNat b.toNat).toNat ≤ d.toNat := hle
    have := b.toNat_lt
    rw [Utf16.toNat_ofNat (.inl (by omega))] at hle
    omega
  rw [Hex.digit?, if_neg fun h => hnot (by decide) h.2, if_neg fun h => hnot (by decide) h.2,
    if_neg fun h => hnot (by decide) h.2]

/-- The last of the four bytes of a number is ASCII. -/
theorem lt_of_hexUnit? {h i j k : UInt8} {u : UInt16} (hu : hexUnit? h i j k = some u) :
    k.toNat < 0x80 := by
  refine Nat.lt_of_not_le fun hle => ?_
  have hplus : k ≠ 0x2B := by
    rintro rfl
    exact absurd hle (by decide)
  cases (hexUnit?_eq_none (by simp) hplus (digit?_eq_none_of_le hle)).symm.trans hu

/-- Behind an ASCII byte, the piece of the next four bytes writes what the bytes do. A piece that
would end inside a character is none, and the bytes of one are no digits. -/
theorem hexPiece?_slice? {t : List Char} {b : UInt8} (hb : b.toNat < 0x80)
    (h : (encode t)[i]? = some b) :
    (slice? t (i + 1) (i + 5)).bind hexPiece? =
      match (encode t).drop (i + 1) with
      | h :: i :: j :: k :: _ => hexUnit? h i j k
      | _ => none := by
  cases hslice : slice? t (i + 1) (i + 5) with
  | some piece =>
    obtain ⟨s, r, rfl, hs, hj⟩ := slice?_eq_some_iff.mp hslice
    have hlength : (encode piece).length = 4 := by omega
    have hdrop : (encode (s ++ (piece ++ r))).drop (i + 1) = encode piece ++ encode r := by
      rw [hs, Utf8.encode_append, Utf8.encode_append, List.drop_left]
    rw [Option.bind_some, hexPiece?, hdrop]
    match hpiece : encode piece with
    | [_, _, _, _] => rfl
    | [] | [_] | [_, _] | [_, _, _] | _ :: _ :: _ :: _ :: _ :: _ => simp [hpiece] at hlength
  | none =>
    rw [Option.bind_none]
    split
    next h' i' j' k rest hdrop =>
      cases hu : hexUnit? h' i' j' k with
      | none => rfl
      | some u =>
        have hk : (encode t)[i + 4]? = some k := by
          have := congrArg (·[3]?) hdrop
          rwa [List.getElem?_drop] at this
        have hsome := isSome_slice?_iff.mpr ⟨(isBoundary_of_getElem? hb h).2,
          (isBoundary_of_getElem? (lt_of_hexUnit? hu) hk).2, by omega⟩
        rw [hslice] at hsome
        cases hsome
    · rfl

/-- The escaped text by positions. -/
def unitsWalk (e : ε) (t : List Char) (i : Nat) : Walk ε (List UInt16) :=
  if h : i < (encode t).length then do
    let a ← Walk.byte (encode t) i
    if a == underscore then
      match (encode t)[i + 1]? with
      | some 0x31 => return 0x5F :: (← unitsWalk e t (i + 2))
      | some 0x32 => return 0x3B :: (← unitsWalk e t (i + 2))
      | some 0x33 => return 0x5B :: (← unitsWalk e t (i + 2))
      | some 0x30 =>
        match (slice? t (i + 2) (i + 6)).bind hexPiece? with
        | some u => return u :: (← unitsWalk e t (i + 6))
        | none => Walk.refuse e
      | _ => return 0x2F :: (← unitsWalk e t (i + 1))
    else if isAlphanumeric a.toNat then return a.toUInt16 :: (← unitsWalk e t (i + 1))
    else Walk.refuse e
  else return []
termination_by (encode t).length - i

/-- The escape of a number takes four bytes, if there are so many. -/
theorem readUnits?_number_drop (bytes : List UInt8) :
    readUnits? (underscore :: 0x30 :: bytes) =
      Option.bind (match bytes with
        | h :: i :: j :: k :: _ => hexUnit? h i j k
        | _ => none) fun u => (readUnits? (bytes.drop 4)).map (u :: ·) := by
  match bytes with
  | h :: i :: j :: k :: rest => exact readUnits?_number h i j k rest
  | [] | [_] | [_, _] | [_, _, _] => rfl

/-- The walk reads the units of the bytes behind its position. -/
theorem yields_unitsWalk (e : ε) (t : List Char) (i : Nat) :
    (unitsWalk e t i).Yields e (readUnits? ((encode t).drop i)) := by
  induction hn : (encode t).length - i using Nat.strongRecOn generalizing i with
  | ind n ih =>
    have hstep (k : Nat) (hk : 0 < k) (hlt : i < (encode t).length) :
        (unitsWalk e t (i + k)).Yields e (readUnits? ((encode t).drop (i + k))) :=
      ih ((encode t).length - (i + k)) (by omega) (i + k) rfl
    have hcons {j : Nat} {d : UInt8} (hd : (encode t)[j]? = some d) :
        (encode t).drop j = d :: (encode t).drop (j + 1) := by
      obtain ⟨hj, rfl⟩ := List.getElem?_eq_some_iff.mp hd
      exact List.drop_eq_getElem_cons hj
    have hmark {d : UInt8} {u : UInt16} (hlt : i < (encode t).length)
        (hd : (encode t)[i + 1]? = some d) (hu : (d, u) ∈ marks) :
        (do return u :: (← unitsWalk e t (i + 2)) : Walk ε _).Yields e
          (readUnits? (underscore :: (encode t).drop (i + 1))) := by
      rw [hcons hd, readUnits?_mark hu]
      exact (hstep 2 (by decide) hlt).map _
    rw [unitsWalk]
    split
    next h =>
      have hi := List.getElem?_eq_getElem h
      rw [Walk.Yields, Walk.outcome_byte_bind hi, ← Walk.Yields, hcons hi]
      by_cases ha : (encode t)[i] = underscore
      · rw [ha] at hi ⊢
        rw [if_pos (beq_self_eq_true _)]
        split
        next hd => exact hmark h hd (by decide)
        next hd => exact hmark h hd (by decide)
        next hd => exact hmark h hd (by decide)
        -- the piece of a number is cut out of the text, which fails where too few bytes are left
        next hd =>
          have hpiece := hexPiece?_slice? (by decide) hd
          rw [hcons hd, readUnits?_number_drop, ← hpiece, List.drop_drop]
          change (match (slice? t (i + 2) (i + 6)).bind hexPiece? with
            | some u => unitsWalk e t (i + 6) >>= fun us => pure (u :: us)
            | none => Walk.refuse e).Yields e _
          cases (slice? t (i + 2) (i + 6)).bind hexPiece? with
          | none => exact Walk.yields_refuse e
          | some u => exact (hstep 6 (by decide) h).map (u :: ·)
        -- none of the four digits follows, and the mark stands for a separator
        next hone htwo hthree hzero =>
          rw [readUnits?_separator]
          · exact (hstep 1 (by decide) h).map _
          · rw [List.head?_drop, Option.any_eq_false]
            intro d hd
            refine Bool.eq_false_iff.mpr fun hdigit => ?_
            rcases isEscapeDigit_cases hdigit with rfl | rfl | rfl | rfl
            · exact hzero hd
            · exact hone hd
            · exact htwo hd
            · exact hthree hd
      · have hne : ((encode t)[i] == underscore) = false := beq_eq_false_iff_ne.mpr ha
        rw [hne, if_neg (by decide), readUnits?_cons_of_ne hne]
        split
        · exact (hstep 1 (by decide) h).map _
        · exact Walk.yields_refuse e
    next h =>
      rw [List.drop_eq_nil_of_le (by omega)]
      exact Walk.yields_answer [] e

/-- A part of a symbol by positions. -/
def partWalk (e : ε) (t : List Char) : Walk ε (List Char) := do
  let units ← unitsWalk e t 0
  match Utf16.decode? units with
  | some part => return part
  | none => Walk.refuse e

theorem yields_partWalk (e : ε) (t : List Char) :
    (partWalk e t).Yields e (readPart? (encode t)) := by
  refine (yields_unitsWalk e t 0).bind fun units _ => ?_
  split
  next part hpart =>
    rw [hpart]
    exact Walk.yields_answer part e
  next hnone =>
    rw [hnone]
    exact Walk.yields_refuse e

/-! ## The symbol -/

/-- The name part and the part with the parameters, cut out of the text. -/
def splitWalk (body : List Char) : Walk ε (List Char × Option (List Char)) := do
  match ← markerWalk (encode body) 0 with
  | some i =>
    let name ← Walk.slice body 0 i
    let args ← Walk.slice body (i + 2) (encode body).length
    return (name, some args)
  | none => return (body, none)

/-- The symbol of a native method by positions. -/
def walk (symbol : String) : Walk SymbolError Symbol :=
  match stripStart? opening symbol.toList with
  | none => Walk.refuse (.noOpening symbol)
  | some body => do
    let (name, args) ← splitWalk body
    let name ← partWalk (.badEscape symbol) name
    match splitName? name with
    | none => Walk.refuse (.noMethod symbol)
    | some (owner, method) =>
      match args with
      | none => return ⟨String.ofList owner, String.ofList method, none⟩
      | some args =>
        let args ← partWalk (.badEscape symbol) args
        return ⟨String.ofList owner, String.ofList method, some (String.ofList args)⟩

/-- The text is cut at the marker without breaking, and the bytes of its parts are those on both
sides. -/
theorem exists_outcome_splitWalk (ε : Type) (body : List Char) :
    ∃ name args, (splitWalk body : Walk ε _).outcome = some (.ok (name, args)) ∧
      splitArgs (encode body) = (encode name, args.map encode) := by
  have hmarker := outcome_markerWalk ε (encode body) 0
  rw [List.drop_zero, ← argsMarker?] at hmarker
  cases h : argsMarker? (encode body) with
  | none =>
    rw [h] at hmarker
    refine ⟨body, none, ?_, ?_⟩
    · rw [splitWalk, Walk.outcome_bind_of_ok hmarker]
      rfl
    · rw [splitArgs, h]
      rfl
  | some i =>
    rw [h] at hmarker
    obtain ⟨hlength, hfirst, hsecond⟩ := isBoundary_of_argsMarker? h
    have hstart : IsBoundary body 0 := ⟨[], body, rfl, rfl⟩
    have hend : IsBoundary body (encode body).length := ⟨body, [], (List.append_nil body).symm, rfl⟩
    obtain ⟨name, hname⟩ := Option.isSome_iff_exists.mp
      (isSome_slice?_iff.mpr ⟨hstart, hfirst, Nat.zero_le i⟩)
    obtain ⟨args, hargs⟩ := Option.isSome_iff_exists.mp
      (isSome_slice?_iff.mpr ⟨hsecond, hend, hlength⟩)
    refine ⟨name, some args, ?_, ?_⟩
    · rw [splitWalk, Walk.outcome_bind_of_ok hmarker]
      dsimp only
      rw [Walk.outcome_slice_bind hname, Walk.outcome_slice_bind hargs]
      rfl
    · have hrest : ((encode body).drop (i + 2)).take ((encode body).length - (i + 2)) =
          (encode body).drop (i + 2) := List.take_of_length_le (Nat.le_of_eq List.length_drop)
      rw [splitArgs, h, encode_of_slice? hname, Option.map_some, encode_of_slice? hargs, hrest]
      rfl

/-- Reading by positions breaks nowhere, and reads what is read from the front. -/
theorem outcome_walk (symbol : String) : (walk symbol).outcome = some (ofText symbol) := by
  unfold walk ofText
  cases hbody : stripStart? opening symbol.toList with
  | none => rfl
  | some body =>
    obtain ⟨name, args, hsplit, hparts⟩ := exists_outcome_splitWalk SymbolError body
    have hpart (t : List Char) := yields_partWalk (SymbolError.badEscape symbol) t
    dsimp only
    rw [Walk.outcome_bind_of_ok hsplit, hparts]
    dsimp only
    cases hname : readPart? (encode name) with
    | none =>
      exact Walk.outcome_bind_of_error ((hpart name).trans (by rw [hname]; rfl))
    | some decoded =>
      rw [Walk.outcome_bind_of_ok ((hpart name).trans (by rw [hname]; rfl))]
      dsimp only
      cases splitName? decoded with
      | none => rfl
      | some found =>
        cases args with
        | none => rfl
        | some args =>
          dsimp only [Option.map_some]
          cases hargs : readPart? (encode args) with
          | none =>
            exact Walk.outcome_bind_of_error ((hpart args).trans (by rw [hargs]; rfl))
          | some decodedArgs =>
            exact Walk.outcome_bind_of_ok ((hpart args).trans (by rw [hargs]; rfl))

end JniLink.Symbol
