import JniLink.Proofs.Descriptor
import JniLink.Proofs.Text.Walk

/-!
# Descriptors are read within their bounds

A type is read by positions: a byte says what begins there, and the name of a class is cut out of
the text between its `L` and the next `;`. `JvmType.walk` answers the type together with the
position behind it, where the next parameter is read.

Two facts about it carry the rest. It breaks nowhere and stays at or below the end
(`isSafe_walk`), because a class name is cut out between two ASCII bytes. And it goes forward: what
it reads ends behind the position at which it began (`lt_of_outcome_walk`). So a loop over the
parameters has no more rounds than the text has bytes. `Signature.paramsWalk` is broken off when its
rounds are used up, and `isSafe_paramsWalk` says that this does not happen.

Reading from the front is the same: `outcome_walk`, `outcome_lastWalk` and `Signature.outcome_walk`
have the readers' answers, with the faults for which a text is refused. The proofs follow the
recursion of the readers, with the text in front of what is left as the position.
-/

namespace JniLink

open JniLink.Text
open Utf8 (encode)

namespace JvmType

/-! ## Types -/

/-- The class name from a position on, and the position behind its `;`. -/
def nameWalk (t : List Char) (start : Nat) : Walk DescriptorFault (JvmType × Nat) := do
  let rest ← Walk.behind (encode t) start
  match rest.findIdx? (· == 0x3B) with
  | none => Walk.refuse .unterminatedName
  | some length =>
    if length = 0 then Walk.refuse .emptyName
    else
      let name ← Walk.slice t start (start + length)
      (Walk.answer (.object (String.ofList name), start + length + 1)).visit (start + length + 1)

/-- The type at a position, and the position behind it. -/
def walk (t : List Char) (pos : Nat) : Walk DescriptorFault (JvmType × Nat) :=
  match h : (encode t)[pos]? with
  | none => (Walk.refuse .endOfText).visit pos
  | some b =>
    have : pos < (encode t).length := (List.getElem?_eq_some_iff.mp h).1
    Walk.visit pos <|
      match Char.ofNat b.toNat with
      | '[' => do
        let (element, next) ← walk t (pos + 1)
        if element = .void then Walk.refuse .arrayOfVoid else return (.array element, next)
      | 'L' => nameWalk t (pos + 1)
      | 'V' => (Walk.answer (.void, pos + 1)).visit (pos + 1)
      | c =>
        match Primitive.ofTag? c with
        | some p => (Walk.answer (.primitive p, pos + 1)).visit (pos + 1)
        | none => Walk.refuse (.unknownTag b)
termination_by (encode t).length - pos
decreasing_by omega

section Walk

variable {t : List Char} {pos limit : Nat} {b : UInt8}

theorem walk_of_none (h : (encode t)[pos]? = none) :
    walk t pos = (Walk.refuse .endOfText).visit pos := by
  rw [walk]
  split
  · rfl
  next b hb =>
    rw [h] at hb
    cases hb

/-- The byte at the position says what is read. -/
theorem walk_of_some (h : (encode t)[pos]? = some b) :
    walk t pos = Walk.visit pos
      (match Char.ofNat b.toNat with
      | '[' => do
        let (element, next) ← walk t (pos + 1)
        if element = .void then Walk.refuse .arrayOfVoid else return (.array element, next)
      | 'L' => nameWalk t (pos + 1)
      | 'V' => (Walk.answer (.void, pos + 1)).visit (pos + 1)
      | c =>
        match Primitive.ofTag? c with
        | some p => (Walk.answer (.primitive p, pos + 1)).visit (pos + 1)
        | none => Walk.refuse (.unknownTag b)) := by
  rw [walk]
  split
  next hnone =>
    rw [h] at hnone
    cases hnone
  next b' hb =>
    rw [h] at hb
    cases hb
    rfl

/-- A byte that is a sign of ASCII is an ASCII byte. -/
theorem lt_of_ofNat_eq {c : Char} (hc : c.toNat < 0x80) (h : Char.ofNat b.toNat = c) :
    b.toNat < 0x80 := by
  have := b.toNat_lt
  rw [← h, Utf16.toNat_ofNat (.inl (by omega))] at hc
  exact hc

/-- The `;` that ends a class name is found in the text, between two boundaries. -/
theorem of_findIdx?_drop {start length : Nat}
    (h : ((encode t).drop start).findIdx? (· == 0x3B) = some length) :
    IsBoundary t (start + length) ∧ start + length + 1 ≤ (encode t).length := by
  obtain ⟨hlt, heq, -⟩ := List.findIdx?_eq_some_iff_getElem.mp h
  rw [List.length_drop] at hlt
  rw [List.getElem_drop, beq_iff_eq] at heq
  have hbyte := (List.getElem?_eq_getElem (by omega)).trans (congrArg some heq)
  exact ⟨(isBoundary_of_getElem? (by decide) hbyte).1, by omega⟩

theorem isSafe_nameWalk {start : Nat} (hstart : IsBoundary t start)
    (hlimit : (encode t).length ≤ limit) : (nameWalk t start).IsSafe limit := by
  have hle := hstart.le
  refine (Walk.isSafe_behind hle (by omega)).bind fun rest hrest => ?_
  obtain rfl := Walk.of_outcome_behind hrest
  split
  · exact Walk.isSafe_refuse _
  next length hlength =>
    obtain ⟨hend, hnext⟩ := of_findIdx?_drop hlength
    split
    · exact Walk.isSafe_refuse _
    · refine (Walk.isSafe_slice hstart hend (by omega) (by omega)).bind fun name _ => ?_
      exact (Walk.isSafe_answer _).visit (by omega)

/-- From wherever a type is read, no access breaks, and no position behind the end is reached. -/
theorem isSafe_walk (hpos : pos ≤ limit) (hlimit : (encode t).length ≤ limit) :
    (walk t pos).IsSafe limit := by
  induction hn : (encode t).length - pos using Nat.strongRecOn generalizing pos with
  | ind n ih =>
    cases hb : (encode t)[pos]? with
    | none =>
      rw [walk_of_none hb]
      exact (Walk.isSafe_refuse _).visit hpos
    | some b =>
      have hlt := (List.getElem?_eq_some_iff.mp hb).1
      rw [walk_of_some hb]
      refine Walk.IsSafe.visit ?_ hpos
      split
      · refine (ih _ (by omega) (by omega) rfl).bind fun (element, next) _ => ?_
        dsimp only
        split
        · exact Walk.isSafe_refuse _
        · exact Walk.isSafe_answer _
      next hL =>
        exact isSafe_nameWalk (isBoundary_of_getElem? (lt_of_ofNat_eq (by decide) hL) hb).2 hlimit
      · exact (Walk.isSafe_answer _).visit (by omega)
      · split
        · exact (Walk.isSafe_answer _).visit (by omega)
        · exact Walk.isSafe_refuse _

theorem lt_of_outcome_nameWalk {start next : Nat} {ty : JvmType}
    (h : (nameWalk t start).outcome = some (.ok (ty, next))) :
    start < next ∧ next ≤ (encode t).length := by
  obtain ⟨rest, hrest, h⟩ := Walk.of_outcome_bind h
  obtain rfl := Walk.of_outcome_behind hrest
  split at h
  · cases h
  next length hlength =>
    split at h
    · cases h
    · obtain ⟨name, -, h⟩ := Walk.of_outcome_bind h
      cases h
      exact ⟨by omega, (of_findIdx?_drop hlength).2⟩

/-- A type that is read takes at least one byte of the text. -/
theorem lt_of_outcome_walk {ty : JvmType} {next : Nat}
    (h : (walk t pos).outcome = some (.ok (ty, next))) :
    pos < next ∧ next ≤ (encode t).length := by
  induction hn : (encode t).length - pos using Nat.strongRecOn generalizing pos ty next with
  | ind n ih =>
    cases hb : (encode t)[pos]? with
    | none =>
      rw [walk_of_none hb] at h
      cases h
    | some b =>
      have hlt := (List.getElem?_eq_some_iff.mp hb).1
      rw [walk_of_some hb, Walk.visit] at h
      dsimp only at h
      split at h
      · obtain ⟨⟨element, next'⟩, helement, h⟩ := Walk.of_outcome_bind h
        have hbehind := ih _ (by omega) helement rfl
        dsimp only at h
        split at h
        · cases h
        · cases h
          exact ⟨by omega, hbehind.2⟩
      · have hbehind := lt_of_outcome_nameWalk h
        exact ⟨by omega, hbehind.2⟩
      · cases h
        exact ⟨by omega, hlt⟩
      · split at h
        · cases h
          exact ⟨by omega, hlt⟩
        · cases h

end Walk

/-! ## Types read from the front -/

/-- The position in a text at which the end of it begins that is given. -/
def position (t rest : List Char) : Nat := (encode t).length - (encode rest).length

theorem position_of_append {t s r : List Char} (h : t = s ++ r) :
    position t r = (encode s).length := by
  rw [position, h, Utf8.length_encode_append, Nat.add_sub_cancel]

theorem exists_utf8EncodeChar_eq_cons (c : Char) :
    ∃ bytes, String.utf8EncodeChar c = leadByte c :: bytes := by
  obtain ⟨b, bytes, hbytes⟩ := List.exists_cons_of_ne_nil (String.utf8EncodeChar_ne_nil (c := c))
  exact ⟨bytes, by rw [leadByte, hbytes]; rfl⟩

theorem getElem?_encode_of_append {t s r : List Char} {c : Char} (h : t = s ++ c :: r) :
    (encode t)[(encode s).length]? = some (leadByte c) := by
  obtain ⟨bytes, hbytes⟩ := exists_utf8EncodeChar_eq_cons c
  rw [h, Utf8.encode_append, List.getElem?_append_right (Nat.le_refl _), Nat.sub_self,
    Utf8.encode_cons, hbytes]
  rfl

theorem getElem?_encode_of_append_nil {t s : List Char} (h : t = s ++ []) :
    (encode t)[(encode s).length]? = none := by
  rw [h, List.append_nil]
  exact List.getElem?_eq_none (Nat.le_refl _)

/-- The first byte of a character is the character, or it is above ASCII. -/
theorem leadByte_cases (c : Char) :
    Char.ofNat (leadByte c).toNat = c ∨ 0x80 ≤ (leadByte c).toNat := by
  obtain ⟨bytes, hbytes⟩ := exists_utf8EncodeChar_eq_cons c
  rcases Utf8.utf8EncodeChar_cases c with ⟨hlt, hone⟩ | ⟨-, habove⟩
  · rw [hbytes, List.cons.injEq] at hone
    rw [hone.1, Utf8.toNat_ofNat_of_lt (by omega), Char.ofNat_toNat]
    exact .inl rfl
  · exact .inr (habove _ (by rw [hbytes]; exact List.mem_cons_self))

/-- Only an ASCII character begins with its byte. -/
theorem ofNat_leadByte_ne {c d : Char} (hd : d.toNat < 0x80) (hc : c ≠ d) :
    Char.ofNat (leadByte c).toNat ≠ d := by
  rcases leadByte_cases c with h | habove
  · rw [h]
    exact hc
  · intro h
    exact Nat.not_lt.mpr habove (lt_of_ofNat_eq hd h)

theorem leadByte_ne {c d : Char} (hd : d.toNat < 0x80) (hc : c ≠ d) :
    leadByte c ≠ UInt8.ofNat d.toNat := by
  intro h
  apply ofNat_leadByte_ne hd hc
  rw [h, Utf8.toNat_ofNat_of_lt (by omega), Char.ofNat_toNat]

/-- The first byte of a character that is no tag is no tag. -/
theorem ofTag?_leadByte {c : Char} (h : Primitive.ofTag? c = none) :
    Primitive.ofTag? (Char.ofNat (leadByte c).toNat) = none := by
  rcases leadByte_cases c with hc | habove
  · rwa [hc]
  · refine Option.eq_none_iff_forall_ne_some.mpr fun p hp => ?_
    have hascii : p.tag.toNat < 0x80 := by cases p <;> decide
    exact Nat.not_lt.mpr habove (lt_of_ofNat_eq hascii (Primitive.tag_of_ofTag? hp).symm)

/-- The bytes of a text hold a `;` where its characters do. -/
theorem findIdx?_encode (r : List Char) :
    (encode r).findIdx? (· == 0x3B) =
      if r.dropWhile (· != ';') = [] then none
      else some (encode (r.takeWhile (· != ';'))).length := by
  induction r with
  | nil => rfl
  | cons c r ih =>
    by_cases hc : c = ';'
    · rw [hc]
      rfl
    · have hne : (c != ';') = true := bne_iff_ne.mpr hc
      have hnone : (String.utf8EncodeChar c).findIdx? (· == 0x3B) = none := by
        rw [List.findIdx?_eq_none_iff]
        intro b hb
        rw [beq_eq_false_iff_ne]
        rintro rfl
        rcases Utf8.utf8EncodeChar_cases c with ⟨hlt, hone⟩ | ⟨-, habove⟩
        · rw [hone, List.mem_singleton] at hb
          have hbyte := congrArg UInt8.toNat hb
          rw [Utf8.toNat_ofNat_of_lt (by omega)] at hbyte
          exact hc (Char.toNat_inj.mp hbyte.symm)
        · exact absurd (habove _ hb) (by decide)
      rw [Utf8.encode_cons, List.findIdx?_append, hnone, ih,
        List.dropWhile_cons_of_pos (p := (· != ';')) hne,
        List.takeWhile_cons_of_pos (p := (· != ';')) hne, Utf8.encode_cons, List.length_append]
      split
      · rfl
      · rw [Nat.add_comm]
        rfl

section Outcome

variable {t s r : List Char} (ht : t = s ++ r)
include ht

/-- A class name is read at a position as it is read from the front of the text behind it. -/
theorem outcome_nameWalk : (nameWalk t (encode s).length).outcome =
    some ((readName r).map (Prod.map id (position t))) := by
  have hdrop : (encode t).drop (encode s).length = encode r := by
    rw [ht, Utf8.encode_append, List.drop_left]
  have hle : (encode s).length ≤ (encode t).length := by
    rw [ht, Utf8.length_encode_append]
    exact Nat.le_add_right _ _
  have hbehind : (Walk.behind (encode t) (encode s).length : Walk DescriptorFault _).outcome =
      some (.ok (encode r)) := by
    rw [Walk.behind, if_pos hle, hdrop]
  rw [nameWalk, Walk.outcome_bind_of_ok hbehind, findIdx?_encode, readName]
  cases hrest : r.dropWhile (· != ';') with
  | nil => rfl
  | cons c rest =>
    have hr := takeWhile_append_of_dropWhile_ne hrest
    generalize r.takeWhile (· != ';') = name at hr
    rw [if_neg (List.cons_ne_nil c rest)]
    dsimp only
    by_cases hname : name = []
    · rw [if_pos hname, hname]
      rfl
    · have hslice : slice? t (encode s).length ((encode s).length + (encode name).length) =
          some name :=
        slice?_eq_some_iff.mpr ⟨s, ';' :: rest, by rw [ht, hr], rfl, rfl⟩
      have hnext : position t rest = (encode s).length + (encode name).length + 1 := by
        have hmark : (encode (';' :: rest)).length = (encode rest).length + 1 := rfl
        rw [position, ht, ← hr, Utf8.length_encode_append, Utf8.length_encode_append, hmark]
        omega
      rw [if_neg (mt Utf8.length_encode_eq_zero_iff.mp hname), Walk.outcome_slice_bind hslice,
        if_neg hname]
      show _ = some (Except.ok (object (String.ofList name), position t rest))
      rw [hnext]
      rfl

end Outcome

/-- A tag is one byte, so what is behind its position begins behind it. -/
theorem of_tag {t s r : List Char} {c : Char} (hc : encode [c] = [leadByte c])
    (ht : t = s ++ c :: r) :
    (encode (s ++ [c])).length = (encode s).length + 1 ∧
      position t r = (encode s).length + 1 := by
  have hlength : (encode (s ++ [c])).length = (encode s).length + 1 := by
    rw [Utf8.length_encode_append, hc]
    rfl
  exact ⟨hlength, (position_of_append (ht.trans (List.append_cons s c r))).trans hlength⟩

/-- Behind a bracket the element is read. -/
theorem walk_bracket {t s r : List Char} (ht : t = s ++ '[' :: r) : walk t (encode s).length =
    Walk.visit (encode s).length do
      let (element, next) ← walk t (encode (s ++ ['['])).length
      if element = .void then Walk.refuse .arrayOfVoid else return (.array element, next) := by
  obtain ⟨hlength, -⟩ := of_tag (c := '[') rfl ht
  rw [walk_of_some (getElem?_encode_of_append ht), hlength]
  rfl

theorem encode_tag (p : Primitive) : encode [p.tag] = [leadByte p.tag] := by
  cases p <;> rfl

/-- A type is read at a position as it is read from the front of the text behind it. -/
theorem outcome_walk {t s r : List Char} (ht : t = s ++ r) : (walk t (encode s).length).outcome =
    some ((read r).map (Prod.map id (position t))) := by
  fun_induction read r generalizing s with
  | case1 =>
    rw [walk_of_none (getElem?_encode_of_append_nil ht)]
    rfl
  -- a bracket, by what is read behind it
  | case2 r' fault hread ih =>
    have helement := ih (ht.trans (List.append_cons s '[' r'))
    rw [hread] at helement
    rw [walk_bracket ht]
    exact Walk.outcome_bind_of_error helement
  | case3 r' rest hread ih =>
    have helement := ih (ht.trans (List.append_cons s '[' r'))
    rw [hread] at helement
    rw [walk_bracket ht]
    exact Walk.outcome_bind_of_ok helement
  | case4 r' element rest hvoid hread ih =>
    have helement := ih (ht.trans (List.append_cons s '[' r'))
    rw [hread] at helement
    rw [walk_bracket ht]
    refine (Walk.outcome_bind_of_ok helement).trans ?_
    rw [Prod.map_apply]
    dsimp only [id]
    rw [if_neg hvoid]
    rfl
  -- a class name
  | case5 r' =>
    have hname := outcome_nameWalk (ht.trans (List.append_cons s 'L' r'))
    obtain ⟨hlength, -⟩ := of_tag (c := 'L') rfl ht
    rw [walk_of_some (getElem?_encode_of_append ht), ← hname, hlength]
    rfl
  | case6 r' =>
    obtain ⟨-, hnext⟩ := of_tag (c := 'V') rfl ht
    rw [walk_of_some (getElem?_encode_of_append ht), Except.map, Prod.map_apply, hnext]
    rfl
  -- a tag
  | case7 c r' hbracket hL hV p hp =>
    obtain rfl := Primitive.tag_of_ofTag? hp
    obtain ⟨-, hnext⟩ := of_tag (encode_tag p) ht
    rw [walk_of_some (getElem?_encode_of_append ht), Except.map, Prod.map_apply, hnext]
    cases p <;> rfl
  -- no tag: neither is its first byte
  | case8 c r' hbracket hL hV hnone =>
    rw [walk_of_some (getElem?_encode_of_append ht)]
    split
    next h => exact absurd h (ofNat_leadByte_ne (by decide) hbracket)
    next h => exact absurd h (ofNat_leadByte_ne (by decide) hL)
    next h => exact absurd h (ofNat_leadByte_ne (by decide) hV)
    next =>
      rw [ofTag?_leadByte hnone]
      rfl

/-- What stands behind a type that was read begins where the walk went on. -/
theorem position_of_read {t s r rest : List Char} {ty : JvmType} (ht : t = s ++ r)
    (h : read r = .ok (ty, rest)) :
    t = (s ++ ty.spell) ++ rest ∧ position t rest = (encode (s ++ ty.spell)).length := by
  have happend : t = (s ++ ty.spell) ++ rest := by rw [ht, (of_read h).2, List.append_assoc]
  exact ⟨happend, position_of_append happend⟩

/-- The position behind the text is reached exactly if nothing is left of it. -/
theorem length_encode_eq_iff {s r : List Char} :
    (encode s).length = (encode (s ++ r)).length ↔ r = [] := by
  rw [Utf8.length_encode_append, ← Utf8.length_encode_eq_zero_iff]
  omega

/-! ## Whole descriptors -/

/-- The type at a position, with no bytes behind it. -/
def lastWalk (t : List Char) (pos : Nat) : Walk DescriptorFault JvmType := do
  let (ty, next) ← walk t pos
  if next = (encode t).length then return ty else Walk.refuse .trailing

theorem isSafe_lastWalk {t : List Char} {pos limit : Nat} (hpos : pos ≤ limit)
    (hlimit : (encode t).length ≤ limit) : (lastWalk t pos).IsSafe limit := by
  refine (isSafe_walk hpos hlimit).bind fun (ty, next) _ => ?_
  dsimp only
  split
  · exact Walk.isSafe_answer _
  · exact Walk.isSafe_refuse _

theorem outcome_lastWalk {t s r : List Char} (ht : t = s ++ r) :
    (lastWalk t (encode s).length).outcome = some (match read r with
      | .error fault => .error fault
      | .ok (ty, []) => .ok ty
      | .ok (_, _ :: _) => .error .trailing) := by
  have hwalk := outcome_walk ht
  cases hread : read r with
  | error fault =>
    rw [hread] at hwalk
    exact Walk.outcome_bind_of_error hwalk
  | ok found =>
    obtain ⟨ty, rest⟩ := found
    obtain ⟨happend, hposition⟩ := position_of_read ht hread
    have hend := length_encode_eq_iff (s := s ++ ty.spell) (r := rest)
    rw [← happend, ← hposition] at hend
    rw [hread, Except.map, Prod.map_apply] at hwalk
    refine (Walk.outcome_bind_of_ok hwalk).trans ?_
    dsimp only [id]
    cases rest with
    | nil =>
      rw [if_pos (hend.mpr rfl)]
      rfl
    | cons c rest =>
      rw [if_neg (mt hend.mp (List.cons_ne_nil c rest))]
      rfl

/-- A descriptor is read by positions as it is read from the front. -/
theorem outcome_lastWalk_zero (text : String) :
    (lastWalk text.toList 0).outcome.map (Except.mapError (⟨·, text⟩)) =
      some (ofDescriptor text) := by
  have hwalk := outcome_lastWalk (List.nil_append text.toList).symm
  change (lastWalk text.toList 0).outcome = _ at hwalk
  rw [hwalk, ofDescriptor]
  cases read text.toList with
  | error fault => rfl
  | ok found =>
    obtain ⟨ty, rest⟩ := found
    cases rest <;> rfl

end JvmType

namespace Signature

open JvmType (position position_of_append)

/-! ## Method descriptors -/

/-- The parameters from a position on, and the position behind the parenthesis that closes them.
The loop is broken off after a number of rounds. -/
def paramsWalk (t : List Char) : Nat → Nat → Walk DescriptorFault (List JvmType × Nat)
  | 0, _ => Walk.broken
  | rounds + 1, pos =>
    Walk.visit pos <|
      match (encode t)[pos]? with
      | none => Walk.refuse .noClosing
      | some 0x29 => return ([], pos + 1)
      | some _ => do
        let (param, next) ← JvmType.walk t pos
        if param = .void then Walk.refuse .voidParameter
        else
          let (params, close) ← paramsWalk t rounds next
          return (param :: params, close)

/-- A method descriptor by positions. There are no more rounds than bytes. -/
def walk (t : List Char) : Walk DescriptorFault Signature :=
  Walk.visit 0 <|
    if (encode t)[0]? = some 0x28 then do
      let (params, next) ← paramsWalk t (encode t).length 1
      let ret ← JvmType.lastWalk t next
      return ⟨params, ret⟩
    else Walk.refuse .noOpening

/-- The parameters end behind a parenthesis of the text. -/
theorem le_of_outcome_paramsWalk {t : List Char} {rounds pos close : Nat} {params : List JvmType}
    (h : (paramsWalk t rounds pos).outcome = some (.ok (params, close))) :
    close ≤ (encode t).length := by
  induction rounds generalizing pos params with
  | zero => cases h
  | succ rounds ih =>
    rw [paramsWalk, Walk.visit] at h
    dsimp only at h
    split at h
    · cases h
    next hclose =>
      cases h
      exact (List.getElem?_eq_some_iff.mp hclose).1
    · obtain ⟨⟨param, next⟩, -, h⟩ := Walk.of_outcome_bind h
      dsimp only at h
      split at h
      · cases h
      · obtain ⟨⟨params, close⟩, hparams, h⟩ := Walk.of_outcome_bind h
        cases h
        exact ih hparams

/-- Every round takes at least a byte of the text, so that the loop is over before it is broken
off. -/
theorem isSafe_paramsWalk {t : List Char} {rounds pos limit : Nat} (hpos : pos ≤ (encode t).length)
    (hrounds : (encode t).length < pos + rounds) (hlimit : (encode t).length ≤ limit) :
    (paramsWalk t rounds pos).IsSafe limit := by
  induction rounds generalizing pos with
  | zero => omega
  | succ rounds ih =>
    rw [paramsWalk]
    refine Walk.IsSafe.visit ?_ (by omega)
    split
    · exact Walk.isSafe_refuse _
    · exact Walk.isSafe_answer _
    · refine (JvmType.isSafe_walk (by omega) hlimit).bind fun (param, next) hparam => ?_
      have hnext := JvmType.lt_of_outcome_walk hparam
      dsimp only
      split
      · exact Walk.isSafe_refuse _
      · exact (ih hnext.2 (by omega)).bind fun (params, close) _ => Walk.isSafe_answer _

theorem isSafe_walk {t : List Char} {limit : Nat} (hlimit : (encode t).length ≤ limit) :
    (walk t).IsSafe limit := by
  refine Walk.IsSafe.visit ?_ (Nat.zero_le limit)
  split
  next hopen =>
    have hpos : 1 ≤ (encode t).length := (List.getElem?_eq_some_iff.mp hopen).1
    refine (isSafe_paramsWalk hpos (by omega) hlimit).bind fun (params, next) hparams => ?_
    have hnext := le_of_outcome_paramsWalk hparams
    exact (JvmType.isSafe_lastWalk (by omega) hlimit).bind fun ret _ => Walk.isSafe_answer _
  · exact Walk.isSafe_refuse _

/-- Where no parenthesis closes the parameters, a round reads one of them. -/
theorem paramsWalk_of_cons {t s r : List Char} {c : Char} (hc : c ≠ ')') (ht : t = s ++ c :: r)
    (rounds : Nat) : paramsWalk t (rounds + 1) (encode s).length =
      Walk.visit (encode s).length do
        let (param, next) ← JvmType.walk t (encode s).length
        if param = .void then Walk.refuse .voidParameter
        else
          let (params, close) ← paramsWalk t rounds next
          return (param :: params, close) := by
  rw [paramsWalk, JvmType.getElem?_encode_of_append ht]
  split
  next hnone => cases hnone
  next hclose =>
    exact absurd (Option.some.inj hclose) (JvmType.leadByte_ne (d := ')') (by decide) hc)
  next => rfl

/-- A round that reads a parameter goes on behind it. -/
theorem outcome_round {t s r rest : List Char} {c : Char} {param : JvmType} (hc : c ≠ ')')
    (ht : t = s ++ c :: r) (hread : JvmType.read (c :: r) = .ok (param, rest))
    (hvoid : param ≠ .void) (rounds : Nat) :
    (encode s).length < position t rest ∧
      (paramsWalk t (rounds + 1) (encode s).length).outcome =
        (paramsWalk t rounds (position t rest) >>= fun (params, close) =>
          pure (param :: params, close)).outcome := by
  have hparam := JvmType.outcome_walk ht
  rw [hread, Except.map, Prod.map_apply] at hparam
  refine ⟨(JvmType.lt_of_outcome_walk hparam).1, ?_⟩
  rw [paramsWalk_of_cons hc ht]
  refine (Walk.outcome_bind_of_ok hparam).trans ?_
  dsimp only [id]
  rw [if_neg hvoid]

/-- The parameters are read at a position as they are read from the front of the text behind it. -/
theorem outcome_paramsWalk {t s r : List Char} {rounds : Nat} (ht : t = s ++ r)
    (hrounds : (encode t).length < (encode s).length + rounds) :
    (paramsWalk t rounds (encode s).length).outcome =
      some ((readParams r).map (Prod.map id (position t))) := by
  have hround {s r : List Char} {rounds : Nat} (ht : t = s ++ r)
      (hrounds : (encode t).length < (encode s).length + rounds) : ∃ n, rounds = n + 1 := by
    rw [ht, Utf8.length_encode_append] at hrounds
    exact ⟨rounds - 1, by omega⟩
  -- every case has a round left, because the text behind its position is that long
  fun_induction readParams r generalizing s rounds with
  | case1 =>
    obtain ⟨rounds, rfl⟩ := hround ht hrounds
    rw [paramsWalk, JvmType.getElem?_encode_of_append_nil ht]
    rfl
  | case2 rest =>
    obtain ⟨rounds, rfl⟩ := hround ht hrounds
    obtain ⟨-, hnext⟩ := JvmType.of_tag (c := ')') rfl ht
    have hclose : (encode t)[(encode s).length]? = some 0x29 :=
      JvmType.getElem?_encode_of_append ht
    rw [paramsWalk, hclose, Except.map, Prod.map_apply, hnext]
    rfl
  | case3 c r hc fault hread =>
    obtain ⟨rounds, rfl⟩ := hround ht hrounds
    have hparam := JvmType.outcome_walk ht
    rw [hread] at hparam
    rw [paramsWalk_of_cons hc ht]
    exact Walk.outcome_bind_of_error hparam
  | case4 c r hc rest hread =>
    obtain ⟨rounds, rfl⟩ := hround ht hrounds
    have hparam := JvmType.outcome_walk ht
    rw [hread] at hparam
    rw [paramsWalk_of_cons hc ht]
    exact Walk.outcome_bind_of_ok hparam
  -- a parameter that is read takes the position forward, by a byte or more
  | case5 c r hc param rest hvoid hread hlt fault hparams ih =>
    obtain ⟨rounds, rfl⟩ := hround ht hrounds
    obtain ⟨happend, hposition⟩ := JvmType.position_of_read ht hread
    obtain ⟨hforward, hnext⟩ := outcome_round hc ht hread (fun h => hvoid h) rounds
    have hless : (encode t).length < (encode (s ++ param.spell)).length + rounds := by omega
    have htail := ih happend hless
    rw [hparams, ← hposition] at htail
    exact hnext.trans (Walk.outcome_bind_of_error htail)
  | case6 c r hc param rest hvoid hread hlt params rest' hparams ih =>
    obtain ⟨rounds, rfl⟩ := hround ht hrounds
    obtain ⟨happend, hposition⟩ := JvmType.position_of_read ht hread
    obtain ⟨hforward, hnext⟩ := outcome_round hc ht hread (fun h => hvoid h) rounds
    have hless : (encode t).length < (encode (s ++ param.spell)).length + rounds := by omega
    have htail := ih happend hless
    rw [hparams, ← hposition] at htail
    exact hnext.trans (Walk.outcome_bind_of_ok htail)

/-- A method descriptor is read by positions as it is read from the front. -/
theorem outcome_walk (t : List Char) : (walk t).outcome = some (read t) := by
  match t with
  | [] => rfl
  | c :: r =>
    have hfirst : (encode (c :: r))[0]? = some (JvmType.leadByte c) :=
      JvmType.getElem?_encode_of_append (s := []) rfl
    rw [walk, Walk.outcome_visit, hfirst]
    by_cases hc : c = '('
    · subst hc
      have hopen : some (JvmType.leadByte '(') = some 0x28 := rfl
      have hrounds : (encode ('(' :: r)).length <
          (encode ['(']).length + (encode ('(' :: r)).length :=
        Nat.lt_add_of_pos_left Nat.one_pos
      have hparams := outcome_paramsWalk (t := '(' :: r) (s := ['(']) (r := r) rfl hrounds
      rw [if_pos hopen, read]
      cases hread : readParams r with
      | error fault =>
        rw [hread] at hparams
        exact Walk.outcome_bind_of_error hparams
      | ok found =>
        obtain ⟨params, rest⟩ := found
        have happend : '(' :: r = ('(' :: params.flatMap JvmType.spell ++ [')']) ++ rest := by
          rw [(of_readParams hread).2]
          simp
        rw [hread, Except.map, Prod.map_apply, position_of_append happend] at hparams
        have hret := JvmType.outcome_lastWalk happend
        refine (Walk.outcome_bind_of_ok hparams).trans ?_
        dsimp only [id]
        cases hlast : JvmType.read rest with
        | error fault =>
          rw [hlast] at hret
          exact Walk.outcome_bind_of_error hret
        | ok found =>
          obtain ⟨ret, last⟩ := found
          rw [hlast] at hret
          cases last with
          | nil => exact Walk.outcome_bind_of_ok hret
          | cons d last => exact Walk.outcome_bind_of_error hret
    · have hopen : ¬some (JvmType.leadByte c) = some 0x28 := fun h =>
        JvmType.leadByte_ne (d := '(') (by decide) hc (Option.some.inj h)
      rw [if_neg hopen, read]
      · rfl
      · intro r' heq
        cases heq
        exact hc rfl

theorem outcome_walk_toList (text : String) :
    (walk text.toList).outcome.map (Except.mapError (⟨·, text⟩)) = some (ofDescriptor text) := by
  rw [outcome_walk, ofDescriptor]
  cases read text.toList <;> rfl

end Signature

end JniLink
