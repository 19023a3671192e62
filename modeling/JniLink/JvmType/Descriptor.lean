import JniLink.JvmType.Basic

/-!
# Type descriptors

The compact spelling of a type that the virtual machine uses: a letter for `void` and each primitive
type, `L`name`;` for a class, `[` in front of the element of an array. `descriptor` writes it;
`read` takes one type off the front of a text and answers the rest, so that a list of parameters is
read by repeating it. A class name runs to the next `;`, and whatever characters it holds are its
own.
-/

namespace JniLink

/-- Why a text is not a descriptor. -/
inductive DescriptorFault where
  /-- The text ends where a type is due. -/
  | endOfText
  /-- A class name without the `;` that ends it. -/
  | unterminatedName
  | emptyName
  | arrayOfVoid
  /-- A character that begins no type, shown by the first byte of its UTF-8 form. -/
  | unknownTag (byte : UInt8)
  /-- Characters behind a complete descriptor. -/
  | trailing
  /-- A method descriptor that does not begin with a parenthesis. -/
  | noOpening
  /-- A parameter of type `void`. -/
  | voidParameter
  /-- A parameter list that is not closed. -/
  | noClosing
  deriving DecidableEq, Repr

/-- A fault together with the whole text it was found in. -/
structure DescriptorError where
  fault : DescriptorFault
  text : String
  deriving DecidableEq, Repr

/-- The wording of an error. -/
def DescriptorError.message (e : DescriptorError) : String :=
  match e.fault with
  | .endOfText => s!"unexpected end in '{e.text}'"
  | .unterminatedName => s!"unterminated class name in '{e.text}'"
  | .emptyName => s!"empty class name in '{e.text}'"
  | .arrayOfVoid => s!"array of void in '{e.text}'"
  | .unknownTag byte => s!"unknown type tag '{Char.ofNat byte.toNat}' in '{e.text}'"
  | .trailing => s!"trailing characters in '{e.text}'"
  | .noOpening => s!"method descriptor must start with '(': '{e.text}'"
  | .voidParameter => s!"void parameter in '{e.text}'"
  | .noClosing => s!"missing ')' in '{e.text}'"

namespace JvmType

/-- The characters of a type's descriptor. -/
def spell : JvmType → List Char
  | .void => ['V']
  | .primitive p => [p.tag]
  | .object name => 'L' :: name.toList ++ [';']
  | .array element => '[' :: element.spell

/-- The descriptor of a type. -/
def descriptor (t : JvmType) : String :=
  String.ofList t.spell

/-- The first byte of a character's UTF-8 form. -/
def leadByte (c : Char) : UInt8 :=
  (String.utf8EncodeChar c).headD 0

/-- Reads the class name behind an `L`, and the rest behind its `;`. -/
def readName (t : List Char) : Except DescriptorFault (JvmType × List Char) :=
  match t.dropWhile (· != ';') with
  | [] => .error .unterminatedName
  | _ :: rest =>
    if t.takeWhile (· != ';') = [] then .error .emptyName
    else .ok (.object (String.ofList (t.takeWhile (· != ';'))), rest)

/-- Reads one type at the front of a text. -/
def read : List Char → Except DescriptorFault (JvmType × List Char)
  | [] => .error .endOfText
  | '[' :: r =>
    match read r with
    | .error fault => .error fault
    | .ok (.void, _) => .error .arrayOfVoid
    | .ok (element, rest) => .ok (.array element, rest)
  | 'L' :: r => readName r
  | 'V' :: r => .ok (.void, r)
  | c :: r =>
    match Primitive.ofTag? c with
    | some p => .ok (.primitive p, r)
    | none => .error (.unknownTag (leadByte c))

/-- Reads a text that is one descriptor and nothing else. -/
def ofDescriptor (text : String) : Except DescriptorError JvmType :=
  match read text.toList with
  | .error fault => .error ⟨fault, text⟩
  | .ok (t, []) => .ok t
  | .ok (_, _ :: _) => .error ⟨.trailing, text⟩

theorem readName_length {t rest : List Char} {ty : JvmType} (h : readName t = .ok (ty, rest)) :
    rest.length < t.length := by
  unfold readName at h
  split at h
  next => cases h
  next c rest' hd =>
    split at h
    · cases h
    · cases h
      have hle : (t.dropWhile (· != ';')).length ≤ t.length := (List.dropWhile_sublist _).length_le
      rwa [hd] at hle

/-- What was read is in front of the rest: reading takes at least one character. -/
theorem read_length {t rest : List Char} {ty : JvmType} (h : read t = .ok (ty, rest)) :
    rest.length < t.length := by
  fun_induction read t generalizing ty rest with
  | case1 | case2 | case3 | case8 => cases h
  | case4 r element rest' _ hr ih =>
    cases h
    exact Nat.lt_succ_of_lt (ih hr)
  | case5 r => exact Nat.lt_succ_of_lt (readName_length h)
  | case6 r =>
    cases h
    exact Nat.lt_succ_self _
  | case7 c r _ _ _ p hp =>
    cases h
    exact Nat.lt_succ_self _

end JvmType

end JniLink
