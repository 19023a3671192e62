import JniLink.JvmType.Descriptor

/-!
# Method signatures

The types of a native method's parameters and of its result, and the method descriptor that spells
them: the parameters in parentheses, then the result.
-/

namespace JniLink

/-- The parameter and result types of a method. -/
structure Signature where
  params : List JvmType
  ret : JvmType
  deriving DecidableEq, Repr, Inhabited

namespace Signature

/-- The characters between the parentheses. -/
def spellParams (s : Signature) : List Char :=
  s.params.flatMap JvmType.spell

/-- The characters of the method descriptor. -/
def spell (s : Signature) : List Char :=
  '(' :: s.spellParams ++ ')' :: s.ret.spell

/-- The descriptors of the parameters one behind the other, which is what the symbol of an
overloaded method holds. -/
def paramsDescriptor (s : Signature) : String :=
  String.ofList s.spellParams

/-- The method descriptor. -/
def descriptor (s : Signature) : String :=
  String.ofList s.spell

/-- A signature that its descriptor spells: `void` is no parameter, and all types are well-formed. -/
def WellFormed (s : Signature) : Prop :=
  (∀ p ∈ s.params, p ≠ .void ∧ p.WellFormed) ∧ s.ret.WellFormed

instance decidableWellFormed (s : Signature) : Decidable s.WellFormed :=
  inferInstanceAs (Decidable ((∀ p ∈ s.params, p ≠ .void ∧ p.WellFormed) ∧ s.ret.WellFormed))

/-- Reads parameters up to the closing parenthesis, and the rest behind it. -/
def readParams (t : List Char) : Except DescriptorFault (List JvmType × List Char) :=
  match t with
  | [] => .error .noClosing
  | ')' :: rest => .ok ([], rest)
  | c :: r =>
    match h : JvmType.read (c :: r) with
    | .error fault => .error fault
    | .ok (.void, _) => .error .voidParameter
    | .ok (param, rest) =>
      have : rest.length < (c :: r).length := JvmType.read_length h
      match readParams rest with
      | .error fault => .error fault
      | .ok (params, rest) => .ok (param :: params, rest)
termination_by t.length
decreasing_by exact this

/-- Reads a whole method descriptor. -/
def read (t : List Char) : Except DescriptorFault Signature :=
  match t with
  | '(' :: r =>
    match readParams r with
    | .error fault => .error fault
    | .ok (params, rest) =>
      match JvmType.read rest with
      | .error fault => .error fault
      | .ok (ret, []) => .ok ⟨params, ret⟩
      | .ok (_, _ :: _) => .error .trailing
  | _ => .error .noOpening

/-- The signature that a method descriptor spells. -/
def ofDescriptor (text : String) : Except DescriptorError Signature :=
  match read text.toList with
  | .error fault => .error ⟨fault, text⟩
  | .ok s => .ok s

end Signature

end JniLink
