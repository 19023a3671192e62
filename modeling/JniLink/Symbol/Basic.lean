import JniLink.Symbol.Escape
import JniLink.Text.Quoted
import JniLink.Text.Search
import JniLink.Text.Utf8

/-!
# Reading symbols

The class, the method and the parameter descriptors that a symbol names. Symbols are read as bytes:
everything a symbol may hold is ASCII, and a byte of any other character ends the reading with a bad
escape. `argsMarker?` finds the `__` in front of the parameters first; it steps over an escape as a
whole, two bytes or six, whatever the bytes are. Then each part is turned into UTF-16 units, where a
plain `_` is a separator, and the units into text.
-/

namespace JniLink

open JniLink.Text

/-- What a symbol names. -/
structure Symbol where
  /-- The class in dotted form. -/
  owner : String
  method : String
  /-- The parameter descriptors of an overloaded method. -/
  args : Option String
  deriving DecidableEq, Repr

/-- Why a text is not the symbol of a native method, or no symbol at all. -/
inductive SymbolError where
  /-- It does not begin with `Java_`. -/
  | noOpening (symbol : String)
  /-- It has no class or no method, or a name part is empty. -/
  | noMethod (symbol : String)
  | badEscape (symbol : String)
  /-- It is empty or holds a NUL, so that no library can export it. -/
  | unusable (symbol : String)
  deriving DecidableEq, Repr

/-- The wording of an error. -/
def SymbolError.message : SymbolError → String
  | .noOpening symbol => s!"'{symbol}' has no Java_ prefix"
  | .noMethod symbol => s!"'{symbol}' does not name a class and a method"
  | .badEscape symbol => s!"bad escape in '{symbol}'"
  | .unusable symbol => s!"invalid symbol name: {quote symbol}"

namespace Symbol

/-- The byte of the underscore. -/
def underscore : UInt8 := 0x5F

/-- The bytes `0` to `3`, which make an escape of an underscore before them. -/
def isEscapeDigit (b : UInt8) : Bool := 0x30 ≤ b && b ≤ 0x33

/-- The index of the `__` that opens the parameters: the first place outside of escapes with two
underscores and no escape digit behind them. The first argument is the index of the head of the
bytes, the second one counts bytes of an escape that are still to be stepped over. -/
def argsMarkerFrom? : Nat → Nat → List UInt8 → Option Nat
  | _, _, [] => none
  | index, skip + 1, _ :: r => argsMarkerFrom? (index + 1) skip r
  | index, 0, a :: r =>
    if a == underscore then
      match r with
      | [] => none
      | b :: s =>
        if b == underscore && !s.head?.any isEscapeDigit then some index
        else if b == 0x30 then argsMarkerFrom? (index + 1) 5 (b :: s)
        else if isEscapeDigit b then argsMarkerFrom? (index + 1) 1 (b :: s)
        else argsMarkerFrom? (index + 1) 0 (b :: s)
    else argsMarkerFrom? (index + 1) 0 r

/-- The index of the `__` in front of the parameters. -/
def argsMarker? (bytes : List UInt8) : Option Nat :=
  argsMarkerFrom? 0 0 bytes

/-- The unit that four bytes write in hexadecimal digits of either case; the first of them may be a
plus sign instead. -/
def hexUnit? (a b c d : UInt8) : Option UInt16 :=
  let char (x : UInt8) := Char.ofNat x.toNat
  let digits := if a == 0x2B then [b, c, d] else [a, b, c, d]
  (Hex.number? (digits.map char)).map UInt16.ofNat

/-- Undoes the escaping; a plain underscore is a separator. -/
def readUnits? : List UInt8 → Option (List UInt16)
  | [] => some []
  | a :: r =>
    if a == underscore then
      match r with
      | [] => some [0x2F]
      | b :: s =>
        if b == 0x31 then (readUnits? s).map (0x5F :: ·)
        else if b == 0x32 then (readUnits? s).map (0x3B :: ·)
        else if b == 0x33 then (readUnits? s).map (0x5B :: ·)
        else if b == 0x30 then
          match s with
          | h :: i :: j :: k :: s =>
            match hexUnit? h i j k with
            | some u => (readUnits? s).map (u :: ·)
            | none => none
          | _ => none
        else (readUnits? (b :: s)).map (0x2F :: ·)
    else if isAlphanumeric a.toNat then (readUnits? r).map (a.toUInt16 :: ·)
    else none

/-- The text that an escaped part of a symbol stands for. -/
def readPart? (bytes : List UInt8) : Option (List Char) :=
  (readUnits? bytes).bind Utf16.decode?

/-- The name part of a symbol's bytes and, behind a marker, the part with the parameters. -/
def splitArgs (bytes : List UInt8) : List UInt8 × Option (List UInt8) :=
  match argsMarker? bytes with
  | some index => (bytes.take index, some (bytes.drop (index + 2)))
  | none => (bytes, none)

/-- The class in dotted form and the method of a decoded name, whose parts stand between slashes;
none of them may be empty, and there is a class. -/
def splitName? (name : List Char) : Option (List Char × List Char) :=
  let parts := splitWhere (· == '/') name
  let owner := parts.dropLast
  let method := parts.getLastD []
  if owner.isEmpty || method.isEmpty || owner.any List.isEmpty then none
  else some (joinWith ['.'] owner, method)

/-- Reads the symbol of a native method. -/
def ofText (symbol : String) : Except SymbolError Symbol :=
  match stripStart? opening symbol.toList with
  | none => .error (.noOpening symbol)
  | some body =>
    let (name, args) := splitArgs (Utf8.encode body)
    match readPart? name with
    | none => .error (.badEscape symbol)
    | some name =>
      match splitName? name with
      | none => .error (.noMethod symbol)
      | some (owner, method) =>
        let named (args : Option String) : Symbol :=
          ⟨String.ofList owner, String.ofList method, args⟩
        match args with
        | none => .ok (named none)
        | some args =>
          match readPart? args with
          | none => .error (.badEscape symbol)
          | some args => .ok (named (some (String.ofList args)))

/-- A text that a library can export: not empty and without NUL. -/
def isUsable (symbol : String) : Bool :=
  symbol != "" && !symbol.toList.contains '\x00'

end Symbol

end JniLink
