import JniLink.Signature
import JniLink.Text.Hex
import JniLink.Text.Utf16

/-!
# Symbol names

The name under which a native method of a class is exported: `Java_`, the escaped class, `_`, the
escaped method. An overloaded method has `__` and its escaped parameter descriptors behind that.

Escaping works on UTF-16 units. A package separator becomes `_`; `_`, `;` and `[` become `_1`, `_2`
and `_3`; ASCII letters and digits stay; every other unit becomes `_0` and four lower case
hexadecimal digits. Nothing keeps a name part from beginning with a digit, and so a separator before
the digits `0` to `3` reads like an escape; `Symbol.ofText` says what is read then.
-/

namespace JniLink.Symbol

open JniLink.Text

/-- What every symbol of a native method begins with. -/
def opening : List Char := "Java_".toList

/-- An ASCII letter or digit, by its number. -/
def isAlphanumeric (n : Nat) : Bool :=
  (0x30 ≤ n && n ≤ 0x39) || (0x41 ≤ n && n ≤ 0x5A) || (0x61 ≤ n && n ≤ 0x7A)

/-- The characters that stand for one UTF-16 unit. -/
def escapeUnit (u : UInt16) : List Char :=
  if u == 0x2E || u == 0x2F then ['_']
  else if u == 0x5F then ['_', '1']
  else if u == 0x3B then ['_', '2']
  else if u == 0x5B then ['_', '3']
  else if isAlphanumeric u.toNat then [Char.ofNat u.toNat]
  else ['_', '0'] ++ Hex.four Hex.lower u.toNat

/-- A text with its units escaped. -/
def escapeChars (t : List Char) : List Char :=
  (Utf16.encode t).flatMap escapeUnit

/-- The escaped form of a name. -/
def escape (name : String) : String :=
  String.ofList (escapeChars name.toList)

/-- The characters of a short symbol. -/
def shortChars (owner method : String) : List Char :=
  opening ++ escapeChars owner.toList ++ '_' :: escapeChars method.toList

/-- The symbol of a method of a class. -/
def short (owner method : String) : String :=
  String.ofList (shortChars owner method)

/-- The symbol of an overloaded method, told apart by its parameters. -/
def long (owner method : String) (s : Signature) : String :=
  String.ofList (shortChars owner method ++ '_' :: '_' :: escapeChars s.spellParams)

end JniLink.Symbol
