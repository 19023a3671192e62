/-!
# UTF-16 code units

The code units of a text, one for a character below U+10000 and a surrogate pair for any other, and
the text that a sequence of units spells, if every surrogate in it has its partner.
-/

namespace JniLink.Text.Utf16

/-- The units of one character. -/
def encodeChar (c : Char) : List UInt16 :=
  if c.toNat < 0x10000 then [UInt16.ofNat c.toNat]
  else
    let n := c.toNat - 0x10000
    [UInt16.ofNat (0xD800 + n / 0x400), UInt16.ofNat (0xDC00 + n % 0x400)]

/-- The units of a text. -/
def encode (t : List Char) : List UInt16 :=
  t.flatMap encodeChar

/-- A unit that opens a surrogate pair. -/
def isHigh (u : UInt16) : Bool := 0xD800 ≤ u && u ≤ 0xDBFF

/-- A unit that closes a surrogate pair. -/
def isLow (u : UInt16) : Bool := 0xDC00 ≤ u && u ≤ 0xDFFF

/-- The character of a surrogate pair. -/
def pairChar (high low : UInt16) : Char :=
  Char.ofNat (0x10000 + (high.toNat - 0xD800) * 0x400 + (low.toNat - 0xDC00))

/-- The text that the units spell; `none` if a surrogate stands without its partner. -/
def decode? : List UInt16 → Option (List Char)
  | [] => some []
  | [u] => if isHigh u || isLow u then none else some [Char.ofNat u.toNat]
  | u :: v :: r =>
    if isHigh u then
      if isLow v then (decode? r).map (pairChar u v :: ·) else none
    else if isLow u then none
    else (decode? (v :: r)).map (Char.ofNat u.toNat :: ·)

end JniLink.Text.Utf16
