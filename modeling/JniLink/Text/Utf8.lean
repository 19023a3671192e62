/-!
# Reading UTF-8

`next` reads one character, or finds the longest start of one that is not UTF-8. Strict reading
stops there and says where and how (`Fault`); lenient reading puts U+FFFD in its place.
-/

namespace JniLink.Text.Utf8

/-- Why bytes are not UTF-8: the bad start of a character at a byte index, with its length, or with
none if the bytes end inside the character. -/
structure Fault where
  index : Nat
  length : Option Nat
  deriving DecidableEq, Repr

/-- The wording of a fault. -/
def Fault.message (f : Fault) : String :=
  match f.length with
  | some n => s!"invalid utf-8 sequence of {n} bytes from index {f.index}"
  | none => s!"incomplete utf-8 byte sequence from index {f.index}"

/-- What stands at the head of a byte sequence. -/
inductive Head where
  /-- The bytes are at their end. -/
  | done
  /-- A character, and the number of its bytes. -/
  | char (c : Char) (width : Nat)
  /-- So many bytes that begin no character. -/
  | bad (width : Nat)
  /-- The bytes end inside a character. -/
  | cut
  deriving Repr

/-- A byte that continues a character. -/
def isContinuation (b : UInt8) : Bool := 0x80 ≤ b && b ≤ 0xBF

/-- The second bytes that may follow a first byte; this keeps out overlong forms, surrogates and
numbers above U+10FFFF. -/
def isSecond (first second : UInt8) : Bool :=
  if first == 0xE0 then 0xA0 ≤ second && second ≤ 0xBF
  else if first == 0xED then 0x80 ≤ second && second ≤ 0x9F
  else if first == 0xF0 then 0x90 ≤ second && second ≤ 0xBF
  else if first == 0xF4 then 0x80 ≤ second && second ≤ 0x8F
  else isContinuation second

/-- The six bits that a continuation byte carries. -/
def payload (b : UInt8) : Nat := b.toNat % 64

/-- Reads at the head of the bytes. -/
def next : List UInt8 → Head
  | [] => .done
  | a :: r =>
    if a < 0x80 then .char (Char.ofNat a.toNat) 1
    else if 0xC2 ≤ a && a ≤ 0xDF then
      match r with
      | [] => .cut
      | b :: _ =>
        if isContinuation b then .char (Char.ofNat (a.toNat % 32 * 64 + payload b)) 2 else .bad 1
    else if 0xE0 ≤ a && a ≤ 0xEF then
      match r with
      | [] => .cut
      | b :: r =>
        if !isSecond a b then .bad 1
        else match r with
          | [] => .cut
          | c :: _ =>
            if isContinuation c then
              .char (Char.ofNat (a.toNat % 16 * 4096 + payload b * 64 + payload c)) 3
            else .bad 2
    else if 0xF0 ≤ a && a ≤ 0xF4 then
      match r with
      | [] => .cut
      | b :: r =>
        if !isSecond a b then .bad 1
        else match r with
          | [] => .cut
          | c :: r =>
            if !isContinuation c then .bad 2
            else match r with
              | [] => .cut
              | d :: _ =>
                if isContinuation d then
                  .char (Char.ofNat
                    (a.toNat % 8 * 262144 + payload b * 4096 + payload c * 64 + payload d)) 4
                else .bad 3
    else .bad 1

/-- Strict reading from a byte index on; `skip` counts the bytes that belong to the character read
last. -/
def decodeFrom (index : Nat) : Nat → List UInt8 → Except Fault (List Char)
  | _, [] => .ok []
  | skip + 1, _ :: r => decodeFrom (index + 1) skip r
  | 0, a :: r =>
    match next (a :: r) with
    | .done => .ok []
    | .char c width => (decodeFrom (index + 1) (width - 1) r).map (c :: ·)
    | .bad width => .error ⟨index, some width⟩
    | .cut => .error ⟨index, none⟩

/-- The text of UTF-8 bytes, or the first fault in them. -/
def decode (bytes : List UInt8) : Except Fault String :=
  (decodeFrom 0 0 bytes).map String.ofList

/-- Lenient reading; `skip` counts the bytes that are read already. -/
def decodeLossyFrom : Nat → List UInt8 → List Char
  | _, [] => []
  | skip + 1, _ :: r => decodeLossyFrom skip r
  | 0, a :: r =>
    match next (a :: r) with
    | .done => []
    | .char c width => c :: decodeLossyFrom (width - 1) r
    | .bad width => '\uFFFD' :: decodeLossyFrom (width - 1) r
    | .cut => ['\uFFFD']

/-- The text of bytes, each bad start of a character replaced by U+FFFD. -/
def decodeLossy (bytes : List UInt8) : String :=
  String.ofList (decodeLossyFrom 0 bytes)

/-- The UTF-8 bytes of a text. -/
def encode (t : List Char) : List UInt8 :=
  t.flatMap String.utf8EncodeChar

end JniLink.Text.Utf8
