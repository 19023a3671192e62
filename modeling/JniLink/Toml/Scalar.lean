import JniLink.Text.Hex
import JniLink.Text.Search
import JniLink.Toml.Value

/-!
# Reading TOML scalars

Strings in their four styles, numbers, and dates. Each reader takes its value off the front of a text
and answers the rest; what may stand behind a value is not its business.
-/

namespace JniLink.Toml

open JniLink.Text

/-- A space or a tab. -/
def isSpace (c : Char) : Bool := c == ' ' || c == '\t'

/-- Drops spaces and tabs. -/
def skipSpaces (t : List Char) : List Char := t.dropWhile isSpace

/-- A line break, which is dropped. -/
def newline? : List Char → Option (List Char)
  | '\n' :: r => some r
  | '\r' :: '\n' :: r => some r
  | _ => none

/-- A character that may stand in a comment or a string of one line. -/
def isVisible (c : Char) : Bool := c == '\t' || (0x20 ≤ c.toNat && c.toNat != 0x7F)

/-! ## Strings -/

/-- The character with a number, if there is one. -/
def scalarChar? (n : Nat) : Option Char :=
  if n < 0xD800 ∨ (0xDFFF < n ∧ n < 0x110000) then some (Char.ofNat n) else none

/-- The character of a one-letter escape. -/
def escapeLetter? : Char → Option Char
  | 'b' => some '\x08' | 't' => some '\t' | 'n' => some '\n' | 'f' => some '\x0c'
  | 'r' => some '\r' | '"' => some '"' | '\\' => some '\\'
  | _ => none

/-- The character of an escape behind its backslash, and the count of its characters. -/
def escape? : List Char → Option (Char × Nat)
  | 'u' :: r =>
    if r.length < 4 then none
    else ((Hex.number? (r.take 4)).bind scalarChar?).map (·, 5)
  | 'U' :: r =>
    if r.length < 8 then none
    else ((Hex.number? (r.take 8)).bind scalarChar?).map (·, 9)
  | c :: _ => (escapeLetter? c).map (·, 1)
  | [] => none

/-- A string of one line behind its opening quote. The first argument counts characters of an escape
that was read already. -/
def basic? : Nat → List Char → Option (List Char × List Char)
  | _, [] => none
  | skip + 1, _ :: r => basic? skip r
  | 0, '"' :: r => some ([], r)
  | 0, '\\' :: r =>
    match escape? r with
    | some (c, width) => (basic? width r).map fun (t, rest) => (c :: t, rest)
    | none => none
  | 0, c :: r =>
    if isVisible c then (basic? 0 r).map fun (t, rest) => (c :: t, rest) else none

/-- A string of one line behind its opening apostrophe. -/
def literal? : List Char → Option (List Char × List Char)
  | [] => none
  | '\'' :: r => some ([], r)
  | c :: r =>
    if isVisible c then (literal? r).map fun (t, rest) => (c :: t, rest) else none

/-- Where a reader of several lines is. -/
inductive Spot where
  | text
  /-- Behind so many characters of an escape that are still to be dropped. -/
  | escape (skip : Nat)
  /-- Behind a backslash at the end of a line: blanks are dropped. -/
  | gap
  deriving DecidableEq

/-- The marks that stand behind a closing triple mark, at most two, which belong to the text. -/
def marksBehind (mark : Char) : List Char → List Char × List Char
  | a :: b :: r =>
    if a = mark then if b = mark then ([a, b], r) else ([a], b :: r) else ([], a :: b :: r)
  | [a] => if a = mark then ([a], []) else ([], [a])
  | [] => ([], [])

/-- A string of several lines behind its opening triple quote. -/
def basicLines? : Spot → List Char → Option (List Char × List Char)
  | _, [] => none
  | .escape (skip + 1), _ :: r => basicLines? (.escape skip) r
  | spot, c :: r =>
    if spot = .gap ∧ (isSpace c ∨ c = '\n') then basicLines? .gap r
    else if c = '\r' ∧ r.head? = some '\n' then basicLines? spot r
    else if c = '"' ∧ r.take 2 = ['"', '"'] then some (marksBehind '"' (r.drop 2))
    else if c = '\\' then
      if (newline? (skipSpaces r)).isSome then basicLines? .gap r
      else
        match escape? r with
        | some (c, width) =>
          (basicLines? (.escape width) r).map fun (t, rest) => (c :: t, rest)
        | none => none
    else if isVisible c || c == '\n' then
      (basicLines? .text r).map fun (t, rest) => (c :: t, rest)
    else none

/-- A string of several lines behind its opening triple apostrophe. -/
def literalLines? : List Char → Option (List Char × List Char)
  | [] => none
  | '\'' :: '\'' :: '\'' :: r => some (marksBehind '\'' r)
  | '\r' :: '\n' :: r => literalLines? ('\n' :: r)
  | c :: r =>
    if isVisible c || c == '\n' then
      (literalLines? r).map fun (t, rest) => (c :: t, rest)
    else none

/-- Drops the line break right behind an opening triple mark. -/
def skipBreak (t : List Char) : List Char := (newline? t).getD t

/-- A string in any style. -/
def string? : List Char → Option (List Char × List Char)
  | '"' :: '"' :: '"' :: r => basicLines? .text (skipBreak r)
  | '"' :: r => basic? 0 r
  | '\'' :: '\'' :: '\'' :: r => literalLines? (skipBreak r)
  | '\'' :: r => literal? r
  | _ => none

/-! ## Numbers -/

/-- Digits that `p` picks, the first one at once, with single underscores between them. The second
argument says that a digit is due. -/
def digits? (p : Char → Bool) : Bool → List Char → Option (List Char × List Char)
  | due, [] => if due then none else some ([], [])
  | due, c :: r =>
    if p c then (digits? p false r).map fun (t, rest) => (c :: t, rest)
    else if due then none
    else if c = '_' then digits? p true r
    else some ([], c :: r)

/-- The sign in front of a number. -/
def sign : List Char → List Char × List Char
  | '+' :: r => (['+'], r)
  | '-' :: r => (['-'], r)
  | t => ([], t)

/-- A decimal number without a fraction: a zero, or digits that do not begin with one. -/
def whole? : List Char → Option (List Char × List Char)
  | '0' :: r => some (['0'], r)
  | t => digits? Char.isDigit true t

/-- An exponent with its letter. -/
def exponent? : List Char → Option (List Char × List Char)
  | c :: r =>
    if c = 'e' ∨ c = 'E' then
      (digits? Char.isDigit true (sign r).2).map fun (t, rest) => (c :: (sign r).1 ++ t, rest)
    else none
  | [] => none

/-- A fraction with its point. -/
def fraction? : List Char → Option (List Char × List Char)
  | '.' :: r => (digits? Char.isDigit true r).map fun (t, rest) => ('.' :: t, rest)
  | _ => none

/-- What makes a number a float: an exponent, or a fraction with or without one. -/
def floatTail? (t : List Char) : Option (List Char × List Char) :=
  match exponent? t with
  | some found => some found
  | none => do
    let (fraction, t) ← fraction? t
    match t with
    | c :: _ =>
      if c = 'e' ∨ c = 'E' then
        let (exponent, t) ← exponent? t
        return (fraction ++ exponent, t)
      else return (fraction, t)
    | [] => return (fraction, t)

/-- The number that digits write in a base. -/
def numberOf (base : Nat) (digits : List Char) : Nat :=
  digits.foldl (fun n c => n * base + (Hex.digit? c).getD 0) 0

/-- The least number that is infinite as a float: half a step above the largest one. -/
def floatBound : Nat := Nat.pow 2 1024 - Nat.pow 2 970

/-- Whether digits times a power of ten stay below the bound of floats, which has 309 digits. -/
def isBelowBound (digits : List Char) (power : Int) : Bool :=
  let digits := digits.dropWhile (· == '0')
  let width := digits.length + power
  if digits = [] ∨ width < 309 then true
  else if 309 < width then false
  else
    numberOf 10 digits * Nat.pow 10 power.toNat < floatBound * Nat.pow 10 (-power).toNat

/-- Whether a number without its sign is a finite float; the tail is that of `floatTail?`. -/
def isFinite (digits tail : List Char) : Bool :=
  let isMark (c : Char) := c == 'e' || c == 'E'
  let fraction := (tail.takeWhile (!isMark ·)).drop 1
  let (sign, exponent) := sign ((tail.dropWhile (!isMark ·)).drop 1)
  let exponent : Int := numberOf 10 exponent
  isBelowBound (digits ++ fraction)
    ((if sign = ['-'] then -exponent else exponent) - fraction.length)

/-- A float, also an infinite one or none at all. A number that is too large for a float is refused,
unless it is negative. -/
def float? (t : List Char) : Option (Value × List Char) :=
  let (sign, t) := sign t
  let special (word : String) := (stripStart? word.toList t).map fun rest =>
    (Value.float (String.ofList (sign ++ word.toList)), rest)
  let plain := do
    let (digits, t) ← whole? t
    let (tail, t) ← floatTail? t
    if sign = ['-'] ∨ isFinite digits tail then
      return (Value.float (String.ofList (sign ++ digits ++ tail)), t)
    else none
  plain <|> special "inf" <|> special "nan"

/-- An integer if it fits into 64 bits with a sign. -/
def bounded? (n : Int) : Option Value :=
  if -9223372036854775808 ≤ n ∧ n ≤ 9223372036854775807 then some (.integer n) else none

/-- An integer behind the mark of its base. -/
def basedInteger? (base : Nat) (p : Char → Bool) (t : List Char) :
    Option (Value × List Char) := do
  let (digits, t) ← digits? p true t
  return (← bounded? (numberOf base digits), t)

/-- A digit of base eight. -/
def isOctal (c : Char) : Bool := '0' ≤ c && c ≤ '7'

/-- A digit of base two. -/
def isBinary (c : Char) : Bool := c == '0' || c == '1'

/-- An integer. -/
def integer? : List Char → Option (Value × List Char)
  | '0' :: 'x' :: r => basedInteger? 16 (fun c => (Hex.digit? c).isSome) r
  | '0' :: 'o' :: r => basedInteger? 8 isOctal r
  | '0' :: 'b' :: r => basedInteger? 2 isBinary r
  | t => do
    let (sign, t) := sign t
    let (digits, t) ← whole? t
    let n := numberOf 10 digits
    return (← bounded? (if sign = ['-'] then -(n : Int) else n), t)

/-! ## Dates and times -/

/-- A number of exactly so many digits between two bounds. -/
def field? (width low high : Nat) (t : List Char) : Option (Nat × List Char) :=
  let digits := t.take width
  let n := numberOf 10 digits
  if digits.length = width ∧ digits.all Char.isDigit ∧ low ≤ n ∧ n ≤ high then
    some (n, t.drop width)
  else none

/-- The days of a month. -/
def daysIn (year month : Nat) : Nat :=
  if month = 2 then
    if year % 4 = 0 ∧ (year % 100 ≠ 0 ∨ year % 400 = 0) then 29 else 28
  else if month = 4 ∨ month = 6 ∨ month = 9 ∨ month = 11 then 30
  else 31

/-- A date, by its text. -/
def date? (t : List Char) : Option (List Char × List Char) := do
  let (year, r) ← field? 4 0 9999 t
  let r ← stripStart? ['-'] r
  let (month, r) ← field? 2 1 12 r
  let r ← stripStart? ['-'] r
  let (_, r) ← field? 2 1 (daysIn year month) r
  return (t.take 10, r)

/-- The digits of a fraction of a second as they are kept: nine at most, and no zeros at the end. -/
def secondsFraction (digits : List Char) : List Char :=
  match ((digits.take 9).reverse.dropWhile (· == '0')).reverse with
  | [] => []
  | digits => '.' :: digits

/-- A time of day, by its text. -/
def time? (t : List Char) : Option (List Char × List Char) := do
  let (_, r) ← field? 2 0 23 t
  let r ← stripStart? [':'] r
  let (_, r) ← field? 2 0 59 r
  let r ← stripStart? [':'] r
  let (_, r) ← field? 2 0 60 r
  match r with
  | '.' :: s =>
    if (s.takeWhile Char.isDigit).isEmpty then none
    else
      return (t.take 8 ++ secondsFraction (s.takeWhile Char.isDigit), s.dropWhile Char.isDigit)
  | _ => return (t.take 8, r)

/-- The distance from universal time, by its text; a distance of nothing has a plus. -/
def offset? : List Char → Option (List Char × List Char)
  | 'Z' :: r | 'z' :: r => some (['Z'], r)
  | c :: t =>
    if c = '+' ∨ c = '-' then do
      let (hours, r) ← field? 2 0 23 t
      let r ← stripStart? [':'] r
      let (minutes, r) ← field? 2 0 59 r
      return ((if hours + minutes = 0 then '+' else c) :: t.take 5, r)
    else none
  | [] => none

/-- What stands behind a date: a time of day, with or without a distance, or nothing. -/
def timeBehind (t : List Char) : List Char × List Char :=
  match t with
  | c :: r =>
    if c = 'T' ∨ c = 't' ∨ c = ' ' then
      match time? r with
      | some (time, r) =>
        let (offset, r) := (offset? r).getD ([], r)
        ('T' :: time ++ offset, r)
      | none => ([], t)
    else ([], t)
  | [] => ([], [])

/-- A date, a time of day, or both. -/
def datetime? (t : List Char) : Option (Value × List Char) :=
  match date? t with
  | some (date, r) =>
    let (time, r) := timeBehind r
    some (.datetime (String.ofList (date ++ time)), r)
  | none => (time? t).map fun (time, r) => (.datetime (String.ofList time), r)

/-- A value that is neither array nor table. -/
def scalar? (t : List Char) : Option (Value × List Char) :=
  match t with
  | '"' :: _ | '\'' :: _ => (string? t).map fun (text, r) => (.string (String.ofList text), r)
  | 't' :: r => (stripStart? "rue".toList r).map (.boolean true, ·)
  | 'f' :: r => (stripStart? "alse".toList r).map (.boolean false, ·)
  | _ => datetime? t <|> float? t <|> integer? t

end JniLink.Toml
