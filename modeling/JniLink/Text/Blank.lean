/-!
# Blank characters

The characters with the Unicode property White_Space, and the three operations on text that are
defined by them: trimming, splitting into words, and telling whether a text is blank.

Text is read as a list of characters here and in the other text modules; a `String` is turned into
its characters once, where it enters an operation.
-/

namespace JniLink.Text

/-- The 25 characters with the Unicode property White_Space. -/
def isBlank (c : Char) : Bool :=
  let n := c.toNat
  (9 ≤ n && n ≤ 13) || n == 0x20 || n == 0x85 || n == 0xA0 || n == 0x1680 ||
    (0x2000 ≤ n && n ≤ 0x200A) || n == 0x2028 || n == 0x2029 || n == 0x202F || n == 0x205F ||
    n == 0x3000

/-- Drops the blank characters in front. -/
def trimStart (t : List Char) : List Char :=
  t.dropWhile isBlank

/-- Drops the blank characters at the end. -/
def trimEnd (t : List Char) : List Char :=
  (t.reverse.dropWhile isBlank).reverse

/-- Drops the blank characters on both sides. -/
def trim (t : List Char) : List Char :=
  trimEnd (trimStart t)

/-- The pieces between the characters that `p` picks, empty pieces included. -/
def splitWhere (p : Char → Bool) : List Char → List (List Char)
  | [] => [[]]
  | c :: r =>
    if p c then [] :: splitWhere p r
    else match splitWhere p r with
      | [] => [[c]]
      | piece :: pieces => (c :: piece) :: pieces

/-- The maximal runs of characters that are not blank. -/
def words (t : List Char) : List (List Char) :=
  (splitWhere isBlank t).filter (· ≠ [])

theorem splitWhere_ne_nil (p : Char → Bool) (t : List Char) : splitWhere p t ≠ [] := by
  cases t with
  | nil => simp [splitWhere]
  | cons c r =>
    simp only [splitWhere]
    split
    · simp
    · split <;> simp

end JniLink.Text
