/-!
# Trimming, searching and replacing

Names, kinds and secrets that hold nothing but white space count as empty everywhere. The characters meant are
those with the Unicode property White_Space.

Occurrences of one text in another are looked for over lists of characters. `replaceAll` replaces from the left
and goes on behind each occurrence, so the occurrences that it replaces never overlap.
-/

namespace SnapshotLedger.Text

/-- The characters with the Unicode property White_Space. -/
def isBlankChar (c : Char) : Bool :=
  let n := c.toNat
  (9 ≤ n && n ≤ 13) || n == 0x20 || n == 0x85 || n == 0xA0 || n == 0x1680 || (0x2000 ≤ n && n ≤ 0x200A) ||
    n == 0x2028 || n == 0x2029 || n == 0x202F || n == 0x205F || n == 0x3000

/-- The characters without those blanks that open or close them. -/
def trimChars (s : List Char) : List Char :=
  ((s.dropWhile isBlankChar).reverse.dropWhile isBlankChar).reverse

/-- The text without the blanks that open or close it. -/
def trim (s : String) : String := String.ofList (trimChars s.toList)

/-- A text is blank when trimming leaves nothing of it. -/
def isBlank (s : String) : Bool := (trimChars s.toList).isEmpty

/-- Whether `pat` occurs somewhere in the text. -/
def occursIn (pat : List Char) : List Char → Bool
  | [] => pat.isEmpty
  | c :: r => pat.isPrefixOf (c :: r) || occursIn pat r

/-- The text with the occurrences of `pat` replaced, where the next `skip` characters belong to an occurrence
that has been replaced already. -/
def replaceFrom (pat new : List Char) : (skip : Nat) → List Char → List Char
  | _, [] => []
  | skip + 1, _ :: r => replaceFrom pat new skip r
  | 0, c :: r =>
    if pat.isPrefixOf (c :: r) then new ++ replaceFrom pat new (pat.length - 1) r else c :: replaceFrom pat new 0 r

/-- The text with every occurrence of `pat` replaced by `new`, from left to right. -/
def replaceAll (pat new s : List Char) : List Char := replaceFrom pat new 0 s

/-- The parts of a list between the separators; a list without one is its own only part. -/
def splitAt {α : Type} [DecidableEq α] (sep : α) : List α → List (List α)
  | [] => [[]]
  | c :: r =>
    if c = sep then [] :: splitAt sep r
    else match splitAt sep r with
      | [] => [[c]]
      | p :: ps => (c :: p) :: ps

/-- Whether `part` occurs in `s`. -/
def contains (s part : String) : Bool := occursIn part.toList s.toList

/-- The bytes that the characters take in UTF-8. -/
def utf8Length : List Char → Nat
  | [] => 0
  | c :: r => c.utf8Size + utf8Length r

end SnapshotLedger.Text
