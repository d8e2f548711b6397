/-!
# Blanks

Which characters are white space, and the two things done with them: cutting them off both ends of
a text, and splitting a text into its words. The set is the Unicode one together with the four
information separators U+001C to U+001F; the zero width space and the byte order mark are no blanks.
-/

namespace GhostText.Text

def isBlank (c : Char) : Bool :=
  let n := c.toNat
  (0x09 ≤ n && n ≤ 0x0d) || (0x1c ≤ n && n ≤ 0x20) || n == 0x85 || n == 0xa0 || n == 0x1680 ||
    (0x2000 ≤ n && n ≤ 0x200a) || n == 0x2028 || n == 0x2029 || n == 0x202f || n == 0x205f ||
    n == 0x3000

def trimLeft (blank : Char → Bool) (cs : List Char) : List Char := cs.dropWhile blank

def trimRight (blank : Char → Bool) (cs : List Char) : List Char :=
  (cs.reverse.dropWhile blank).reverse

/-- Cuts the characters of a class off both ends. -/
def trimClass (blank : Char → Bool) (cs : List Char) : List Char :=
  trimRight blank (trimLeft blank cs)

def trim (s : String) : String := String.ofList (trimClass isBlank s.toList)

def trimEnd (s : String) : String := String.ofList (trimRight isBlank s.toList)

/-- The maximal runs without a blank, in order. -/
def wordsOf : List Char → List (List Char)
  | [] => []
  | c :: cs =>
    if isBlank c then wordsOf cs
    else
      match cs with
      | [] => [[c]]
      | d :: _ =>
        if isBlank d then [c] :: wordsOf cs
        else
          match wordsOf cs with
          | [] => [[c]]
          | w :: ws => (c :: w) :: ws

def words (s : String) : List String := (wordsOf s.toList).map String.ofList

/-- Capital letters of the Latin alphabet become small ones. The words compared after this fold are
written in that alphabet, and no other capital folds into a letter of theirs. -/
def fold (s : String) : String := String.ofList (s.toList.map Char.toLower)

end GhostText.Text
