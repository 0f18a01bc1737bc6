/-!
# Blank characters

The characters that separate words and may be trimmed from the ends of a text, and the trimming
itself. Texts are cut as lists of characters; nothing here depends on a text's encoding.
-/

namespace TileCourse.Text

/-- A character with the Unicode property White_Space. -/
def isBlank (c : Char) : Bool :=
  let n := c.toNat
  (9 ≤ n && n ≤ 13) || n == 0x20 || n == 0x85 || n == 0xA0 || n == 0x1680 ||
    (0x2000 ≤ n && n ≤ 0x200A) || n == 0x2028 || n == 0x2029 || n == 0x202F || n == 0x205F ||
    n == 0x3000

/-- Remove the blanks at the end. -/
def trimEnd (cs : List Char) : List Char :=
  (cs.reverse.dropWhile isBlank).reverse

/-- Remove the blanks at both ends. -/
def trim (cs : List Char) : List Char :=
  trimEnd (cs.dropWhile isBlank)

/-- The upper-case form of a Latin letter; every other character stands for itself. -/
def upper (c : Char) : Char := c.toUpper

/-- The lower-case form of a Latin letter; every other character stands for itself. -/
def lower (c : Char) : Char := c.toLower

/-- The number of bytes of a text in UTF-8. -/
def byteSize (cs : List Char) : Nat :=
  cs.foldr (fun c size => c.utf8Size + size) 0

/-- The empty text has no bytes. -/
theorem byte_size_nil : byteSize [] = 0 := rfl

/-- The first character adds its own bytes to those of the others. -/
theorem byte_size_cons (c : Char) (cs : List Char) :
    byteSize (c :: cs) = c.utf8Size + byteSize cs := rfl

/-- The bytes of two texts add up. -/
theorem byte_size_append (cs ds : List Char) :
    byteSize (cs ++ ds) = byteSize cs + byteSize ds := by
  induction cs with
  | nil => simp [byte_size_nil]
  | cons c cs ih => simp [byte_size_cons, ih, Nat.add_assoc]

/-- Cut a text after each line feed. The line feeds stay with the lines they end; a text without
characters has no lines. -/
def lines : List Char → List (List Char)
  | [] => []
  | '\n' :: cs => ['\n'] :: lines cs
  | c :: cs =>
    match lines cs with
    | [] => [[c]]
    | line :: rest =>
      (c :: line) :: rest

end TileCourse.Text
