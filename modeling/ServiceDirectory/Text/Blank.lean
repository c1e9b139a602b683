/-!
# Blanks

Two sets of blank characters are in use.  Words of a request line are separated by the five ASCII
blanks; names and values are trimmed of every character with the White_Space property of Unicode.
-/

namespace ServiceDirectory.Text

/-- Space, tab, line feed, form feed and carriage return. -/
def isAsciiBlank (c : Char) : Bool :=
  c = ' ' || c = '\t' || c = '\n' || c = '\x0c' || c = '\r'

/-- The characters with the White_Space property of Unicode. -/
def isBlank (c : Char) : Bool :=
  let code := c.toNat
  (0x09 ≤ code && code ≤ 0x0D) || code = 0x20 || code = 0x85 || code = 0xA0 || code = 0x1680 ||
    (0x2000 ≤ code && code ≤ 0x200A) || code = 0x2028 || code = 0x2029 || code = 0x202F ||
    code = 0x205F || code = 0x3000

/-- Every ASCII blank is a blank. -/
theorem isBlank_of_isAsciiBlank {c : Char} (h : isAsciiBlank c) : isBlank c := by
  simp only [isAsciiBlank, Bool.or_eq_true, decide_eq_true_eq] at h
  rcases h with (((rfl | rfl) | rfl) | rfl) | rfl <;> decide

/-- A text without the blanks at its front. -/
def trimFront (text : List Char) : List Char := text.dropWhile isBlank

/-- A text without the blanks at both ends. -/
def trim (text : List Char) : List Char := (trimFront (trimFront text).reverse).reverse

/-- The words of a text that stand between ASCII blanks. -/
def words (text : List Char) : List (List Char) :=
  (text.splitOnP isAsciiBlank).filter (· ≠ [])

end ServiceDirectory.Text
