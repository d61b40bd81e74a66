/-!
# Blank characters

What the bot trims, skips or splits at is white space in the sense of Unicode's `White_Space`
property.  The module fixes that class and the four ways in which the bot uses it: trimming a
text, dropping every blank, taking the first word, and asking whether anything else is left.

Texts are lists of characters here; the callers convert at their own edge.
-/

namespace RoomBot.Text

/-! ## The class -/

/-- The code points with the property `White_Space`, as ranges with both ends included.
Zero-width characters are not among them. -/
def blankRanges : List (Nat × Nat) :=
  [(0x9, 0xD), (0x20, 0x20), (0x85, 0x85), (0xA0, 0xA0), (0x1680, 0x1680), (0x2000, 0x200A),
   (0x2028, 0x2029), (0x202F, 0x202F), (0x205F, 0x205F), (0x3000, 0x3000)]

/-- White space, whatever the script. -/
def isBlank (c : Char) : Bool :=
  blankRanges.any fun (first, last) => first ≤ c.toNat && c.toNat ≤ last

/-! ## Trimming -/

/-- The text from its first character that is not blank. -/
def trimStart (cs : List Char) : List Char := cs.dropWhile isBlank

/-- The text up to its last character that is not blank. -/
def trimEnd (cs : List Char) : List Char := (cs.reverse.dropWhile isBlank).reverse

/-- The text without the blanks at its two ends. -/
def trim (cs : List Char) : List Char := trimEnd (trimStart cs)

/-- Nothing but blanks, or nothing at all. -/
def isBlankText (cs : List Char) : Bool := cs.all isBlank

@[simp] theorem trimStart_eq_nil_iff {cs : List Char} :
    trimStart cs = [] ↔ isBlankText cs = true := by
  induction cs with
  | nil => simp [trimStart, isBlankText]
  | cons c cs ih => by_cases h : isBlank c <;> simp_all [trimStart, isBlankText]

@[simp] theorem trimEnd_eq_nil_iff {cs : List Char} : trimEnd cs = [] ↔ isBlankText cs = true := by
  have h : trimEnd cs = [] ↔ trimStart cs.reverse = [] := by simp [trimEnd, trimStart]
  rw [h, trimStart_eq_nil_iff, isBlankText, isBlankText, List.all_reverse]

/-! ## Words -/

/-- The text without its blanks, wherever they stand. -/
def compact (cs : List Char) : List Char := cs.filter fun c => !isBlank c

/-- What stands before the first blank. -/
def firstWord (cs : List Char) : List Char := cs.takeWhile fun c => !isBlank c

/-- What follows the first word, the blank that ends it included. -/
def afterFirstWord (cs : List Char) : List Char := cs.dropWhile fun c => !isBlank c

/-- Splitting off the first word loses nothing. -/
@[simp] theorem firstWord_append_afterFirstWord (cs : List Char) :
    firstWord cs ++ afterFirstWord cs = cs :=
  List.takeWhile_append_dropWhile

@[simp] theorem compact_append (a b : List Char) : compact (a ++ b) = compact a ++ compact b :=
  List.filter_append ..

end RoomBot.Text
