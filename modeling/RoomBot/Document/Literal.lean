import RoomBot.Text.Hexadecimal

/-!
# String literals

How a text is written between double quotes in a JSON document, and how it is read back.

Writing escapes the quote, the backslash and the control characters below U+0020, and nothing
else; five of the controls have a short form (`escape`, `quote`).  Reading accepts every escape
of the format.  A literal can be well formed and still be no text, because `\uXXXX` can name one
half of a surrogate pair without the other; that shows only when the pieces of the literal are
put together (`Piece`, `assemble?`).

What was written is read back as it was (`read?_quote`, `assemble?_map_whole`), and reading always
gets on (`length_lt_of_read?`).
-/

namespace RoomBot.Document.Literal

open Text (hexDigit hexValue? hexValue?_hexDigit)

/-! ## Writing -/

/-- A character as it stands in a literal. -/
def escape (c : Char) : List Char :=
  if c = '"' then ['\\', '"']
  else if c = '\\' then ['\\', '\\']
  else if c = '\x08' then ['\\', 'b']
  else if c = '\x0c' then ['\\', 'f']
  else if c = '\n' then ['\\', 'n']
  else if c = '\r' then ['\\', 'r']
  else if c = '\t' then ['\\', 't']
  else if c < ' ' then
    ['\\', 'u', '0', '0', hexDigit (c.toNat / 16), hexDigit (c.toNat % 16)]
  else [c]

/-- A text as a literal. -/
def quote (text : List Char) : List Char := '"' :: text.flatMap escape ++ ['"']

/-! ## Pieces of a literal -/

/-- What one character or one escape of a literal stands for. -/
inductive Piece
  | whole (c : Char)
  /-- The first half of a surrogate pair, as its ten bits. -/
  | high (bits : Nat)
  /-- The second half of a surrogate pair, as its ten bits. -/
  | low (bits : Nat)
deriving DecidableEq, Repr

/-- The piece of a code of sixteen bits. -/
def Piece.ofCode (code : Nat) : Piece :=
  if code / 0x400 = 0x36 then high (code % 0x400)
  else if code / 0x400 = 0x37 then low (code % 0x400)
  else whole (Char.ofNat code)

/-- The number that hexadecimal digits stand for. -/
def hexCode? (digits : List Char) : Option Nat :=
  digits.foldl (fun code c => do return 16 * (← code) + (← hexValue? c)) (some 0)

/-- What a backslash makes of the character after it. -/
def unescape? : Char → Option Char
  | '"' => some '"'
  | '\\' => some '\\'
  | '/' => some '/'
  | 'b' => some '\x08'
  | 'f' => some '\x0c'
  | 'n' => some '\n'
  | 'r' => some '\r'
  | 't' => some '\t'
  | _ => none

/-- The pieces of a literal whose opening quote has been read, and what follows the literal. A
bare control character is not allowed in it. -/
def read? : List Char → Option (List Piece × List Char)
  | [] => none
  | '"' :: rest => some ([], rest)
  | '\\' :: 'u' :: a :: b :: c :: d :: rest => do
    let code ← hexCode? [a, b, c, d]
    let (pieces, after) ← read? rest
    return (.ofCode code :: pieces, after)
  | '\\' :: c :: rest => do
    let c ← unescape? c
    let (pieces, after) ← read? rest
    return (.whole c :: pieces, after)
  | c :: rest =>
    if c < ' ' then none
    else do
      let (pieces, after) ← read? rest
      return (.whole c :: pieces, after)

/-- The text of a literal. Half a surrogate pair has none. -/
def assemble? : List Piece → Option (List Char)
  | [] => some []
  | .whole c :: rest => (assemble? rest).map (c :: ·)
  | .high bits :: .low bits' :: rest =>
    (assemble? rest).map (Char.ofNat (0x10000 + 0x400 * bits + bits') :: ·)
  | _ => none

/-! ## Laws -/

/-- Reading a literal uses up its characters. -/
theorem length_lt_of_read? {cs after : List Char} {pieces : List Piece}
    (h : read? cs = some (pieces, after)) : after.length < cs.length := by
  fun_induction read? cs generalizing pieces with
  | case1 => simp at h
  | case2 => simp_all
  | case3 a b c d rest ih =>
    simp only [bind, Option.bind_eq_some_iff] at h
    obtain ⟨_, _, ⟨ps, after'⟩, hr, h⟩ := h
    obtain ⟨-, rfl⟩ : _ ∧ after' = after := by simpa [pure] using h
    have := ih hr
    simp only [List.length_cons]
    omega
  | case4 c rest _ ih =>
    simp only [bind, Option.bind_eq_some_iff] at h
    obtain ⟨_, _, ⟨ps, after'⟩, hr, h⟩ := h
    obtain ⟨-, rfl⟩ : _ ∧ after' = after := by simpa [pure] using h
    have := ih hr
    simp only [List.length_cons]
    omega
  | case5 => simp at h
  | case6 c rest _ _ _ _ ih =>
    simp only [bind, Option.bind_eq_some_iff] at h
    obtain ⟨⟨ps, after'⟩, hr, h⟩ := h
    obtain ⟨-, rfl⟩ : _ ∧ after' = after := by simpa [pure] using h
    have := ih hr
    simp only [List.length_cons]
    omega

/-- A character that was written is read back, whatever follows it. -/
theorem read?_escape_append (c : Char) (rest : List Char) :
    read? (escape c ++ rest) =
      (read? rest).map fun (pieces, after) => (.whole c :: pieces, after) := by
  unfold escape
  by_cases hs : c ∈ ['"', '\\', '\x08', '\x0c', '\n', '\r', '\t']
  · simp only [List.mem_cons, List.not_mem_nil, or_false] at hs
    rcases hs with rfl | rfl | rfl | rfl | rfl | rfl | rfl <;>
      cases h : read? rest <;> simp [read?, unescape?, h]
  · simp only [List.mem_cons, List.not_mem_nil, or_false, not_or] at hs
    obtain ⟨hq, hb, h8, hf, hn, hr, ht⟩ := hs
    simp only [hq, hb, h8, hf, hn, hr, ht, if_false]
    split
    · rename_i hc
      have hlt : c.toNat < 32 := hc
      have hcode : hexCode? ['0', '0', hexDigit (c.toNat / 16), hexDigit (c.toNat % 16)] =
          some c.toNat := by
        simp [hexCode?, hexValue?_hexDigit (show c.toNat / 16 < 16 by omega),
          hexValue?_hexDigit (show c.toNat % 16 < 16 by omega), show hexValue? '0' = some 0 from rfl]
        omega
      have hpiece : Piece.ofCode c.toNat = .whole c := by
        simp only [Piece.ofCode]
        rw [if_neg (by omega), if_neg (by omega), Char.ofNat_toNat]
      cases h : read? rest <;> simp [read?, h, hcode, hpiece]
    · rename_i hc
      rw [List.singleton_append, read?.eq_def]
      split
      next h => simp at h
      next h => simp_all
      next h => simp_all
      next h => simp_all
      next h =>
        obtain ⟨rfl, rfl⟩ := List.cons.inj h
        rw [if_neg hc]
        cases read? rest <;> rfl

/-- A literal that was written is read to its end, as the characters of the text. -/
@[simp] theorem read?_quote (text rest : List Char) :
    read? (text.flatMap escape ++ '"' :: rest) = some (text.map .whole, rest) := by
  induction text with
  | nil => rfl
  | cons c text ih =>
    rw [List.flatMap_cons, List.append_assoc, read?_escape_append, ih]
    rfl

@[simp] theorem assemble?_map_whole (text : List Char) :
    assemble? (text.map .whole) = some text := by
  induction text with
  | nil => rfl
  | cons c text ih => simp [assemble?, ih]

end RoomBot.Document.Literal
