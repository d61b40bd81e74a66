import RoomBot.Proofs.Text.Separators
import RoomBot.Text.Pieces

/-!
# Texts laid out in pieces

The pieces in which a text is sent are stretches of the text, in order, and only line breaks are
left out around them.  A `Layout` says where: for each piece, the breaks in front of it, and in the
end the breaks behind the last one.

A layout is built from its end.  A piece or a slice goes in front (`Layout.prepend`), and so does a
break that is left out (`Layout.indent`).  The lines of the text are looked for where they stand
(`IsLine`), so that a line which occurs twice has to be found twice.  What is in front of a text
either has a break behind it, and then the lines of both are the lines of the whole
(`IsLine.of_break`), or it is a slice of a line that is too long to be found anywhere
(`IsLine.of_append`).

Every line that fits lies inside one piece (`pieces_laid_out`), unless it is empty: an empty line
may be left out together with the breaks around it, and a text of breaks alone may have no pieces at
all (`pieces_of_breaks`).
-/

namespace RoomBot.Text

/-! ## Lines -/

/-- A line in its place: it has no break inside, and its neighbours are breaks or the ends of the
text. -/
structure IsLine (text before line after : List Char) : Prop where
  eq : text = before ++ line ++ after
  whole : '\n' ∉ line
  starts : ∀ c ∈ before.getLast?, c = '\n'
  ends : ∀ c ∈ after.head?, c = '\n'

namespace IsLine

variable {front text before line after : List Char}

lemma of_cons (h : IsLine ('\n' :: text) before line after) (hne : line ≠ []) :
    ∃ behind, before = '\n' :: behind ∧ IsLine text behind line after := by
  cases before with
  | nil =>
    obtain ⟨c, line, rfl⟩ := List.exists_cons_of_ne_nil hne
    obtain ⟨rfl, -⟩ := List.cons.inj h.eq
    exact absurd List.mem_cons_self h.whole
  | cons c behind =>
    obtain ⟨rfl, htext⟩ := List.cons.inj h.eq
    refine ⟨behind, rfl, htext, h.whole, fun x hx => h.starts x ?_, h.ends⟩
    rw [List.getLast?_cons, Option.mem_def.1 hx]
    rfl

/-- A text that begins with a stretch without breaks: a line is the first one, or it comes later. -/
theorem of_append (hfront : '\n' ∉ front) (h : IsLine (front ++ text) before line after) :
    before = [] ∨ ∃ behind, before = front ++ behind ∧ IsLine text behind line after := by
  have heq := h.eq
  rw [List.append_assoc, List.append_eq_append_iff] at heq
  rcases heq with ⟨behind, rfl, htext⟩ | ⟨others, rfl, -⟩
  · refine .inr ⟨behind, rfl, by rw [htext, List.append_assoc], h.whole, fun c hc => ?_, h.ends⟩
    exact h.starts c (by rw [List.getLast?_append, Option.mem_def.1 hc]; rfl)
  · -- The break in front of the line would be one of the stretch.
    cases hlast : before.getLast? with
    | none => exact .inl (List.getLast?_eq_none_iff.1 hlast)
    | some c =>
      obtain rfl := h.starts c hlast
      exact absurd (List.mem_append_left _ (List.mem_of_getLast? hlast)) hfront

/-- A line that is not empty lies on one side of every break. -/
theorem of_break (h : IsLine (front ++ '\n' :: text) before line after) (hne : line ≠ []) :
    (∃ others, front = before ++ line ++ others) ∨
      ∃ behind, before = front ++ '\n' :: behind ∧ IsLine text behind line after := by
  have heq := h.eq
  rw [List.append_assoc, List.append_eq_append_iff] at heq
  rcases heq with ⟨behind, rfl, htext⟩ | ⟨middle, rfl, htext⟩
  · have hline : IsLine ('\n' :: text) behind line after :=
      ⟨by rw [htext, List.append_assoc], h.whole,
        fun c hc => h.starts c (by rw [List.getLast?_append, Option.mem_def.1 hc]; rfl), h.ends⟩
    obtain ⟨later, rfl, hlater⟩ := hline.of_cons hne
    exact .inr ⟨later, rfl, hlater⟩
  · left
    rcases List.append_eq_append_iff.1 htext with ⟨others, rfl, -⟩ | ⟨others, rfl, hrest⟩
    · exact ⟨others, by rw [List.append_assoc]⟩
    · cases others with
      | nil => exact ⟨[], by simp⟩
      | cons c others =>
        obtain ⟨rfl, -⟩ := List.cons.inj hrest
        exact absurd (by simp) h.whole

end IsLine

/-! ## Layouts -/

/-- A piece with the breaks that are left out in front of it. -/
structure Slot where
  gap : List Char
  piece : List Char
  breaks : ∀ c ∈ gap, c = '\n'

/-- The stretch of the text that a piece and the breaks in front of it take up. -/
def Slot.text (slot : Slot) : List Char := slot.gap ++ slot.piece

/-- Pieces in their places, and the breaks that are left out behind the last one. -/
structure Layout where
  slots : List Slot
  rest : List Char
  breaks : ∀ c ∈ rest, c = '\n'

namespace Layout

variable {layout : Layout} {before line : List Char}

/-- The pieces, in order. -/
def pieces (layout : Layout) : List (List Char) := layout.slots.map Slot.piece

/-- The text that is laid out. -/
def text (layout : Layout) : List Char := layout.slots.flatMap Slot.text ++ layout.rest

/-- What stands behind `before` lies wholly inside one piece. -/
def Holds (layout : Layout) (before line : List Char) : Prop :=
  ∃ front slot back left right, layout.slots = front ++ slot :: back ∧
    slot.piece = left ++ line ++ right ∧ before = front.flatMap Slot.text ++ slot.gap ++ left

/-- The empty text has no pieces. -/
def empty : Layout := ⟨[], [], by simp⟩

/-- Another piece in front. -/
def prepend (piece : List Char) (layout : Layout) : Layout :=
  { layout with slots := ⟨[], piece, by simp⟩ :: layout.slots }

/-- A break in front, which is left out. -/
def indent : Layout → Layout
  | ⟨[], rest, breaks⟩ => ⟨[], '\n' :: rest, by simpa using breaks⟩
  | ⟨slot :: slots, rest, breaks⟩ =>
    ⟨⟨'\n' :: slot.gap, slot.piece, by simpa using slot.breaks⟩ :: slots, rest, breaks⟩

@[simp] lemma text_prepend (piece : List Char) (layout : Layout) :
    (layout.prepend piece).text = piece ++ layout.text := by
  simp [text, prepend, Slot.text]

@[simp] lemma pieces_indent (layout : Layout) : layout.indent.pieces = layout.pieces := by
  obtain ⟨slots, rest, breaks⟩ := layout
  cases slots <;> rfl

@[simp] lemma text_indent (layout : Layout) : layout.indent.text = '\n' :: layout.text := by
  obtain ⟨slots, rest, breaks⟩ := layout
  cases slots <;> rfl

lemma holds_prepend (left line right : List Char) (layout : Layout) :
    (layout.prepend (left ++ line ++ right)).Holds left line :=
  ⟨[], _, layout.slots, left, right, rfl, rfl, rfl⟩

theorem Holds.prepend (h : layout.Holds before line) (piece : List Char) :
    (layout.prepend piece).Holds (piece ++ before) line := by
  obtain ⟨front, slot, back, left, right, hslots, hpiece, rfl⟩ := h
  refine ⟨⟨[], piece, by simp⟩ :: front, slot, back, left, right, ?_, hpiece, ?_⟩
  · rw [Layout.prepend, hslots]
    rfl
  · simp [Slot.text]

theorem Holds.indent (h : layout.Holds before line) : layout.indent.Holds ('\n' :: before) line := by
  obtain ⟨front, slot, back, left, right, hslots, hpiece, rfl⟩ := h
  obtain ⟨slots, rest, breaks⟩ := layout
  obtain rfl : slots = front ++ slot :: back := hslots
  cases front with
  | nil => exact ⟨[], _, back, left, right, rfl, hpiece, rfl⟩
  | cons first front => exact ⟨_ :: front, slot, back, left, right, rfl, hpiece, rfl⟩

end Layout

/-! ## Texts that are laid out -/

/-- The text can be laid out in these pieces. None is empty or longer than `most`, and every line
that fits lies inside one of them. -/
def IsLaidOut (most : Nat) (text : List Char) (pieces : List (List Char)) : Prop :=
  ∃ layout : Layout, layout.pieces = pieces ∧ layout.text = text ∧
    (∀ piece ∈ pieces, piece ≠ [] ∧ piece.length ≤ most) ∧
    ∀ before line after, IsLine text before line after → line ≠ [] → line.length ≤ most →
      layout.Holds before line

namespace IsLaidOut

variable {most : Nat} {piece text : List Char} {pieces : List (List Char)}

lemma nil : IsLaidOut most [] [] := by
  refine ⟨.empty, rfl, rfl, by simp, fun before line after h hne _ => absurd ?_ hne⟩
  have heq := h.eq
  simp only [List.nil_eq, List.append_eq_nil_iff] at heq
  exact heq.1.2

/-- A leading break is left out. -/
theorem indent (h : IsLaidOut most text pieces) : IsLaidOut most ('\n' :: text) pieces := by
  obtain ⟨layout, hpieces, rfl, hlength, hholds⟩ := h
  refine ⟨layout.indent, layout.pieces_indent.trans hpieces, layout.text_indent, hlength, ?_⟩
  intro before line after hline hne hfits
  obtain ⟨behind, rfl, hlater⟩ := hline.of_cons hne
  exact (hholds behind line after hlater hne hfits).indent

lemma singleton (hne : piece ≠ []) (hlength : piece.length ≤ most) :
    IsLaidOut most piece [piece] := by
  refine ⟨Layout.empty.prepend piece, rfl, ?_, by simpa using ⟨hne, hlength⟩, ?_⟩
  · rw [Layout.text_prepend]
    exact List.append_nil piece
  · intro before line after hline _ _
    rw [hline.eq]
    exact Layout.holds_prepend before line after .empty

lemma close (hne : piece ≠ []) (hlength : piece.length ≤ most)
    (h : IsLaidOut most text pieces) :
    IsLaidOut most (piece ++ '\n' :: text) (piece :: pieces) := by
  obtain ⟨layout, hpieces, rfl, hlengths, hholds⟩ := h
  refine ⟨layout.indent.prepend piece, ?_, ?_, ?_, ?_⟩
  · exact congrArg (piece :: ·) (layout.pieces_indent.trans hpieces)
  · simp
  · exact List.forall_mem_cons.2 ⟨⟨hne, hlength⟩, hlengths⟩
  · intro before line after hline hsome hfits
    rcases hline.of_break hsome with ⟨others, rfl⟩ | ⟨behind, rfl, hlater⟩
    · exact Layout.holds_prepend before line others layout.indent
    · exact (hholds behind line after hlater hsome hfits).indent.prepend piece

/-- A slice of a line is a piece of its own. The line goes on, so it does not fit. -/
lemma slice {c : Char} (h : IsLaidOut most (c :: text) pieces) (hc : c ≠ '\n') (hpos : 0 < most)
    (hlength : piece.length = most) (hpiece : '\n' ∉ piece) :
    IsLaidOut most (piece ++ c :: text) (piece :: pieces) := by
  obtain ⟨layout, hpieces, htext, hlengths, hholds⟩ := h
  have hne : piece ≠ [] := List.ne_nil_of_length_pos (hlength ▸ hpos)
  refine ⟨layout.prepend piece, ?_, ?_, ?_, ?_⟩
  · exact congrArg (piece :: ·) hpieces
  · simp [htext]
  · exact List.forall_mem_cons.2 ⟨⟨hne, Nat.le_of_eq hlength⟩, hlengths⟩
  · intro before line after hline hsome hfits
    rcases hline.of_append hpiece with rfl | ⟨behind, rfl, hlater⟩
    · -- The first line is longer than the slice, which is as long as a piece can be.
      have hafter : after = piece.drop line.length ++ c :: text := by
        rw [← List.drop_append_of_le_length (hlength ▸ hfits), hline.eq, List.nil_append,
          List.drop_left]
      have hends := hline.ends
      rw [hafter] at hends
      cases hdrop : piece.drop line.length with
      | nil =>
        rw [hdrop] at hends
        exact absurd (hends c rfl) hc
      | cons x others =>
        rw [hdrop] at hends
        have hx : x ∈ piece := List.mem_of_mem_drop (hdrop ▸ List.mem_cons_self)
        exact absurd (hends x rfl ▸ hx) hpiece
    · exact (hholds behind line after hlater hsome hfits).prepend piece

end IsLaidOut

/-! ## Packing -/

/-- What is left of a text behind a line: the other lines, each behind its break. -/
def broken (lines : List (List Char)) : List Char := lines.flatMap ('\n' :: ·)

/-- Slices are laid out as they are cut, before whatever becomes of the last one. -/
lemma isLaidOut_cutLine {room : Nat} {line behind : List Char} {pieces : List (List Char)}
    (hline : '\n' ∉ line)
    (h : IsLaidOut (room + 1) ((cutLine room line).2 ++ behind) pieces) :
    IsLaidOut (room + 1) (line ++ behind) ((cutLine room line).1 ++ pieces) := by
  fun_induction cutLine room line with
  | case1 line hlong slices last hcut ih =>
    rw [hcut] at ih
    have hdrop : '\n' ∉ line.drop (room + 1) := fun hmem => hline (List.mem_of_mem_drop hmem)
    have hrest := ih hdrop h
    obtain ⟨c, others, hothers⟩ : ∃ c others, line.drop (room + 1) = c :: others :=
      List.exists_cons_of_ne_nil (by simpa using hlong)
    rw [hothers, List.cons_append] at hrest
    rw [hothers, List.mem_cons, not_or] at hdrop
    have hslice := hrest.slice (Ne.symm hdrop.1) (Nat.succ_pos room)
      (List.length_take_of_le (Nat.le_of_lt hlong)) fun hmem => hline (List.mem_of_mem_take hmem)
    rw [← List.cons_append, ← hothers, ← List.append_assoc, List.take_append_drop] at hslice
    exact hslice
  | case2 line hshort => exact h

lemma length_cutLine_le (room : Nat) (line : List Char) :
    (cutLine room line).2.length ≤ room + 1 := by
  fun_induction cutLine room line with
  | case1 line hlong slices last hcut ih => rwa [hcut] at ih
  | case2 line hshort => exact Nat.le_of_not_lt hshort

variable {room : Nat} {piece line : List Char}

lemma packLines_join (hne : piece ≠ []) (hfits : (piece ++ '\n' :: line).length ≤ room + 1)
    (rest : List (List Char)) :
    packLines room piece (line :: rest) = packLines room (piece ++ '\n' :: line) rest := by
  simp only [packLines, List.isEmpty_iff, if_neg hne, if_pos hfits]

/-- Where no piece is open the line begins one, or is cut. -/
lemma packLines_nil (room : Nat) (line : List Char) (rest : List (List Char)) :
    packLines room [] (line :: rest) =
      (cutLine room line).1 ++ packLines room (cutLine room line).2 rest := by
  simp only [packLines, List.isEmpty_nil, if_true, List.nil_append]
  split
  · rename_i hfits
    rw [cutLine, if_neg (Nat.not_lt.2 hfits), List.nil_append]
  · rfl

lemma packLines_close (hne : piece ≠ []) (hlong : ¬ (piece ++ '\n' :: line).length ≤ room + 1)
    (rest : List (List Char)) :
    packLines room piece (line :: rest) = piece :: packLines room [] (line :: rest) := by
  rw [packLines_nil]
  simp only [packLines, List.isEmpty_iff, if_neg hne, if_neg hlong, List.cons_append,
    List.nil_append]

/-- The open piece and the lines behind it are laid out in the pieces that are made of them. -/
lemma isLaidOut_packLines {lines : List (List Char)}
    (hlines : ∀ line ∈ lines, '\n' ∉ line) (hpiece : piece.length ≤ room + 1) :
    IsLaidOut (room + 1) (piece ++ broken lines) (packLines room piece lines) := by
  induction lines generalizing piece with
  | nil =>
    rw [broken, List.flatMap_nil, List.append_nil, packLines]
    split
    · rename_i hempty
      rw [List.isEmpty_iff.1 hempty]
      exact .nil
    · rename_i hempty
      exact .singleton (by simpa using hempty) hpiece
  | cons line rest ih =>
    obtain ⟨hline, hrest⟩ := List.forall_mem_cons.1 hlines
    -- Where no piece is open the line begins one.
    have hfresh : IsLaidOut (room + 1) (line ++ broken rest) (packLines room [] (line :: rest)) := by
      rw [packLines_nil]
      exact isLaidOut_cutLine hline (ih hrest (length_cutLine_le room line))
    rw [broken, List.flatMap_cons, List.cons_append]
    by_cases hempty : piece = []
    · subst hempty
      exact hfresh.indent
    · by_cases hfits : (piece ++ '\n' :: line).length ≤ room + 1
      · rw [packLines_join hempty hfits, ← List.cons_append, ← List.append_assoc]
        exact ih hrest hfits
      · rw [packLines_close hempty hfits]
        exact hfresh.close hempty hpiece

/-! ## Pieces -/

/-- A text that is too long for one piece is laid out in those that are packed. -/
lemma isLaidOut_of_long (room : Nat) (text : List Char) :
    IsLaidOut (room + 1) text (packLines room [] (text.splitOn '\n')) := by
  have hlines : ∀ line ∈ text.splitOn '\n', '\n' ∉ line := fun _ => notMem_of_mem_splitOn
  obtain ⟨line, rest, hsplit⟩ := List.exists_cons_of_ne_nil (List.splitOn_ne_nil '\n' text)
  have htext : line ++ broken rest = text := by
    have hjoined : ['\n'].intercalate (text.splitOn '\n') = text := List.intercalate_splitOn '\n'
    rwa [hsplit, intercalate_cons] at hjoined
  rw [hsplit] at hlines ⊢
  obtain ⟨hline, hrest⟩ := List.forall_mem_cons.1 hlines
  rw [packLines_nil, ← htext]
  exact isLaidOut_cutLine hline (isLaidOut_packLines hrest (length_cutLine_le room line))

/-- The pieces of a text are stretches of it, in order, and nothing but breaks is left out around
them. None is longer than the limit, where a limit of zero counts as one, and none is empty unless
the text is. Every line that is not empty and fits lies wholly inside one of them. -/
theorem pieces_laid_out (s : String) (limit : Nat) :
    ∃ layout : Layout, layout.pieces = (pieces s limit).map String.toList ∧
      layout.text = s.toList ∧
      (∀ piece ∈ pieces s limit, piece.length ≤ max limit 1 ∧ (piece = "" → s = "")) ∧
      ∀ before line after, IsLine s.toList before line after → line ≠ [] →
        line.length ≤ max limit 1 → layout.Holds before line := by
  by_cases hfits : s.length ≤ max limit 1
  · have hpieces : pieces s limit = [s] := by simp only [pieces, if_pos hfits]
    rw [hpieces]
    refine ⟨Layout.empty.prepend s.toList, rfl, ?_, by simpa using hfits, ?_⟩
    · rw [Layout.text_prepend]
      exact List.append_nil s.toList
    · intro before line after hline _ _
      rw [hline.eq]
      exact Layout.holds_prepend before line after .empty
  · obtain ⟨room, hroom⟩ : ∃ room, max limit 1 = room + 1 :=
      Nat.exists_eq_add_one_of_ne_zero (by omega)
    rw [hroom] at hfits ⊢
    have hpieces : pieces s limit =
        (packLines room [] (s.toList.splitOn '\n')).map String.ofList := by
      simp only [pieces, hroom, if_neg hfits, Nat.add_sub_cancel]
    obtain ⟨layout, hlayout, htext, hlengths, hholds⟩ := isLaidOut_of_long room s.toList
    rw [hpieces]
    refine ⟨layout, ?_, htext, ?_, hholds⟩
    · rw [hlayout, List.map_map]
      simp [Function.comp_def]
    · intro piece hmem
      obtain ⟨cs, hcs, rfl⟩ := List.mem_map.1 hmem
      obtain ⟨hne, hlength⟩ := hlengths cs hcs
      exact ⟨by simpa using hlength, fun hempty => absurd (by simpa using hempty) hne⟩

/-- An empty line need not lie inside a piece: a text of breaks alone has no pieces if it does not
fit. -/
theorem pieces_of_breaks :
    ¬ ∀ (s : String) (limit : Nat) (before line after : List Char),
      IsLine s.toList before line after → line.length ≤ max limit 1 →
      ∃ piece ∈ pieces s limit, line <:+: piece.toList := by
  intro h
  have hline : IsLine "\n\n".toList [] [] ['\n', '\n'] := ⟨rfl, by simp, by simp, by simp⟩
  have hnone : pieces "\n\n" 1 = [] := by decide +kernel
  obtain ⟨piece, hmem, -⟩ := h "\n\n" 1 [] [] ['\n', '\n'] hline (by decide)
  rw [hnone] at hmem
  contradiction

end RoomBot.Text
