import Chip8.Picture.Text
import Mathlib.Data.List.Basic

/-! # Lines of cells

A text picture keeps every pixel. Its lines are the rows, and if the two cells
have the same length, a line falls into the cells of its pixels, also where the
cells begin alike.
-/

namespace Chip8

/-! ## Pieces of a line -/

namespace Text

variable {n : Nat} {piece rest : List Char} {cells : List (List Char)}

/-- A line in pieces of `n` characters; what is left at its end is no piece. -/
def pieces (n : Nat) (line : List Char) : List (List Char) :=
  (List.range (line.length / n)).map fun i => (line.drop (i * n)).take n

theorem pieces_append (hpos : 0 < n) (hpiece : piece.length = n) (rest : List Char) :
    pieces n (piece ++ rest) = piece :: pieces n rest := by
  have hcount : (piece ++ rest).length / n = rest.length / n + 1 := by
    rw [List.length_append, hpiece, Nat.add_div_left _ hpos]
  have hnext : ∀ i, (piece ++ rest).drop ((i + 1) * n) = rest.drop (i * n) := by
    intro i
    rw [Nat.succ_mul, Nat.add_comm, ← List.drop_drop, List.drop_left' hpiece]
  rw [pieces, hcount, List.range_succ_eq_map, List.map_cons, List.map_map]
  congr 1
  · rw [Nat.zero_mul, List.drop_zero, List.take_left' hpiece]
  · exact List.map_congr_left fun i _ => congrArg (List.take n) (hnext i)

theorem pieces_flatten (hpos : 0 < n) (hcells : ∀ cell ∈ cells, cell.length = n) :
    pieces n cells.flatten = cells := by
  induction cells with
  | nil => simp [pieces]
  | cons cell cells ih =>
    obtain ⟨hcell, hcells⟩ := List.forall_mem_cons.mp hcells
    rw [List.flatten_cons, pieces_append hpos hcell, ih hcells]

end Text

/-! ## Rows -/

variable {on off : String} {row : List Bool} {pixels : List (List Bool)} {w : Nat}

theorem toList_textRow (on off : String) (row : List Bool) :
    (textRow on off row).toList =
      (row.map fun lit => (if lit then on else off).toList).flatten := by
  rw [textRow, String.toList_join, List.flatMap_map]
  rfl

theorem length_cell (hlength : on.length = off.length) (lit : Bool) :
    (if lit then on else off).toList.length = on.length := by
  cases lit with
  | true => exact String.length_toList
  | false => exact String.length_toList.trans hlength.symm

theorem length_textRow (hlength : on.length = off.length) (row : List Bool) :
    (textRow on off row).toList.length = row.length * on.length := by
  rw [toList_textRow, List.length_flatten, List.map_map]
  simp only [Function.comp_def, length_cell hlength, List.map_const', List.sum_replicate_nat]

theorem not_mem_textRow {c : Char} (hon : c ∉ on.toList) (hoff : c ∉ off.toList)
    (row : List Bool) : c ∉ (textRow on off row).toList := by
  simp only [toList_textRow, List.mem_flatten, List.mem_map, not_exists, not_and]
  rintro cell ⟨lit, -, rfl⟩
  cases lit <;> simp [hon, hoff]

theorem pieces_textRow (hlength : on.length = off.length) (hpos : 0 < on.length) (hne : on ≠ off)
    (row : List Bool) :
    (Text.pieces on.length (textRow on off row).toList).map (· == on.toList) = row := by
  have hcells : ∀ cell ∈ row.map fun lit => (if lit then on else off).toList,
      cell.length = on.length := by
    intro cell hcell
    obtain ⟨lit, -, rfl⟩ := List.mem_map.mp hcell
    exact length_cell hlength lit
  have hlit : ∀ lit : Bool, ((if lit then on else off).toList == on.toList) = lit := by
    intro lit
    cases lit with
    | true => exact beq_self_eq_true _
    | false => exact beq_eq_false_iff_ne.mpr (mt String.toList_inj.mp hne.symm)
  rw [toList_textRow, Text.pieces_flatten hpos hcells, List.map_map]
  simp only [Function.comp_def, hlit, List.map_id']

/-! ## Pictures -/

theorem splitOn_textPicture (hpixels : pixels ≠ []) (hon : '\n' ∉ on.toList)
    (hoff : '\n' ∉ off.toList) :
    (textPicture on off pixels).toList.splitOn '\n' =
      pixels.map fun row => (textRow on off row).toList := by
  have hlines : (textPicture on off pixels).toList =
      ['\n'].intercalate (pixels.map fun row => (textRow on off row).toList) := by
    rw [textPicture, String.toList_intercalate, List.map_map]
    rfl
  rw [hlines]
  refine List.splitOn_intercalate '\n' (fun line hline => ?_) (by simpa using hpixels)
  obtain ⟨row, -, rfl⟩ := List.mem_map.mp hline
  exact not_mem_textRow hon hoff row

theorem textPictureWith_cells (on off : String) (pixels : List (List Bool)) :
    textPictureWith [("on", .text on), ("off", .text off)] pixels =
      .ok (textPicture on off pixels) := rfl

/-- A text picture loses nothing. With two different cells of one length, none of them empty or with
a line feed in it, its lines are as many as the rows and each as long as the cells of a row, and in
pieces of the length of a cell they tell the pixels. -/
theorem text_tells_pixels (hpixels : pixels ≠ []) (hw : ∀ row ∈ pixels, row.length = w)
    (hlength : on.length = off.length) (hpos : 0 < on.length) (hne : on ≠ off)
    (hon : '\n' ∉ on.toList) (hoff : '\n' ∉ off.toList) :
    ∃ text, textPictureWith [("on", .text on), ("off", .text off)] pixels = .ok text ∧
      (text.toList.splitOn '\n').length = pixels.length ∧
      (∀ line ∈ text.toList.splitOn '\n', line.length = w * on.length) ∧
      (text.toList.splitOn '\n').map (fun line =>
        (Text.pieces on.length line).map (· == on.toList)) = pixels := by
  refine ⟨textPicture on off pixels, textPictureWith_cells on off pixels, ?_⟩
  rw [splitOn_textPicture hpixels hon hoff]
  refine ⟨List.length_map _, fun line hline => ?_, ?_⟩
  · obtain ⟨row, hrow, rfl⟩ := List.mem_map.mp hline
    rw [length_textRow hlength, hw row hrow]
  · rw [List.map_map]
    simp only [Function.comp_def, pieces_textRow hlength hpos hne, List.map_id']

theorem text_tells_pixels_alike :
    let pixels := [[true, false, false], [false, true, false]]
    pixels ≠ [] ∧ (∀ row ∈ pixels, row.length = 3) ∧ "aab".length = "aba".length ∧
      0 < "aab".length ∧ "aab" ≠ "aba" ∧ '\n' ∉ "aab".toList ∧ '\n' ∉ "aba".toList ∧
      ∃ text, textPictureWith [("on", .text "aab"), ("off", .text "aba")] pixels = .ok text ∧
        text = "aababaaba\nabaaababa" ∧ (text.toList.splitOn '\n').length = pixels.length ∧
        (∀ line ∈ text.toList.splitOn '\n', line.length = 3 * "aab".length) ∧
        (text.toList.splitOn '\n').map (fun line =>
          (Text.pieces "aab".length line).map (· == "aab".toList)) = pixels := by
  intro pixels
  have hpixels : pixels ≠ [] := by decide
  have hw : ∀ row ∈ pixels, row.length = 3 := by decide
  have hlength : "aab".length = "aba".length := by decide
  have hpos : 0 < "aab".length := by decide
  have hne : "aab" ≠ "aba" := by decide
  have hon : '\n' ∉ "aab".toList := by decide
  have hoff : '\n' ∉ "aba".toList := by decide
  obtain ⟨text, htext, hlines⟩ := text_tells_pixels hpixels hw hlength hpos hne hon hoff
  have hshown : textPicture "aab" "aba" pixels = "aababaaba\nabaaababa" := by decide +kernel
  exact ⟨hpixels, hw, hlength, hpos, hne, hon, hoff, text, htext,
    (Except.ok.inj htext).symm.trans hshown, hlines⟩

end Chip8
