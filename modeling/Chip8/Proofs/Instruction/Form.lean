import Chip8.Proofs.Instruction.Format

/-! # Forms of text

The texts of an operation have the same characters between the digits of the
word, and the digits do not move them. What differs from one text to the next are
the nibbles that they show.
-/

namespace Chip8

/-- What a text has at a place: a character, a nibble of the word, any digit, or the last nibble in
decimal, which has no fixed width and ends the text. -/
inductive Symbol where
  | char (c : Char)
  | nibble (p : Nibble)
  | any
  | number
  deriving DecidableEq

def Symbol.nibble? : Symbol → Option Nibble
  | nibble p => some p
  | number => some .n
  | char _ | any => none

def Piece.symbols : Piece → List Symbol
  | text s => s.toList.map .char
  | x => [.nibble .x]
  | y => [.nibble .y]
  | n => [.number]
  | nn => [.char '0', .char 'x', .nibble .y, .nibble .n]
  | nnn => [.char '0', .char 'x', .nibble .x, .nibble .y, .nibble .n]

/-- The form of the texts of an operation. The register of an offset jump says nothing that the
address does not say. -/
def Operation.symbols : Operation → List Symbol
  | jumpOffset =>
    (Piece.text "JP V").symbols ++ .any :: ((Piece.text ", ").symbols ++ Piece.nnn.symbols)
  | op => op.pattern.flatMap Piece.symbols

/-- A text that shows a word in a form. -/
inductive Shows (w : UInt16) : List Symbol → List Char → Prop
  | nil : Shows w [] []
  | char {symbols : List Symbol} {cs : List Char} (c : Char) (h : Shows w symbols cs) :
      Shows w (.char c :: symbols) (c :: cs)
  | nibble {symbols : List Symbol} {cs : List Char} (p : Nibble) (h : Shows w symbols cs) :
      Shows w (.nibble p :: symbols) (Text.hexDigit (Word.nibble w p) :: cs)
  | any {symbols : List Symbol} {cs : List Char} (d : Fin 16) (h : Shows w symbols cs) :
      Shows w (.any :: symbols) (Text.hexDigit d :: cs)
  | number : Shows w [.number] (toString (Word.n w).val).toList

variable {w : UInt16} {symbols : List Symbol} {cs : List Char}

theorem Shows.text (h : Shows w symbols cs) (s : String) :
    Shows w ((Piece.text s).symbols ++ symbols) (s.toList ++ cs) := by
  change Shows w (s.toList.map .char ++ symbols) (s.toList ++ cs)
  induction s.toList with
  | nil => exact h
  | cons c rest ih => exact ih.char c

theorem toList_fill_nn (w : UInt16) : (Piece.fill w .nn).toList =
    ['0', 'x', Text.hexDigit (Word.y w), Text.hexDigit (Word.n w)] := by
  rw [Piece.fill, String.toList_append, Word.toNat_nn, Text.toList_hex_succ 0 _ (Word.n w).isLt,
    Text.toList_hex_one (Word.y w).isLt]
  rfl

theorem toList_fill_nnn (w : UInt16) : (Piece.fill w .nnn).toList =
    ['0', 'x', Text.hexDigit (Word.x w), Text.hexDigit (Word.y w), Text.hexDigit (Word.n w)] := by
  have hnnn : (Word.nnn w).val = 16 * (16 * (Word.x w).val + (Word.y w).val) + (Word.n w).val := by
    rw [Word.val_nnn, Word.toNat_nn]
    omega
  rw [Piece.fill, String.toList_append, hnnn, Text.toList_hex_succ 1 _ (Word.n w).isLt,
    Text.toList_hex_succ 0 _ (Word.y w).isLt, Text.toList_hex_one (Word.x w).isLt]
  rfl

theorem Shows.fill (h : Shows w symbols cs) {piece : Piece} (hpiece : piece ≠ .n) :
    Shows w (piece.symbols ++ symbols) ((piece.fill w).toList ++ cs) := by
  cases piece with
  | text s => exact h.text s
  | x =>
    rw [Piece.fill, Text.toList_hex_one (Word.x w).isLt]
    exact h.nibble .x
  | y =>
    rw [Piece.fill, Text.toList_hex_one (Word.y w).isLt]
    exact h.nibble .y
  | n => exact absurd rfl hpiece
  | nn =>
    rw [toList_fill_nn]
    exact .char _ (.char _ (.nibble .y (.nibble .n h)))
  | nnn =>
    rw [toList_fill_nnn]
    exact .char _ (.char _ (.nibble .x (.nibble .y (.nibble .n h))))

theorem shows_pieces {pieces : List Piece} (h : .n ∉ pieces.dropLast) :
    Shows w (pieces.flatMap Piece.symbols) (String.join (pieces.map (Piece.fill w))).toList := by
  induction pieces with
  | nil => exact .nil
  | cons piece pieces ih =>
    rw [List.map_cons, String.join_cons, String.toList_append, List.flatMap_cons]
    cases pieces with
    | nil =>
      by_cases hpiece : piece = .n
      · subst hpiece
        rw [List.map_nil, String.join_nil, String.toList_empty, List.append_nil]
        exact .number
      · exact Shows.nil.fill hpiece
    | cons next pieces =>
      rw [List.dropLast_cons_cons, List.mem_cons, not_or] at h
      exact (ih h.2).fill (Ne.symm h.1)

namespace Operation

theorem n_not_mem_dropLast (op : Operation) : .n ∉ op.pattern.dropLast := by
  cases op <;> decide

theorem symbols_eq {op : Operation} (h : op ≠ .jumpOffset) :
    op.symbols = op.pattern.flatMap Piece.symbols := by
  unfold symbols
  split
  · exact absurd rfl h
  · rfl

end Operation

/-! ## The texts of instructions -/

def Instruction.offsetRegister (jumpsByX : Bool) (target : Address) : Register :=
  if jumpsByX then Fin.ofNat 16 (target.val / 256) else 0

namespace Instruction

theorem x_word_jumpOffset (target : Address) :
    Word.x (jumpOffset target).word = offsetRegister true target := by
  have hw : (jumpOffset target).word.toNat = 4096 * 0xB + target.val :=
    Word.toNat_ofAddress (by decide) target
  apply Fin.ext
  simp only [Word.x, hw, offsetRegister, if_true, Fin.val_ofNat]
  omega

theorem nnn_word_jumpOffset (target : Address) : Word.nnn (jumpOffset target).word = target :=
  Word.nnn_ofAddress (by decide) target

theorem text_jumpOffset (jumpsByX : Bool) (target : Address) :
    (jumpOffset target).text jumpsByX =
      "JP V" ++ Text.hex 1 (offsetRegister jumpsByX target) ++ ", " ++
        Piece.fill (jumpOffset target).word .nnn := by
  cases jumpsByX with
  | false =>
    have hzero : "JP V0, " = "JP V" ++ Text.hex 1 0 ++ ", " := by
      apply String.toList_inj.mp
      rw [String.toList_append, String.toList_append, Text.toList_hex_one (by decide)]
      rfl
    change String.join ["JP V0, ", _] = _
    rw [String.join_cons, String.join_cons, String.join_nil, String.append_empty, hzero]
    rfl
  | true =>
    change String.join ["JP V", Text.hex 1 (Word.x (jumpOffset target).word), ", ", _] = _
    simp only [String.join_cons, String.join_nil, String.append_empty, String.append_assoc,
      x_word_jumpOffset]

theorem pattern_eq {i : Instruction} (h : i.operation ≠ .jumpOffset) (jumpsByX : Bool) :
    i.pattern jumpsByX = i.operation.pattern := by
  cases i with
  | jumpOffset target => exact absurd rfl h
  | _ => rfl

theorem shows_text (i : Instruction) (jumpsByX : Bool) :
    Shows i.word i.operation.symbols (i.text jumpsByX).toList := by
  by_cases h : i.operation = .jumpOffset
  · cases i with
    | jumpOffset target =>
      have hnnn : Shows (jumpOffset target).word (Piece.nnn.symbols ++ [])
          ((Piece.fill (jumpOffset target).word .nnn).toList ++ []) := Shows.nil.fill nofun
      rw [List.append_nil, List.append_nil] at hnnn
      rw [text_jumpOffset]
      simp only [String.toList_append, List.append_assoc,
        Text.toList_hex_one (offsetRegister jumpsByX target).isLt]
      exact ((hnnn.text ", ").any _).text "JP V"
    | arith op x y => cases op <;> cases h
    | _ => cases h
  · rw [text, pattern_eq h, Operation.symbols_eq h]
    exact shows_pieces i.operation.n_not_mem_dropLast

end Instruction

end Chip8
