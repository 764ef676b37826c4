import Chip8.Proofs.Cycle.Effect
import Chip8.Proofs.Instruction.Form

/-! # The assembler

No text has the form of two operations, because any two forms have different
characters at some place. So a text can be read in the form that it has, and the
nibbles that it shows complete the format of the operation.
-/

namespace Chip8

variable {w : UInt16} {f g : Format} {p : Nibble} {symbols symbols' : List Symbol} {cs : List Char}

/-! ## Formats that are filled in -/

namespace Format

def put (f : Format) (p : Nibble) (d : Fin 16) : Format := fun q => if q = p then some d else f q

def word? (f : Format) : Option UInt16 := do
  return Word.ofNibbles (← f .opcode) (← f .x) (← f .y) (← f .n)

theorem Fits.put (h : f.Fits w) (p : Nibble) : (f.put p (Word.nibble w p)).Fits w := by
  intro q d hq
  unfold Format.put at hq
  split at hq
  · next hqp =>
    subst hqp
    exact Option.some.inj hq
  · exact h q d hq

theorem isSome_put {q : Nibble} {d : Fin 16} (h : q = p ∨ (f q).isSome) :
    (f.put p d q).isSome := by
  unfold put
  split
  · rfl
  · next hqp => exact h.resolve_left hqp

theorem Fits.word?_eq (h : f.Fits w) (hall : ∀ p, (f p).isSome) : f.word? = some w := by
  have hnibble : ∀ p, f p = some (Word.nibble w p) := by
    intro p
    obtain ⟨d, hd⟩ := Option.isSome_iff_exists.mp (hall p)
    rw [hd, h p d hd]
  simp only [word?, hnibble]
  exact congrArg some (Word.ofNibbles_n rfl)

end Format

/-! ## Reading -/

def hexValue? (c : Char) : Option (Fin 16) :=
  (List.finRange 16).find? fun d => Text.hexDigit d == c

def decimalValue? (cs : List Char) : Option (Fin 16) :=
  (List.finRange 16).find? fun d => (toString d.val).toList == cs

theorem hexValue?_hexDigit (d : Fin 16) : hexValue? (Text.hexDigit d) = some d := by
  revert d
  decide

theorem decimalValue?_toString (d : Fin 16) : decimalValue? (toString d.val).toList = some d := by
  revert d
  decide

/-- Reads a text in a form and puts the nibbles that it shows into a format. -/
def Format.read : Format → List Symbol → List Char → Option Format
  | f, [], [] => some f
  | f, .char a :: symbols, c :: cs => if a = c then f.read symbols cs else none
  | f, .nibble p :: symbols, c :: cs => (hexValue? c).bind fun d => (f.put p d).read symbols cs
  | f, .any :: symbols, c :: cs => (hexValue? c).bind fun _ => f.read symbols cs
  | f, [.number], cs => (decimalValue? cs).map (f.put .n)
  | _, _, _ => none

theorem Shows.exists_read (h : Shows w symbols cs) (hf : f.Fits w) :
    ∃ g, f.read symbols cs = some g ∧ g.Fits w ∧
      ∀ p, p ∈ symbols.filterMap Symbol.nibble? ∨ (f p).isSome → (g p).isSome := by
  induction h generalizing f with
  | nil => exact ⟨f, rfl, hf, fun p hp => hp.resolve_left List.not_mem_nil⟩
  | char c h ih =>
    obtain ⟨g, hread, hg, hall⟩ := ih hf
    refine ⟨g, ?_, hg, hall⟩
    rw [Format.read, if_pos rfl, hread]
  | nibble p h ih =>
    obtain ⟨g, hread, hg, hall⟩ := ih (hf.put p)
    refine ⟨g, ?_, hg, fun q hq => hall q ?_⟩
    · rw [Format.read, hexValue?_hexDigit, Option.bind_some, hread]
    · change q ∈ p :: _ ∨ _ at hq
      rw [List.mem_cons, or_right_comm] at hq
      rcases hq with hq | hq
      · exact .inr (Format.isSome_put hq)
      · exact .inl hq
  | any d h ih =>
    obtain ⟨g, hread, hg, hall⟩ := ih hf
    refine ⟨g, ?_, hg, hall⟩
    rw [Format.read, hexValue?_hexDigit, Option.bind_some, hread]
  | number =>
    refine ⟨f.put .n (Word.n w), ?_, hf.put .n, fun q hq => Format.isSome_put ?_⟩
    · rw [Format.read, decimalValue?_toString, Option.map_some]
    · exact hq.imp List.mem_singleton.mp id

theorem getElem?_of_read {k : Nat} {c : Char} (h : f.read symbols cs = some g)
    (hk : symbols[k]? = some (.char c)) : cs[k]? = some c := by
  fun_induction f.read symbols cs generalizing k with
  | case1 f => cases hk
  | case2 symbols f c' cs ih =>
    cases k with
    | zero =>
      cases hk
      rfl
    | succ k => exact ih h hk
  | case3 a symbols f c' cs hne => cases h
  | case4 p symbols f c' cs ih =>
    obtain ⟨d, -, hd⟩ := Option.bind_eq_some_iff.mp h
    cases k with
    | zero => cases hk
    | succ k => exact ih d hd hk
  | case5 symbols f c' cs ih =>
    obtain ⟨d, -, hd⟩ := Option.bind_eq_some_iff.mp h
    cases k with
    | zero => cases hk
    | succ k => exact ih hd hk
  | case6 f cs => cases k <;> cases hk
  | case7 => cases h

def Symbol.clash : List Symbol → List Symbol → Bool
  | .char a :: symbols, .char b :: symbols' => a != b || Symbol.clash symbols symbols'
  | _ :: symbols, _ :: symbols' => Symbol.clash symbols symbols'
  | _, _ => false

theorem exists_of_clash (h : Symbol.clash symbols symbols' = true) :
    ∃ (k : Nat) (a b : Char),
      symbols[k]? = some (.char a) ∧ symbols'[k]? = some (.char b) ∧ a ≠ b := by
  fun_induction Symbol.clash symbols symbols' with
  | case1 a symbols b symbols' ih =>
    rcases Bool.or_eq_true_iff.mp h with hne | h
    · exact ⟨0, a, b, rfl, rfl, bne_iff_ne.mp hne⟩
    · obtain ⟨k, a, b, hk⟩ := ih h
      exact ⟨k + 1, a, b, hk⟩
  | case2 _ symbols _ symbols' _ ih =>
    obtain ⟨k, a, b, hk⟩ := ih h
    exact ⟨k + 1, a, b, hk⟩
  | case3 => cases h

theorem clash_eq_false_of_read {f' g' : Format} (h : f.read symbols cs = some g)
    (h' : f'.read symbols' cs = some g') : Symbol.clash symbols symbols' = false := by
  rw [Bool.eq_false_iff]
  intro hclash
  obtain ⟨k, a, b, ha, hb, hne⟩ := exists_of_clash hclash
  have hab := (getElem?_of_read h ha).symm.trans (getElem?_of_read h' hb)
  exact hne (Option.some.inj hab)

/-! ## Assembling -/

namespace Operation

theorem mem_all (op : Operation) : op ∈ all := by cases op <;> decide

theorem clash_symbols (op op' : Operation) (h : op ≠ op') :
    Symbol.clash op.symbols op'.symbols = true := by
  have hall : ∀ op ∈ all, ∀ op' ∈ all, op ≠ op' →
      Symbol.clash op.symbols op'.symbols = true := by
    decide +kernel
  exact hall op op.mem_all op' op'.mem_all h

theorem nibble_covered (op : Operation) (p : Nibble) :
    p ∈ op.symbols.filterMap Symbol.nibble? ∨ (op.format p).isSome := by
  have hall : ∀ op ∈ all, ∀ p ∈ [Nibble.opcode, .x, .y, .n],
      p ∈ op.symbols.filterMap Symbol.nibble? ∨ (op.format p).isSome := by
    decide +kernel
  exact hall op op.mem_all p (by cases p <;> decide)

/-- The word that a text of an operation shows. -/
def assemble? (s : String) (op : Operation) : Option UInt16 :=
  (op.format.read op.symbols s.toList).bind Format.word?

theorem eq_of_assemble? {op op' : Operation} {s : String} {w w' : UInt16}
    (h : op.assemble? s = some w) (h' : op'.assemble? s = some w') : op = op' := by
  obtain ⟨g, hg, -⟩ := Option.bind_eq_some_iff.mp h
  obtain ⟨g', hg', -⟩ := Option.bind_eq_some_iff.mp h'
  refine Decidable.byContradiction fun hne => ?_
  have hclash := clash_symbols op op' hne
  rw [clash_eq_false_of_read hg hg'] at hclash
  exact Bool.false_ne_true hclash

end Operation

namespace Instruction

theorem assemble?_text (i : Instruction) (jumpsByX : Bool) :
    i.operation.assemble? (i.text jumpsByX) = some i.word := by
  obtain ⟨g, hread, hg, hall⟩ := (i.shows_text jumpsByX).exists_read i.fits_word
  rw [Operation.assemble?, hread, Option.bind_some]
  exact hg.word?_eq fun p => hall p (i.operation.nibble_covered p)

def hasText (s : String) (w : UInt16) : Bool :=
  (ofWord? w).any fun i => i.text false == s || i.text true == s

theorem hasText_iff {s : String} :
    hasText s w = true ↔
      ∃ (i : Instruction) (jumpsByX : Bool), i.text jumpsByX = s ∧ i.word = w := by
  simp only [hasText, Option.any_eq_true, ofWord?_eq_some_iff, Bool.or_eq_true, beq_iff_eq]
  constructor
  · rintro ⟨i, hi, hs | hs⟩
    · exact ⟨i, false, hs, hi⟩
    · exact ⟨i, true, hs, hi⟩
  · rintro ⟨i, jumpsByX, hs, hi⟩
    cases jumpsByX with
    | false => exact ⟨i, hi, .inl hs⟩
    | true => exact ⟨i, hi, .inr hs⟩

/-- The word of a text. What a text shows is not always a word that has this text: a routine may
be another instruction, and an offset jump may name a register that it does not add. -/
def assemble (s : String) : Option UInt16 :=
  (Operation.all.findSome? (Operation.assemble? s)).filter (hasText s)

/-- The assembler finds exactly the words that a text is of. -/
theorem assemble_eq_some_iff {s : String} :
    assemble s = some w ↔
      ∃ (i : Instruction) (jumpsByX : Bool), i.text jumpsByX = s ∧ i.word = w := by
  rw [assemble, Option.filter_eq_some_iff]
  constructor
  · rintro ⟨-, htext⟩
    exact hasText_iff.mp htext
  · rintro ⟨i, jumpsByX, rfl, rfl⟩
    refine ⟨?_, hasText_iff.mpr ⟨i, jumpsByX, rfl, rfl⟩⟩
    have hi := i.assemble?_text jumpsByX
    cases hfound : Operation.all.findSome? (Operation.assemble? (i.text jumpsByX)) with
    | none =>
      have hnone := List.findSome?_eq_none_iff.mp hfound _ i.operation.mem_all
      exact nomatch hi.symm.trans hnone
    | some w =>
      -- the operation that was found is that of the instruction: no other one reads its text
      obtain ⟨op, -, hop⟩ := List.exists_of_findSome?_eq_some hfound
      obtain rfl := Operation.eq_of_assemble? hop hi
      exact hop.symm.trans hi

/-! ## Offset jumps -/

theorem text_jumpOffset_eq_iff {jumpsByX : Bool} {target : Address} {x : Register} :
    (jumpOffset target).text jumpsByX = "JP V" ++ Text.hex 1 x ++ ", 0x" ++ Text.hex 3 target ↔
      x = offsetRegister jumpsByX target := by
  have hmark : ", 0x" = ", " ++ "0x" := rfl
  rw [text_jumpOffset, Piece.fill, nnn_word_jumpOffset, hmark]
  constructor
  · intro h
    have hchars := congrArg String.toList h
    simp only [String.toList_append, Text.toList_hex_one x.isLt, List.append_assoc,
      Text.toList_hex_one (offsetRegister jumpsByX target).isLt] at hchars
    have hdigit := (List.cons.inj (List.append_cancel_left hchars)).1
    exact Fin.ext (Text.hexDigit_inj _ (Fin.isLt _) _ (Fin.isLt _) hdigit.symm)
  · rintro rfl
    simp only [String.append_assoc]

theorem execute_jumpOffset (s : State) (target : Address) :
    let sum := target.val + (s.reg (offsetRegister s.dialect.jumpsByX target)).toNat
    (jumpOffset target).execute s =
      if 0x1000 ≤ sum then .error (.outOfBounds sum 1) else .ok { s with pc := UInt16.ofNat sum } :=
  s.jumpTo_eq _

/-- The assembler gives a word back from its text in either dialect and accepts no other texts, so
that words with equal texts are equal. The one register that the text of an offset jump names is
the one that is added to its address. -/
theorem assemble_text :
    (∀ (w : Int) (i : Instruction) (jumpsByX : Bool), decode w = .ok i →
      ∃ r, assemble (i.text jumpsByX) = some r ∧ (r.toNat : Int) = w) ∧
    (∀ (s : String) (r : UInt16), assemble s = some r →
      ∃ (i : Instruction) (jumpsByX : Bool), decode r.toNat = .ok i ∧ i.text jumpsByX = s) ∧
    (∀ (w w' : Int) (i i' : Instruction) (jumpsByX jumpsByX' : Bool), decode w = .ok i →
      decode w' = .ok i' → i.text jumpsByX = i'.text jumpsByX' → w = w') ∧
    ∀ (s : State) (target : Address),
      decode (0xB000 + target.val) = .ok (jumpOffset target) ∧ ∃ x : Register,
      (∀ x' : Register, (jumpOffset target).text s.dialect.jumpsByX =
        "JP V" ++ Text.hex 1 x' ++ ", 0x" ++ Text.hex 3 target ↔ x' = x) ∧
      let sum := target.val + (s.reg x).toNat
      (jumpOffset target).execute s =
        if 0x1000 ≤ sum then .error (.outOfBounds sum 1)
        else .ok { s with pc := UInt16.ofNat sum } := by
  have hword : ∀ {w : Int} {i : Instruction} (jumpsByX : Bool), decode w = .ok i →
      assemble (i.text jumpsByX) = some i.word ∧ (i.word.toNat : Int) = w := fun jumpsByX h =>
    ⟨assemble_eq_some_iff.mpr ⟨_, jumpsByX, rfl, rfl⟩, toNat_word_of_decode h⟩
  refine ⟨fun w i jumpsByX h => ⟨i.word, hword jumpsByX h⟩, ?_, ?_, ?_⟩
  · intro s r h
    obtain ⟨i, jumpsByX, hs, rfl⟩ := assemble_eq_some_iff.mp h
    exact ⟨i, jumpsByX, i.decode_word, hs⟩
  · intro w w' i i' jumpsByX jumpsByX' h h' htext
    obtain ⟨hasm, rfl⟩ := hword jumpsByX h
    obtain ⟨hasm', rfl⟩ := hword jumpsByX' h'
    rw [htext] at hasm
    rw [Option.some.inj (hasm.symm.trans hasm')]
  · intro s target
    constructor
    · have hdecode := (jumpOffset target).decode_word
      rw [word, Word.toNat_ofAddress (by decide)] at hdecode
      exact hdecode
    · exact ⟨offsetRegister s.dialect.jumpsByX target, fun x => text_jumpOffset_eq_iff,
        execute_jumpOffset s target⟩

theorem assemble_text_jumpOffset :
    (jumpOffset 0x34A).text false = "JP V0, 0x34A" ∧ (jumpOffset 0x34A).text true = "JP V3, 0x34A" ∧
      ∀ jumpsByX, ∃ r, assemble ((jumpOffset 0x34A).text jumpsByX) = some r ∧
        (r.toNat : Int) = 0xB34A := by
  refine ⟨by decide +kernel, by decide +kernel, fun jumpsByX => ?_⟩
  have hdecode : decode 0xB34A = .ok (jumpOffset 0x34A) := rfl
  exact assemble_text.1 _ _ jumpsByX hdecode

end Instruction

end Chip8
