import Chip8.Log.Registers
import Chip8.Window.Loop
import Mathlib.Algebra.Group.Nat.Defs
import Mathlib.Data.List.Basic

/-! # The register dump

A dump is a line of words that stand between blanks, and these tell the program
counter, the index, the stack depth, the timers and the registers. What stands in
front of the registers never takes more than thirty-four characters, so that the
overlay, which shows as many, cuts none of it.
-/

namespace Chip8

/-! ## Words -/

namespace Text

variable {ws : List String} {line : String} {n : Nat}

def words (line : String) : List String := (line.toList.splitOn ' ').map String.ofList

theorem words_intercalate (hws : ws ≠ []) (hblank : ∀ w ∈ ws, ' ' ∉ w.toList) :
    words (" ".intercalate ws) = ws := by
  have hsplit : ([' '].intercalate (ws.map String.toList)).splitOn ' ' = ws.map String.toList :=
    List.splitOn_intercalate ' ' (by simpa using hblank) (by simpa using hws)
  have htext : (" ".intercalate ws).toList = [' '].intercalate (ws.map String.toList) :=
    String.toList_intercalate
  rw [words, htext, hsplit, List.map_map]
  exact List.map_id'' (fun w => String.ofList_toList) ws

theorem toList_append_blank (line rest : String) :
    (line ++ " " ++ rest).toList = line.toList ++ ' ' :: rest.toList := by
  simp

theorem words_append (line rest : String) :
    words (line ++ " " ++ rest) = words line ++ words rest := by
  have hsplit := List.splitOnP_append_cons (p := (· == ' ')) line.toList rest.toList
    (beq_self_eq_true ' ')
  rw [words, toList_append_blank, List.splitOn, hsplit, List.map_append]
  rfl

theorem take_words_take (rest : String) (h : line.length ≤ n) :
    (words (String.ofList ((line ++ " " ++ rest).toList.take n))).take (words line).length =
      words line := by
  rw [toList_append_blank, List.take_append, List.take_of_length_le h]
  cases n - line.toList.length with
  | zero => rw [List.take_zero, List.append_nil, String.ofList_toList, List.take_length]
  | succ k =>
    have hcut : String.ofList (line.toList ++ (' ' :: rest.toList).take (k + 1)) =
        line ++ " " ++ String.ofList (rest.toList.take k) := by
      apply String.toList_inj.mp
      simp
    rw [hcut, words_append, List.take_left]

/-! ## Numerals -/

variable {width k : Nat}

theorem length_hexDigits_le (h : n < 16 ^ (k + 1)) : (hexDigits n).length ≤ k + 1 := by
  induction k generalizing n with
  | zero =>
    rw [hexDigits_of_lt h]
    exact Nat.le_refl 1
  | succ k ih =>
    rcases Nat.lt_or_ge n 16 with hn | hn
    · rw [hexDigits_of_lt hn]
      exact Nat.le_add_left 1 (k + 1)
    · have hdiv : n / 16 < 16 ^ (k + 1) :=
        Nat.div_lt_of_lt_mul (by rwa [Nat.pow_succ, Nat.mul_comm] at h)
      rw [hexDigits_of_ge hn, List.length_append]
      exact Nat.succ_le_succ (ih hdiv)

theorem length_hex_le (hwidth : width ≤ k + 1) (h : n < 16 ^ (k + 1)) :
    (hex width n).length ≤ k + 1 := by
  rw [hex, String.length_ofList, List.length_leftpad]
  exact Nat.max_le.mpr ⟨hwidth, length_hexDigits_le h⟩

theorem blank_not_mem_hex (width n : Nat) : ' ' ∉ (hex width n).toList := by
  intro h
  obtain ⟨d, hd, hblank⟩ := exists_of_mem_hex h
  revert d
  decide

theorem blank_not_mem_toDigits (n : Nat) : ' ' ∉ Nat.toDigits 10 n := by
  intro h
  have hdigit := Nat.isDigit_of_mem_toDigits (by decide) (Nat.le_refl 10) h
  exact absurd hdigit (by decide)

theorem decimal_injective {n m : Nat} (h : toString n = toString m) : n = m := by
  rw [Nat.toString_eq_ofList_toDigits, Nat.toString_eq_ofList_toDigits, String.ofList_inj] at h
  rw [← Nat.ofDigitChars_ten_toDigits (n := n), h, Nat.ofDigitChars_ten_toDigits]

end Text

/-! ## Entries -/

variable {registers registers' : List UInt8} {x : Nat} {value value' : UInt8}

theorem registerEntry_injective (h : registerEntry x value = registerEntry x value') :
    value = value' :=
  UInt8.toNat_inj.mp (Text.hex_injective ((String.append_right_inj _).mp h))

theorem mapIdx_registerEntry_injective
    (h : registers.mapIdx registerEntry = registers'.mapIdx registerEntry) :
    registers = registers' := by
  refine List.ext_getElem? fun i => ?_
  have hi := congrArg (·[i]?) h
  simp only [List.getElem?_mapIdx] at hi
  exact Option.map_injective (fun _ _ => registerEntry_injective) hi

theorem blank_not_mem_registerEntry (x : Nat) (value : UInt8) :
    ' ' ∉ (registerEntry x value).toList := by
  simp [registerEntry, Text.blank_not_mem_hex]

namespace State

variable {s t : State}

def entries (s : State) : List String :=
  ["PC=" ++ Text.hex 3 s.pc.toNat, "I=" ++ Text.hex 3 s.index.toNat,
    "SP=" ++ toString s.stack.depth, "DT=" ++ toString s.delay.toNat,
    "ST=" ++ toString s.sound.toNat]

/-- Two states agree in all that stands in front of the registers. -/
structure SameEntries (s t : State) : Prop where
  pc : s.pc = t.pc
  index : s.index = t.index
  depth : s.stack.depth = t.stack.depth
  delay : s.delay = t.delay
  sound : s.sound = t.sound

theorem entries_eq_iff : s.entries = t.entries ↔ s.SameEntries t := by
  constructor
  · intro h
    simp only [entries, List.cons.injEq, String.append_right_inj, and_true] at h
    obtain ⟨hpc, hindex, hdepth, hdelay, hsound⟩ := h
    exact {
      pc := UInt16.toNat_inj.mp (Text.hex_injective hpc)
      index := UInt16.toNat_inj.mp (Text.hex_injective hindex)
      depth := Text.decimal_injective hdepth
      delay := UInt8.toNat_inj.mp (Text.decimal_injective hdelay)
      sound := UInt8.toNat_inj.mp (Text.decimal_injective hsound) }
  · rintro ⟨hpc, hindex, hdepth, hdelay, hsound⟩
    simp only [entries, hpc, hindex, hdepth, hdelay, hsound]

theorem words_entries (s : State) : Text.words (" ".intercalate s.entries) = s.entries := by
  refine Text.words_intercalate (List.cons_ne_nil _ _) ?_
  simp [entries, Text.blank_not_mem_hex, Text.blank_not_mem_toDigits]

theorem length_entries_le (s : State) : (" ".intercalate s.entries).length ≤ 34 := by
  have hword : ∀ w : UInt16, (Text.hex 3 w.toNat).length ≤ 4 := fun w =>
    Text.length_hex_le (by decide) w.toNat_lt
  have hbyte : ∀ b : UInt8, (toString b.toNat).length ≤ 3 := fun b =>
    (Nat.length_repr_le_iff (by decide)).mpr (Nat.lt_of_lt_of_le b.toNat_lt (by decide))
  have hdepth : (toString s.stack.depth).length ≤ 2 :=
    (Nat.length_repr_le_iff (by decide)).mpr (Nat.lt_of_le_of_lt s.stack.depth_le (by decide))
  have hpc := hword s.pc
  have hindex := hword s.index
  have hdelay := hbyte s.delay
  have hsound := hbyte s.sound
  have hnames : "PC=".length = 3 ∧ "I=".length = 2 ∧ "SP=".length = 3 ∧ "DT=".length = 3 ∧
    "ST=".length = 3 ∧ " ".length = 1 := by decide
  simp only [entries, String.intercalate_cons_cons, String.intercalate_singleton,
    String.length_append]
  omega

/-! ## The line -/

theorem dump_eq (s : State) :
    s.dump = " ".intercalate s.entries ++ " " ++
      ("|" ++ " " ++ registerEntries s.registers.toList) := by
  have hmarks : " I=" = " " ++ "I=" ∧ " SP=" = " " ++ "SP=" ∧ " DT=" = " " ++ "DT=" ∧
    " ST=" = " " ++ "ST=" ∧ " | " = " " ++ ("|" ++ " ") := by decide
  obtain ⟨hindex, hdepth, hdelay, hsound, hbar⟩ := hmarks
  delta dump
  simp only [hindex, hdepth, hdelay, hsound, hbar, entries, String.intercalate_cons_cons,
    String.intercalate_singleton, String.append_assoc]

theorem words_registerEntries (s : State) :
    Text.words (registerEntries s.registers.toList) =
      s.registers.toList.mapIdx registerEntry := by
  refine Text.words_intercalate ?_ ?_
  · apply List.ne_nil_of_length_pos
    simp
  · intro w hw
    obtain ⟨x, hx, rfl⟩ := List.mem_mapIdx.mp hw
    exact blank_not_mem_registerEntry x _

theorem words_dump (s : State) :
    Text.words s.dump = s.entries ++ "|" :: s.registers.toList.mapIdx registerEntry := by
  have hmark : Text.words "|" = ["|"] := by decide
  rw [dump_eq, Text.words_append, Text.words_append, words_entries, words_registerEntries, hmark]
  rfl

theorem dump_eq_iff : s.dump = t.dump ↔ s.SameEntries t ∧ s.registers = t.registers := by
  constructor
  · intro h
    have hwords := congrArg Text.words h
    rw [words_dump, words_dump] at hwords
    obtain ⟨hentries, hrest⟩ := List.append_inj hwords rfl
    have hregisters := mapIdx_registerEntry_injective (List.tail_eq_of_cons_eq hrest)
    exact ⟨entries_eq_iff.mp hentries, Vector.toList_inj.mp hregisters⟩
  · rintro ⟨hentries, hregisters⟩
    rw [dump_eq, dump_eq, entries_eq_iff.mpr hentries, hregisters]

/-! ## The overlay -/

/-- The part of a dump that the overlay shows. -/
def shownDump (s : State) : String := String.ofList (s.dump.toList.take 34)

theorem head?_overlayLines {c : Window.Config} {l : Window.Loop} {lines : List String}
    (h : l.overlayLines c = .ok lines) : lines.head? = some l.state.shownDump := by
  obtain ⟨rate, -, h⟩ := exists_of_bind_eq_ok h
  cases h
  rfl

theorem shownDump_of_length (h : (" ".intercalate s.entries).length = 34) :
    s.shownDump = " ".intercalate s.entries := by
  apply String.toList_inj.mp
  rw [shownDump, String.toList_ofList, dump_eq, String.append_assoc, String.toList_append]
  exact List.take_left' h

theorem take_words_shownDump (s : State) : (Text.words s.shownDump).take 5 = s.entries := by
  have hcut := Text.take_words_take ("|" ++ " " ++ registerEntries s.registers.toList)
    s.length_entries_le
  rw [words_entries, ← dump_eq] at hcut
  exact hcut

theorem SameEntries.of_shownDump (h : s.shownDump = t.shownDump) : s.SameEntries t := by
  rw [← entries_eq_iff, ← take_words_shownDump, h, take_words_shownDump]

/-- A dump loses nothing, and the overlay cuts nothing that it needs. Two dumps are the same exactly
if the states agree on the program counter, the index, the stack depth, the timers and the
registers. The overlay starts with the first thirty-four characters of the dump, whose first five
words are all entries but those of the registers, in full, and tell these five values. -/
theorem dump_tells_registers (s t : State) :
    (s.dump = t.dump ↔ s.SameEntries t ∧ s.registers = t.registers) ∧
    (Text.words s.shownDump).take 5 = s.entries ∧
    (s.shownDump = t.shownDump → s.SameEntries t) ∧
    ∀ (c : Window.Config) (l : Window.Loop) lines, l.overlayLines c = .ok lines → l.state = s →
      lines.head? = some s.shownDump := by
  refine ⟨dump_eq_iff, take_words_shownDump s, .of_shownDump, ?_⟩
  rintro c l lines h rfl
  exact head?_overlayLines h

theorem dump_tells_registers_widest :
    let s := { State.initial (Generator.ofSeed 0) (.ofFlags true false false false false) with
      pc := 0xFFFF, index := 0xFFFF, delay := 255, sound := 255,
      stack := ⟨Vector.replicate 16 0x200, 16, Nat.le_refl 16⟩ }
    let t := s.setReg 0 1
    s.shownDump = "PC=FFFF I=FFFF SP=16 DT=255 ST=255" ∧
      (Text.words s.shownDump).take 5 = s.entries ∧
      s.shownDump = t.shownDump ∧ s.SameEntries t ∧ s.dump ≠ t.dump := by
  intro s t
  obtain ⟨htells, hentries, hshown, -⟩ := dump_tells_registers s t
  have hline : " ".intercalate s.entries = "PC=FFFF I=FFFF SP=16 DT=255 ST=255" := by
    decide +kernel
  have hlength : (" ".intercalate s.entries).length = 34 := by
    rw [hline]
    rfl
  have hsame : s.entries = t.entries := entries_eq_iff.mpr ⟨rfl, rfl, rfl, rfl, rfl⟩
  have hs : s.shownDump = " ".intercalate s.entries := shownDump_of_length hlength
  have ht : t.shownDump = " ".intercalate t.entries := shownDump_of_length (hsame ▸ hlength)
  have hst : s.shownDump = t.shownDump := by rw [hs, ht, hsame]
  have hne : s.registers ≠ t.registers := by decide +kernel
  exact ⟨hs.trans hline, hentries, hst, hshown hst, fun h => hne (htells.mp h).2⟩

end State

end Chip8
