import Chip8.Screen.Sprite

/-! # Sprite masks

The mask of a sprite, pixel by pixel: the rows and columns of a sprite of at most
thirty-two bytes land on different rows and columns of the screen, so a pixel is
covered by one bit of one byte at most.
-/

namespace Chip8

namespace Sprite

variable {clip : Bool} {column r c : Nat} {b : UInt8} {bs : List UInt8} {mask : Screen}

def rowOffset (top r : Nat) : Nat := (r + 32 - top % 32) % 32

def columnOffset (left c : Nat) : Nat := (c + 64 - left % 64) % 64

def bit (b : UInt8) (j : Nat) : Bool := decide (j < 8) && b.toNat.testBit (7 - j)

theorem getMsbD_toBitVec (b : UInt8) (j : Nat) : b.toBitVec.getMsbD j = bit b j := by
  simp only [bit, BitVec.getMsbD, BitVec.getLsbD]
  rfl

theorem getMsbD_wide (b : UInt8) (j : Nat) :
    (b.toBitVec.setWidth 64 <<< 56).getMsbD j = bit b j := by
  rw [BitVec.getMsbD_shiftLeft, BitVec.getMsbD_setWidth, ← getMsbD_toBitVec]
  simp

theorem getMsbD_row (hcolumn : column < 64) (hc : c < 64) :
    (row clip column b).getMsbD c =
      (bit b (columnOffset column c) && (!clip || decide (column ≤ c))) := by
  cases clip with
  | true =>
    simp only [row, if_true, BitVec.getMsbD_ushiftRight, getMsbD_wide, hc, decide_true,
      Bool.true_and, Bool.not_true, Bool.false_or]
    by_cases hle : column ≤ c
    · have ho : columnOffset column c = c - column := by
        unfold columnOffset
        omega
      simp [hle, ho]
    · simp [hle, Nat.lt_of_not_le hle]
  | false =>
    have hm : column % 64 = column := Nat.mod_eq_of_lt hcolumn
    simp only [row, Bool.false_eq_true, if_false, BitVec.getMsbD_rotateRight, hc, decide_true,
      Bool.true_and, getMsbD_wide, Bool.not_false, Bool.true_or, Bool.and_true, hm]
    by_cases hlt : c < column
    · rw [if_pos hlt]
      congr 1
      unfold columnOffset
      omega
    · rw [if_neg hlt]
      congr 1
      unfold columnOffset
      omega

theorem lit_paint {top : Nat} (hr : r < 32) (hlen : bs.length ≤ 32) :
    (paint clip column top bs mask).lit r c =
      if rowOffset top r < bs.length then
        (if clip && decide (32 ≤ top + rowOffset top r) then 0
          else row clip column (bs.getD (rowOffset top r) 0)).getMsbD c
      else mask.lit r c := by
  induction bs generalizing top mask with
  | nil => simp [paint]
  | cons b bs ih =>
    rw [List.length_cons] at hlen
    rw [paint, ih (by omega), Screen.lit_setRow]
    by_cases htop : top % 32 = r
    · have h0 : rowOffset top r = 0 := by
        unfold rowOffset
        omega
      have h31 : rowOffset (top + 1) r = 31 := by
        unfold rowOffset
        omega
      rw [if_neg (by omega : ¬ rowOffset (top + 1) r < bs.length), if_pos ⟨htop, hr⟩, h0]
      simp
    · have hnext : rowOffset top r = rowOffset (top + 1) r + 1 := by
        unfold rowOffset
        omega
      have hsum : top + 1 + rowOffset (top + 1) r = top + rowOffset top r := by omega
      simp only [htop, false_and, if_false, hsum, hnext, List.length_cons, Nat.add_lt_add_iff_right,
        List.getD_cons_succ]

theorem lit_mask {x y : Int} {sprite : List UInt8} (hr : r < 32) (hc : c < 64)
    (hlen : sprite.length ≤ 32) :
    (Sprite.mask clip x y sprite).lit r c =
      (decide (rowOffset (y % 32).toNat r < sprite.length) &&
        bit (sprite.getD (rowOffset (y % 32).toNat r) 0) (columnOffset (x % 64).toNat c) &&
        (!clip || decide ((y % 32).toNat ≤ r ∧ (x % 64).toNat ≤ c))) := by
  have hx : (x % 64).toNat < 64 := by omega
  have hy : (y % 32).toNat < 32 := by omega
  rw [Sprite.mask, lit_paint hr hlen, Screen.lit_blank]
  generalize (x % 64).toNat = left at hx
  generalize (y % 32).toNat = top at hy
  by_cases hrow : rowOffset top r < sprite.length
  · have hedge : 32 ≤ top + rowOffset top r ↔ ¬ top ≤ r := by
      unfold rowOffset
      omega
    have hdark : (0 : BitVec 64).getMsbD c = false := BitVec.getMsbD_zero
    rw [if_pos hrow, apply_ite (BitVec.getMsbD · c), hdark, getMsbD_row hx hc]
    by_cases htop : top ≤ r
    · have hin : ¬ 32 ≤ top + rowOffset top r := fun h => hedge.mp h htop
      simp [hrow, htop, hin]
    · have hout : 32 ≤ top + rowOffset top r := hedge.mpr htop
      cases clip <;> simp [hrow, htop, hout]
  · simp [hrow]

/-- The pixel that a place of the unbounded plane shows, if it shows one. -/
def Lands (clip : Bool) (row column r c : Nat) : Prop :=
  if clip then row = r ∧ column = c else row % 32 = r ∧ column % 64 = c

instance (row column r c : Nat) : Decidable (Lands clip row column r c) :=
  inferInstanceAs (Decidable (if clip then row = r ∧ column = c else _ ∧ _))

/-- A set bit of the sprite with its corner at column `left` and row `top` lands on a pixel. -/
def Covers (clip : Bool) (left top : Nat) (sprite : List UInt8) (r c : Nat) : Prop :=
  ∃ k < sprite.length, ∃ j < 8, (sprite.getD k 0).toNat.testBit (7 - j) = true ∧
    Lands clip (top + k) (left + j) r c

instance (left top : Nat) (sprite : List UInt8) (r c : Nat) :
    Decidable (Covers clip left top sprite r c) :=
  inferInstanceAs (Decidable (∃ k < sprite.length, ∃ j < 8, _ = true ∧ Lands clip _ _ r c))

theorem lands_iff {left top k j : Nat} (hleft : left < 64) (htop : top < 32) (hr : r < 32)
    (hc : c < 64) (hk : k < 32) (hj : j < 8) :
    Lands clip (top + k) (left + j) r c ↔
      rowOffset top r = k ∧ columnOffset left c = j ∧ (clip = false ∨ top ≤ r ∧ left ≤ c) := by
  unfold Lands rowOffset columnOffset
  cases clip with
  | true =>
    simp only [if_true, Bool.true_eq_false, false_or]
    omega
  | false =>
    simp only [Bool.false_eq_true, if_false, true_or, and_true]
    omega

theorem lit_mask_eq_covers {x y : Int} {sprite : List UInt8} (hr : r < 32) (hc : c < 64)
    (hlen : sprite.length ≤ 32) :
    (Sprite.mask clip x y sprite).lit r c =
      decide (Covers clip (x % 64).toNat (y % 32).toNat sprite r c) := by
  have hx : (x % 64).toNat < 64 := by omega
  have hy : (y % 32).toNat < 32 := by omega
  rw [lit_mask hr hc hlen, Bool.eq_iff_iff, decide_eq_true_iff]
  generalize (x % 64).toNat = left at hx
  generalize (y % 32).toNat = top at hy
  simp only [bit, Bool.and_eq_true, Bool.or_eq_true, Bool.not_eq_true', decide_eq_true_eq]
  constructor
  · rintro ⟨⟨hk, hj, hbit⟩, hedge⟩
    exact ⟨_, hk, _, hj, hbit, (lands_iff hx hy hr hc (by omega) hj).mpr ⟨rfl, rfl, hedge⟩⟩
  · rintro ⟨k, hk, j, hj, hbit, hland⟩
    obtain ⟨hrow, hcolumn, hedge⟩ := (lands_iff hx hy hr hc (by omega) hj).mp hland
    rw [hrow, hcolumn]
    exact ⟨⟨hk, hj, hbit⟩, hedge⟩

theorem lands_clip_eq {row column r c : Nat} (hrow : row < 32) (hcolumn : column < 64) :
    Lands true row column r c ↔ Lands false row column r c := by
  simp only [Lands, if_true, Bool.false_eq_true, if_false, Nat.mod_eq_of_lt hrow,
    Nat.mod_eq_of_lt hcolumn]

theorem covers_clip_eq {left top : Nat} {sprite : List UInt8} (hleft : left + 8 ≤ 64)
    (htop : top + sprite.length ≤ 32) :
    Covers true left top sprite r c ↔ Covers false left top sprite r c := by
  constructor
  · rintro ⟨k, hk, j, hj, hbit, hland⟩
    exact ⟨k, hk, j, hj, hbit, (lands_clip_eq (by omega) (by omega)).mp hland⟩
  · rintro ⟨k, hk, j, hj, hbit, hland⟩
    exact ⟨k, hk, j, hj, hbit, (lands_clip_eq (by omega) (by omega)).mpr hland⟩

end Sprite

namespace Screen

theorem eq_of_lit {s t : Screen} (h : ∀ r < 32, ∀ c < 64, s.lit r c = t.lit r c) : s = t := by
  obtain ⟨rows⟩ := s
  obtain ⟨rows'⟩ := t
  congr 1
  apply Vector.ext
  intro r hr
  apply BitVec.eq_of_getMsbD_eq
  intro c hc
  simpa [lit, hr] using h r hr c hc

theorem eq_zero_iff_dark {row : BitVec 64} : row = 0 ↔ ∀ c < 64, row.getMsbD c = false := by
  constructor
  · rintro rfl c _
    exact BitVec.getMsbD_zero
  · intro h
    apply BitVec.eq_of_getMsbD_eq
    intro c hc
    rw [h c hc]
    exact BitVec.getMsbD_zero.symm

theorem meets_eq_true_iff {s m : Screen} :
    s.meets m = true ↔ ∃ r < 32, ∃ c < 64, s.lit r c = true ∧ m.lit r c = true := by
  have hrow : ∀ r < 32, ∀ c, (s.lit r c && m.lit r c) =
      ((s.rows.zipWith (· &&& ·) m.rows)[r]?.getD 0).getMsbD c := by
    intro r hr c
    simp [lit, hr, BitVec.getMsbD_and]
  simp only [← Bool.and_eq_true]
  unfold meets
  rw [Vector.any_eq_true]
  constructor
  · rintro ⟨r, hr, hne⟩
    obtain ⟨c, hc⟩ := Classical.not_forall.mp (mt eq_zero_iff_dark.mpr (bne_iff_ne.mp hne))
    obtain ⟨hlt, hlit⟩ := Classical.not_imp.mp hc
    refine ⟨r, hr, c, hlt, ?_⟩
    rw [hrow r hr c]
    simpa [hr] using hlit
  · rintro ⟨r, hr, c, hc, hlit⟩
    refine ⟨r, hr, bne_iff_ne.mpr fun hz => ?_⟩
    have hdark := eq_zero_iff_dark.mp hz c hc
    rw [hrow r hr c, Vector.getElem?_eq_getElem hr, Option.getD_some, hdark] at hlit
    cases hlit

end Screen

theorem Sprite.mask_clip_eq {x y : Int} {sprite : List UInt8} (hx : (x % 64).toNat + 8 ≤ 64)
    (hy : (y % 32).toNat + sprite.length ≤ 32) :
    Sprite.mask true x y sprite = Sprite.mask false x y sprite := by
  apply Screen.eq_of_lit
  intro r hr c hc
  rw [lit_mask_eq_covers hr hc (by omega), lit_mask_eq_covers hr hc (by omega),
    decide_eq_decide.mpr (covers_clip_eq hx hy)]

end Chip8
