import Chip8.Proofs.Screen.Drawing
import Mathlib.Data.List.GetD

/-! # Sprites in strips

A sprite that is cut below one of its rows can be drawn in two parts, the lower one
with its corner as many rows further down. The parts flip different pixels, so a
collision of the whole is one of a part, although the lower part is drawn on a
screen that the upper one has changed. A clipped sprite has no lower part if the
cut is at the edge of the screen or below it.
-/

namespace Chip8

namespace Sprite

variable {clip : Bool} {x y : Int} {top bottom : List UInt8} {r c : Nat}

theorem sub_emod_add (r : Nat) (y : Int) (n : Nat) :
    ((r : Int) - (y + n) % 32) % 32 = ((r - y % 32) % 32 - n) % 32 := by
  omega

theorem Flips.append (h : Flips clip x y top r c) : Flips clip x y (top ++ bottom) r c := by
  obtain ⟨i, hi, j, hj, hir, hjc, hbit, hin⟩ := h
  refine ⟨i, by rw [List.length_append]; omega, j, hj, hir, hjc, ?_, hin⟩
  rwa [List.getD_append _ _ _ _ hi]

theorem flips_append_iff (hr : r < 32) (hlen : (top ++ bottom).length ≤ 32)
    (hedge : clip = true → y % 32 + top.length < 32) :
    Flips clip x y (top ++ bottom) r c ↔
      Flips clip x y top r c ∨ Flips clip x (y + top.length) bottom r c := by
  have hdown := sub_emod_add r y top.length
  rw [List.length_append] at hlen
  constructor
  · rintro ⟨i, hi, j, hj, hir, hjc, hbit, hin⟩
    rw [List.length_append] at hi
    by_cases hcut : i < top.length
    · rw [List.getD_append _ _ _ _ hcut] at hbit
      exact .inl ⟨i, hcut, j, hj, hir, hjc, hbit, hin⟩
    · rw [List.getD_append_right _ _ _ _ (by omega)] at hbit
      refine .inr ⟨i - top.length, by omega, j, hj, by omega, hjc, hbit, fun hclip => ?_⟩
      have hcorner := hedge hclip
      obtain ⟨hrow, hcolumn⟩ := hin hclip
      exact ⟨by omega, hcolumn⟩
  · rintro (htop | ⟨i, hi, j, hj, hir, hjc, hbit, hin⟩)
    · exact htop.append
    · refine ⟨i + top.length, by rw [List.length_append]; omega, j, hj, by omega, hjc, ?_,
        fun hclip => ?_⟩
      · rwa [List.getD_append_right _ _ _ _ (by omega), Nat.add_sub_cancel]
      · have hcorner := hedge hclip
        obtain ⟨hrow, hcolumn⟩ := hin hclip
        exact ⟨by omega, hcolumn⟩

theorem Flips.not_below (h : Flips clip x y top r c) (hlen : (top ++ bottom).length ≤ 32) :
    ¬ Flips clip x (y + top.length) bottom r c := by
  have hdown := sub_emod_add r y top.length
  rw [List.length_append] at hlen
  obtain ⟨i, hi, _, _, hir, -⟩ := h
  rintro ⟨k, hk, _, _, hkr, -⟩
  omega

theorem flips_append_iff_of_below (hr : r < 32) (hedge : 32 ≤ y % 32 + top.length) :
    Flips true x y (top ++ bottom) r c ↔ Flips true x y top r c := by
  constructor
  · rintro ⟨i, hi, j, hj, hir, hjc, hbit, hin⟩
    obtain ⟨hrow, -⟩ := hin rfl
    have hcut : i < top.length := by omega
    rw [List.getD_append _ _ _ _ hcut] at hbit
    exact ⟨i, hcut, j, hj, hir, hjc, hbit, hin⟩
  · exact Flips.append

/-! ## Masks -/

theorem mask_append (hlen : (top ++ bottom).length ≤ 32)
    (hedge : clip = true → y % 32 + top.length < 32) :
    Sprite.mask clip x y (top ++ bottom) =
      (Sprite.mask clip x y top).flip (Sprite.mask clip x (y + top.length) bottom) := by
  have hboth := hlen
  rw [List.length_append] at hboth
  apply Screen.eq_of_lit
  intro r hr c hc
  rw [Screen.lit_flip, lit_mask_eq_flips hr hc hlen, lit_mask_eq_flips hr hc (by omega),
    lit_mask_eq_flips hr hc (by omega), Bool.eq_iff_iff, decide_eq_true_iff,
    flips_append_iff hr hlen hedge]
  by_cases htop : Flips clip x y top r c
  · simp [htop, htop.not_below hlen]
  · simp [htop]

theorem meets_mask_below (hlen : (top ++ bottom).length ≤ 32) :
    (Sprite.mask clip x y top).meets (Sprite.mask clip x (y + top.length) bottom) = false := by
  have hboth := hlen
  rw [List.length_append] at hboth
  rw [Bool.eq_false_iff, ne_eq, Screen.meets_eq_true_iff]
  rintro ⟨r, hr, c, hc, htop, hbottom⟩
  rw [lit_mask_eq_flips hr hc (by omega), decide_eq_true_iff] at htop hbottom
  exact htop.not_below hlen hbottom

theorem mask_append_of_below (hlen : (top ++ bottom).length ≤ 32)
    (hedge : 32 ≤ y % 32 + top.length) :
    Sprite.mask true x y (top ++ bottom) = Sprite.mask true x y top := by
  have hboth := hlen
  rw [List.length_append] at hboth
  apply Screen.eq_of_lit
  intro r hr c hc
  rw [lit_mask_eq_flips hr hc hlen, lit_mask_eq_flips hr hc (by omega),
    decide_eq_decide.mpr (flips_append_iff_of_below hr hedge)]

end Sprite

namespace Screen

variable {s m m' : Screen} {clip : Bool} {x y : Int} {top bottom : List UInt8}

theorem flip_flip : (s.flip m).flip m' = s.flip (m.flip m') := by
  apply eq_of_lit
  intro r _ c _
  simp only [lit_flip, Bool.xor_assoc]

theorem meets_flip (h : m.meets m' = false) :
    s.meets (m.flip m') = (s.meets m || (s.flip m).meets m') := by
  have hapart : ∀ r < 32, ∀ c < 64, m.lit r c = true → m'.lit r c = false := by
    intro r hr c hc hm
    refine Bool.eq_false_iff.mpr fun hm' => ?_
    rw [meets_eq_true_iff.mpr ⟨r, hr, c, hc, hm, hm'⟩] at h
    cases h
  rw [Bool.eq_iff_iff, Bool.or_eq_true, meets_eq_true_iff, meets_eq_true_iff, meets_eq_true_iff]
  constructor
  · rintro ⟨r, hr, c, hc, hs, hflip⟩
    rw [lit_flip] at hflip
    cases hm : m.lit r c with
    | true => exact .inl ⟨r, hr, c, hc, hs, hm⟩
    | false =>
      rw [hm, Bool.false_xor] at hflip
      refine .inr ⟨r, hr, c, hc, ?_, hflip⟩
      rw [lit_flip, hs, hm]
      rfl
  · rintro (⟨r, hr, c, hc, hs, hm⟩ | ⟨r, hr, c, hc, hs, hm'⟩)
    · refine ⟨r, hr, c, hc, hs, ?_⟩
      rw [lit_flip, hm, hapart r hr c hc hm]
      rfl
    · have hm : m.lit r c = false := by
        refine Bool.eq_false_iff.mpr fun hm => ?_
        rw [hapart r hr c hc hm] at hm'
        cases hm'
      rw [lit_flip, hm, Bool.xor_false] at hs
      refine ⟨r, hr, c, hc, hs, ?_⟩
      rw [lit_flip, hm, hm']
      rfl

/-- Two sprites drawn one after the other, the second right below the first, and whether one of
them collides. -/
def drawStrips (s : Screen) (x y : Int) (top bottom : List UInt8) (clip : Bool) : Screen × Bool :=
  let upper := s.draw x y top clip
  let lower := upper.1.draw x (y + top.length) bottom clip
  (lower.1, upper.2 || lower.2)

theorem draw_append_of_inside (hlen : (top ++ bottom).length ≤ 32)
    (hedge : clip = true → y % 32 + top.length < 32) :
    s.draw x y (top ++ bottom) clip = s.drawStrips x y top bottom clip := by
  simp only [draw, drawStrips, Sprite.mask_append hlen hedge, flip_flip,
    meets_flip (Sprite.meets_mask_below hlen)]

/-- A sprite that comes back at the edges can be cut below any row and drawn in two parts. So can a
clipped sprite that is cut above the bottom edge of the screen; if it is cut there or further down,
only the upper part counts. -/
theorem draw_append (s : Screen) (x y : Int) (hlen : (top ++ bottom).length ≤ 32) :
    s.draw x y (top ++ bottom) false = s.drawStrips x y top bottom false ∧
    (y % 32 + top.length < 32 →
      s.draw x y (top ++ bottom) true = s.drawStrips x y top bottom true) ∧
    (32 ≤ y % 32 + top.length → s.draw x y (top ++ bottom) true = s.draw x y top true) := by
  refine ⟨draw_append_of_inside hlen nofun, fun hedge => draw_append_of_inside hlen fun _ => hedge,
    fun hedge => ?_⟩
  rw [draw, draw, Sprite.mask_append_of_below hlen hedge]

theorem draw_append_corner :
    let s := blank.setRow 0 (BitVec.twoPow 64 63)
    let top : List UInt8 := [0xFF, 0x81]
    let bottom : List UInt8 := [0x18, 0xFF]
    (top ++ bottom).length ≤ 32 ∧ (-3 : Int) % 32 + top.length < 32 ∧
      32 ≤ (-2 : Int) % 32 + top.length ∧ (s.draw 60 (-3) top false).2 = false ∧
      (s.draw 60 (-3) (top ++ bottom) false).2 = true ∧
      (s.draw 60 (-3) (top ++ bottom) true).1.lit 31 63 = true ∧
      (s.draw 60 (-2) (top ++ bottom) true).1.lit 31 63 = false := by
  intro s top bottom
  have hlen : (top ++ bottom).length ≤ 32 := by decide
  have habove : (-3 : Int) % 32 + top.length < 32 := by decide
  have hbelow : 32 ≤ (-2 : Int) % 32 + top.length := by decide
  obtain ⟨hwrapped, hclipped, -⟩ := draw_append s 60 (-3) hlen
  obtain ⟨-, -, hcut⟩ := draw_append s 60 (-2) hlen
  refine ⟨hlen, habove, hbelow, by decide +kernel, ?_, ?_, ?_⟩
  · rw [hwrapped]
    decide +kernel
  · rw [hclipped habove]
    decide +kernel
  · rw [hcut hbelow]
    decide +kernel

end Screen

end Chip8
