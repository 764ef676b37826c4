import Chip8.Proofs.Picture.Upscale
import Mathlib.Data.List.GetD

/-! # Samples

An enlarged picture has the colour of a pixel in each place of its square. So its
corner tells the pixel, as long as the two colours differ, and pixels that give
the same picture are the same. A scale that cannot be counted gives no picture,
not even of nothing.
-/

namespace Chip8.Picture

variable {h w i j : Nat} {scale : Int} {on off : Color} {pixels : List (List Bool)}

/-- The pixels that a picture shows as squares of side `k`: lit are those whose corner is in the
colour of lit ones. -/
def sample (p : Picture) (k h w : Nat) (on : Color) : List (List Bool) :=
  (List.range h).map fun r => (List.range w).map fun c => p.pixel? (r * k) (c * k) == some on

/-! ## One picture -/

theorem shaped_tint (scale : Int) (on off : Color) (hw : ∀ row ∈ pixels, row.length = w) :
    (ofRows scale w (tint on off pixels)).Shaped (pixels.length * side scale) (w * side scale) := by
  have hw' : ∀ row ∈ tint on off pixels, row.length = w := by
    intro row hrow
    obtain ⟨cells, hcells, rfl⟩ := List.mem_map.mp hrow
    rw [List.length_map, hw cells hcells]
  have hshape := shaped_ofRows scale hw'
  rw [tint, List.length_map] at hshape
  exact hshape

theorem pixel?_tint (scale : Int) (on off : Color) (hw : ∀ row ∈ pixels, row.length = w)
    (hi : i < pixels.length * side scale) (hj : j < w * side scale) :
    (ofRows scale w (tint on off pixels)).pixel? i j =
      some (if (pixels.getD (i / side scale) []).getD (j / side scale) false then on else off) := by
  have hr : i / side scale < pixels.length := (Nat.div_lt_iff_lt_mul (side_pos scale)).mpr hi
  have hc : j / side scale < pixels[i / side scale].length := by
    rw [hw _ (List.getElem_mem hr)]
    exact (Nat.div_lt_iff_lt_mul (side_pos scale)).mpr hj
  rw [pixel?_ofRows, tint, List.getElem?_map, List.getElem?_eq_getElem hr,
    List.getD_eq_getElem _ _ hr, List.getD_eq_getElem _ _ hc]
  simp [hc]

theorem sample_tint (scale : Int) (hne : on ≠ off) (hw : ∀ row ∈ pixels, row.length = w) :
    (ofRows scale w (tint on off pixels)).sample (side scale) pixels.length w on = pixels := by
  have hpos := side_pos scale
  refine List.ext_getElem (by simp [sample]) fun r _ hr => ?_
  have hrow : pixels[r].length = w := hw _ (List.getElem_mem hr)
  refine List.ext_getElem (by simp [sample, hrow]) fun c _ hc => ?_
  have hpixel := pixel?_tint scale on off hw
    (Nat.mul_lt_mul_of_pos_right hr hpos) (Nat.mul_lt_mul_of_pos_right (hrow ▸ hc) hpos)
  rw [Nat.mul_div_cancel r hpos, Nat.mul_div_cancel c hpos, List.getD_eq_getElem _ _ hr,
    List.getD_eq_getElem _ _ hc] at hpixel
  simp only [sample, List.getElem_map, List.getElem_range, hpixel]
  cases pixels[r][c] <;> simp [hne.symm]

/-! ## All scales -/

/-- Pictures are enlarged exactly. Pixels in rows of a width give a picture at just those scales at
which one can be afforded, and in it each of them is a square in its colour. If the two colours
differ, the corners of the squares tell the pixels, and no other pixels of this shape give the same
picture. -/
theorem enlarged_exactly (room : Nat → Bool) (scale : Int) (on off : Color)
    (hw : ∀ row ∈ pixels, row.length = w) :
    ((∃ p, enlarge room (.number scale) on.setting off.setting w pixels = .ok p) ↔
      Affordable room scale pixels.length w) ∧
    ∀ p, enlarge room (.number scale) on.setting off.setting w pixels = .ok p →
      p.Shaped (pixels.length * side scale) (w * side scale) ∧
      (∀ i < pixels.length * side scale, ∀ j < w * side scale, p.pixel? i j =
        some (if (pixels.getD (i / side scale) []).getD (j / side scale) false then on else off)) ∧
      (on ≠ off → p.sample (side scale) pixels.length w on = pixels ∧
        ∀ pixels', pixels'.length = pixels.length → (∀ row ∈ pixels', row.length = w) →
          enlarge room (.number scale) on.setting off.setting w pixels' = .ok p →
          pixels' = pixels) := by
  constructor
  · constructor
    · rintro ⟨p, hp⟩
      exact (enlarge_eq_ok_iff.mp hp).2
    · intro hfits
      exact ⟨_, enlarge_eq_ok_iff.mpr ⟨rfl, hfits⟩⟩
  · intro p hp
    obtain ⟨rfl, -⟩ := enlarge_eq_ok_iff.mp hp
    refine ⟨shaped_tint scale on off hw, fun i hi j hj => pixel?_tint scale on off hw hi hj,
      fun hne => ⟨sample_tint scale hne hw, ?_⟩⟩
    intro pixels' hlength hw' hsame
    obtain ⟨hsame, -⟩ := enlarge_eq_ok_iff.mp hsame
    rw [← sample_tint scale hne hw', ← hsame, hlength, sample_tint scale hne hw]

theorem enlarged_exactly_twice :
    let pixels := [[true, false, false], [false, false, true]]
    (∀ row ∈ pixels, row.length = 3) ∧
      ∃ p, enlarge (fun _ => true) (.number 2) (Color.setting ⟨1, 2, 3⟩) (Color.setting ⟨4, 5, 6⟩) 3
          pixels = .ok p ∧
        p.height = 4 ∧ p.width = 6 ∧ p.pixel? 1 1 = some ⟨1, 2, 3⟩ ∧ p.pixel? 1 4 = some ⟨4, 5, 6⟩ ∧
        p.pixel? 3 5 = some ⟨1, 2, 3⟩ ∧ p.sample 2 2 3 ⟨1, 2, 3⟩ = pixels := by
  intro pixels
  have hw : ∀ row ∈ pixels, row.length = 3 := by decide
  obtain ⟨hexists, hall⟩ := enlarged_exactly (fun _ => true) 2 ⟨1, 2, 3⟩ ⟨4, 5, 6⟩ hw
  obtain ⟨p, hp⟩ := hexists.mpr fun _ => by decide
  obtain ⟨hshape, hpixel, hback⟩ := hall p hp
  refine ⟨hw, p, hp, hshape.height, hshape.width, ?_, ?_, ?_, (hback (by decide)).1⟩
  · rw [hpixel 1 (by decide) 1 (by decide)]
    decide
  · rw [hpixel 1 (by decide) 4 (by decide)]
    decide
  · rw [hpixel 3 (by decide) 5 (by decide)]
    decide

/-- Not every scale gives a picture, however much room there is: one of `2 ^ 63` is refused even if
there is nothing to enlarge, and one of `2 ^ 62` if there is a single pixel. -/
theorem enlarged_exactly_overflow :
    let green := Color.setting ⟨0, 255, 0⟩
    let black := Color.setting ⟨0, 0, 0⟩
    (∀ room, enlarge room (.number 0x8000000000000000) green black 0 [] =
      .error .valueOutOfRange) ∧
    (∀ room, enlarge room (.number 0x4000000000000000) green black 1 [[true]] =
      .error .improper) ∧
    ¬ ∃ room, ∀ (scale : Int) (on off : Color) (w : Nat) (pixels : List (List Bool)),
      (∀ row ∈ pixels, row.length = w) →
        ∃ p, enlarge room (.number scale) on.setting off.setting w pixels = .ok p := by
  intro green black
  have hrefused : ∀ room, enlarge room (.number 0x8000000000000000) green black 0 [] =
      .error .valueOutOfRange :=
    fun room => enlarge_of_huge room ⟨0, 255, 0⟩ ⟨0, 0, 0⟩ 0 [] (le_refl _)
  refine ⟨hrefused, fun _ => rfl, ?_⟩
  rintro ⟨room, hall⟩
  obtain ⟨p, hp⟩ := hall 0x8000000000000000 ⟨0, 255, 0⟩ ⟨0, 0, 0⟩ 0 [] nofun
  rw [hrefused] at hp
  cases hp

end Chip8.Picture
