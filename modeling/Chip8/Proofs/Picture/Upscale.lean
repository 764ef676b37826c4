import Chip8.Picture.Color
import Chip8.Screen.Basic
import Mathlib.Tactic.Ring

/-! # Enlarged pictures

What an enlarged picture shows, pixel by pixel. Colours as users write them give
the same picture as colours in bytes, as long as the picture is not too large.
-/

namespace Chip8

namespace Picture

variable {α : Type} {h w k : Nat} {scale : Int} {p q : Picture} {pixels : List (List Bool)}

/-! ## Shapes -/

/-- A picture has as many rows, and each of them as many colours, as it says. -/
structure Shaped (p : Picture) (h w : Nat) : Prop where
  height : p.height = h
  width : p.width = w
  rows : p.rows.length = h
  row : ∀ row ∈ p.rows, row.length = w

theorem Shaped.ext (hp : p.Shaped h w) (hq : q.Shaped h w)
    (heq : ∀ r < h, ∀ c < w, p.pixel? r c = q.pixel? r c) : p = q := by
  obtain ⟨height, width, rows⟩ := p
  obtain ⟨height', width', rows'⟩ := q
  obtain ⟨rfl, rfl, hrows, hrow⟩ := hp
  obtain ⟨rfl, rfl, hrows', hrow'⟩ := hq
  congr 1
  refine List.ext_getElem (hrows.trans hrows'.symm) fun r hr hr' => ?_
  have hlen := hrow _ (List.getElem_mem hr)
  have hlen' := hrow' _ (List.getElem_mem hr')
  refine List.ext_getElem (hlen.trans hlen'.symm) fun c hc hc' => ?_
  have hpixel := heq r (hrows ▸ hr) c (hlen ▸ hc)
  simpa [pixel?, hr, hr', hc, hc'] using hpixel

/-! ## Squares -/

theorem side_pos (scale : Int) : 0 < side scale := by
  unfold side
  omega

theorem side_natCast (hk : 0 < k) : side k = k := by
  unfold side
  omega

theorem length_widen (k : Nat) (xs : List α) : (widen k xs).length = xs.length * k := by
  simp [widen, List.length_flatMap, List.map_const']

theorem getElem?_widen (hk : 0 < k) (xs : List α) (i : Nat) : (widen k xs)[i]? = xs[i / k]? := by
  induction xs generalizing i with
  | nil => simp [widen]
  | cons x xs ih =>
    rw [widen, List.flatMap_cons, List.getElem?_append, List.length_replicate]
    by_cases hi : i < k
    · rw [if_pos hi, Nat.div_eq_of_lt hi, List.getElem?_replicate_of_lt hi]
      rfl
    · have hdiv : i / k = (i - k) / k + 1 := by
        rw [← Nat.sub_add_cancel (Nat.le_of_not_lt hi), Nat.add_div_right _ hk, Nat.add_sub_cancel]
      rw [if_neg hi, hdiv, List.getElem?_cons_succ]
      exact ih (i - k)

theorem pixel?_ofRows (scale : Int) (w : Nat) (rows : List (List Color)) (r c : Nat) :
    (ofRows scale w rows).pixel? r c =
      rows[r / side scale]?.bind fun row => row[c / side scale]? := by
  simp only [pixel?, ofRows, getElem?_widen (side_pos scale), List.getElem?_map]
  cases rows[r / side scale]? with
  | none => rfl
  | some row =>
    change (widen _ row)[c]? = _
    rw [getElem?_widen (side_pos scale)]
    rfl

theorem shaped_ofRows (scale : Int) {rows : List (List Color)} (hw : ∀ row ∈ rows, row.length = w) :
    (ofRows scale w rows).Shaped (rows.length * side scale) (w * side scale) where
  height := rfl
  width := rfl
  rows := by
    rw [ofRows, length_widen, List.length_map]
  row row hrow := by
    obtain ⟨line, hline, hmem⟩ := List.mem_flatMap.mp hrow
    obtain ⟨cells, hcells, rfl⟩ := List.mem_map.mp hline
    rw [(List.mem_replicate.mp hmem).2, length_widen, hw cells hcells]

def tint (on off : Color) (pixels : List (List Bool)) : List (List Color) :=
  pixels.map fun row => row.map fun lit => if lit then on else off

theorem ofPixels_eq_ofRows (scale : Int) (on off : Color) (pixels : List (List Bool)) :
    ofPixels scale on off pixels =
      ofRows scale (pixels.head?.getD []).length (tint on off pixels) := by
  simp only [ofPixels, ofRows, tint, List.length_map, List.map_map, Function.comp_def]

end Picture

/-! ## Screens -/

namespace Screen

theorem getElem?_pixels (s : Screen) (r : Nat) :
    s.pixels[r]? = if r < 32 then some ((List.range 64).map (s.lit r)) else none := by
  rw [pixels, List.getElem?_map]
  by_cases hr : r < 32
  · rw [if_pos hr, List.getElem?_range hr]
    rfl
  · rw [if_neg hr, List.getElem?_eq_none (by simpa using hr)]
    rfl

theorem length_pixels (s : Screen) : s.pixels.length = 32 := by
  simp [pixels]

theorem length_head_pixels (s : Screen) : (s.pixels.head?.getD []).length = 64 := by
  rw [List.head?_eq_getElem?, getElem?_pixels, if_pos (by omega)]
  simp

end Screen

namespace Picture

variable {room : Nat → Bool} {h w : Nat} {scale : Int}

theorem shaped_ofPixels (scale : Int) (on off : Color) (s : Screen) :
    (ofPixels scale on off s.pixels).Shaped (32 * side scale) (64 * side scale) := by
  have hw : ∀ row ∈ tint on off s.pixels, row.length = 64 := by
    intro row hrow
    obtain ⟨cells, hcells, rfl⟩ := List.mem_map.mp hrow
    obtain ⟨r, -, rfl⟩ := List.mem_map.mp hcells
    simp
  have hshape := shaped_ofRows scale hw
  rw [tint, List.length_map, s.length_pixels] at hshape
  rw [ofPixels_eq_ofRows, s.length_head_pixels]
  exact hshape

theorem pixel?_ofPixels_screen (on off : Color) (s : Screen) {r c : Nat}
    (hr : r < 32 * side scale) (hc : c < 64 * side scale) :
    (ofPixels scale on off s.pixels).pixel? r c =
      some (if s.lit (r / side scale) (c / side scale) then on else off) := by
  have hr' : r / side scale < 32 := (Nat.div_lt_iff_lt_mul (side_pos scale)).mpr hr
  have hc' : c / side scale < 64 := (Nat.div_lt_iff_lt_mul (side_pos scale)).mpr hc
  rw [ofPixels_eq_ofRows, pixel?_ofRows, tint, List.getElem?_map, Screen.getElem?_pixels,
    if_pos hr']
  simp [hc']

/-! ## Scales -/

/-- A picture of rows of pixels can be made at a scale: it stays as it is, or its side and its bytes
can be counted and there is room for them. -/
def Affordable (room : Nat → Bool) (scale : Int) (height width : Nat) : Prop :=
  1 < scale → scale < 0x8000000000000000 ∧
    byteCount (height * side scale) (width * side scale) < 0x8000000000000000 ∧
    room (byteCount (height * side scale) (width * side scale)) = true

theorem integerOfQuantity_whole (i : Int) : Setting.integerOfQuantity (.whole i) = .ok i := by
  simp [Setting.integerOfQuantity, Quantity.fraction?]

theorem side_max (scale : Int) : side (max 1 scale) = side scale := by
  unfold side
  omega

theorem scaleWithin_number_of_one_lt (room : Nat → Bool) (h w : Nat) (hone : 1 < scale) :
    scaleWithin room (.number scale) h w =
      if 0x8000000000000000 ≤ scale then .error .valueOutOfRange
      else if 0x8000000000000000 ≤ byteCount (h * side scale) (w * side scale) then .error .improper
      else if room (byteCount (h * side scale) (w * side scale)) = false then .error .exhausted
      else .ok scale := by
  have hside : scale.toNat = side scale := by
    unfold side
    omega
  have hgreater : (Quantity.whole 1).lt (.whole scale) = true := decide_eq_true hone
  simp only [scaleWithin, Setting.quantity?_number, hgreater, if_true, integerOfQuantity_whole,
    bind, Except.bind, pure, Except.pure, hside, Bool.not_eq_true']
  split_ifs <;> rfl

/-- A scale is taken as it is, or as one, exactly if the picture can be made. -/
theorem scaleWithin_eq_ok_iff {k : Int} :
    scaleWithin room (.number scale) h w = .ok k ↔ k = max 1 scale ∧ Affordable room scale h w := by
  by_cases hone : 1 < scale
  · rw [scaleWithin_number_of_one_lt room h w hone, Int.max_eq_right hone.le]
    simp only [Affordable, hone, true_implies]
    split_ifs with hscale hbytes hroom
    · exact iff_of_false nofun fun ⟨_, hlt, _⟩ => Int.not_le.mpr hlt hscale
    · exact iff_of_false nofun fun ⟨_, _, hlt, _⟩ => Nat.not_le.mpr hlt hbytes
    · exact iff_of_false nofun fun ⟨_, _, _, hholds⟩ => Bool.false_ne_true (hroom.symm.trans hholds)
    · rw [Except.ok.injEq, eq_comm]
      exact (and_iff_left ⟨Int.not_le.mp hscale, Nat.not_le.mp hbytes,
        (Bool.not_eq_false _).mp hroom⟩).symm
  · have hgreater : (Quantity.whole 1).lt (.whole scale) = false := decide_eq_false hone
    simp only [scaleWithin, Setting.quantity?_number, hgreater, Bool.false_eq_true, if_false,
      Int.max_eq_left (Int.not_lt.mp hone), Except.ok.injEq, Affordable, hone, false_implies,
      and_true, eq_comm]

end Picture

/-! ## Colours as users write them -/

theorem Setting.byte_toNat (b : UInt8) : (Setting.number b.toNat).byte = .ok b := by
  have hlt := b.toNat_lt
  have hrange : 0 ≤ (b.toNat : Int) ∧ (b.toNat : Int) ≤ 255 := by omega
  have hbyte : UInt8.ofInt b.toNat = b := by
    apply UInt8.toNat_inj.1
    simp only [UInt8.ofInt, UInt8.toNat_ofNat']
    omega
  simp only [byte, integer_number, bind, Except.bind, hrange, and_self, if_true, pure, Except.pure,
    hbyte]

theorem Color.ofSetting_setting (c : Color) (n : Nat) :
    ofSetting c.setting n = .ok (List.replicate n c) := by
  have hbytes : c.setting.leaves.mapM Setting.byte = .ok [c.red, c.green, c.blue] := by
    simp only [setting, Setting.leaves, Setting.itemLeaves, List.mapM_cons, List.mapM_nil,
      List.cons_append, List.nil_append, Setting.byte_toNat, bind, Except.bind, pure, Except.pure]
  have hshape : c.setting.shape = ([3], true) := rfl
  have hspread : spread? [3] [c.red, c.green, c.blue] n = some (List.replicate n c) := rfl
  simp only [ofSetting, hshape, hbytes, hspread, Bool.not_true, Bool.false_eq_true, if_false,
    bind, Except.bind, pure, Except.pure]

namespace Picture

variable {room : Nat → Bool} {w : Nat} {scale : Int} {p : Picture} {pixels : List (List Bool)}

theorem colorRow_replicate (on off : Color) (row : List Bool) (a b : Nat) :
    colorRow row (.replicate (row.count true + a) on) (.replicate (row.count false + b) off) =
      (row.map fun lit => if lit then on else off, .replicate a on, .replicate b off) := by
  induction row with
  | nil => simp [colorRow]
  | cons lit row ih =>
    cases lit with
    | true =>
      have hcount : (true :: row).count true + a = row.count true + a + 1 := by
        simp [Nat.add_right_comm]
      rw [hcount, List.replicate_succ]
      simp [colorRow, ih]
    | false =>
      have hcount : (false :: row).count false + b = row.count false + b + 1 := by
        simp [Nat.add_right_comm]
      rw [hcount, List.replicate_succ]
      simp [colorRow, ih]

theorem colorRows_replicate (on off : Color) (pixels : List (List Bool)) :
    colorRows pixels (.replicate (pixels.flatten.count true) on)
        (.replicate (pixels.flatten.count false) off) = tint on off pixels := by
  induction pixels with
  | nil => rfl
  | cons row pixels ih =>
    simp only [colorRows, List.flatten_cons, List.count_append, colorRow_replicate, ih]
    rfl

theorem enlarge_setting (room : Nat → Bool) (scale : Setting) (on off : Color) (w : Nat)
    (pixels : List (List Bool)) :
    enlarge room scale on.setting off.setting w pixels =
      (scaleWithin room scale pixels.length w).map fun k => ofRows k w (tint on off pixels) := by
  simp only [enlarge, Color.ofSetting_setting, bind, Except.bind, colorRows_replicate]
  cases scaleWithin room scale pixels.length w <;> rfl

theorem enlarge_eq_ok_iff {on off : Color} :
    enlarge room (.number scale) on.setting off.setting w pixels = .ok p ↔
      p = ofRows scale w (tint on off pixels) ∧ Affordable room scale pixels.length w := by
  have hrows : ofRows (max 1 scale) w (tint on off pixels) =
      ofRows scale w (tint on off pixels) := by
    simp only [ofRows, side_max]
  rw [enlarge_setting]
  constructor
  · intro hp
    obtain ⟨k, hk, rfl⟩ := exists_of_map_eq_ok hp
    obtain ⟨rfl, hfits⟩ := scaleWithin_eq_ok_iff.mp hk
    exact ⟨hrows, hfits⟩
  · rintro ⟨rfl, hfits⟩
    rw [scaleWithin_eq_ok_iff.mpr ⟨rfl, hfits⟩, Except.map, hrows]

theorem enlarge_of_huge (room : Nat → Bool) (on off : Color) (w : Nat) (pixels : List (List Bool))
    (hscale : 0x8000000000000000 ≤ scale) :
    enlarge room (.number scale) on.setting off.setting w pixels = .error .valueOutOfRange := by
  rw [enlarge_setting, scaleWithin_number_of_one_lt _ _ _ (by omega), if_pos hscale]
  rfl

theorem ofSettings_screen_eq_ok_iff {on off : Color} {s : Screen} :
    ofSettings room (.number scale) on.setting off.setting s.pixels = .ok p ↔
      p = ofPixels scale on off s.pixels ∧ Affordable room scale 32 64 := by
  rw [ofSettings, enlarge_eq_ok_iff, ofPixels_eq_ofRows, s.length_pixels, s.length_head_pixels]

end Picture

end Chip8
