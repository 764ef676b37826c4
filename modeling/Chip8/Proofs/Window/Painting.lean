import Chip8.Proofs.Picture.Upscale
import Chip8.Window.Loop
import Mathlib.Data.Prod.Lex

/-! # Painted screens

A window paints a screen square by square. Carried out on a surface of its size,
the calls give the enlarged picture of the screen: the squares of the lit pixels
lie inside the surface and do not overlap, and the background shows between them.
-/

namespace Chip8

namespace Picture

variable {f : Nat → Nat → Color → Color} {h w r c : Nat} {p : Picture}

def recolor (f : Nat → Nat → Color → Color) (p : Picture) : Picture :=
  { p with rows := p.rows.mapIdx fun r row => row.mapIdx (f r) }

theorem pixel?_recolor : (p.recolor f).pixel? r c = (p.pixel? r c).map (f r c) := by
  simp only [pixel?, recolor, List.getElem?_mapIdx]
  cases p.rows[r]? with
  | none => rfl
  | some row => exact List.getElem?_mapIdx

theorem Shaped.recolor (hp : p.Shaped h w) : (p.recolor f).Shaped h w where
  height := hp.height
  width := hp.width
  rows := by
    rw [Picture.recolor, List.length_mapIdx, hp.rows]
  row row hrow := by
    obtain ⟨r, hr, rfl⟩ := List.mem_mapIdx.mp hrow
    rw [List.length_mapIdx, hp.row _ (List.getElem_mem hr)]

theorem Shaped.isSome_pixel? (hp : p.Shaped h w) (hr : r < h) (hc : c < w) :
    ∃ color, p.pixel? r c = some color := by
  have hr' : r < p.rows.length := hp.rows.symm ▸ hr
  have hc' : c < p.rows[r].length := (hp.row _ (List.getElem_mem hr')).symm ▸ hc
  exact ⟨p.rows[r][c], by simp [pixel?, hr', hc']⟩

end Picture

namespace Window

/-- A block of pixels: where it starts, and how far it goes. -/
structure Block where
  x : Int
  y : Int
  width : Int
  height : Int
  deriving DecidableEq

namespace Block

variable {scale : Int} {r c i j : Nat} {a b : Block}

def Holds (b : Block) (r c : Nat) : Prop :=
  b.y ≤ r ∧ r < b.y + b.height ∧ b.x ≤ c ∧ c < b.x + b.width

instance (b : Block) (r c : Nat) : Decidable (b.Holds r c) :=
  inferInstanceAs (Decidable (_ ∧ _ ∧ _ ∧ _))

def Apart (a b : Block) : Prop := ∀ r c, ¬ (a.Holds r c ∧ b.Holds r c)

def Within (b : Block) (height width : Int) : Prop :=
  0 ≤ b.x ∧ b.x + b.width ≤ width ∧ 0 ≤ b.y ∧ b.y + b.height ≤ height

def call (color : Color) (b : Block) : Call :=
  .rect color (.number b.x) (.number b.y) (.number b.width) (.number b.height)

def tile (scale : Int) (place : Nat × Nat) : Block :=
  ⟨place.2 * scale, place.1 * scale, scale, scale⟩

theorem holds_tile_iff {k : Nat} (hk : 0 < k) :
    (tile k (r, c)).Holds i j ↔ r = i / k ∧ c = j / k := by
  have hmem : ∀ n m : Nat, ((n * k : Int) ≤ m ∧ (m : Int) < n * k + k) ↔ n = m / k := by
    intro n m
    norm_cast
    rw [eq_comm, Nat.div_eq_iff hk]
    omega
  unfold Holds tile
  rw [← hmem r i, ← hmem c j, and_assoc]

theorem within_tile (hscale : 1 ≤ scale) (hr : r < 32) (hc : c < 64) :
    (tile scale (r, c)).Within (32 * scale) (64 * scale) := by
  have hright : 0 ≤ (63 - c : Int) * scale := Int.mul_nonneg (by omega) (by omega)
  have hbelow : 0 ≤ (31 - r : Int) * scale := Int.mul_nonneg (by omega) (by omega)
  have hx : 0 ≤ (c : Int) * scale := Int.mul_nonneg (by omega) (by omega)
  have hy : 0 ≤ (r : Int) * scale := Int.mul_nonneg (by omega) (by omega)
  rw [Int.sub_mul] at hright hbelow
  simp only [Within, tile]
  omega

end Block

namespace Call

variable {color : Color} {blocks : List Block} {h w r c : Nat} {p : Picture}

/-- What a call leaves of a surface, as far as it colours whole blocks. -/
def draw (p : Picture) : Call → Picture
  | .fill color => p.recolor fun _ _ _ => color
  | .rect color (.number x) (.number y) (.number width) (.number height) =>
    p.recolor fun r c old => if (⟨x, y, width, height⟩ : Block).Holds r c then color else old
  | _ => p

theorem draw_call (p : Picture) (color : Color) (b : Block) :
    draw p (b.call color) = p.recolor fun r c old => if b.Holds r c then color else old := rfl

theorem pixel?_foldl_draw (p : Picture) (color : Color) (blocks : List Block) (r c : Nat) :
    ((blocks.map (Block.call color)).foldl draw p).pixel? r c =
      (p.pixel? r c).map fun old => if ∃ b ∈ blocks, b.Holds r c then color else old := by
  induction blocks generalizing p with
  | nil => simp
  | cons b blocks ih =>
    rw [List.map_cons, List.foldl_cons, ih, draw_call, Picture.pixel?_recolor, Option.map_map]
    congr 1
    funext old
    by_cases hb : b.Holds r c <;> simp [hb]

theorem shaped_foldl_draw (hp : p.Shaped h w) (color : Color) (blocks : List Block) :
    ((blocks.map (Block.call color)).foldl draw p).Shaped h w := by
  induction blocks generalizing p with
  | nil => exact hp
  | cons b blocks ih =>
    rw [List.map_cons, List.foldl_cons]
    exact ih hp.recolor

end Call

/-! ## Lit pixels -/

theorem mem_litPlaces {s : Screen} {r c : Nat} :
    (r, c) ∈ litPlaces s ↔ r < 32 ∧ c < 64 ∧ s.lit r c = true := by
  simp only [litPlaces, List.mem_flatMap, List.mem_range, List.mem_map, List.mem_filter,
    Prod.mk.injEq]
  constructor
  · rintro ⟨r', hr, c', ⟨hc, hlit⟩, rfl, rfl⟩
    exact ⟨hr, hc, hlit⟩
  · rintro ⟨hr, hc, hlit⟩
    exact ⟨r, hr, c, ⟨hc, hlit⟩, rfl, rfl⟩

theorem pairwise_litPlaces (s : Screen) :
    (litPlaces s).Pairwise (Prod.Lex (· < ·) (· < ·)) := by
  refine List.pairwise_flatMap.mpr ⟨fun r _ => ?_, ?_⟩
  · refine List.pairwise_map.mpr ((List.pairwise_lt_range.filter _).imp fun hlt => ?_)
    exact .right _ hlt
  · refine List.pairwise_lt_range.imp fun hlt x hx y hy => ?_
    obtain ⟨c, -, rfl⟩ := List.mem_map.mp hx
    obtain ⟨d, -, rfl⟩ := List.mem_map.mp hy
    exact .left _ _ hlt

theorem exists_tile_iff {k r c : Nat} (hk : 0 < k) (s : Screen) (hr : r < 32 * k)
    (hc : c < 64 * k) :
    (∃ b ∈ (litPlaces s).map (Block.tile k), b.Holds r c) ↔ s.lit (r / k) (c / k) = true := by
  constructor
  · rintro ⟨b, hb, hold⟩
    obtain ⟨⟨i, j⟩, hplace, rfl⟩ := List.mem_map.mp hb
    obtain ⟨rfl, rfl⟩ := (Block.holds_tile_iff hk).mp hold
    exact (mem_litPlaces.mp hplace).2.2
  · intro hlit
    have hr' : r / k < 32 := (Nat.div_lt_iff_lt_mul hk).mpr hr
    have hc' : c / k < 64 := (Nat.div_lt_iff_lt_mul hk).mpr hc
    exact ⟨_, List.mem_map_of_mem (mem_litPlaces.mpr ⟨hr', hc', hlit⟩),
      (Block.holds_tile_iff hk).mpr ⟨rfl, rfl⟩⟩

theorem paint_tiles (scale : Int) (scheme : Scheme) (s : Screen) :
    paint (.number scale) scheme s =
      .ok (.fill scheme.off ::
        ((litPlaces s).map (Block.tile scale)).map (Block.call scheme.on)) := by
  rw [paint, squares_number, List.map_map]
  rfl

/-- The calls that paint a screen turn a surface of the right size into the enlarged picture. -/
theorem foldl_draw_paint {k : Nat} (hk : 0 < k) (scheme : Scheme) (s : Screen) {p : Picture}
    (hp : p.Shaped (32 * k) (64 * k)) :
    (Call.fill scheme.off :: ((litPlaces s).map (Block.tile k)).map (Block.call scheme.on)).foldl
      Call.draw p = Picture.ofPixels k scheme.on scheme.off s.pixels := by
  have hside := Picture.side_natCast hk
  have hfilled : (Call.draw p (.fill scheme.off)).Shaped (32 * k) (64 * k) := hp.recolor
  have hpicture := Picture.shaped_ofPixels k scheme.on scheme.off s
  rw [hside] at hpicture
  refine (Call.shaped_foldl_draw hfilled scheme.on _).ext hpicture fun r hr c hc => ?_
  obtain ⟨old, hold⟩ := hp.isSome_pixel? hr hc
  have hfill : (Call.draw p (.fill scheme.off)).pixel? r c = some scheme.off := by
    rw [Call.draw, Picture.pixel?_recolor, hold]
    rfl
  rw [Call.pixel?_foldl_draw, hfill,
    Picture.pixel?_ofPixels_screen _ _ s (hside.symm ▸ hr) (hside.symm ▸ hc), hside]
  simp only [Option.map_some, exists_tile_iff hk s hr hc]

theorem pairwise_apart_tiles {k : Nat} (hk : 0 < k) (s : Screen) :
    ((litPlaces s).map (Block.tile k)).Pairwise Block.Apart := by
  refine List.pairwise_map.mpr ((pairwise_litPlaces s).imp ?_)
  rintro ⟨i, j⟩ ⟨i', j'⟩ hlex r c ⟨hfirst, hsecond⟩
  obtain ⟨rfl, rfl⟩ := (Block.holds_tile_iff hk).mp hfirst
  obtain ⟨rfl, rfl⟩ := (Block.holds_tile_iff hk).mp hsecond
  rcases Prod.lex_def.mp hlex with hlt | ⟨-, hlt⟩ <;> exact lt_irrefl _ hlt

/-- A window paints a screen on any surface of its size: it fills the surface with the colour of
dark pixels and then a square for each lit pixel, row by row. The squares lie in the surface and
do not overlap, and what they leave is the enlarged picture of the screen. Whenever there is a
picture in these colours as users write them, it is this one, and there is one at just those scales
at which it can be afforded. -/
theorem painted_surface {scale : Int} (hscale : 1 ≤ scale) (scheme : Scheme) (s : Screen)
    {p : Picture} (hp : p.Shaped (32 * scale).toNat (64 * scale).toNat) :
    opening (.number scale) = .ok (.mode (.number (64 * scale)) (.number (32 * scale))) ∧
    ∃ places : List (Nat × Nat), ∃ tiles : List Block, ∃ calls : List Call,
      places.Pairwise (Prod.Lex (· < ·) (· < ·)) ∧
      (∀ r c, (r, c) ∈ places ↔ r < 32 ∧ c < 64 ∧ s.lit r c = true) ∧
      tiles = places.map (Block.tile scale) ∧
      tiles.Pairwise Block.Apart ∧
      (∀ b ∈ tiles, b.Within (32 * scale) (64 * scale)) ∧
      calls = .fill scheme.off :: tiles.map (Block.call scheme.on) ∧
      paint (.number scale) scheme s = .ok calls ∧
      calls.foldl Call.draw p = Picture.ofPixels scale scheme.on scheme.off s.pixels ∧
      ∀ room q,
        Picture.ofSettings room (.number scale) scheme.on.setting scheme.off.setting s.pixels =
          .ok q ↔ q = calls.foldl Call.draw p ∧ Picture.Affordable room scale 32 64 := by
  obtain ⟨k, rfl⟩ := Int.eq_ofNat_of_zero_le (by omega : 0 ≤ scale)
  have hk : 0 < k := by omega
  have hdrawn := foldl_draw_paint hk scheme s (p := p) (by
    convert hp using 1 <;> omega)
  refine ⟨rfl, litPlaces s, _, _, pairwise_litPlaces s, fun r c => mem_litPlaces, rfl,
    pairwise_apart_tiles hk s, ?_, rfl, paint_tiles k scheme s, hdrawn, fun room q => ?_⟩
  · rintro b hb
    obtain ⟨⟨r, c⟩, hplace, rfl⟩ := List.mem_map.mp hb
    obtain ⟨hr, hc, -⟩ := mem_litPlaces.mp hplace
    exact Block.within_tile hscale hr hc
  · rw [hdrawn]
    exact Picture.ofSettings_screen_eq_ok_iff

theorem painted_surface_square :
    let s := Screen.blank.setRow 1 (BitVec.twoPow 64 61)
    let before : Picture := ⟨96, 192, .replicate 96 (.replicate 192 ⟨9, 9, 9⟩)⟩
    ∃ calls, paint (.number 3) ⟨⟨1, 2, 3⟩, ⟨4, 5, 6⟩⟩ s = .ok calls ∧
      calls.tail = [.rect ⟨1, 2, 3⟩ (.number 6) (.number 3) (.number 3) (.number 3)] ∧
      (calls.foldl Call.draw before).pixel? 5 8 = some ⟨1, 2, 3⟩ ∧
      (calls.foldl Call.draw before).pixel? 6 8 = some ⟨4, 5, 6⟩ ∧
      Picture.ofSettings (fun _ => true) (.number 3) (Color.setting ⟨1, 2, 3⟩)
        (Color.setting ⟨4, 5, 6⟩) s.pixels = .ok (calls.foldl Call.draw before) := by
  intro s before
  have hbefore : before.Shaped (32 * (3 : Int)).toNat (64 * (3 : Int)).toNat :=
    ⟨rfl, rfl, rfl, fun row hrow => by rw [(List.mem_replicate.mp hrow).2]; rfl⟩
  obtain ⟨-, places, tiles, calls, -, -, rfl, -, -, hcalls, hpaint, hdrawn, hpicture⟩ :=
    painted_surface (by omega : (1 : Int) ≤ 3) ⟨⟨1, 2, 3⟩, ⟨4, 5, 6⟩⟩ s hbefore
  have hplaces : litPlaces s = [(1, 2)] := by decide +kernel
  refine ⟨calls, hpaint, ?_, ?_, ?_, (hpicture _ _).mpr ⟨rfl, fun _ => by decide⟩⟩
  · have heq := Except.ok.inj (hpaint.symm.trans (paint_tiles 3 _ s))
    rw [heq, hplaces]
    rfl
  · rw [hdrawn]
    decide +kernel
  · rw [hdrawn]
    decide +kernel

/-- At a scale of `2 ^ 63` a window paints a screen, but there is no picture of it, however much
room there is. -/
theorem painted_surface_overflow :
    paint (.number 0x8000000000000000) ⟨⟨0, 255, 0⟩, ⟨0, 0, 0⟩⟩ Screen.blank =
      .ok [.fill ⟨0, 0, 0⟩] ∧
    (∀ room, Picture.ofSettings room (.number 0x8000000000000000) (Color.setting ⟨0, 255, 0⟩)
      (Color.setting ⟨0, 0, 0⟩) Screen.blank.pixels = .error .valueOutOfRange) ∧
    ¬ ∃ room, ∀ scale : Int, 1 ≤ scale → ∀ (scheme : Scheme) (s : Screen) (p : Picture),
      p.Shaped (32 * scale).toNat (64 * scale).toNat →
        ∃ calls, paint (.number scale) scheme s = .ok calls ∧
          Picture.ofSettings room (.number scale) scheme.on.setting scheme.off.setting s.pixels =
            .ok (calls.foldl Call.draw p) := by
  have hrefused : ∀ room, Picture.ofSettings room (.number 0x8000000000000000)
      (Color.setting ⟨0, 255, 0⟩) (Color.setting ⟨0, 0, 0⟩) Screen.blank.pixels =
      .error .valueOutOfRange :=
    fun room => Picture.enlarge_of_huge room _ _ _ _ le_rfl
  have hplaces : litPlaces Screen.blank = [] := by decide +kernel
  refine ⟨?_, hrefused, ?_⟩
  · rw [paint_tiles, hplaces]
    rfl
  · rintro ⟨room, hall⟩
    have hshape := Picture.shaped_ofPixels 0x8000000000000000 ⟨0, 255, 0⟩ ⟨0, 0, 0⟩ Screen.blank
    obtain ⟨calls, -, hpicture⟩ := hall 0x8000000000000000 (by omega) ⟨⟨0, 255, 0⟩, ⟨0, 0, 0⟩⟩
      Screen.blank _ hshape
    rw [hrefused] at hpicture
    cases hpicture

end Window

end Chip8
