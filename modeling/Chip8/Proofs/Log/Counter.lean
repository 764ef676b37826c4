import Chip8.Log.Progress

/-! # Counters of frames

A counter of frames can be opened if the number of frames is not too large to be
shown as a double: everything else that it shows at the start is its own.
-/

namespace Chip8

namespace Slot

variable {slots : String → Option Slot} {slot : Slot} {name : String}

theorem named_of_plain (hslot : slots name = some slot)
    (hplain : name.toList.takeWhile (fun c => c != '.' && c != '[') = name.toList)
    (hnumber : position? name.toList = none) (hne : name.toList ≠ []) :
    named slots name.toList = .ok slot := by
  have hend : ∀ steps, slot.follow steps [] = .ok slot := fun steps => by cases steps <;> rfl
  simp only [named, hplain, String.ofList_toList, hslot, hnumber, List.drop_length, hend]

end Slot

theorem fillLayout_full {slots : String → Option Slot} {l r : String}
    (hleft : slots "l_bar" = some (.value (.text l))) (hbar : slots "bar" = some .bar)
    (hright : slots "r_bar" = some (.value (.text r))) :
    fillLayout slots 2 (Log.Meter.fullLayout.toList.length + 1) Log.Meter.fullLayout.toList =
      .ok (l.toList ++ r.toList, [[]]) := by
  have hl : Text.nextPlace Log.Meter.fullLayout.toList =
      .place [] ⟨"l_bar".toList, none, []⟩ "\x7bbar\x7d\x7br_bar\x7d".toList := by decide
  have hb : Text.nextPlace "\x7bbar\x7d\x7br_bar\x7d".toList =
      .place [] ⟨"bar".toList, none, []⟩ "\x7br_bar\x7d".toList := by decide
  have hr : Text.nextPlace "\x7br_bar\x7d".toList = .place [] ⟨"r_bar".toList, none, []⟩ [] := by
    decide
  have hstop : Text.nextPlace [] = .stop [] := rfl
  have hlength : Log.Meter.fullLayout.toList.length = 19 := by decide
  have hl' := Slot.named_of_plain hleft (by decide) (by decide) (by decide)
  have hb' := Slot.named_of_plain hbar (by decide) (by decide) (by decide)
  have hr' := Slot.named_of_plain hright (by decide) (by decide) (by decide)
  rw [hlength]
  simp only [fillLayout, hl, hb, hr, hstop, hl', hb', hr', Slot.convert, Slot.fill, Slot.checkForm,
    bind, Except.bind, pure, Except.pure, Except.map, Setting.display, List.contains_nil,
    List.isEmpty_nil, if_true, Bool.false_eq_true, if_false, List.nil_append, List.append_nil]

namespace Log

variable {n : Nat} {text : String} {total : Setting}

/-- A counter without options that has not counted yet. -/
def Progress.opened (total : Setting) (text : String) : Progress where
  total
  description := .text text
  count := .number 0
  shown := .number 0
  options := []

theorem exists_openTotal_opened (hfits : (Quantity.whole n).toFloat?.isSome) (text : String) :
    ∃ total, (total = .number n ∨ total = .absent) ∧
      ((Progress.opened (.number n) text).meter none).openTotal = .ok total := by
  obtain ⟨x, hx⟩ := Option.isSome_iff_exists.mp hfits
  have hadd : (Quantity.whole n).add? (.ofFloat 0.5) =
      some (.ofFloat (x + Float.ofBits (0.5 : Float).toBits)) := by
    simp only [Quantity.add?, Quantity.join?, Quantity.ofFloat, hx]
    rfl
  simp only [Meter.openTotal, Progress.meter, Progress.opened, Setting.quantity_number, bind,
    Except.bind, hadd, Failure.ofRange, pure, Except.pure]
  split
  · split
    · exact ⟨_, .inr rfl, rfl⟩
    · exact ⟨_, .inl rfl, rfl⟩
  · exact ⟨_, .inl rfl, rfl⟩

theorem scaled_opened (h : ((Progress.opened (.number n) text).meter none).openTotal = .ok total) :
    ((Progress.opened (.number n) text).meter none).scaled =
      .ok ((Progress.opened total text).meter none) := by
  have hscale : ((Progress.opened (.number n) text).meter none).look "unit_scale" =
      .flag false := rfl
  simp only [Meter.scaled, h, hscale, bind, Except.bind, Setting.holds_flag, Bool.false_and,
    Bool.false_eq_true, if_false, pure, Except.pure]
  rfl

theorem checkLayout_opened (total : Setting) (text : String) (rate : Option Float)
    (remaining : Float) (percentage : Setting) :
    let m := (Progress.opened total text).meter none
    m.checkLayout rate remaining percentage m.marks Meter.fullLayout = .ok () := by
  intro m
  have hfill : fillLayout (m.slots rate remaining percentage) 2
      (Meter.fullLayout.toList.length + 1) Meter.fullLayout.toList =
        .ok ("|".toList ++ "|".toList, [[]]) := fillLayout_full rfl rfl rfl
  have hbar : Meter.checkBar m.marks 10 [] = .ok () := rfl
  have hlength : Meter.barLength (m.look "ncols") ("|".toList ++ "|".toList) = .ok 10 := rfl
  have hcolor : Meter.checkColor (m.look "colour") = .ok () := rfl
  simp only [Meter.checkLayout, hfill, hlength, hcolor, bind, Except.bind, List.isEmpty_cons,
    Bool.not_false, if_true]
  exact congrArg (Except.bind · _) hbar

theorem exists_fraction_opened (hn : n ≠ 0) (text : String) :
    ∃ part, ((Progress.opened (.number n) text).meter none).fraction = .ok part := by
  have hzero : (Quantity.whole n).isZero = false := by simp [Quantity.isZero, hn]
  have hratio : (Quantity.whole 0).ratio? (.whole n) = some (Float.ofBits (UInt64.ofNat 0)) := rfl
  simp only [Meter.fraction, Progress.meter, Progress.opened, Setting.quantity_number, hzero,
    hratio, bind, Except.bind, Failure.ofRange, Bool.false_eq_true, if_false]
  exact ⟨_, rfl⟩

theorem check_opened (hfits : (Quantity.whole n).toFloat?.isSome) (hne : text ≠ "") :
    ((Progress.opened (.number n) text).meter none).check = .ok () := by
  obtain ⟨total, hcases, hopen⟩ := exists_openTotal_opened hfits text
  generalize hm : (Progress.opened total text).meter none = m
  have hrate : m.rate? = .ok none := hm ▸ rfl
  have hcounts : m.checkCounts = .ok () := hm ▸ rfl
  have hremaining : m.remaining none = .ok 0 := hm ▸ rfl
  have hwanted : (m.look "bar_format").holds = false := hm ▸ rfl
  have hcolumns : (m.look "ncols").quantity?.any Quantity.isZero = false := hm ▸ rfl
  have hdescription : m.description = .text text := hm ▸ rfl
  have htotal : m.total = total := hm ▸ rfl
  have hholds : (Setting.text text).holds = true := by simp [Setting.holds, hne]
  simp only [Meter.check, scaled_opened hopen, hm, hrate, hcounts, hremaining, hwanted, hcolumns,
    hdescription, hholds, htotal, bind, Except.bind, pure, Except.pure, Bool.not_true,
    Bool.and_false, Bool.false_eq_true, if_false, if_true]
  rcases hcases with rfl | rfl
  · by_cases hn : n = 0
    · subst hn
      rfl
    · have hshows : (Setting.number n).holds = true := by simp [Setting.holds, hn]
      obtain ⟨part, hpart⟩ := exists_fraction_opened hn text
      rw [hm] at hpart
      have hlayout := checkLayout_opened (.number n) text none 0 (.real (100 * part).toBits)
      rw [hm] at hlayout
      simp only [hshows, hpart, if_true, Bool.not_false]
      exact hlayout
  · simp [Setting.holds]

theorem refresh_opened (hfits : (Quantity.whole n).toFloat?.isSome) (hne : text ≠ "") :
    (Progress.opened (.number n) text).refresh none = .ok () := by
  have hcheck := check_opened hfits hne
  generalize hp : Progress.opened (.number n) text = p at hcheck
  have harguments : p.look "lock_args" = .absent := hp ▸ rfl
  have hline : p.line = .ok (.whole 0) := hp ▸ rfl
  have hgui : (p.look "gui").holds = false := hp ▸ rfl
  have hcount : p.lineCount = .ok (.whole 20) := hp ▸ rfl
  have hfile : p.checkFile = .ok () := hp ▸ rfl
  have hmove : p.checkMove (.whole 0) = .ok () := rfl
  have hlast : (Quantity.whole 20).sub? (.whole 1) = some (.whole 19) := rfl
  have hle : (Quantity.whole 19).le (.whole 0) = false := rfl
  have hwriting : (do discard (p.look "smoothing").quantity; (p.meter none).check) = .ok () := by
    obtain ⟨q, hq⟩ : ∃ q, (p.look "smoothing").quantity = .ok q := hp ▸ ⟨_, rfl⟩
    rw [hq]
    exact hcheck
  have hshown : ∀ writing, writing = .ok () → p.checkLine (.whole 0) writing = .ok () := by
    rintro _ rfl
    simp only [Progress.checkLine, hcount, hlast, hle, hmove, hfile, bind, Except.bind,
      Failure.ofRange, Bool.false_eq_true, if_false]
  simp only [Progress.refresh, harguments, hline, hgui]
  exact hshown _ hwriting

theorem ofFrames_number (hfits : (Quantity.whole n).toFloat?.isSome) :
    Progress.ofFrames (.number n) =
      .ok (Progress.opened (.number n) ("Emulating (" ++ Text.grouped n ++ " frames)")) := by
  generalize htext : "Emulating (" ++ Text.grouped n ++ " frames)" = text
  have hne : text ≠ "" := by
    rintro rfl
    have hlength := congrArg String.length htext
    simp at hlength
  have hstart : Progress.start (.number n) none [] =
      (Progress.opened (.number n) text).refresh none >>= fun _ =>
        .ok (Progress.opened (.number n) text) := htext ▸ rfl
  rw [Progress.ofFrames, hstart, refresh_opened hfits hne]
  rfl

end Log

end Chip8
