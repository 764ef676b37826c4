import Chip8.Log.Report
import Mathlib.Algebra.GroupWithZero.Nat

/-! # Filtering

A higher threshold only removes lines. What two loggers print that differ in
nothing but their thresholds is told by the lines of their reports, each line
with the level of its message, and the count of traced instructions looks at no
threshold.
-/

namespace Chip8.Log

variable {l : Logger} {now : Quantity} {r : Report} {low high : String}

/-- A printed line with the level of the message that it shows. -/
structure Line where
  level : String
  text : String
  deriving DecidableEq

/-- The lines that a logger prints for a report, none if the report or the time cannot be told. -/
def Logger.lines (l : Logger) (now : Quantity) (r : Report) : List Line :=
  match r.messages (now.sub? l.start), l.showTime? now with
  | .ok messages, some time =>
    (messages.filter fun m => l.accepts m.level).map fun m => ⟨m.level, l.format time m⟩
  | _, _ => []

theorem Logger.getD_print?_of_showTime? (h : l.showTime? now = none) (messages : List Message) :
    (l.print? now messages).getD [] = [] := by
  rw [print?, h]
  cases messages.filter fun m => l.accepts m.level <;> rfl

namespace Journal

variable {j : Journal}

theorem entries_eq_lines (h : j.logger.reports = true) (now : Quantity) (r : Report) :
    (j.entries now r).toOption.getD [] = (j.logger.lines now r).map Line.text := by
  rw [getD_entries h, Logger.lines]
  cases r.messages (now.sub? j.logger.start) with
  | error failure => rfl
  | ok messages =>
    cases htime : j.logger.showTime? now with
    | none => exact Logger.getD_print?_of_showTime? htime messages
    | some time =>
      change (j.logger.print? now messages).getD [] = _
      rw [Logger.print?_of_showTime? htime, List.map_map]
      rfl

theorem printed_add (h : j.logger.reports = true) (now : Quantity) (r : Report) :
    (j.add now r).printed.toList =
      j.printed.toList ++ (j.logger.lines now r).map Line.text := by
  rw [add, entries_eq_lines h]
  simp

def addAll (j : Journal) (calls : List (Quantity × Report)) : Journal :=
  calls.foldl (fun j c => j.add c.1 c.2) j

theorem printed_addAll (h : j.logger.reports = true) (calls : List (Quantity × Report)) :
    (j.addAll calls).printed.toList =
      j.printed.toList ++ (calls.flatMap fun c => j.logger.lines c.1 c.2).map Line.text := by
  induction calls generalizing j with
  | nil => simp [addAll]
  | cons c calls ih =>
    have hrest : ((j.add c.1 c.2).addAll calls).printed.toList =
        (j.add c.1 c.2).printed.toList ++
          (calls.flatMap fun c => j.logger.lines c.1 c.2).map Line.text := ih (j := j.add c.1 c.2) h
    rw [printed_add h, List.append_assoc, ← List.map_append] at hrest
    exact hrest

theorem traced_addAll (j : Journal) (calls : List (Quantity × Report)) :
    (j.addAll calls).traced = j.traced + (calls.map fun c => c.2.traced).sum := by
  induction calls generalizing j with
  | nil => rfl
  | cons c calls ih =>
    have hrest : ((j.add c.1 c.2).addAll calls).traced =
        j.traced + c.2.traced + (calls.map fun c => c.2.traced).sum := ih (j.add c.1 c.2)
    rw [List.map_cons, List.sum_cons, ← Nat.add_assoc]
    exact hrest

end Journal

/-! ## Two thresholds -/

/-- The higher of two thresholds lets through what ranks high enough of what the lower one does. -/
theorem lines_filter (name : String) (colors : Setting) (terminal timestamps : Bool)
    (start now : Quantity) (r : Report) (h : rank low ≤ rank high) :
    (Logger.make name high colors terminal timestamps start).lines now r =
      ((Logger.make name low colors terminal timestamps start).lines now r).filter
        fun line => rank high ≤ rank line.level := by
  have haccepts : ∀ (threshold level : String),
      (Logger.make name threshold colors terminal timestamps start).accepts level =
        decide (rank threshold ≤ rank level) := fun _ _ => rfl
  have hboth : ∀ m : Message,
      (decide (rank high ≤ rank m.level) && decide (rank low ≤ rank m.level)) =
        decide (rank high ≤ rank m.level) := by
    intro m
    rw [← Bool.decide_and]
    exact decide_eq_decide.mpr ⟨And.left, fun hm => ⟨hm, Nat.le_trans h hm⟩⟩
  have hshow : (Logger.make name high colors terminal timestamps start).showTime? now =
    (Logger.make name low colors terminal timestamps start).showTime? now := rfl
  have hstart : (Logger.make name high colors terminal timestamps start).start =
    (Logger.make name low colors terminal timestamps start).start := rfl
  rw [Logger.lines, Logger.lines, hshow, hstart]
  split
  · simp only [haccepts, List.filter_map, Function.comp_def, List.filter_filter, hboth]
    rfl
  · rfl

/-- A higher threshold only removes lines. Of two loggers that differ in nothing else and take the
same reports at the same readings of the clock, the one with the higher threshold prints the lines
of the other whose level ranks at or above it, and both trace the same number of instructions. -/
theorem filtering_only_removes (name : String) (colors : Setting) (terminal timestamps : Bool)
    (start : Quantity) (h : rank low ≤ rank high) (calls : List (Quantity × Report)) :
    let logger (threshold : String) :=
      Logger.make name threshold colors terminal timestamps start
    let after (threshold : String) := Journal.addAll { logger := logger threshold } calls
    let shown := calls.flatMap fun c => (logger low).lines c.1 c.2
    (after low).printed.toList = shown.map Line.text ∧
      (after high).printed.toList =
        (shown.filter fun line => rank high ≤ rank line.level).map Line.text ∧
      (after low).traced = (calls.map fun c => c.2.traced).sum ∧
      (after high).traced = (after low).traced := by
  intro logger after shown
  have hprinted : ∀ threshold, (after threshold).printed.toList =
      (calls.flatMap fun c => (logger threshold).lines c.1 c.2).map Line.text := fun threshold =>
    (Journal.printed_addAll (j := { logger := logger threshold }) rfl calls).trans
      (List.nil_append _)
  have htraced : ∀ threshold,
      (after threshold).traced = (calls.map fun c => c.2.traced).sum := fun threshold =>
    (Journal.traced_addAll { logger := logger threshold } calls).trans (Nat.zero_add _)
  have hfiltered : (calls.flatMap fun c => (logger high).lines c.1 c.2) =
      shown.filter fun line => rank high ≤ rank line.level := by
    rw [List.filter_flatMap]
    congr 1
    exact funext fun c => lines_filter name colors terminal timestamps start c.1 c.2 h
  refine ⟨hprinted low, ?_, htraced low, (htraced high).trans (htraced low).symm⟩
  rw [hprinted, hfiltered]

theorem filtering_only_removes_unknown :
    let calls : List (Quantity × Report) := [(.whole 0, .message "Note" "ready"),
      (.whole 1, .instruction (.number 0x200) .clearScreen false),
      (.whole 2, .runStart [("fps", .number 60)]), (.whole 3, .message "error" "halt"),
      (.whole 4, .message "Critical" "lost")]
    let after (threshold : String) := Journal.addAll
      { logger := Logger.make "Chix8" threshold (.flag true) false false (.whole 0) } calls
    rank "verbose" ≤ rank "eRRor" ∧
      (after "verbose").printed.toList = ["[    Note][Chix8] ready",
        "[    INFO][Chix8] " ++ Report.rule,
        "[    INFO][Chix8] Starting emulation with configuration:", "[    INFO][Chix8]   fps: 60",
        "[    INFO][Chix8] " ++ Report.rule, "[   error][Chix8] halt",
        "[Critical][Chix8] lost"] ∧
      (after "eRRor").printed.toList = ["[   error][Chix8] halt", "[Critical][Chix8] lost"] ∧
      (after "verbose").traced = 1 ∧ (after "eRRor").traced = 1 := by
  intro calls after
  have hrank : rank "verbose" ≤ rank "eRRor" := by decide +kernel
  obtain ⟨hlow, hhigh, htraced, hsame⟩ :=
    filtering_only_removes "Chix8" (.flag true) false false (.whole 0) hrank calls
  refine ⟨hrank, hlow.trans ?_, hhigh.trans ?_, htraced, hsame.trans htraced⟩
  · decide +kernel
  · decide +kernel

end Chip8.Log
