import Chip8.Log.Report

/-! # Entries

What is entered in a journal: reports of a run, and texts as they are. A journal
that can show the time prints the lines of its entries one after the other, each
report as far as its messages are let through.
-/

namespace Chip8.Log

/-- Something that is entered in a journal. -/
inductive Entry where
  | report (r : Report)
  | text (s : String)

namespace Entry

def text? : Entry → Option String
  | text s => some s
  | report _ => none

def ending? : Entry → Option (Setting × Setting)
  | report (.runEnd frames instructions) => some (frames, instructions)
  | _ => none

/-- The lines that an entry adds to what is printed. -/
def lines (l : Logger) (elapsed : Option Quantity) (time : String) : Entry → List String
  | report r =>
    (((r.messages elapsed).toOption.getD []).filter fun m => l.accepts m.level).map (l.format time)
  | text s => [s]

end Entry

namespace Journal

variable {j : Journal} {now : Quantity} {time : String} {es fs : List Entry}

def enter (now : Quantity) (j : Journal) : Entry → Journal
  | .report r => j.add now r
  | .text s => j.write s

def enterAll (j : Journal) (now : Quantity) (es : List Entry) : Journal := es.foldl (enter now) j

theorem enterAll_append (j : Journal) (now : Quantity) (es fs : List Entry) :
    j.enterAll now (es ++ fs) = (j.enterAll now es).enterAll now fs :=
  List.foldl_append

/-- A journal that takes reports of runs and can show the time. -/
structure Tells (j : Journal) (now : Quantity) (time : String) : Prop where
  reports : j.logger.reports = true
  shown : j.logger.showTime? now = some time

theorem logger_enter (j : Journal) (now : Quantity) (e : Entry) :
    (j.enter now e).logger = j.logger := by
  cases e <;> rfl

theorem Tells.enter (h : j.Tells now time) (e : Entry) : (j.enter now e).Tells now time where
  reports := by
    rw [logger_enter]
    exact h.reports
  shown := by
    rw [logger_enter]
    exact h.shown

end Journal

end Chip8.Log
