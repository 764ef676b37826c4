import Chip8.Proofs.Log.Entries
import Chip8.Proofs.Run.Tracing

/-! # Reports of runs

What a machine enters in its journal along a schedule: an instruction when it
traces, and the fault that ends the run. Nothing else is entered, and the count
goes up by the cycles that succeed.
-/

namespace Chip8

namespace State

variable {s t u : State} {f : Fault} {xs ys : List Stimulus}

/-- The number of cycles of a schedule that succeed. -/
def succeeding (s : State) : List Stimulus → Nat
  | [] => 0
  | x :: xs =>
    match s.respond x with
    | .ok t => [x].count .cycle + t.succeeding xs
    | .error _ => 0

theorem succeeding_of_follow (h : s.follow xs = .ok t) : s.succeeding xs = xs.count .cycle := by
  induction xs generalizing s with
  | nil => rfl
  | cons x xs ih =>
    obtain ⟨u, hu, ht⟩ := follow_cons.mp h
    simp only [succeeding, hu, ih ht, ← List.count_append, List.singleton_append]

theorem succeeding_of_fails (hys : ys ++ [.cycle] <+: xs) (hu : s.follow ys = .ok u)
    (hf : u.step = .error f) : s.succeeding xs = ys.count .cycle := by
  -- Induction on what comes before the fault; whatever would come behind it counts for nothing.
  obtain ⟨zs, rfl⟩ := hys
  induction ys generalizing s with
  | nil =>
    obtain rfl := follow_nil.mp hu
    have hx : s.respond .cycle = .error f := hf
    simp [succeeding, hx]
  | cons y ys ih =>
    obtain ⟨v, hv, hu⟩ := follow_cons.mp hu
    simp only [List.cons_append, succeeding, hv, ih hu, ← List.count_append]
    rfl

end State

namespace Log

def Report.OfCycle : Report → Prop
  | instruction .. | fault .. => True
  | _ => False

end Log

namespace Session

def enterAll (σ : Session) (es : List Log.Entry) : Session :=
  { σ with journal := σ.journal.enterAll σ.clock es }

theorem enterAll_append (σ : Session) (es fs : List Log.Entry) :
    σ.enterAll (es ++ fs) = (σ.enterAll es).enterAll fs := by
  simp only [enterAll, Log.Journal.enterAll_append]

end Session

namespace Machine

variable {m : Machine} {σ : Session} {s t : State} {x : Stimulus} {xs : List Stimulus}
  {r : Log.Report}

def reportsOf (m : Machine) (s : State) : Stimulus → List Log.Report
  | .cycle =>
    (if m.trace.holds then s.due?.toList else []).map
        (fun i => .instruction (.number s.pc.toNat) i m.dialect.jumpsByX) ++
      match s.step with
      | .ok _ => []
      | .error f => [.fault f s]
  | _ => []

/-- What a machine reports of a schedule. -/
def reports (m : Machine) (s : State) : List Stimulus → List Log.Report
  | [] => []
  | x :: xs =>
    m.reportsOf s x ++
      match s.respond x with
      | .ok t => m.reports t xs
      | .error _ => []

theorem ofCycle_of_mem_reportsOf (h : r ∈ m.reportsOf s x) : r.OfCycle := by
  cases x with
  | cycle =>
    rcases List.mem_append.mp h with hi | hf
    · obtain ⟨i, -, rfl⟩ := List.mem_map.mp hi
      trivial
    · cases hs : s.step with
      | ok t => simp [hs] at hf
      | error f =>
        rw [hs] at hf
        obtain rfl := List.mem_singleton.mp hf
        trivial
  | _ => cases h

theorem ofCycle_of_mem_reports (h : r ∈ m.reports s xs) : r.OfCycle := by
  induction xs generalizing s with
  | nil => cases h
  | cons x xs ih =>
    rcases List.mem_append.mp h with hx | hrest
    · exact ofCycle_of_mem_reportsOf hx
    · cases hr : s.respond x with
      | ok t =>
        rw [hr] at hrest
        exact ih hrest
      | error f => simp [hr] at hrest

theorem announce_eq_enterAll (m : Machine) (σ : Session) (s : State) :
    m.announce σ s = σ.enterAll (((if m.trace.holds then s.due?.toList else []).map
      fun i => .instruction (.number s.pc.toNat) i m.dialect.jumpsByX).map .report) := by
  cases ht : m.trace.holds with
  | true =>
    rw [announce_eq ht]
    cases s.due? <;> rfl
  | false =>
    simp only [announce, ht, Bool.false_and, Bool.false_eq_true, if_false]
    rfl

theorem session_respond_eq (m : Machine) (σ : Session) (s : State) (x : Stimulus) :
    (m.respond σ s x).1 =
      { σ.enterAll ((m.reportsOf s x).map .report) with
        executed := σ.executed + s.succeeding [x] } := by
  cases x with
  | cycle =>
    rw [respond, step, announce_eq_enterAll, reportsOf, List.map_append, Session.enterAll_append]
    cases hs : s.step with
    | ok t => simp [State.succeeding, State.respond, hs, Session.enterAll, Log.Journal.enterAll]
    | error f =>
      simp [State.succeeding, State.respond, hs, Session.enterAll, Log.Journal.enterAll,
        Log.Journal.enter, Session.report]
  | _ =>
    simp [State.succeeding, State.respond, respond, reportsOf, Session.enterAll,
      Log.Journal.enterAll]

/-- A run leaves its reports and its count in the session, and nothing else. -/
theorem session_follow_eq (m : Machine) (σ : Session) (s : State) (xs : List Stimulus) :
    (m.follow xs σ s).1 =
      { σ.enterAll ((m.reports s xs).map .report) with
        executed := σ.executed + s.succeeding xs } := by
  induction xs generalizing σ s with
  | nil => rfl
  | cons x xs ih =>
    cases hx : s.respond x with
    | error f =>
      rw [follow_cons_of_error hx, session_respond_eq]
      simp [State.succeeding, reports, hx]
    | ok t =>
      rw [follow_cons_of_ok hx, ih, session_respond_eq]
      simp only [State.succeeding, reports, hx, List.map_append, Session.enterAll_append]
      simp [Session.enterAll, Nat.add_assoc]

end Machine

end Chip8
