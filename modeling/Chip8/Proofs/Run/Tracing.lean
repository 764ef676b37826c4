import Chip8.Proofs.Run.Frames

/-! # Tracing

Whether a machine traces and what its logger shows makes no difference to what it
does. A trace tells every instruction that a cycle sets out to execute, also one
that then fails, and nothing of the polls of a machine that waits for a key.
-/

namespace Chip8

namespace Log

variable {j : Journal} {now : Quantity} {time : String} {r : Report} {messages : List Message}

/-- A journal that takes reports of runs and lets all messages through, with the time that it
shows. -/
structure Journal.Open (j : Journal) (now : Quantity) (time : String) : Prop where
  reports : j.logger.reports = true
  threshold : j.logger.threshold = "DEBUG"
  shown : j.logger.showTime? now = some time

theorem Journal.Open.print? (h : j.Open now time) (messages : List Message) :
    j.logger.print? now messages = some (messages.map (j.logger.format time)) := by
  have hall : messages.filter (fun m => j.logger.accepts m.level) = messages := by
    refine List.filter_eq_self.mpr fun m _ => ?_
    rw [Logger.accepts, h.threshold]
    exact decide_eq_true (Nat.zero_le _)
  rw [Logger.print?_of_showTime? h.shown, hall]

theorem Journal.Open.add (h : j.Open now time)
    (hr : r.messages (now.sub? j.logger.start) = .ok messages) :
    j.add now r = { j with
      traced := j.traced + r.traced
      printed := j.printed ++ messages.map (j.logger.format time) } := by
  have hentries : j.entries now r = .ok (messages.map (j.logger.format time)) := by
    simp only [Journal.entries, h.reports, hr, h.print?, Failure.ofRange]
    rfl
  rw [Journal.add, hentries]
  rfl

end Log

def Execution.message (e : Execution) (jumpsByX : Bool) : Log.Message where
  level := "DEBUG"
  text :=
    Text.hex 3 e.before.pc.toNat ++ ": " ++
      Text.hex 4 (e.before.memory.word e.before.pc.toNat).toNat ++ "  " ++
      e.instruction.text jumpsByX

namespace State

variable {s t u : State} {f : Fault} {xs ys : List Stimulus}

/-- The cycles of a run that poll the keypad. -/
def polls (s : State) (xs : List Stimulus) : Nat :=
  (s.moves xs).countP fun v => decide (v.stimulus = .cycle) && v.before.waiting.isSome

theorem isSome_due?_of_step (h : s.step = .ok t) : s.due?.isSome = !s.waiting.isSome := by
  rcases step_eq_ok_iff.mp h with ⟨hw, -⟩ | ⟨i, hi, -⟩
  · have hsome : s.waiting.isSome = true := Option.isSome_iff_ne_none.mpr hw
    rw [due?, if_pos hsome, hsome]
    rfl
  · rw [hi, (due?_eq_some_iff.mp hi).1]
    rfl

theorem length_history_add_polls (h : s.follow xs = .ok t) :
    (s.history xs).length + s.polls xs = xs.count .cycle := by
  induction xs generalizing s with
  | nil => rfl
  | cons x xs ih =>
    obtain ⟨u, hu, ht⟩ := follow_cons.mp h
    have hrest := ih ht
    unfold polls at hrest ⊢
    simp only [history, moves, hu, List.length_append, List.countP_cons, List.count_cons]
    cases x with
    | cycle =>
      have hdue : s.due?.isSome = !s.waiting.isSome := isSome_due?_of_step hu
      cases hw : s.waiting with
      | none =>
        rw [hw] at hdue
        obtain ⟨i, hi⟩ := Option.isSome_iff_exists.mp hdue
        simp [executed?, hi]
        omega
      | some r =>
        have hi : s.due? = none := by simpa [hw] using hdue
        simp [executed?, hi]
        omega
    | _ =>
      simp [executed?]
      omega

theorem history_of_fails (hxs : xs ++ [.cycle] <+: ys) (hu : s.follow xs = .ok u)
    (hf : u.step = .error f) :
    s.history ys = s.history xs ++ (u.due?.map (⟨u, ·⟩)).toList := by
  obtain ⟨zs, rfl⟩ := hxs
  have hr : u.respond .cycle = .error f := hf
  rw [List.append_assoc, history_append hu, List.singleton_append, history, hr, List.append_nil]
  rfl

theorem moves_of_fails (hxs : xs ++ [.cycle] <+: ys) (hu : s.follow xs = .ok u)
    (hf : u.step = .error f) : s.moves ys = s.moves xs ++ [⟨u, .cycle⟩] := by
  obtain ⟨zs, rfl⟩ := hxs
  have hr : u.respond .cycle = .error f := hf
  rw [List.append_assoc, moves_append hu, List.singleton_append, moves, hr]

theorem length_history_of_fails (hxs : xs ++ [.cycle] <+: ys) (hu : s.follow xs = .ok u)
    (hf : u.step = .error f) :
    (s.history ys).length + s.polls ys =
      xs.count .cycle + if u.due?.isSome then 1 else 0 := by
  have hw : u.waiting = none := (step_eq_error_iff.mp hf).1
  have hsum := length_history_add_polls hu
  unfold polls at hsum ⊢
  rw [history_of_fails hxs hu hf, moves_of_fails hxs hu hf, List.length_append, List.countP_append,
    List.countP_singleton, hw]
  cases u.due? with
  | none =>
    simp
    omega
  | some i =>
    simp
    omega

end State

namespace Machine

variable {m : Machine} {σ τ : Session} {s t u : State} {f : Fault} {i : Instruction}
  {x : Stimulus} {time : String} {xs ys : List Stimulus}

/-! ## What is the same with and without a trace -/

/-- Two outcomes that differ at most in what was reported. -/
def SameOutcome {ε : Type} (a b : Session × Except ε State) : Prop :=
  a.2 = b.2 ∧ a.1.executed = b.1.executed

theorem follow_same (m m' : Machine) (h : σ.executed = τ.executed) (xs : List Stimulus)
    (s : State) : SameOutcome (m.follow xs σ s) (m'.follow xs τ s) := by
  refine ⟨by rw [follow_snd, follow_snd], ?_⟩
  cases hs : s.follow xs with
  | ok t => rw [executed_follow hs, executed_follow hs, h]
  | error f =>
    obtain ⟨ys, u, hys, hu, hf⟩ := State.follow_eq_error_iff.mp hs
    rw [executed_follow_of_fails hys hu hf, executed_follow_of_fails hys hu hf, h]

theorem step_same (m m' : Machine) (h : σ.executed = τ.executed) (s : State) :
    SameOutcome (m.step σ s) (m'.step τ s) := by
  have hone := follow_same m m' h [.cycle] s
  rwa [follow_singleton, follow_singleton] at hone

theorem run_same {m m' : Machine} (hm : m.frameLength = m'.frameLength)
    (h : σ.executed = τ.executed) (n : Nat) (s : State) :
    SameOutcome (m.run n σ s) (m'.run n τ s) := by
  cases hp : m.frameLength with
  | ok p =>
    rw [run_eq_follow hp, run_eq_follow (hm.symm.trans hp)]
    exact ⟨rfl, (follow_same m m' h _ s).2⟩
  | error failure =>
    cases n with
    | zero => exact ⟨rfl, h⟩
    | succ n =>
      rw [run, run, runFrame, runFrame, ← hm, hp]
      exact ⟨rfl, h⟩

/-! ## What a trace tells -/

def traced (m : Machine) (j : Log.Journal) (time : String) (es : List Execution) : Log.Journal :=
  { j with
    traced := j.traced + es.length
    printed := j.printed ++ es.map fun e => j.logger.format time (e.message m.dialect.jumpsByX) }

@[simp] theorem traced_nil (m : Machine) (j : Log.Journal) (time : String) :
    m.traced j time [] = j := by
  simp [traced]

theorem traced_append (m : Machine) (j : Log.Journal) (time : String) (es fs : List Execution) :
    m.traced j time (es ++ fs) = m.traced (m.traced j time es) time fs := by
  simp [traced, Nat.add_assoc, ← Array.toList_inj]

theorem traced_open (m : Machine) {j : Log.Journal} {now : Quantity} (h : j.Open now time)
    (es : List Execution) : (m.traced j time es).Open now time :=
  ⟨h.reports, h.threshold, h.shown⟩

theorem messages_instruction (hd : s.due? = some i) (elapsed : Option Quantity) (jumpsByX : Bool) :
    (Log.Report.instruction (.number s.pc.toNat) i jumpsByX).messages elapsed =
      .ok [Execution.message ⟨s, i⟩ jumpsByX] := by
  have hword := (State.peek_eq_ok_iff.mp (State.due?_eq_some_iff.mp hd).2).2
  simp only [Log.Report.messages, Log.Report.instructionText, Setting.hexadecimal_number,
    Text.hexInt_natCast, Execution.message, hword]
  rfl

theorem announce_eq (ht : m.trace.holds = true) (σ : Session) (s : State) :
    m.announce σ s = match s.due? with
      | some i => σ.report (.instruction (.number s.pc.toNat) i m.dialect.jumpsByX)
      | none => σ := by
  unfold announce State.due?
  rw [ht]
  cases s.waiting with
  | some r => rfl
  | none => cases s.peek <;> rfl

theorem journal_announce (ht : m.trace.holds = true) (hσ : σ.journal.Open σ.clock time)
    (s : State) :
    m.announce σ s =
      { σ with journal := m.traced σ.journal time (s.due?.map (⟨s, ·⟩)).toList } := by
  rw [announce_eq ht]
  cases hd : s.due? with
  | none => simp
  | some i =>
    simp only [Session.report, hσ.add (messages_instruction hd _ _)]
    rfl

theorem session_respond (ht : m.trace.holds = true) (hσ : σ.journal.Open σ.clock time)
    (h : s.respond x = .ok t) :
    (m.respond σ s x).1 =
      { σ with
        journal := m.traced σ.journal time ((s.executed? x).map (⟨s, ·⟩)).toList
        executed := σ.executed + [x].count .cycle } := by
  cases x with
  | cycle =>
    have hs : s.step = .ok t := h
    simp only [respond, step, hs, journal_announce ht hσ]
    rfl
  | _ => simp [respond, State.executed?]

/-- A run without a fault leaves its trace and its count in the session, and nothing else. -/
theorem session_follow (ht : m.trace.holds = true) (hσ : σ.journal.Open σ.clock time)
    (h : s.follow xs = .ok t) :
    (m.follow xs σ s).1 =
      { σ with
        journal := m.traced σ.journal time (s.history xs)
        executed := σ.executed + xs.count .cycle } := by
  induction xs generalizing σ s with
  | nil => simp [follow, State.history]
  | cons x xs ih =>
    obtain ⟨u, hu, hrest⟩ := State.follow_cons.mp h
    rw [follow_cons_of_ok hu, session_respond ht hσ hu,
      ih (traced_open m hσ ((s.executed? x).map (⟨s, ·⟩)).toList) hrest]
    simp only [State.history, hu, traced_append, Nat.add_assoc, ← List.count_append]
    rfl

theorem session_of_fails (ht : m.trace.holds = true) (hσ : σ.journal.Open σ.clock time)
    (hxs : xs ++ [.cycle] <+: ys) (hu : s.follow xs = .ok u) (hf : u.step = .error f) :
    let j := m.traced σ.journal time (s.history ys)
    (m.follow ys σ s).1 =
      { σ with
        journal := { j with
          printed := j.printed ++ [
            j.logger.format time ⟨"ERROR", f.title ++ ": " ++ f.message⟩,
            j.logger.format time ⟨"ERROR", u.dump⟩] }
        executed := σ.executed + xs.count .cycle } := by
  have hopen := traced_open m hσ (s.history ys)
  rw [follow_of_fails hxs hu hf, session_follow ht hσ hu,
    journal_announce ht (traced_open m hσ (s.history xs)), ← traced_append,
    ← State.history_of_fails hxs hu hf]
  have hmessages : ∀ elapsed, (Log.Report.fault f u).messages elapsed =
      .ok [⟨"ERROR", f.title ++ ": " ++ f.message⟩, ⟨"ERROR", u.dump⟩] := fun _ => rfl
  simp only [Session.report]
  rw [hopen.add (hmessages _)]
  rfl

/-! ## Traced runs -/

/-- What a run adds to a session: a line for each execution and `rest` behind them, and a count of
those lines that differs from that of the cycles by the polls and by `late`. -/
structure Tells (m : Machine) (time : String) (s : State) (xs : List Stimulus) (rest : List String)
    (late : Nat) (σ τ : Session) : Prop where
  printed : τ.journal.printed = σ.journal.printed ++ ((s.history xs).map fun e =>
    σ.journal.logger.format time (e.message m.dialect.jumpsByX)) ++ rest
  counted : τ.journal.traced + s.polls xs + σ.executed = σ.journal.traced + τ.executed + late

theorem tells_of_follow (ht : m.trace.holds = true) (hσ : σ.journal.Open σ.clock time)
    (h : s.follow xs = .ok t) : Tells m time s xs [] 0 σ (m.follow xs σ s).1 := by
  rw [session_follow ht hσ h]
  refine ⟨(Array.appendList_nil).symm, ?_⟩
  have hsum := State.length_history_add_polls h
  simp only [traced]
  omega

theorem tells_of_fails (ht : m.trace.holds = true) (hσ : σ.journal.Open σ.clock time)
    (hxs : xs ++ [.cycle] <+: ys) (hu : s.follow xs = .ok u) (hf : u.step = .error f) :
    Tells m time s ys
      [σ.journal.logger.format time ⟨"ERROR", f.title ++ ": " ++ f.message⟩,
        σ.journal.logger.format time ⟨"ERROR", u.dump⟩]
      (if u.due?.isSome then 1 else 0) σ (m.follow ys σ s).1 := by
  rw [session_of_fails ht hσ hxs hu hf]
  refine ⟨rfl, ?_⟩
  have hsum := State.length_history_of_fails hxs hu hf
  simp only [traced]
  omega

/-- Machines that differ in what they trace, with loggers of any kind, do the same and count the
same. What a trace cannot read the step does not execute, for the same reason. To an open journal
a machine that traces tells every execution of a run in its order, and behind them the fault. -/
theorem tracing_is_faithful (m : Machine) (trace : Setting) (h : σ.executed = τ.executed)
    (s : State) :
    SameOutcome (m.step σ s) (({ m with trace } : Machine).step τ s) ∧
    SameOutcome (m.runFrame σ s) (({ m with trace } : Machine).runFrame τ s) ∧
    (∀ n, SameOutcome (m.run n σ s) (({ m with trace } : Machine).run n τ s)) ∧
    (∀ f, s.waiting = none → s.peek = .error f → s.step = .error f) ∧
    (∀ p n, m.frameLength = .ok p → m.run n σ s =
      ((m.follow (State.paced p n) σ s).1, Failure.ofFault (s.follow (State.paced p n)))) ∧
    ∀ time, m.trace.holds = true → σ.journal.Open σ.clock time → ∀ xs,
      (∀ t, s.follow xs = .ok t → Tells m time s xs [] 0 σ (m.follow xs σ s).1) ∧
      ∀ f, s.follow xs = .error f → ∃ ys u, ys ++ [.cycle] <+: xs ∧ s.follow ys = .ok u ∧
        u.step = .error f ∧
        Tells m time s xs
          [σ.journal.logger.format time ⟨"ERROR", f.title ++ ": " ++ f.message⟩,
            σ.journal.logger.format time ⟨"ERROR", u.dump⟩]
          (if u.due?.isSome then 1 else 0) σ (m.follow xs σ s).1 := by
  have hlength : m.frameLength = ({ m with trace } : Machine).frameLength := rfl
  have hrun : ∀ n, SameOutcome (m.run n σ s) (({ m with trace } : Machine).run n τ s) :=
    fun n => run_same hlength h n s
  refine ⟨step_same _ _ h s, ?_, hrun, fun f hw hf => ?_, fun p n hp => run_eq_follow hp n σ s,
    fun time ht hσ xs => ⟨fun t hs => ?_, fun f hs => ?_⟩⟩
  · rw [← run_one, ← run_one]
    exact hrun 1
  · exact State.step_eq_error_iff.mpr ⟨hw, .inl hf⟩
  · exact tells_of_follow ht hσ hs
  · obtain ⟨ys, u, hys, hu, hf⟩ := State.follow_eq_error_iff.mp hs
    exact ⟨ys, u, hys, hu, hf, tells_of_fails ht hσ hys hu hf⟩

def waitThenReturn : Machine :=
  { ofProgram [0xF3, 0x0A, 0x60, 0x05, 0x00, 0xEE] with trace := .flag true }

theorem tracing_is_faithful_to_fault :
    let σ : Session :=
      ⟨{ logger := .make "Chix8" "debug" .absent false false (.whole 0) }, .whole 0, 0⟩
    let xs : List Stimulus := [.cycle, .cycle, .setKey 7 true, .cycle, .tick, .cycle, .cycle]
    ∃ (s u : State) (rest : List String), waitThenReturn.reset = .ok s ∧
      u.step = .error .stackUnderflow ∧
      (waitThenReturn.follow xs σ s).1.journal.printed = #["[   DEBUG][Chix8] 200: F30A  LD V3, K",
        "[   DEBUG][Chix8] 202: 6005  LD V0, 0x05", "[   DEBUG][Chix8] 204: 00EE  RET"] ++ rest ∧
      (waitThenReturn.follow xs σ s).1.journal.traced + 2 =
        (waitThenReturn.follow xs σ s).1.executed + if u.due?.isSome then 1 else 0 := by
  intro σ xs
  have hrun : (waitThenReturn.reset.toOption.any fun s =>
      errorOf? (s.follow xs) == some .stackUnderflow && s.polls xs == 2 &&
        ((s.history xs).map fun e => σ.journal.logger.format "" (e.message false)) ==
          ["[   DEBUG][Chix8] 200: F30A  LD V3, K", "[   DEBUG][Chix8] 202: 6005  LD V0, 0x05",
            "[   DEBUG][Chix8] 204: 00EE  RET"]) = true := by
    decide +kernel
  obtain ⟨s, hs, hrun⟩ := exists_ok_of_any hrun
  simp only [Bool.and_eq_true, beq_iff_eq, errorOf?_eq_some_iff] at hrun
  obtain ⟨⟨hfault, hpolls⟩, hlines⟩ := hrun
  obtain ⟨-, -, -, -, -, htells⟩ :=
    tracing_is_faithful waitThenReturn (.flag false) (σ := σ) (τ := σ) rfl s
  obtain ⟨-, hend⟩ := htells "" rfl ⟨rfl, by decide +kernel, rfl⟩ xs
  obtain ⟨ys, u, -, -, hf, hprinted, hcounted⟩ := hend _ hfault
  have hdialect : waitThenReturn.dialect.jumpsByX = false := rfl
  rw [hdialect, hlines] at hprinted
  have hzero : σ.executed = 0 ∧ σ.journal.traced = 0 := ⟨rfl, rfl⟩
  exact ⟨s, u, _, hs, hf, hprinted, by omega⟩

end Machine

end Chip8
