import Chip8.Options
import Chip8.Proofs.Log.Counter
import Chip8.Proofs.Picture.Upscale
import Chip8.Proofs.Run.Reports

/-! # The outcome of a headless run

A headless run follows the schedule of its frames from the start. It ends with
its summary, behind which a run without a fault prints the last screen as its
machine shows it, and saves the picture that is asked for. A fault is the exit
status instead.
-/

namespace Chip8

namespace Screen

def lines (s : Screen) : List String :=
  (List.range 32).map fun r =>
    String.ofList ((List.range 64).map fun c => if s.lit r c then '#' else '.')

end Screen

theorem Machine.rendering_of_setUp {r : Machine.Request} {files : Files} {m : Machine}
    (h : Machine.setUp r files = .ok m) : Machine.renderingOf r.rendering = .ok m.rendering := by
  unfold Machine.setUp at h
  dsimp only at h
  split at h
  · cases h
  · obtain ⟨rendering, hrendering, h⟩ := exists_of_bind_eq_ok h
    rw [hrendering]
    split at h
    · split at h
      · obtain ⟨program, -, h⟩ := exists_of_bind_eq_ok h
        cases h
        rfl
      · cases h
        rfl
    · cases h
    · cases h

/-- The machine of a headless run shows text. -/
theorem Options.rendering_of_setUp {o : Options} {directory : String} {files : Files} {m : Machine}
    (h : o.setUp directory files false = .ok m) : m.rendering = some .ascii := by
  obtain ⟨⟨dialect, fps⟩, -, h⟩ := exists_of_bind_eq_ok h
  obtain ⟨path, -, h⟩ := exists_of_bind_eq_ok h
  obtain ⟨seed, -, h⟩ := exists_of_bind_eq_ok h
  obtain ⟨scale, -, h⟩ := exists_of_bind_eq_ok h
  obtain ⟨scheme, -, h⟩ := exists_of_bind_eq_ok h
  obtain ⟨trace, -, h⟩ := exists_of_bind_eq_ok h
  exact (Except.ok.inj ((Machine.rendering_of_setUp h).symm.trans rfl))

namespace Headless

variable {m : Machine} {c : Config} {imaging : Imaging} {σ : Session} {fresh t : State} {f : Fault}
  {scheme : Scheme} {p frames : Nat} {seed scale : Int}

/-- A number of frames is asked for, on a machine that can run them, each of `p` cycles. If a
counter goes along, it can show so many frames. -/
structure Asks (m : Machine) (c : Config) (p frames : Nat) : Prop where
  pace : m.frameLength = .ok p
  count : c.frames = .ok (.number frames)
  counter : ∃ progress, c.progress = .ok progress ∧
    (progress.holds = true → (Quantity.whole frames).toFloat?.isSome = true)

theorem Asks.runFrames (h : Asks m c p frames) (σ : Session) (s : State) :
    runFrames m c (.number frames) σ s = m.run frames σ s := by
  obtain ⟨progress, hprogress, hfits⟩ := h.counter
  simp only [Headless.runFrames, hprogress, Machine.runFor]
  cases hholds : progress.holds with
  | false => rfl
  | true =>
    rw [if_pos rfl, Log.ofFrames_number (hfits hholds)]
    rfl

/-! ## The end of the frames -/

/-- What a run has entered when its frames have ended: what it reports on the way, and then its
summary. -/
def endEntries (m : Machine) (fresh : State) (p frames executed : Nat) : List Log.Entry :=
  (m.reports fresh (State.paced p frames)).map .report ++
    [.report (.runEnd (.number frames)
      (.number (executed + fresh.succeeding (State.paced p frames) : Nat)))]

def ended (m : Machine) (fresh : State) (p frames : Nat) (σ : Session) : Session :=
  { σ.enterAll (endEntries m fresh p frames σ.executed) with
    executed := σ.executed + fresh.succeeding (State.paced p frames) }

theorem filterMap_reports {β : Type} {g : Log.Entry → Option β} {rs : List Log.Report}
    (hg : ∀ r : Log.Report, r.OfCycle → g (.report r) = none) (hrs : ∀ r ∈ rs, r.OfCycle) :
    (rs.map Log.Entry.report).filterMap g = [] := by
  rw [List.filterMap_map, List.filterMap_eq_nil_iff]
  exact fun r hr => hg r (hrs r hr)

theorem ending?_endEntries (m : Machine) (fresh : State) (p frames executed : Nat) :
    (endEntries m fresh p frames executed).filterMap Log.Entry.ending? =
      [(.number frames, .number (executed + fresh.succeeding (State.paced p frames) : Nat))] := by
  have hnone : ∀ r : Log.Report, r.OfCycle → Log.Entry.ending? (.report r) = none := by
    intro r hr
    cases r <;> first | rfl | cases hr
  rw [endEntries, List.filterMap_append,
    filterMap_reports hnone fun _ => Machine.ofCycle_of_mem_reports]
  rfl

theorem text?_endEntries (m : Machine) (fresh : State) (p frames executed : Nat) :
    (endEntries m fresh p frames executed).filterMap Log.Entry.text? = [] := by
  rw [endEntries, List.filterMap_append,
    filterMap_reports (fun _ _ => rfl) fun _ => Machine.ofCycle_of_mem_reports]
  rfl

/-- A run follows its frames to the end or to a fault, and then tells its summary. -/
theorem Asks.run_eq (h : Asks m c p frames) (hreset : m.reset = .ok fresh) (imaging : Imaging)
    (σ : Session) :
    run m c imaging σ = match fresh.follow (State.paced p frames) with
      | .ok t => finish m c imaging (ended m fresh p frames σ) t
      | .error _ => ⟨ended m fresh p frames σ, .ok 1, none⟩ := by
  have hended : ended m fresh p frames σ =
      (m.follow (State.paced p frames) σ fresh).1.report (.runEnd (.number frames)
        (.number (m.follow (State.paced p frames) σ fresh).1.executed)) := by
    rw [Machine.session_follow_eq]
    simp only [ended, endEntries, Session.enterAll_append]
    rfl
  simp only [run, hreset, h.count, h.runFrames, Machine.run_eq_follow h.pace, ← hended]
  cases fresh.follow (State.paced p frames) <;> rfl

/-! ## The last screen -/

theorem exists_savePicture_eq (c : Config) (imaging : Imaging) (σ : Session) (s : State) :
    ∃ es, (savePicture c imaging σ s).session = σ.enterAll es ∧
      es.filterMap Log.Entry.text? = [] ∧ es.filterMap Log.Entry.ending? = [] ∧
      (savePicture c imaging σ s).exit ≠ .ok 1 := by
  unfold savePicture
  split
  · exact ⟨[], rfl, rfl, rfl, nofun⟩
  · rename_i file _
    split
    · split
      · exact ⟨[], rfl, rfl, rfl, nofun⟩
      · exact ⟨[.report (.message "INFO" ("Screenshot saved: " ++ file.display))], rfl, rfl, rfl,
          nofun⟩
    · exact ⟨[], rfl, rfl, rfl, nofun⟩

/-- What a machine prints of a state, which is nothing if it cannot show it. -/
def printed (m : Machine) (imaging : Imaging) (s : State) : List String :=
  (m.render imaging s).toOption.toList.map (Machine.View.print imaging)

theorem exists_finish_eq (m : Machine) (c : Config) (imaging : Imaging) (σ : Session) (s : State) :
    ∃ es, (finish m c imaging σ s).session = σ.enterAll es ∧
      es.filterMap Log.Entry.text? = printed m imaging s ∧
      es.filterMap Log.Entry.ending? = [] ∧ (finish m c imaging σ s).exit ≠ .ok 1 := by
  unfold finish printed
  cases m.render imaging s with
  | error failure => exact ⟨[], rfl, rfl, rfl, nofun⟩
  | ok view =>
    obtain ⟨es, hsession, htext, hending, hexit⟩ := exists_savePicture_eq c imaging
      { σ with journal := σ.journal.write (view.print imaging) } s
    refine ⟨.text (view.print imaging) :: es, hsession, ?_, hending, hexit⟩
    rw [List.filterMap_cons, htext]
    rfl

theorem Asks.exists_entries (h : Asks m c p frames) (hreset : m.reset = .ok fresh)
    (imaging : Imaging) (σ : Session) :
    ∃ es, (run m c imaging σ).session =
        { σ.enterAll es with executed := σ.executed + fresh.succeeding (State.paced p frames) } ∧
      es.filterMap Log.Entry.ending? =
        [(.number frames,
          .number (σ.executed + fresh.succeeding (State.paced p frames) : Nat))] ∧
      es.filterMap Log.Entry.text? = match fresh.follow (State.paced p frames) with
        | .ok t => printed m imaging t
        | .error _ => [] := by
  have hrun := h.run_eq hreset imaging σ
  have hending := ending?_endEntries m fresh p frames σ.executed
  have htext := text?_endEntries m fresh p frames σ.executed
  cases hfollow : fresh.follow (State.paced p frames) with
  | error f =>
    rw [hfollow] at hrun
    refine ⟨_, ?_, hending, htext⟩
    rw [hrun]
    rfl
  | ok t =>
    rw [hfollow] at hrun
    obtain ⟨es, hsession, htext', hending', -⟩ :=
      exists_finish_eq m c imaging (ended m fresh p frames σ) t
    refine ⟨endEntries m fresh p frames σ.executed ++ es, ?_, ?_, ?_⟩
    · rw [hrun, hsession, Session.enterAll_append]
      rfl
    · rw [List.filterMap_append, hending, hending']
      rfl
    · rw [List.filterMap_append, htext, htext']
      rfl

theorem Asks.run_of_fault (h : Asks m c p frames) (hreset : m.reset = .ok fresh)
    (hf : fresh.follow (State.paced p frames) = .error f) (imaging : Imaging) (σ : Session) :
    (run m c imaging σ).exit = .ok 1 ∧ (run m c imaging σ).saved = none := by
  rw [h.run_eq hreset, hf]
  exact ⟨rfl, rfl⟩

def untimed : Session :=
  ⟨{ logger := .make "Chix8" "INFO" .absent false false (.whole 0) }, .whole 0, 0⟩

/-- Imaging with room for pictures below a gigabyte, which knows one extension. -/
def graphicsOnly : Imaging where
  room bytes := bytes < 0x40000000
  text _ := ""
  save path _ :=
    if ".png".toList <:+ path.toList then .ok () else .error .unknownImageFormat

end Headless

end Chip8
