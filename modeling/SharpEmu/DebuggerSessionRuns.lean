import SharpEmu.DebuggerSession
import SharpEmu.TransitionRuns

/-!
# Runs of the debugger session

The gate is closed by every published stop and opened by accepted resumes and by
`NotifyTerminated`, so the emulation thread can leave a stop as soon as one of these has
happened since the stop was published, and not before.  The session is paused at a stop
only.  A terminated session stays terminated as long as no frame is entered.
-/

namespace SharpEmu.Debugger

/-- An action and what it answers. -/
abbrev Label := Action × Bool

def Step (options : DebuggerSessionOptions) (before : System) (label : Label)
    (after : System) : Prop :=
  before.perform options label.1 = some (label.2, after)

def publishes : Label → Bool
  | (.frameEnter _, stops) => stops
  | (.stall _, stops) => stops
  | (.frameExit _, stops) => stops
  | _ => false

/-- An accepted resume, or the end of a `NotifyTerminated`. -/
def grants : Label → Bool
  | (.continue, accepted) => accepted
  | (.stepFrame, accepted) => accepted
  | (.release, _) => true
  | _ => false

/-- Whether the thread has been allowed to go on since the last stop was published. -/
def granted (labels : List Label) : Bool :=
  labels.foldl (fun granted label => !publishes label && (granted || grants label)) false

def EntersAlive (before : System) (label : Label) : Prop :=
  ∀ frame, label.1 = .frameEnter frame → before.session.state ≠ .terminated

/-- Before the first frame. -/
structure IsStart (system : System) : Prop where
  session : ∃ breakpoints, system.session = .new breakpoints
  place : system.place = .between
  releasing : system.releasing = 0

/-- The thread is in a hook call, behind the publishing of a stop. -/
def System.AtStop (system : System) : Prop :=
  ∃ hook frame, system.place = .parked hook frame ∨ system.place = .leaving hook frame true

variable {options : DebuggerSessionOptions} {before after system : System}
variable {label : Label} {labels : List Label}

@[simp]
theorem granted_append (labels : List Label) (label : Label) : granted (labels ++ [label]) =
      (!publishes label && (granted labels || grants label)) := by
  simp [granted]

/-! ## What the locked blocks do -/

namespace DebuggerSession

variable (session : DebuggerSession) (context : GuestContext) (frame : Frame)

/-- Where a block leaves the gate and the state: it publishes a stop, or it does not
touch the gate. -/
theorem onFrameEnter_spec (options : DebuggerSessionOptions) :
    let entered := session.onFrameEnter options context frame
    (entered.1 = true ∧ entered.2.resumeGate = false ∧ entered.2.state = .paused) ∨
      (entered.1 = false ∧ entered.2.resumeGate = session.resumeGate ∧
        entered.2.state = .running) := by
  dsimp only
  unfold onFrameEnter resolveStopReason
  dsimp only
  cases session.pausePending with
  | true => exact .inl ⟨rfl, rfl, rfl⟩
  | false =>
    cases session.stepPending with
    | true => exact .inl ⟨rfl, rfl, rfl⟩
    | false =>
      cases findExecuteHit session.breakpoints frame.entryPoint with
      | some hit => exact .inl ⟨rfl, rfl, rfl⟩
      | none =>
        cases options.stopAtEntry && !session.seenFirstFrame with
        | true => exact .inl ⟨rfl, rfl, rfl⟩
        | false => exact .inr ⟨rfl, rfl, rfl⟩

theorem onFrameExit_spec (options : DebuggerSessionOptions) (result : ℤ) :
    let exited := session.onFrameExit options context frame result
    (exited.1 = true ∧ exited.2.resumeGate = false ∧ exited.2.state = .paused ∧
        session.state ≠ .terminated) ∨
      (exited = (false, session)) := by
  dsimp only
  unfold onFrameExit
  split
  · rename_i stops
    exact .inl ⟨rfl, rfl, rfl, stops.2.2⟩
  · exact .inr rfl

theorem onStall_spec (options : DebuggerSessionOptions) (info : CpuStallInfo) :
    let stalled := session.onStall options context frame info
    (stalled.1 = true ∧ stalled.2.resumeGate = false ∧ stalled.2.state = .paused ∧
        session.state ≠ .terminated) ∨
      (stalled = (false, session)) := by
  dsimp only
  unfold onStall
  split
  · exact .inr rfl
  · split
    · exact .inr rfl
    · rename_i alive
      exact .inl ⟨rfl, rfl, rfl, alive⟩

theorem leave_spec (hook : HookCall) : (session.leave hook frame).resumeGate = session.resumeGate ∧
      ((session.state = .terminated ∧ (session.leave hook frame).state = .terminated) ∨
        (session.state ≠ .terminated ∧ (session.leave hook frame).state = .running)) := by
  have runs (other : DebuggerSession) : other.run.resumeGate = other.resumeGate ∧
      ((other.state = .terminated ∧ other.run.state = .terminated) ∨
        (other.state ≠ .terminated ∧ other.run.state = .running)) := by
    unfold run
    by_cases ended : other.state = .terminated
    · rw [if_neg (not_not.mpr ended)]
      exact ⟨rfl, .inl ⟨ended, ended⟩⟩
    · rw [if_pos ended]
      exact ⟨rfl, .inr ⟨ended, rfl⟩⟩
  cases hook with
  | enter => exact runs session
  | exit | stall =>
    by_cases shown : session.currentFrame = some frame
    · simp only [leave, dropFrame, if_pos shown]
      exact runs { session with currentFrame := none }
    · simp only [leave, dropFrame, if_neg shown]
      exact runs session

theorem continue_spec : (session.continue.1 = true ∧ session.state = .paused ∧
        session.continue.2 = { session with resumeGate := true }) ∨
      session.continue = (false, session) := by
  unfold «continue»
  by_cases paused : session.state = .paused
  · rw [if_neg (not_not.mpr paused)]
    exact .inl ⟨rfl, paused, rfl⟩
  · rw [if_pos paused]
    exact .inr rfl

theorem stepFrame_spec : (session.stepFrame.1 = true ∧ session.state = .paused ∧
        session.stepFrame.2 = { session with stepPending := true, resumeGate := true }) ∨
      session.stepFrame = (false, session) := by
  unfold stepFrame
  by_cases paused : session.state = .paused
  · rw [if_neg (not_not.mpr paused)]
    exact .inl ⟨rfl, paused, rfl⟩
  · rw [if_pos paused]
    exact .inr rfl

theorem requestPause_spec : session.requestPause.resumeGate = session.resumeGate ∧
      session.requestPause.state = session.state := by
  unfold requestPause
  split <;> exact ⟨rfl, rfl⟩

theorem access_spec (request : Access) :
    session.state = .paused ∨ session.access context request = (false, context) := by
  by_cases paused : session.isPausedWithFrame = true
  · unfold isPausedWithFrame at paused
    rw [Bool.and_eq_true, decide_eq_true_eq] at paused
    exact .inl paused.1
  · right
    cases request <;>
      simp [access, tryGetRegisters, trySetRegister, tryReadMemory, tryWriteMemory,
        tryReadXmm, paused]

end DebuggerSession

/-! ## What one step does -/

/-- The parts of the system that the steps of a thread leave as they are. -/
structure SameControl (before after : System) : Prop where
  state : after.session.state = before.session.state
  place : after.place = before.place
  releasing : after.releasing = before.releasing

/-- What a step does to the state, the gate, the place of the emulation thread and the
calls of `NotifyTerminated`. -/
inductive Effect (before : System) (label : Label) (after : System) : Prop
  | stops (hook : HookCall) (frame : Frame) (published : publishes label = true)
      (state : after.session.state = .paused) (gate : after.session.resumeGate = false)
      (place : after.place = .parked hook frame)
      (releasing : after.releasing = before.releasing)
      (alive : before.session.state ≠ .terminated ∨ ∃ other, label.1 = .frameEnter other)
  | enters (frame : Frame) (isLabel : label = (.frameEnter frame, false))
      (state : after.session.state = .running)
      (gate : after.session.resumeGate = before.session.resumeGate)
      (releasing : after.releasing = before.releasing)
  | wakes (hook : HookCall) (frame : Frame) (isLabel : label = (.wake, true))
      (was : before.place = .parked hook frame)
      (place : after.place = .leaving hook frame true)
      (session : after.session = before.session)
      (releasing : after.releasing = before.releasing)
  | leaves (isLabel : label = (.leave, true))
      (state : (before.session.state = .terminated ∧ after.session.state = .terminated) ∨
        (before.session.state ≠ .terminated ∧ after.session.state = .running))
      (gate : after.session.resumeGate = before.session.resumeGate)
      (releasing : after.releasing = before.releasing)
  | resumes (isGrant : grants label = true) (quiet : publishes label = false)
      (notEnd : ∀ answer, label ≠ (.terminate, answer) ∧ label ≠ (.release, answer))
      (was : before.session.state = .paused) (gate : after.session.resumeGate = true)
      (same : SameControl before after)
  | terminates (isLabel : label = (.terminate, false))
      (state : after.session.state = .terminated)
      (gate : after.session.resumeGate = before.session.resumeGate)
      (place : after.place = before.place)
  | releases (isLabel : label = (.release, false)) (pending : 0 < before.releasing)
      (state : after.session.state = before.session.state)
      (gate : after.session.resumeGate = true) (place : after.place = before.place)
      (releasing : after.releasing + 1 = before.releasing)
  | outside (quiet : publishes label = false) (noGrant : grants label = false)
      (notEnd : ∀ answer, label ≠ (.terminate, answer) ∧ label ≠ (.release, answer))
      (frame : Frame) (was : before.place = .running frame)
      (session : after.session = before.session)
      (releasing : after.releasing = before.releasing)
  | keeps (quiet : publishes label = false) (noGrant : grants label = false)
      (notEnd : ∀ answer, label ≠ (.terminate, answer) ∧ label ≠ (.release, answer))
      (gate : after.session.resumeGate = before.session.resumeGate)
      (same : SameControl before after)

theorem Step.effect (step : Step options before label after) :
    Effect before label after := by
  obtain ⟨action, answer⟩ := label
  unfold Step System.perform at step
  cases action with
  | frameEnter frame =>
    dsimp only at step
    split at step
    · obtain ⟨rfl, rfl⟩ := by simpa using step
      rcases before.session.onFrameEnter_spec before.context frame options with
        ⟨stops, gate, state⟩ | ⟨goes, gate, state⟩
      · exact .stops .enter frame stops state gate (if_pos stops) rfl (.inr ⟨frame, rfl⟩)
      · exact .enters frame (by rw [goes]) state gate rfl
    · cases step
  | stall info =>
    dsimp only at step
    split at step
    · rename_i frame was
      obtain ⟨rfl, rfl⟩ := by simpa using step
      rcases before.session.onStall_spec before.context frame options info with
        ⟨stops, gate, state, alive⟩ | goes
      · exact .stops .stall frame stops state gate (if_pos stops) rfl (.inl alive)
      · exact .outside (congrArg Prod.fst goes) rfl (by simp) frame was (congrArg Prod.snd goes) rfl
    · cases step
  | frameExit result =>
    dsimp only at step
    split at step
    · rename_i frame was
      obtain ⟨rfl, rfl⟩ := by simpa using step
      rcases before.session.onFrameExit_spec before.context frame options result with
        ⟨stops, gate, state, alive⟩ | goes
      · exact .stops .exit frame stops state gate (if_pos stops) rfl (.inl alive)
      · exact .outside (congrArg Prod.fst goes) rfl (by simp) frame was (congrArg Prod.snd goes) rfl
    · cases step
  | abandon =>
    dsimp only at step
    split at step
    · rename_i frame was
      obtain ⟨rfl, rfl⟩ := by simpa using step
      exact .outside rfl rfl (by simp) frame was rfl rfl
    · cases step
  | execute context =>
    dsimp only at step
    split at step
    · obtain ⟨rfl, rfl⟩ := by simpa using step
      exact .keeps rfl rfl (by simp) rfl ⟨rfl, rfl, rfl⟩
    · obtain ⟨rfl, rfl⟩ := by simpa using step
      exact .keeps rfl rfl (by simp) rfl ⟨rfl, rfl, rfl⟩
    · cases step
  | wake =>
    dsimp only at step
    split at step
    · rename_i hook frame was
      split at step
      · obtain ⟨rfl, rfl⟩ := by simpa using step
        exact .wakes hook frame rfl was rfl rfl rfl
      · cases step
    · cases step
  | leave =>
    dsimp only at step
    split at step
    · rename_i hook frame stopped _
      obtain ⟨rfl, rfl⟩ := by simpa using step
      obtain ⟨gate, state⟩ := before.session.leave_spec frame hook
      exact .leaves rfl state gate rfl
    · cases step
  | «continue» =>
    obtain ⟨rfl, rfl⟩ := by simpa using step
    rcases before.session.continue_spec with ⟨accepted, paused, resumed⟩ | refused
    · exact .resumes accepted rfl (by simp) paused (by rw [resumed]) ⟨by rw [resumed], rfl, rfl⟩
    · exact .keeps rfl (congrArg Prod.fst refused) (by simp) (by rw [refused])
        ⟨by rw [refused], rfl, rfl⟩
  | stepFrame =>
    obtain ⟨rfl, rfl⟩ := by simpa using step
    rcases before.session.stepFrame_spec with ⟨accepted, paused, resumed⟩ | refused
    · exact .resumes accepted rfl (by simp) paused (by rw [resumed]) ⟨by rw [resumed], rfl, rfl⟩
    · exact .keeps rfl (congrArg Prod.fst refused) (by simp) (by rw [refused])
        ⟨by rw [refused], rfl, rfl⟩
  | requestPause =>
    obtain ⟨rfl, rfl⟩ := by simpa using step
    obtain ⟨gate, state⟩ := before.session.requestPause_spec
    exact .keeps rfl rfl (by simp) gate ⟨state, rfl, rfl⟩
  | editBreakpoints breakpoints =>
    obtain ⟨rfl, rfl⟩ := by simpa using step
    exact .keeps rfl rfl (by simp) rfl ⟨rfl, rfl, rfl⟩
  | access request =>
    obtain ⟨rfl, rfl⟩ := by simpa using step
    exact .keeps rfl rfl (by simp) rfl ⟨rfl, rfl, rfl⟩
  | terminate =>
    obtain ⟨rfl, rfl⟩ := by simpa using step
    exact .terminates rfl rfl rfl rfl
  | release =>
    dsimp only at step
    split at step
    · cases step
    · rename_i pending
      obtain ⟨rfl, rfl⟩ := by simpa using step
      exact .releases rfl (by omega) rfl rfl rfl (by simp only; omega)

/-! ## The invariants -/

theorem Effect.gate_eq (effect : Effect before label after) : after.session.resumeGate =
      (!publishes label && (before.session.resumeGate || grants label)) := by
  cases effect with
  | stops hook frame published state gate => rw [gate, published]; rfl
  | enters frame isLabel state gate => rw [gate, isLabel]; simp [publishes, grants]
  | wakes hook frame isLabel was place session =>
    rw [session, isLabel]
    simp [publishes, grants]
  | leaves isLabel state gate => rw [gate, isLabel]; simp [publishes, grants]
  | resumes isGrant quiet notEnd was gate => rw [gate, isGrant, quiet]; simp
  | terminates isLabel state gate => rw [gate, isLabel]; simp [publishes, grants]
  | releases isLabel pending state gate => rw [gate, isLabel]; simp [publishes, grants]
  | outside quiet noGrant notEnd frame was session =>
    rw [session, quiet, noGrant]
    simp
  | keeps quiet noGrant notEnd gate => rw [gate, quiet, noGrant]; simp

theorem Effect.atStop (effect : Effect before label after)
    (invariant : before.session.state = .paused → before.AtStop)
    (paused : after.session.state = .paused) : after.AtStop := by
  cases effect with
  | stops hook frame published state gate place => exact ⟨hook, frame, .inl place⟩
  | enters frame isLabel state =>
    rw [state] at paused
    cases paused
  | wakes hook frame isLabel was place => exact ⟨hook, frame, .inr place⟩
  | leaves isLabel state =>
    rcases state with ⟨-, state⟩ | ⟨-, state⟩ <;> (rw [state] at paused; cases paused)
  | resumes isGrant quiet notEnd was gate same =>
    obtain ⟨hook, frame, place⟩ := invariant was
    exact ⟨hook, frame, by rw [same.place]; exact place⟩
  | terminates isLabel state =>
    rw [state] at paused
    cases paused
  | releases isLabel pending state gate samePlace =>
    obtain ⟨hook, frame, place⟩ := invariant (by rw [← state, paused])
    exact ⟨hook, frame, by rw [samePlace]; exact place⟩
  | outside quiet noGrant notEnd frame was session =>
    -- Outside of the hook calls the session was not paused.
    obtain ⟨hook, other, place⟩ := invariant (by rw [← session, paused])
    rw [was] at place
    rcases place with place | place <;> cases place
  | keeps quiet noGrant notEnd gate same =>
    obtain ⟨hook, frame, place⟩ := invariant (by rw [← same.state, paused])
    exact ⟨hook, frame, by rw [same.place]; exact place⟩

theorem Effect.stays_terminated (effect : Effect before label after)
    (alive : EntersAlive before label) (terminated : before.session.state = .terminated) :
    after.session.state = .terminated ∧ publishes label = false := by
  cases effect with
  | stops hook frame published state gate place releasing isAlive =>
    rcases isAlive with isAlive | ⟨other, isEnter⟩
    · exact absurd terminated isAlive
    · exact absurd terminated (alive other isEnter)
  | enters frame isLabel =>
    exact absurd terminated (alive frame (by rw [isLabel]))
  | wakes hook frame isLabel was place session =>
    exact ⟨by rw [session, terminated], by rw [isLabel]; rfl⟩
  | leaves isLabel state =>
    rcases state with ⟨-, state⟩ | ⟨isAlive, -⟩
    · exact ⟨state, by rw [isLabel]; rfl⟩
    · exact absurd terminated isAlive
  | resumes isGrant quiet notEnd was =>
    rw [terminated] at was
    cases was
  | terminates isLabel state => exact ⟨state, by rw [isLabel]; rfl⟩
  | releases isLabel pending state => exact ⟨by rw [state, terminated], by rw [isLabel]; rfl⟩
  | outside quiet noGrant notEnd frame was session =>
    exact ⟨by rw [session, terminated], quiet⟩
  | keeps quiet noGrant notEnd gate same => exact ⟨by rw [same.state, terminated], quiet⟩

theorem Effect.releasing_terminated (effect : Effect before label after)
    (alive : EntersAlive before label)
    (invariant : 0 < before.releasing → before.session.state = .terminated)
    (pending : 0 < after.releasing) : after.session.state = .terminated := by
  have stays (same : 0 < before.releasing) : after.session.state = .terminated :=
    (effect.stays_terminated alive (invariant same)).1
  cases effect with
  | stops hook frame published state gate place releasing => exact stays (releasing ▸ pending)
  | enters frame isLabel state gate releasing => exact stays (releasing ▸ pending)
  | wakes hook frame isLabel was place session releasing =>
    exact stays (releasing ▸ pending)
  | leaves isLabel state gate releasing => exact stays (releasing ▸ pending)
  | resumes isGrant quiet notEnd was gate same => exact stays (same.releasing ▸ pending)
  | terminates isLabel state => exact state
  | releases isLabel was => exact stays was
  | outside quiet noGrant notEnd frame was session releasing =>
    exact stays (releasing ▸ pending)
  | keeps quiet noGrant notEnd gate same => exact stays (same.releasing ▸ pending)

/-- What holds along a run in which no frame is entered in a terminated session. -/
structure Held (labels : List Label) (system : System) : Prop where
  gate : system.session.resumeGate = granted labels
  atStop : system.session.state = .paused → system.AtStop
  releasing : 0 < system.releasing → system.session.state = .terminated
  terminated : (∃ answer, (Action.terminate, answer) ∈ labels) →
    system.session.state = .terminated
  released : (∃ answer, (Action.release, answer) ∈ labels) →
    system.session.state = .terminated ∧ granted labels = true

theorem IsStart.held (isStart : IsStart system) : Held [] system := by
  obtain ⟨breakpoints, isNew⟩ := isStart.session
  refine ⟨?_, ?_, ?_, ?_, ?_⟩
  · rw [isNew]
    rfl
  · rw [isNew]
    intro paused
    cases paused
  · rw [isStart.releasing]
    intro pending
    cases pending
  · simp
  · simp

variable {answer : Bool}

theorem Effect.terminate_cases (effect : Effect before label after)
    (isLabel : label = (.terminate, answer)) : after.session.state = .terminated := by
  cases effect with
  | terminates _ state => exact state
  | stops hook frame published => rw [isLabel] at published; cases published
  | enters frame isEnter => rw [isLabel] at isEnter; cases isEnter
  | wakes hook frame isWake => rw [isLabel] at isWake; cases isWake
  | leaves isLeave => rw [isLabel] at isLeave; cases isLeave
  | resumes isGrant quiet notEnd => exact absurd isLabel (notEnd answer).1
  | releases isRelease => rw [isLabel] at isRelease; cases isRelease
  | outside quiet noGrant notEnd => exact absurd isLabel (notEnd answer).1
  | keeps quiet noGrant notEnd => exact absurd isLabel (notEnd answer).1

theorem Effect.release_cases (effect : Effect before label after)
    (isLabel : label = (.release, answer)) :
    0 < before.releasing ∧ after.session.state = before.session.state := by
  cases effect with
  | releases _ pending state => exact ⟨pending, state⟩
  | stops hook frame published => rw [isLabel] at published; cases published
  | enters frame isEnter => rw [isLabel] at isEnter; cases isEnter
  | wakes hook frame isWake => rw [isLabel] at isWake; cases isWake
  | leaves isLeave => rw [isLabel] at isLeave; cases isLeave
  | resumes isGrant quiet notEnd => exact absurd isLabel (notEnd answer).2
  | terminates isTerminate => rw [isLabel] at isTerminate; cases isTerminate
  | outside quiet noGrant notEnd => exact absurd isLabel (notEnd answer).2
  | keeps quiet noGrant notEnd => exact absurd isLabel (notEnd answer).2

theorem Held.step (held : Held labels before) (alive : EntersAlive before label)
    (step : Step options before label after) : Held (labels ++ [label]) after := by
  have effect := step.effect
  refine ⟨?_, effect.atStop held.atStop, effect.releasing_terminated alive held.releasing, ?_, ?_⟩
  · rw [effect.gate_eq, granted_append, held.gate]
  · rintro ⟨answer, member⟩
    rcases List.mem_append.mp member with earlier | now
    · exact (effect.stays_terminated alive (held.terminated ⟨answer, earlier⟩)).1
    · exact effect.terminate_cases (List.mem_singleton.mp now).symm
  · rintro ⟨answer, member⟩
    rw [granted_append]
    rcases List.mem_append.mp member with earlier | now
    · obtain ⟨terminated, wasGranted⟩ := held.released ⟨answer, earlier⟩
      obtain ⟨stays, quiet⟩ := effect.stays_terminated alive terminated
      refine ⟨stays, ?_⟩
      rw [quiet, wasGranted]
      rfl
    · have isLabel := (List.mem_singleton.mp now).symm
      obtain ⟨pending, sameState⟩ := effect.release_cases isLabel
      refine ⟨by rw [sameState, held.releasing pending], ?_⟩
      rw [isLabel]
      simp [publishes, grants]

/-- The run rule. -/
theorem Held.of_trace {start : System} (isStart : IsStart start)
    (trace : Trace (onlyWhen EntersAlive (Step options)) start labels system) :
    Held labels system := by
  induction trace with
  | nil => exact isStart.held
  | snoc _ taken held => exact held.step taken.1 taken.2

/-! ## Soundness of the session -/

/-- The emulation thread can go through its wait and out of the hook call. -/
def CanLeave (options : DebuggerSessionOptions) (system : System) : Prop :=
  ∃ woken after, Step options system (.wake, true) woken ∧ Step options woken (.leave, true) after

theorem canLeave_iff {hook : HookCall} {frame : Frame}
    (parked : system.place = .parked hook frame) :
    CanLeave options system ↔ system.session.resumeGate = true := by
  constructor
  · rintro ⟨woken, -, wakes, -⟩
    unfold Step System.perform at wakes
    simp only [parked] at wakes
    split at wakes
    · assumption
    · cases wakes
  · intro isSet
    refine ⟨{ system with place := .leaving hook frame true }, _, ?_, rfl⟩
    unfold Step System.perform
    simp only [parked, isSet, if_true]

/-- In every run in which no frame is entered once the session is terminated,
accesses succeed at stops only, a stop is left exactly after an accepted resume
or the end of a `NotifyTerminated`, and a terminated session does not stop
again. -/
theorem session_sound_when_enters_alive {start : System} (isStart : IsStart start)
    (trace : Trace (onlyWhen EntersAlive (Step options)) start labels system) :
    (∀ request, system.AtStop ∨
      system.session.access system.context request = (false, system.context)) ∧
    (∀ hook frame, system.place = .parked hook frame →
      (CanLeave options system ↔ granted labels = true) ∧
      ((∃ answer, (Action.release, answer) ∈ labels) → CanLeave options system)) ∧
    ((∃ answer, (Action.terminate, answer) ∈ labels) → system.session.state = .terminated ∧
      ∀ label after, EntersAlive system label → Step options system label after →
        after.session.state = .terminated ∧ publishes label = false) := by
  have held := Held.of_trace isStart trace
  refine ⟨?_, ?_, ?_⟩
  · intro request
    rcases system.session.access_spec system.context request with paused | refused
    · exact .inl (held.atStop paused)
    · exact .inr refused
  · intro hook frame parked
    rw [canLeave_iff parked, held.gate]
    exact ⟨Iff.rfl, fun released => (held.released released).2⟩
  · intro ended
    have terminated := held.terminated ended
    refine ⟨terminated, ?_⟩
    intro label after alive step
    exact step.effect.stays_terminated alive terminated

def defaultOptions : DebuggerSessionOptions := ⟨true, true, true⟩

def entryFrame : Frame := ⟨0, .processEntry, 0x1000, "eboot.bin"⟩

def startSystem : System where
  session := .new []
  context := ⟨fun _ => 0, 0x1000, 0, 0, 0, fun _ => (0, 0), fun _ => none⟩
  place := .between
  releasing := 0

theorem startSystem_isStart : IsStart startSystem :=
  ⟨⟨[], rfl⟩, rfl, rfl⟩

/-- The stop at the entry point can be left when a client has continued. -/
theorem session_sound_when_enters_alive_continue :
    ∃ system, system.place = .parked .enter entryFrame ∧
      CanLeave defaultOptions system := by
  let atEntry : System :=
    { startSystem with
      session := (startSystem.session.onFrameEnter defaultOptions startSystem.context entryFrame).2
      place := .parked .enter entryFrame }
  let resumed : System := { atEntry with session := atEntry.session.continue.2 }
  have first : Trace (onlyWhen EntersAlive (Step defaultOptions)) startSystem
      ([] ++ [(.frameEnter entryFrame, true)]) atEntry := by
    refine .snoc .nil ⟨?_, rfl⟩
    intro frame isEnter terminated
    cases terminated
  have trace : Trace (onlyWhen EntersAlive (Step defaultOptions)) startSystem
      ([] ++ [(.frameEnter entryFrame, true)] ++ [(.continue, true)]) resumed := by
    refine .snoc first ⟨?_, rfl⟩
    intro frame isEnter
    cases isEnter
  refine ⟨resumed, rfl, ?_⟩
  exact ((session_sound_when_enters_alive startSystem_isStart trace).2.1 .enter entryFrame
    rfl).1.mpr rfl

/-- A frame that is entered behind the end of `NotifyTerminated` brings the session back
and parks the emulation thread for good. -/
theorem enter_revives_terminated : ∃ system, Trace (Step defaultOptions) startSystem
        [(.terminate, false), (.release, false), (.frameEnter entryFrame, true)] system ∧
      system.session.state = .paused ∧
      system.place = .parked .enter entryFrame ∧
      ¬ CanLeave defaultOptions system := by
  let ended : System :=
    { startSystem with session := startSystem.session.terminate, releasing := 1 }
  let released : System :=
    { ended with session := { ended.session with resumeGate := true }, releasing := 0 }
  let revived : System :=
    { released with
      session := (released.session.onFrameEnter defaultOptions released.context entryFrame).2
      place := .parked .enter entryFrame }
  have first : Trace (Step defaultOptions) startSystem ([] ++ [(.terminate, false)]) ended :=
    .snoc .nil rfl
  have second : Trace (Step defaultOptions) startSystem
      ([] ++ [(.terminate, false)] ++ [(.release, false)]) released := .snoc first rfl
  refine ⟨revived, .snoc second rfl, rfl, rfl, ?_⟩
  have parked : revived.place = .parked .enter entryFrame := rfl
  rw [canLeave_iff parked]
  decide

end SharpEmu.Debugger
