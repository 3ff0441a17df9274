import ArrayBridge.Lifecycle.Threads
import ArrayBridge.Engine.Protocol
import Mathlib.Data.List.Basic

/-! Safety of a lifecycle that threads share.

Calls begin at any time and in any number, and at any time any of them takes a
step. What happens on the way is kept as a list of events. A lifecycle goes
through its stages in one direction only, and the stage settles which events
there were and where every thread can be, so each safety property is read off
the stage that was reached. -/

namespace ArrayBridge

namespace StartOutcome

variable {σ : Type}

/-- The phase that the first start of a lifecycle leads to. -/
def phase : StartOutcome σ → Phase
  | started _ => .ready 1
  | failed cause => .failed cause
  | panicked payload => .failed (.panicked payload.message)

/-- Why a start did not succeed. -/
def cause? : StartOutcome σ → Option InitializationError
  | started _ => none
  | failed cause => some cause
  | panicked payload => some (.panicked payload.message)

/-- The answer that a first start with this outcome gives to everyone. -/
def answer (outcome : StartOutcome σ) : Lifecycle.Answer :=
  match outcome.cause? with
  | none => .ok 1
  | some cause => .error cause

theorem answer?_phase (outcome : StartOutcome σ) :
    Lifecycle.answer? outcome.phase = some outcome.answer := by
  cases outcome <;> rfl

theorem answer_of_cause? {outcome : StartOutcome σ} {cause : InitializationError}
    (hCause : outcome.cause? = some cause) : outcome.answer = .error cause := by
  simp [answer, hCause]

theorem eq_one_of_answer {outcome : StartOutcome σ} {n : Nat} (hAnswer : .ok n = outcome.answer) :
    n = 1 ∧ outcome.cause? = none := by
  cases outcome <;> simp_all [answer, cause?]

theorem cause?_of_answer {outcome : StartOutcome σ} {cause : InitializationError}
    (hAnswer : .error cause = outcome.answer) : outcome.cause? = some cause := by
  cases outcome <;> simp_all [answer, cause?]

end StartOutcome

namespace Lifecycle

variable {σ : Type}

theorem phase_settle {l : Lifecycle σ} (hAttempts : l.attempts = 1) (outcome : StartOutcome σ) :
    (l.settle outcome).phase = outcome.phase := by
  cases outcome <;> simp [settle, StartOutcome.phase, hAttempts]

theorem attempts_settle (l : Lifecycle σ) (outcome : StartOutcome σ) :
    (l.settle outcome).attempts = l.attempts := by
  cases outcome <;> rfl

theorem hasRuntime_of_phase {l : Lifecycle σ} {outcome : StartOutcome σ}
    (hPhase : l.phase = outcome.phase) : l.hasRuntime = outcome.cause?.isNone := by
  cases outcome <;> simp [hasRuntime, hPhase, StartOutcome.phase, StartOutcome.cause?]

@[simp] theorem phase_shutdown [ForeignRuntime σ] (l : Lifecycle σ) :
    l.shutdown.2.phase = l.phase := by
  obtain ⟨phase, attempts, _ | interpreter⟩ := l <;> rfl

@[simp] theorem attempts_shutdown [ForeignRuntime σ] (l : Lifecycle σ) :
    l.shutdown.2.attempts = l.attempts := by
  obtain ⟨phase, attempts, _ | interpreter⟩ := l <;> rfl

/-- What the threads of a shared lifecycle make happen. -/
inductive Event where
  /-- The thread starts the runtime. -/
  | starts (thread : Nat)
  /-- The thread records what came of the start. -/
  | settles (thread : Nat)
  /-- The release of the thread takes effect. -/
  | closes (thread : Nat)
  /-- The thread shuts the interpreter down. -/
  | shutsDown (thread : Nat)
  deriving DecidableEq

namespace Event

def isStart : Event → Bool
  | starts _ => true
  | _ => false

def isShutdown : Event → Bool
  | shutsDown _ => true
  | _ => false

end Event

namespace Thread

/-- What the next step of a thread makes happen. -/
def event? (shared : Shared σ) (i : Nat) : Thread σ → Option Event
  | entered => some (.starts i)
  | settling _ => some (.settles i)
  | releasing => if shared.starting then none else some (.closes i)
  | closing => some (.shutsDown i)
  | _ => none

/-- A thread that is in one of the two waits. -/
def IsWaiting (thread : Thread σ) : Prop := thread = acquiring ∨ thread = releasing

/-- The release of the thread found a runtime. The thread shuts it down and
returns true. -/
def FoundRuntime (thread : Thread σ) : Prop := thread = closing ∨ thread = released true

end Thread

namespace Threads

/-- Nobody has called yet. -/
def idle : Threads σ := ⟨⟨.initial, false⟩, []⟩

/-- One more thread begins its call. -/
def call (t : Threads σ) (thread : Thread σ) : Threads σ := ⟨t.shared, t.threads ++ [thread]⟩

/-- What threads reach by calls that begin and by steps that they take, with the
events on the way. A thread that waits may take a step at any time. -/
inductive Reaches [ForeignRuntime σ] (start : Unit → StartOutcome σ) (t : Threads σ) :
    List Event → Threads σ → Prop where
  | refl : Reaches start t [] t
  | acquire {events : List Event} {u : Threads σ} (prior : Reaches start t events u) :
      Reaches start t events (u.call .acquiring)
  | release {events : List Event} {u : Threads σ} (prior : Reaches start t events u) :
      Reaches start t events (u.call .releasing)
  | step {events : List Event} {u : Threads σ} (prior : Reaches start t events u) (i : Nat)
      (thread : Thread σ) (hThread : u.threads[i]? = some thread) :
      Reaches start t (events ++ (thread.event? u.shared i).toList) (u.step start i)

end Threads

/-- How far a shared lifecycle has come. -/
inductive Stage where
  | fresh
  /-- The thread has marked the start as under way. -/
  | entered (thread : Nat)
  /-- The thread has run the start. -/
  | running (thread : Nat)
  | settled (thread : Nat)
  /-- A release has taken effect, after the given start if there was one. -/
  | closed (starter : Option Nat) (closer : Nat)

namespace Stage

variable (start : Unit → StartOutcome σ)

def phase : Stage → Phase
  | fresh | entered _ | running _ => .uninitialized
  | settled _ => (start ()).phase
  | closed _ _ => .released

def starting : Stage → Bool
  | entered _ | running _ => true
  | _ => false

def attempts : Stage → Nat
  | fresh | entered _ | closed none _ => 0
  | running _ | settled _ | closed (some _) _ => 1

def isClosed : Stage → Bool
  | closed _ _ => true
  | _ => false

/-- The events that led to the stage. -/
def events : Stage → List Event
  | fresh | entered _ => []
  | running i => [.starts i]
  | settled i => [.starts i, .settles i]
  | closed none k => [.closes k]
  | closed (some i) k => [.starts i, .settles i, .closes k]

/-- The event can happen in the stage and changes nothing about it. -/
def Absorbs : Stage → Event → Prop
  | closed _ _, .closes _ => True
  | closed _ k, .shutsDown j => j = k
  | _, _ => False

/-- A release that took effect in the stage found a runtime. -/
def HadRuntime (starter : Option Nat) : Prop :=
  starter.isSome ∧ (start ()).cause? = none

/-- Where a thread can be in the stage. -/
def Admits : Stage → Nat → Thread σ → Prop
  | closed _ closer, j, .acquiring | closed _ closer, j, .releasing => j ≠ closer
  | _, _, .acquiring | _, _, .releasing => True
  | entered i, j, .entered => j = i
  | running i, j, .settling outcome => j = i ∧ outcome = start ()
  | settled _, _, .acquired answer => answer = (start ()).answer
  | closed starter closer, j, .acquired answer =>
    j ≠ closer ∧ (answer = .error .released ∨ starter.isSome ∧ answer = (start ()).answer)
  | closed starter closer, j, .closing => j = closer ∧ HadRuntime start starter
  | closed starter closer, j, .released hadRuntime =>
    hadRuntime = true ↔ j = closer ∧ HadRuntime start starter
  | _, _, _ => False

/-- The shared state is the one of the stage. -/
structure Describes (stage : Stage) (shared : Shared σ) : Prop where
  phase : shared.lifecycle.phase = stage.phase start
  starting : shared.starting = stage.starting
  attempts : shared.lifecycle.attempts = stage.attempts

/-- A step of thread `i` that makes the event happen leads to another stage. -/
structure Leads (stage : Stage) (i : Nat) (event? : Option Event) (shared : Shared σ)
    (thread : Thread σ) (stage' : Stage) : Prop where
  describes : stage'.Describes start shared
  admits : stage'.Admits start i thread
  others : ∀ j other, j ≠ i → stage.Admits start j other → stage'.Admits start j other
  events : (stage.isClosed = false ∧ stage'.events = stage.events ++ event?.toList) ∨
    stage' = stage ∧ ∀ event ∈ event?, stage.Absorbs event

variable {start} {stage : Stage} {shared : Shared σ} {i : Nat}

/-- A step that changes neither the shared state nor what happened. -/
theorem leads_self {thread : Thread σ} (hShared : stage.Describes start shared)
    (hThread : stage.Admits start i thread) : stage.Leads start i none shared thread stage :=
  ⟨hShared, hThread, fun _ _ _ h => h, .inr ⟨rfl, by simp⟩⟩

variable [ForeignRuntime σ]

theorem leads_acquiring (hShared : stage.Describes start shared)
    (hThread : stage.Admits start i .acquiring) :
    ∃ stage' : Stage, stage.Leads start i (Thread.acquiring.event? shared i)
      (Thread.acquiring.step start shared).1 (Thread.acquiring.step start shared).2 stage' := by
  obtain ⟨hPhase, hStarting, hAttempts⟩ := id hShared
  cases stage with
  | fresh =>
    refine ⟨entered i, ?_⟩
    simp only [Thread.step, hStarting, hPhase, starting, phase, answer?, Thread.event?]
    refine ⟨⟨hPhase, rfl, hAttempts⟩, rfl, ?_, .inl ⟨rfl, rfl⟩⟩
    intro j other _ hOther
    cases other with
    | acquiring | releasing => trivial
    | entered | settling | acquired | closing | released => exact hOther.elim
  | entered k =>
    refine ⟨entered k, ?_⟩
    simp only [Thread.step, hStarting, starting, Thread.event?]
    exact leads_self hShared trivial
  | running k =>
    refine ⟨running k, ?_⟩
    simp only [Thread.step, hStarting, starting, Thread.event?]
    exact leads_self hShared trivial
  | settled k =>
    refine ⟨settled k, ?_⟩
    simp only [Thread.step, hStarting, starting, hPhase, phase, StartOutcome.answer?_phase,
      Thread.event?]
    exact leads_self hShared rfl
  | closed starter k =>
    refine ⟨closed starter k, ?_⟩
    simp only [Thread.step, hStarting, starting, hPhase, phase, answer?, Thread.event?]
    exact leads_self hShared ⟨hThread, .inl rfl⟩

theorem leads_entered (hShared : stage.Describes start shared)
    (hThread : stage.Admits start i .entered) :
    ∃ stage' : Stage, stage.Leads start i (Thread.entered.event? shared i)
      (Thread.entered.step start shared).1 (Thread.entered.step start shared).2 stage' := by
  obtain ⟨hPhase, hStarting, hAttempts⟩ := hShared
  cases stage with
  | entered k =>
    obtain rfl : i = k := hThread
    refine ⟨running i, ⟨hPhase, hStarting, ?_⟩, ⟨rfl, rfl⟩, ?_, .inl ⟨rfl, rfl⟩⟩
    · exact congrArg (· + 1) hAttempts
    · intro j other hOff hOther
      cases other with
      | entered => exact (hOff hOther).elim
      | acquiring | releasing => trivial
      | settling | acquired | closing | released => exact hOther.elim
  | fresh | running | settled | closed => exact hThread.elim

theorem leads_settling {outcome : StartOutcome σ} (hShared : stage.Describes start shared)
    (hThread : stage.Admits start i (.settling outcome)) :
    ∃ stage' : Stage, stage.Leads start i ((Thread.settling outcome).event? shared i)
      ((Thread.settling outcome).step start shared).1
      ((Thread.settling outcome).step start shared).2 stage' := by
  obtain ⟨hPhase, hStarting, hAttempts⟩ := hShared
  cases stage with
  | running k =>
    obtain ⟨rfl, rfl⟩ : i = k ∧ outcome = start () := hThread
    have hSettled := phase_settle hAttempts (start ())
    refine ⟨settled i, ⟨hSettled, rfl, ?_⟩, ?_, ?_, .inl ⟨rfl, rfl⟩⟩
    · exact (attempts_settle _ _).trans hAttempts
    · simp only [Thread.step, hSettled, StartOutcome.answer?_phase, Option.getD_some, Admits]
    · intro j other hOff hOther
      cases other with
      | settling => exact (hOff hOther.1).elim
      | acquiring | releasing => trivial
      | entered | acquired | closing | released => exact hOther.elim
  | fresh | entered | settled | closed => exact hThread.elim

/-- What a release does when nothing is under way. -/
theorem step_releasing (hStarting : shared.starting = false) :
    Thread.releasing.step start shared = (⟨shared.lifecycle.close, false⟩,
      if shared.lifecycle.hasRuntime then .closing else .released false) := by
  cases hRuntime : shared.lifecycle.hasRuntime <;> simp [Thread.step, hStarting, hRuntime]

theorem leads_releasing (hShared : stage.Describes start shared)
    (hThread : stage.Admits start i .releasing) :
    ∃ stage' : Stage, stage.Leads start i (Thread.releasing.event? shared i)
      (Thread.releasing.step start shared).1 (Thread.releasing.step start shared).2 stage' := by
  obtain ⟨hPhase, hStarting, hAttempts⟩ := id hShared
  cases stage with
  | fresh =>
    have hRuntime : shared.lifecycle.hasRuntime = false := by simp [hasRuntime, hPhase, phase]
    refine ⟨closed none i, ?_⟩
    rw [step_releasing hStarting, hRuntime, Thread.event?, hStarting]
    refine ⟨⟨rfl, rfl, hAttempts⟩, ?_, ?_, .inl ⟨rfl, rfl⟩⟩
    · simp [Admits, HadRuntime]
    · intro j other hOff hOther
      cases other with
      | acquiring | releasing => exact hOff
      | entered | settling | acquired | closing | released => exact hOther.elim
  | entered k =>
    refine ⟨entered k, ?_⟩
    simp only [Thread.step, hStarting, starting, Thread.event?]
    exact leads_self hShared trivial
  | running k =>
    refine ⟨running k, ?_⟩
    simp only [Thread.step, hStarting, starting, Thread.event?]
    exact leads_self hShared trivial
  | settled k =>
    refine ⟨closed (some k) i, ?_⟩
    rw [step_releasing hStarting, hasRuntime_of_phase hPhase, Thread.event?, hStarting]
    refine ⟨⟨rfl, rfl, hAttempts⟩, ?_, ?_, .inl ⟨rfl, rfl⟩⟩
    · cases hCause : (start ()).cause? <;> simp [Admits, HadRuntime, hCause]
    · intro j other hOff hOther
      cases other with
      | acquired => exact ⟨hOff, .inr ⟨rfl, hOther⟩⟩
      | acquiring | releasing => exact hOff
      | entered | settling | closing | released => exact hOther.elim
  | closed starter k =>
    have hRuntime : shared.lifecycle.hasRuntime = false := by simp [hasRuntime, hPhase, phase]
    refine ⟨closed starter k, ?_⟩
    rw [step_releasing hStarting, hRuntime, Thread.event?, hStarting]
    refine ⟨⟨rfl, rfl, hAttempts⟩, ?_, fun _ _ _ h => h, .inr ⟨rfl, ?_⟩⟩
    · simp [Admits, show i ≠ k from hThread]
    · simp [starting, Absorbs]

theorem leads_closing (hShared : stage.Describes start shared)
    (hThread : stage.Admits start i .closing) :
    ∃ stage' : Stage, stage.Leads start i (Thread.closing.event? shared i)
      (Thread.closing.step start shared).1 (Thread.closing.step start shared).2 stage' := by
  obtain ⟨hPhase, hStarting, hAttempts⟩ := hShared
  cases stage with
  | closed starter k =>
    refine ⟨closed starter k, ⟨?_, hStarting, ?_⟩, ?_, fun _ _ _ h => h, .inr ⟨rfl, ?_⟩⟩
    · exact (phase_shutdown _).trans hPhase
    · exact (attempts_shutdown _).trans hAttempts
    · exact iff_of_true rfl hThread
    · simpa [Thread.event?, Absorbs] using hThread.1
  | fresh | entered | running | settled => exact hThread.elim

/-- Every step that a thread takes keeps to the stages. -/
theorem leads_step {thread : Thread σ} (hShared : stage.Describes start shared)
    (hThread : stage.Admits start i thread) :
    ∃ stage' : Stage, stage.Leads start i (thread.event? shared i)
      (thread.step start shared).1 (thread.step start shared).2 stage' := by
  cases thread with
  | acquiring => exact leads_acquiring hShared hThread
  | entered => exact leads_entered hShared hThread
  | settling outcome => exact leads_settling hShared hThread
  | acquired answer => exact ⟨stage, leads_self hShared hThread⟩
  | releasing => exact leads_releasing hShared hThread
  | closing => exact leads_closing hShared hThread
  | released hadRuntime => exact ⟨stage, leads_self hShared hThread⟩

omit [ForeignRuntime σ] in
theorem Describes.phase_eq_released (h : stage.Describes start shared) :
    shared.lifecycle.phase = .released ↔ stage.isClosed := by
  rw [h.phase]
  cases stage with
  | closed starter closer => exact iff_of_true rfl rfl
  | settled =>
    cases hOutcome : start () <;> simp [Stage.phase, StartOutcome.phase, hOutcome, isClosed]
  | fresh | entered | running => simp [Stage.phase, isClosed]

theorem countP_isShutdown_events (stage : Stage) : stage.events.countP Event.isShutdown = 0 := by
  cases stage with
  | closed starter closer => cases starter <;> rfl
  | fresh | entered | running | settled => rfl

theorem countP_isStart_events (stage : Stage) :
    stage.events.countP Event.isStart = stage.attempts := by
  cases stage with
  | closed starter closer => cases starter <;> rfl
  | fresh | entered | running | settled => rfl

/-- What happened is what led to the stage and then what the stage absorbed. -/
structure Recounts (stage : Stage) (events later : List Event) : Prop where
  eq : events = stage.events ++ later
  absorbed : ∀ event ∈ later, stage.Absorbs event

namespace Recounts

variable {events later : List Event}

theorem later_eq_nil (h : stage.Recounts events later) (hOpen : stage.isClosed = false) :
    later = [] := by
  refine List.eq_nil_iff_forall_not_mem.mpr fun event hEvent => ?_
  have hAbsorbs := h.absorbed event hEvent
  cases stage with
  | closed => cases hOpen
  | fresh | entered | running | settled => exact hAbsorbs

theorem exists_closes_iff (h : stage.Recounts events later) :
    (∃ k, .closes k ∈ events) ↔ stage.isClosed := by
  rw [h.eq]
  cases hStage : stage with
  | closed starter k =>
    refine iff_of_true ⟨k, ?_⟩ rfl
    cases starter <;> simp [Stage.events]
  | fresh | entered | running | settled =>
    rw [h.later_eq_nil (by rw [hStage]; rfl)]
    simp [Stage.events, isClosed]

theorem countP_isStart (h : stage.Recounts events later) :
    events.countP Event.isStart = stage.attempts := by
  have hLater : later.countP Event.isStart = 0 := by
    refine List.countP_eq_zero.mpr fun event hEvent => ?_
    have hAbsorbs := h.absorbed event hEvent
    cases event <;> cases stage <;> first | exact hAbsorbs.elim | exact Bool.false_ne_true
  rw [h.eq, List.countP_append, hLater, countP_isStart_events, Nat.add_zero]

omit [ForeignRuntime σ] in
theorem step {stage' : Stage} {event? : Option Event} {thread : Thread σ}
    (h : stage.Recounts events later)
    (hLeads : stage.Leads start i event? shared thread stage') :
    ∃ later', stage'.Recounts (events ++ event?.toList) later' := by
  obtain ⟨hOpen, hGrows⟩ | ⟨rfl, hAbsorbs⟩ := hLeads.events
  · exact ⟨[], by rw [h.eq, h.later_eq_nil hOpen, hGrows]; simp, by simp⟩
  · refine ⟨later ++ event?.toList, by rw [h.eq, List.append_assoc], ?_⟩
    simpa [or_imp, forall_and] using ⟨h.absorbed, hAbsorbs⟩

end Recounts
end Stage

namespace Threads

variable {start : Unit → StartOutcome σ} {stage : Stage} {events : List Event}
  {t u : Threads σ}

/-- What is known of threads that share a lifecycle in a stage. -/
structure Accords (start : Unit → StartOutcome σ) (stage : Stage) (events : List Event)
    (t : Threads σ) : Prop where
  shared : stage.Describes start t.shared
  threads : ∀ (i : Nat) thread, t.threads[i]? = some thread → stage.Admits start i thread
  history : ∃ later, stage.Recounts events later
  callers : ∀ k, .closes k ∈ events → k < t.threads.length
  shutdowns : events.countP Event.isShutdown ≤ 1
  /-- While a thread has to shut down the interpreter, nobody has done so. -/
  pending : ∀ i : Nat, t.threads[i]? = some Thread.closing → events.countP Event.isShutdown = 0

theorem accords_idle : Accords start .fresh [] (idle : Threads σ) where
  shared := ⟨rfl, rfl, rfl⟩
  threads := by simp [idle]
  history := ⟨[], rfl, by simp⟩
  callers := by simp
  shutdowns := by simp
  pending := by simp

/-- The threads of a call are those that were there, and then the one that calls. -/
theorem getElem?_call {thread other : Thread σ} {i : Nat}
    (hOther : (t.call thread).threads[i]? = some other) :
    t.threads[i]? = some other ∨ i = t.threads.length ∧ other = thread := by
  rw [Threads.call, List.getElem?_append] at hOther
  split at hOther
  · exact .inl hOther
  · rename_i hBeyond
    obtain ⟨hIndex, hEq⟩ := List.getElem?_eq_some_iff.mp hOther
    simp only [List.length_singleton] at hIndex
    simp only [List.getElem_singleton] at hEq
    exact .inr ⟨by omega, hEq.symm⟩

theorem Accords.call {thread : Thread σ} (h : Accords start stage events t)
    (hThread : thread.IsWaiting) : Accords start stage events (t.call thread) where
  shared := h.shared
  threads := by
    intro i other hOther
    obtain hBefore | ⟨rfl, rfl⟩ := getElem?_call hOther
    · exact h.threads i other hBefore
    · obtain ⟨later, hHistory⟩ := h.history
      cases stage with
      | closed starter k =>
        have hCloses : Event.closes k ∈ events := by
          rw [hHistory.eq]
          cases starter <;> simp [Stage.events]
        have hNew : t.threads.length ≠ k := Nat.ne_of_gt (h.callers k hCloses)
        obtain rfl | rfl := hThread <;> exact hNew
      | fresh | entered | running | settled => obtain rfl | rfl := hThread <;> trivial
  history := h.history
  callers := by
    intro k hCloses
    simpa [Threads.call] using Nat.lt_succ_of_lt (h.callers k hCloses)
  shutdowns := h.shutdowns
  pending := by
    intro i hClosing
    obtain hBefore | ⟨-, rfl⟩ := getElem?_call hClosing
    · exact h.pending i hBefore
    · obtain hEq | hEq := hThread <;> cases hEq

/-- Only a thread that is closing shuts the interpreter down. -/
theorem countP_event? {i : Nat} (thread : Thread σ) (shared : Shared σ) :
    (thread.event? shared i).toList.countP Event.isShutdown = 0 ∨ thread = .closing := by
  cases thread with
  | closing => exact .inr rfl
  | releasing =>
    refine .inl ?_
    cases hStarting : shared.starting <;> simp [Thread.event?, hStarting, Event.isShutdown]
  | acquiring | entered | settling | acquired | released => exact .inl rfl

variable [ForeignRuntime σ]

theorem step_eq {i : Nat} {thread : Thread σ} (hThread : t.threads[i]? = some thread) :
    t.step start i = ⟨(thread.step start t.shared).1,
      t.threads.set i (thread.step start t.shared).2⟩ := by
  simp [Threads.step, hThread]

/-- A step changes nothing about the other threads. -/
theorem getElem?_step {i j : Nat} {thread other : Thread σ} (hThread : t.threads[i]? = some thread)
    (hOther : (t.step start i).threads[j]? = some other) :
    j = i ∧ other = (thread.step start t.shared).2 ∨ j ≠ i ∧ t.threads[j]? = some other := by
  rw [step_eq hThread, List.getElem?_set] at hOther
  by_cases hIndex : i = j
  · obtain ⟨-, hEq⟩ := by simpa [hIndex] using hOther
    exact .inl ⟨hIndex.symm, hEq.symm⟩
  · exact .inr ⟨fun h => hIndex h.symm, by simpa [hIndex] using hOther⟩

/-- A thread turns to closing when its release takes effect and finds a runtime. -/
theorem Accords.of_closing {i : Nat} {thread : Thread σ} (h : Accords start stage events t)
    (hThread : t.threads[i]? = some thread)
    (hClosing : (thread.step start t.shared).2 = .closing) :
    thread = .releasing ∧ stage.isClosed = false := by
  cases thread with
  | releasing =>
    refine ⟨rfl, ?_⟩
    cases stage with
    | closed starter k =>
      have hRuntime : t.shared.lifecycle.hasRuntime = false := by
        simp [hasRuntime, h.shared.phase, Stage.phase]
      rw [Stage.step_releasing h.shared.starting, hRuntime] at hClosing
      cases hClosing
    | fresh | entered | running | settled => rfl
  | acquiring =>
    simp only [Thread.step] at hClosing
    repeat' split at hClosing
    all_goals cases hClosing
  | closing => cases hClosing
  | entered | settling | acquired | released => cases hClosing

/-- Nobody has shut the interpreter down before a thread turns to closing, and while
it is closing. -/
theorem Accords.countP_of_closing_step {i j : Nat} {thread : Thread σ}
    (h : Accords start stage events t) (hThread : t.threads[i]? = some thread)
    (hClosing : (t.step start i).threads[j]? = some .closing) :
    (events ++ (thread.event? t.shared i).toList).countP Event.isShutdown = 0 := by
  obtain ⟨later, hHistory⟩ := h.history
  obtain ⟨rfl, hNow⟩ | ⟨hOff, hBefore⟩ := getElem?_step hThread hClosing
  · obtain ⟨rfl, hOpen⟩ := h.of_closing hThread hNow.symm
    have hEvents : events.countP Event.isShutdown = 0 := by
      rw [hHistory.eq, hHistory.later_eq_nil hOpen, List.append_nil,
        Stage.countP_isShutdown_events]
    obtain hEvent | hEq := countP_event? (i := j) Thread.releasing t.shared
    · rw [List.countP_append, hEvents, hEvent]
    · cases hEq
  · have hEvents := h.pending j hBefore
    obtain hEvent | rfl := countP_event? (i := i) thread t.shared
    · rw [List.countP_append, hEvents, hEvent]
    · -- Two threads that are closing would be the one release that took effect first.
      have hFirst := h.threads i _ hThread
      have hSecond := h.threads j _ hBefore
      cases stage with
      | closed starter k => exact (hOff (hSecond.1.trans hFirst.1.symm)).elim
      | fresh | entered | running | settled => exact hFirst.elim

theorem Accords.step {i : Nat} {thread : Thread σ} (h : Accords start stage events t)
    (hThread : t.threads[i]? = some thread) :
    ∃ stage', Accords start stage' (events ++ (thread.event? t.shared i).toList)
      (t.step start i) := by
  obtain ⟨stage', hLeads⟩ := Stage.leads_step h.shared (h.threads i thread hThread)
  obtain ⟨later, hHistory⟩ := h.history
  refine ⟨stage', ?_, ?_, hHistory.step hLeads, ?_, ?_, ?_⟩
  · rw [step_eq hThread]
    exact hLeads.describes
  · intro j other hOther
    obtain ⟨rfl, rfl⟩ | ⟨hOff, hBefore⟩ := getElem?_step hThread hOther
    · exact hLeads.admits
    · exact hLeads.others j other hOff (h.threads j other hBefore)
  · intro k hCloses
    have hLength : (t.step start i).threads.length = t.threads.length := by
      rw [step_eq hThread, List.length_set]
    rw [hLength]
    obtain hBefore | hNow := List.mem_append.mp hCloses
    · exact h.callers k hBefore
    · obtain rfl : k = i := by
        cases thread <;> cases hStarting : t.shared.starting <;>
          simp_all [Thread.event?]
      exact (List.getElem?_eq_some_iff.mp hThread).1
  · obtain hEvent | rfl := countP_event? (i := i) thread t.shared
    · rw [List.countP_append, hEvent, Nat.add_zero]
      exact h.shutdowns
    · rw [List.countP_append, h.pending i hThread, Nat.zero_add]
      exact Nat.le_refl 1
  · exact fun j hClosing => h.countP_of_closing_step hThread hClosing

theorem Reaches.accords (h : Reaches start idle events t) :
    ∃ stage, Accords start stage events t := by
  induction h with
  | refl => exact ⟨.fresh, accords_idle⟩
  | acquire prior ih =>
    obtain ⟨stage, hAccords⟩ := ih
    exact ⟨stage, hAccords.call (.inl rfl)⟩
  | release prior ih =>
    obtain ⟨stage, hAccords⟩ := ih
    exact ⟨stage, hAccords.call (.inr rfl)⟩
  | step prior i thread hThread ih =>
    obtain ⟨stage, hAccords⟩ := ih
    exact hAccords.step hThread

theorem Reaches.append {before after : List Event} {s : Threads σ}
    (hBefore : Reaches start s before t) (hAfter : Reaches start t after u) :
    Reaches start s (before ++ after) u := by
  induction hAfter with
  | refl => simpa using hBefore
  | acquire prior ih => exact ih.acquire
  | release prior ih => exact ih.release
  | step prior i thread hThread ih =>
    rw [← List.append_assoc]
    exact ih.step i thread hThread

/-- The calls of threads that begin after the given state, and those that have not
looked at the phase yet. -/
def IsLate (t : Threads σ) (i : Nat) : Prop :=
  t.threads.length ≤ i ∨ t.threads[i]? = some .acquiring

/-- After a release has taken effect an acquisition takes one step, and it gets
nothing. -/
theorem step_acquiring_of_released {shared : Shared σ} (hStarting : shared.starting = false)
    (hPhase : shared.lifecycle.phase = .released) :
    Thread.acquiring.step start shared = (shared, .acquired (.error .released)) := by
  simp [Thread.step, hStarting, hPhase, Lifecycle.answer?]

theorem answer_of_step {starter : Option Nat} {k i : Nat} {shared : Shared σ}
    {thread : Thread σ} {answer : Answer}
    (hShared : Stage.Describes start (.closed starter k) shared)
    (hThread : Stage.Admits start (.closed starter k) i thread)
    (hAnswer : (thread.step start shared).2 = .acquired answer) :
    thread = .acquired answer ∨ answer = .error .released := by
  cases thread with
  | acquiring =>
    rw [step_acquiring_of_released hShared.starting hShared.phase] at hAnswer
    cases hAnswer
    exact .inr rfl
  | acquired => exact .inl hAnswer
  | releasing =>
    rw [Stage.step_releasing hShared.starting] at hAnswer
    split at hAnswer <;> cases hAnswer
  | closing | released => cases hAnswer
  | entered | settling => exact hThread.elim

/-- A release that took effect is never undone, and whoever comes later gets
nothing. -/
theorem Reaches.refused {later : List Event} (hReach : Reaches start idle events t)
    (hPhase : t.shared.lifecycle.phase = .released) (hLater : Reaches start t later u) :
    u.shared.lifecycle.phase = .released ∧
      ∀ i, t.IsLate i → ∀ answer, u.threads[i]? = some (.acquired answer) →
        answer = .error .released := by
  induction hLater with
  | refl =>
    refine ⟨hPhase, fun i hLate answer hAnswer => ?_⟩
    obtain hBeyond | hAcquiring := hLate
    · rw [List.getElem?_eq_none hBeyond] at hAnswer
      cases hAnswer
    · rw [hAcquiring] at hAnswer
      cases hAnswer
  | acquire prior ih =>
    refine ⟨ih.1, fun i hLate answer hAnswer => ?_⟩
    obtain hBefore | ⟨-, hEq⟩ := getElem?_call hAnswer
    · exact ih.2 i hLate answer hBefore
    · cases hEq
  | release prior ih =>
    refine ⟨ih.1, fun i hLate answer hAnswer => ?_⟩
    obtain hBefore | ⟨-, hEq⟩ := getElem?_call hAnswer
    · exact ih.2 i hLate answer hBefore
    · cases hEq
  | step prior j thread hThread ih =>
    obtain ⟨hClosed, hLate⟩ := ih
    obtain ⟨stage, hAccords⟩ := (hReach.append prior).accords
    have hStage := hAccords.shared.phase_eq_released.mp hClosed
    cases stage with
    | closed starter k =>
      have hAdmits := hAccords.threads j thread hThread
      obtain ⟨stage', hLeads⟩ := Stage.leads_step hAccords.shared hAdmits
      obtain ⟨hOpen, -⟩ | ⟨rfl, -⟩ := hLeads.events
      · cases hOpen
      · refine ⟨by rw [step_eq hThread]; exact hLeads.describes.phase, ?_⟩
        intro i hIsLate answer hAnswer
        obtain ⟨rfl, hNow⟩ | ⟨-, hBefore⟩ := getElem?_step hThread hAnswer
        · obtain rfl | hRefused := answer_of_step hAccords.shared hAdmits hNow.symm
          · exact hLate i hIsLate answer hThread
          · exact hRefused
        · exact hLate i hIsLate answer hBefore
    | fresh | entered | running | settled => cases hStage

namespace Accords

omit [ForeignRuntime σ] in
/-- An acquisition gets the answer of the start, or it comes after a release. -/
theorem answer_eq {i : Nat} {answer : Answer} (h : Accords start stage events t)
    (hAnswer : t.threads[i]? = some (.acquired answer)) :
    answer = (start ()).answer ∨ stage.isClosed ∧ answer = .error .released := by
  have hAdmits := h.threads i _ hAnswer
  cases stage with
  | settled => exact .inl hAdmits
  | closed starter k =>
    obtain ⟨-, hRefused | ⟨-, hEq⟩⟩ := hAdmits
    · exact .inr ⟨rfl, hRefused⟩
    · exact .inl hEq
  | fresh | entered | running => exact hAdmits.elim

omit [ForeignRuntime σ] in
/-- A thread with an interpreter has it from the only start, which succeeded. -/
theorem ok_answer {i n : Nat} (h : Accords start stage events t)
    (hAnswer : t.threads[i]? = some (.acquired (.ok n))) : n = 1 ∧ (start ()).cause? = none := by
  obtain hEq | ⟨-, hRefused⟩ := h.answer_eq hAnswer
  · exact StartOutcome.eq_one_of_answer hEq
  · cases hRefused

/-- A step of any thread leaves alone those that wait for a start to end. -/
theorem getElem?_step_of_waiting {i : Nat} {thread : Thread σ}
    (hStarting : t.shared.starting = true)
    (hThread : t.threads[i]? = some thread) (hWaiting : thread.IsWaiting) (j : Nat) :
    (t.step start j).threads[i]? = some thread := by
  cases hOther : t.threads[j]? with
  | none => simpa [Threads.step, hOther] using hThread
  | some other =>
    rw [step_eq hOther, List.getElem?_set]
    by_cases hIndex : j = i
    · subst hIndex
      obtain rfl : other = thread := Option.some.inj (hOther.symm.trans hThread)
      have hLength := (List.getElem?_eq_some_iff.mp hThread).1
      obtain rfl | rfl := hWaiting <;> simp [Thread.step, hStarting, hLength]
    · simpa [hIndex] using hThread

omit [ForeignRuntime σ] in
theorem foundRuntime_closer {starter : Option Nat} {k : Nat}
    (h : Accords start (.closed starter k) events t) (hLength : k < t.threads.length)
    (hFound : Stage.HadRuntime start starter) :
    ∃ thread, t.threads[k]? = some thread ∧ thread.FoundRuntime := by
  have hThread := List.getElem?_eq_getElem hLength
  have hAdmits := h.threads k _ hThread
  refine ⟨_, hThread, ?_⟩
  cases hEq : t.threads[k] with
  | closing => exact .inl rfl
  | released hadRuntime =>
    rw [hEq] at hAdmits
    exact .inr (congrArg Thread.released (hAdmits.mpr ⟨rfl, hFound⟩))
  | acquiring | releasing =>
    rw [hEq] at hAdmits
    exact (hAdmits rfl).elim
  | acquired =>
    rw [hEq] at hAdmits
    exact (hAdmits.1 rfl).elim
  | entered | settling =>
    rw [hEq] at hAdmits
    exact hAdmits.elim

omit [ForeignRuntime σ] in
/-- A thread that found a runtime is the one whose release took effect first. -/
theorem of_foundRuntime {k : Nat} {thread : Thread σ} (h : Accords start stage events t)
    (hThread : t.threads[k]? = some thread) (hFound : thread.FoundRuntime) :
    ∃ starter, stage = .closed starter k ∧ Stage.HadRuntime start starter := by
  have hAdmits := h.threads k thread hThread
  cases stage with
  | closed starter closer =>
    obtain ⟨rfl, hHad⟩ : k = closer ∧ Stage.HadRuntime start starter := by
      obtain rfl | rfl := hFound
      · exact hAdmits
      · exact hAdmits.mp rfl
    exact ⟨starter, rfl, hHad⟩
  | fresh | entered | running | settled => obtain rfl | rfl := hFound <;> exact hAdmits.elim

end Accords

/-- The first release that took effect, behind the events of a start that was
recorded, is the one of the stage. -/
theorem eq_closer_of_first {starter : Option Nat} {k closer : Nat}
    {later before after : List Event}
    (hEvents : (Stage.closed starter closer).events ++ later = before ++ .closes k :: after)
    (hFirst : ∀ j, .closes j ∉ before) (hSettled : ∃ j, .settles j ∈ before) :
    starter.isSome ∧ k = closer := by
  obtain ⟨j, hSettled⟩ := hSettled
  cases starter with
  | none =>
    cases before with
    | nil => cases hSettled
    | cons event before =>
      obtain ⟨rfl, -⟩ := List.cons.inj hEvents
      exact (hFirst closer (List.mem_cons_self ..)).elim
  | some i =>
    match before with
    | [] => cases hSettled
    | [event] =>
      simp only [Stage.events, List.cons_append, List.nil_append, List.cons.injEq, reduceCtorEq,
        false_and, and_false] at hEvents
    | [first, second] =>
      simp only [Stage.events, List.cons_append, List.nil_append, List.cons.injEq,
        Event.closes.injEq] at hEvents
      exact ⟨rfl, hEvents.2.2.1.symm⟩
    | first :: second :: third :: before =>
      simp only [Stage.events, List.cons_append, List.cons.injEq] at hEvents
      exact (hFirst closer (by simp [hEvents.2.2.1])).elim

omit [ForeignRuntime σ] in
theorem Accords.foundRuntime_iff {k : Nat} (h : Accords start stage events t) :
    (∃ thread, t.threads[k]? = some thread ∧ thread.FoundRuntime) ↔
      (∃ before after, events = before ++ .closes k :: after ∧ (∀ j, .closes j ∉ before) ∧
        ∃ j, .settles j ∈ before) ∧ (start ()).cause? = none := by
  obtain ⟨later, hHistory⟩ := h.history
  constructor
  · rintro ⟨thread, hThread, hFound⟩
    obtain ⟨starter, rfl, hSome, hCause⟩ := h.of_foundRuntime hThread hFound
    obtain ⟨i, rfl⟩ := Option.isSome_iff_exists.mp hSome
    exact ⟨⟨[.starts i, .settles i], later, hHistory.eq, by simp, i, by simp⟩, hCause⟩
  · rintro ⟨⟨before, after, rfl, hFirst, hSettled⟩, hCause⟩
    have hClosed := hHistory.exists_closes_iff.mp ⟨k, by simp⟩
    cases stage with
    | closed starter closer =>
      obtain ⟨hSome, rfl⟩ := eq_closer_of_first hHistory.eq.symm hFirst hSettled
      exact h.foundRuntime_closer (h.callers k (by simp)) ⟨hSome, hCause⟩
    | fresh | entered | running | settled => cases hClosed

/-- After a release has taken effect an acquisition has its answer in one step. -/
theorem Reaches.getElem?_step_of_released {i : Nat} (h : Reaches start idle events t)
    (hPhase : t.shared.lifecycle.phase = .released) (hThread : t.threads[i]? = some .acquiring) :
    (t.step start i).threads[i]? = some (.acquired (.error .released)) := by
  obtain ⟨stage, hAccords⟩ := h.accords
  have hClosed := hAccords.shared.phase_eq_released.mp hPhase
  have hStarting : t.shared.starting = false := by
    rw [hAccords.shared.starting]
    cases stage with
    | closed => rfl
    | fresh | entered | running | settled => cases hClosed
  rw [step_eq hThread, step_acquiring_of_released hStarting hPhase]
  simp [(List.getElem?_eq_some_iff.mp hThread).1]

/-- The safety of a lifecycle that threads share. -/
structure Safe (start : Unit → StartOutcome σ) (events : List Event) (t : Threads σ) :
    Prop where
  /-- The runtime is started at most once, and every start is counted. -/
  starts : events.countP Event.isStart ≤ 1 ∧
    t.shared.lifecycle.attempts = events.countP Event.isStart
  /-- Whoever gets an interpreter gets the one of the same start, which succeeded. -/
  shares : ∀ i j m n : Nat, t.threads[i]? = some (.acquired (.ok m)) →
    t.threads[j]? = some (.acquired (.ok n)) → m = n ∧ (start ()).cause? = none
  /-- Until a release takes effect, the cause of a failed start is everyone's answer. -/
  fails : ∀ cause, (start ()).cause? = some cause → (∀ k, .closes k ∉ events) →
    ∀ (i : Nat) answer, t.threads[i]? = some (.acquired answer) → answer = .error cause
  /-- Nobody is told of a release that did not take effect, unless by the start. -/
  refuses : ∀ i : Nat, t.threads[i]? = some (.acquired (.error .released)) →
    (∃ k, .closes k ∈ events) ∨ (start ()).cause? = some .released
  /-- While a start is under way nobody leaves a wait. -/
  waits : t.shared.starting = true → ∀ (i : Nat) thread, t.threads[i]? = some thread →
    thread.IsWaiting → ∀ j, (t.step start j).threads[i]? = some thread
  /-- A release that took effect is never undone, and whoever looks at the phase later
  gets nothing, and at once. -/
  ends : (∃ k, .closes k ∈ events) → ∀ later u, Reaches start t later u →
    u.shared.lifecycle.phase = .released ∧ ∀ i, t.IsLate i →
      (∀ answer, u.threads[i]? = some (.acquired answer) → answer = .error .released) ∧
      (u.threads[i]? = some .acquiring →
        (u.step start i).threads[i]? = some (.acquired (.error .released)))
  /-- The release that finds a runtime is the first to take effect, after a start that
  succeeded. -/
  releases : ∀ k : Nat, (∃ thread, t.threads[k]? = some thread ∧ thread.FoundRuntime) ↔
    (∃ before after, events = before ++ .closes k :: after ∧ (∀ j, .closes j ∉ before) ∧
      ∃ j, .settles j ∈ before) ∧ (start ()).cause? = none
  /-- At most one release returns true. -/
  unique : ∀ j k : Nat, t.threads[j]? = some (.released true) →
    t.threads[k]? = some (.released true) → j = k
  /-- The interpreter is shut down at most once. -/
  shutsDown : events.countP Event.isShutdown ≤ 1

theorem Reaches.safe (h : Reaches start idle events t) : Safe start events t := by
  obtain ⟨stage, hAccords⟩ := h.accords
  obtain ⟨past, hHistory⟩ := hAccords.history
  have hStarts := hHistory.countP_isStart
  refine ⟨⟨?_, ?_⟩, ?_, ?_, ?_, ?_, ?_, fun k => hAccords.foundRuntime_iff, ?_,
    hAccords.shutdowns⟩
  · rw [hStarts]
    cases stage with
    | closed starter closer => cases starter <;> simp [Stage.attempts]
    | fresh | entered | running | settled => simp [Stage.attempts]
  · rw [hStarts, hAccords.shared.attempts]
  · intro i j m n hFirst hSecond
    obtain ⟨rfl, hCause⟩ := hAccords.ok_answer hFirst
    exact ⟨(hAccords.ok_answer hSecond).1.symm, hCause⟩
  · intro cause hCause hOpen i answer hAnswer
    obtain rfl | ⟨hClosed, -⟩ := hAccords.answer_eq hAnswer
    · exact StartOutcome.answer_of_cause? hCause
    · obtain ⟨k, hCloses⟩ := hHistory.exists_closes_iff.mpr hClosed
      exact (hOpen k hCloses).elim
  · intro i hAnswer
    obtain hEq | ⟨hClosed, -⟩ := hAccords.answer_eq hAnswer
    · exact .inr (StartOutcome.cause?_of_answer hEq)
    · exact .inl (hHistory.exists_closes_iff.mpr hClosed)
  · intro hStarting i thread hThread hWaiting j
    exact Accords.getElem?_step_of_waiting hStarting hThread hWaiting j
  · intro hCloses later u hLater
    have hPhase := hAccords.shared.phase_eq_released.mpr (hHistory.exists_closes_iff.mp hCloses)
    obtain ⟨hReleased, hRefused⟩ := h.refused hPhase hLater
    refine ⟨hReleased, fun i hLate => ⟨hRefused i hLate, fun hAcquiring => ?_⟩⟩
    exact (h.append hLater).getElem?_step_of_released hReleased hAcquiring
  · intro j k hFirst hSecond
    obtain ⟨starter, rfl, -⟩ := hAccords.of_foundRuntime hFirst (.inr rfl)
    obtain ⟨other, hEq, -⟩ := hAccords.of_foundRuntime hSecond (.inr rfl)
    exact (Stage.closed.inj hEq).2

/-- Two threads acquire at once, one of them waits for the other to run a start that
panics, and then the lifecycle is released. -/
theorem Reaches.safe_of_panic :
    ∃ t : Threads Engine,
      Reaches (fun _ => .panicked (.text "no memory")) idle
        [.starts 0, .settles 0, .closes 2] t ∧
      Safe (fun _ => .panicked (.text "no memory")) [.starts 0, .settles 0, .closes 2] t := by
  have hIdle : Reaches (fun _ => .panicked (.text "no memory")) (idle : Threads Engine) [] idle :=
    .refl
  have hReaches := ((((((hIdle.acquire.acquire.release.step 0 .acquiring rfl).step
    1 .acquiring rfl).step 0 .entered rfl).step 0 (.settling (.panicked (.text "no memory"))) rfl
    ).step 1 .acquiring rfl).step 2 .releasing rfl)
  exact ⟨_, hReaches, hReaches.safe⟩

/-- A start may itself report a release. Then an acquisition is told of a release
that never took effect. -/
theorem not_forall_released_after_close :
    ¬ ∀ (start : Unit → StartOutcome Engine) (events : List Event) (t : Threads Engine),
      Reaches start idle events t →
      ∀ i : Nat, t.threads[i]? = some (.acquired (.error .released)) →
        ∃ k, .closes k ∈ events := by
  intro hClaim
  have hIdle : Reaches (fun _ => .failed .released) (idle : Threads Engine) [] idle := .refl
  have hReaches := (((hIdle.acquire.step 0 .acquiring rfl).step 0 .entered rfl).step
    0 (.settling (.failed .released)) rfl)
  obtain ⟨k, hCloses⟩ := hClaim _ _ _ hReaches 0 rfl
  simp [Thread.event?] at hCloses

end Threads
end Lifecycle
end ArrayBridge
