import ArrayBridge.Proofs.SharedLifecycle
import ArrayBridge.StatusInterface
import Mathlib.Data.List.Induction

/-! Sequences of status-code calls.

A host makes calls one after the other on a fresh lifecycle. Two kinds of calls are about the
runtime as a whole, and two give something back to it. The latter go through the acquisition that
also starts a runtime, so they find a phase that is settled as long as another call came first.
Then they start nothing, they leave the phase as it is, and they tell from the phase whether there
is a runtime. -/

namespace ArrayBridge

namespace Lifecycle

variable {σ α : Type} {l : Lifecycle σ} {start other : Unit → StartOutcome σ}

/-- Once there is an answer in a phase, nothing is started any more. -/
theorem acquire_of_answer? {answer : Answer} (h : answer? l.phase = some answer) :
    l.acquire start = (answer, l) := by
  rw [acquire, h]

theorem exists_answer? (h : l.phase ≠ .uninitialized) : ∃ answer, answer? l.phase = some answer := by
  cases hPhase : l.phase with
  | uninitialized => exact absurd hPhase h
  | ready n => exact ⟨_, rfl⟩
  | failed cause => exact ⟨_, rfl⟩
  | released => exact ⟨_, rfl⟩

/-- An acquisition succeeds if, and only if, there is a runtime. -/
theorem isOk_answer?_iff {answer : Answer} (h : answer? l.phase = some answer) :
    answer.isOk = l.hasRuntime := by
  rw [hasRuntime]
  cases hPhase : l.phase <;> rw [hPhase] at h <;> cases h <;> rfl

theorem hasRuntime_congr {next : Lifecycle σ} (h : next.phase = l.phase) :
    next.hasRuntime = l.hasRuntime := by
  rw [hasRuntime, h, hasRuntime]

/-- The answer of an acquisition is the one that everyone gets afterwards. -/
theorem answer?_acquire (start : Unit → StartOutcome σ) (l : Lifecycle σ) :
    answer? (l.acquire start).2.phase = some (l.acquire start).1 := by
  rw [acquire]
  cases hAnswer : answer? l.phase with
  | some answer => exact hAnswer
  | none =>
      dsimp only
      cases start () <;> rfl

@[simp] theorem phase_onInterpreter (op : InterpreterOp σ α) (l : Lifecycle σ) :
    (l.onInterpreter op).2.phase = l.phase := by
  obtain ⟨phase, attempts, _ | interpreter⟩ := l <;> rfl

@[simp] theorem attempts_onInterpreter (op : InterpreterOp σ α) (l : Lifecycle σ) :
    (l.onInterpreter op).2.attempts = l.attempts := by
  obtain ⟨phase, attempts, _ | interpreter⟩ := l <;> rfl

end Lifecycle

namespace StatusInterface

open Lifecycle

/-- A call of a host. -/
inductive Call where
  | acquire
  | release
  | free (handle : UInt64) (address : Nat)
  | disposeIterator (handle : UInt64)
  deriving DecidableEq, Inhabited

/-- Whether a call gives something back to the runtime. -/
def Call.givesBack : Call → Bool
  | .acquire | .release => false
  | .free _ _ | .disposeIterator _ => true

/-- Calls with their codes. -/
abbrev Transcript := List (Call × Int)

/-- An acquisition has succeeded, and no release has come after it. -/
def Transcript.IsUp (t : Transcript) : Prop :=
  ∃ before after, t = before ++ (.acquire, 0) :: after ∧ ∀ entry ∈ after, entry.1 ≠ .release

variable {σ : Type} [ForeignRuntime σ] {start other : Unit → StartOutcome σ} {l : Lifecycle σ}

/-- The code of a call, and the lifecycle after it. -/
def perform (start : Unit → StartOutcome σ) : Call → Lifecycle σ → Int × Lifecycle σ
  | .acquire => StatusInterface.acquire start
  | .release => StatusInterface.release
  | .free handle address => StatusInterface.free start handle address
  | .disposeIterator handle => StatusInterface.disposeIterator start handle

/-- Adds a call to a transcript. -/
def record (start : Unit → StartOutcome σ) (state : Transcript × Lifecycle σ) (call : Call) :
    Transcript × Lifecycle σ :=
  let (code, l) := perform start call state.2
  (state.1 ++ [(call, code)], l)

/-- The transcript of calls on a fresh lifecycle, and the lifecycle after them. -/
def run (start : Unit → StartOutcome σ) (calls : List Call) : Transcript × Lifecycle σ :=
  calls.foldl (record start) ([], .initial)

section Transcripts

variable {t : Transcript} {call : Call} {code : Int}

/-- The last call decides, unless it neither acquires nor releases. -/
theorem isUp_append_iff : Transcript.IsUp (t ++ [(call, code)]) ↔
    call = .acquire ∧ code = 0 ∨ call ≠ .release ∧ Transcript.IsUp t := by
  constructor
  · rintro ⟨before, after, hSplit, hNone⟩
    rcases List.eq_nil_or_concat after with rfl | ⟨after, last, rfl⟩
    · have hLast := (List.append_inj' hSplit rfl).2
      cases hLast
      exact .inl ⟨rfl, rfl⟩
    · rw [List.concat_eq_append, ← List.cons_append, ← List.append_assoc] at hSplit
      obtain ⟨rfl, hLast⟩ := List.append_inj' hSplit rfl
      cases hLast
      rw [List.concat_eq_append] at hNone
      refine .inr ⟨hNone (call, code) (by simp), before, after, rfl, fun entry hEntry => ?_⟩
      exact hNone entry (List.mem_append_left _ hEntry)
  · rintro (⟨rfl, rfl⟩ | ⟨hOther, before, after, rfl, hNone⟩)
    · exact ⟨t, [], rfl, by simp⟩
    · refine ⟨before, after ++ [(call, code)], by simp, fun entry hEntry => ?_⟩
      rcases List.mem_append.mp hEntry with hOld | hLast
      · exact hNone entry hOld
      · rw [List.mem_singleton.mp hLast]
        exact hOther

end Transcripts

section Calls

/-- What a call leaves of the phase: it starts nothing and changes nothing about it, and if there
is no runtime its code says so. -/
structure Leaves (start : Unit → StartOutcome σ) (call : Call) (l : Lifecycle σ) : Prop where
  phase_eq : (perform start call l).2.phase = l.phase
  attempts_eq : (perform start call l).2.attempts = l.attempts
  /-- No other start would make a difference. -/
  start_eq : ∀ other, perform other call l = perform start call l
  code_eq : l.hasRuntime = false → (perform start call l).1 = notRunning

omit [ForeignRuntime σ] in
theorem withRuntime_error {op : InterpreterOp σ Int} {cause : InitializationError}
    (h : answer? l.phase = some (.error cause)) : withRuntime start op l = (notRunning, l) := by
  rw [withRuntime, acquire_of_answer? h]

omit [ForeignRuntime σ] in
/-- Only the acquisition is about the phase. -/
theorem phase_withRuntime (start : Unit → StartOutcome σ) (op : InterpreterOp σ Int)
    (l : Lifecycle σ) :
    (withRuntime start op l).2.phase = (l.acquire start).2.phase ∧
      (withRuntime start op l).2.attempts = (l.acquire start).2.attempts := by
  rw [withRuntime]
  generalize l.acquire start = acquired
  obtain ⟨_ | n, next⟩ := acquired
  · exact ⟨rfl, rfl⟩
  · have hPhase := phase_onInterpreter op next
    have hAttempts := attempts_onInterpreter op next
    dsimp only
    generalize next.onInterpreter op = result at hPhase hAttempts ⊢
    split <;> exact ⟨hPhase, hAttempts⟩

theorem leaves_of_withRuntime {call : Call} (op : InterpreterOp σ Int)
    (hPerform : ∀ start : Unit → StartOutcome σ, perform start call l = withRuntime start op l)
    (h : l.phase ≠ .uninitialized) : Leaves start call l := by
  obtain ⟨answer, hAnswer⟩ := exists_answer? h
  have hRuntime := isOk_answer?_iff hAnswer
  cases answer with
  | error cause =>
      have hRun (start : Unit → StartOutcome σ) : perform start call l = (notRunning, l) := by
        rw [hPerform, withRuntime_error hAnswer]
      constructor
      · rw [hRun]
      · rw [hRun]
      · exact fun other => (hRun other).trans (hRun start).symm
      · exact fun _ => by rw [hRun]
  | ok n =>
      obtain ⟨hPhase, hAttempts⟩ := phase_withRuntime start op l
      rw [acquire_of_answer? hAnswer] at hPhase hAttempts
      constructor
      · rw [hPerform, hPhase]
      · rw [hPerform, hAttempts]
      · intro other
        rw [hPerform, hPerform, withRuntime, withRuntime, acquire_of_answer? hAnswer,
          acquire_of_answer? hAnswer]
      · intro hNone
        rw [← hRuntime] at hNone
        cases hNone

/-- Giving something back does not touch a phase that is settled. -/
theorem leaves_of_givesBack {call : Call} (hCall : call.givesBack = true)
    (h : l.phase ≠ .uninitialized) : Leaves start call l := by
  cases call with
  | acquire => cases hCall
  | release => cases hCall
  | free handle address => exact leaves_of_withRuntime _ (fun _ => rfl) h
  | disposeIterator handle => exact leaves_of_withRuntime _ (fun _ => rfl) h

theorem snd_perform_acquire (l : Lifecycle σ) :
    (perform start .acquire l).2 = (l.acquire start).2 := by
  change (StatusInterface.acquire start l).2 = _
  rw [StatusInterface.acquire]
  generalize l.acquire start = acquired
  obtain ⟨_ | n, next⟩ := acquired <;> rfl

/-- An acquisition says whether there is a runtime after it. -/
theorem fst_perform_acquire (l : Lifecycle σ) :
    (perform start .acquire l).1 = 0 ↔ (perform start .acquire l).2.hasRuntime = true := by
  rw [snd_perform_acquire, ← isOk_answer?_iff (answer?_acquire start l)]
  change (StatusInterface.acquire start l).1 = 0 ↔ _
  rw [StatusInterface.acquire]
  generalize l.acquire start = acquired
  obtain ⟨_ | n, next⟩ := acquired <;> simp [Except.isOk, Except.toBool]

theorem phase_perform_release (l : Lifecycle σ) :
    (perform start .release l).2.phase = .released := by
  change (StatusInterface.release l).2.phase = _
  rw [StatusInterface.release, Lifecycle.release]
  cases l.hasRuntime with
  | true => exact phase_shutdown l.close
  | false => rfl

/-- After a call of any kind the phase is settled. -/
theorem phase_perform_ne (call : Call) (l : Lifecycle σ) :
    (perform start call l).2.phase ≠ .uninitialized := by
  have hAcquired : (l.acquire start).2.phase ≠ .uninitialized := fun hNot => by
    have hAnswer := answer?_acquire start l
    rw [hNot] at hAnswer
    cases hAnswer
  have hUsed (op : InterpreterOp σ Int) : (withRuntime start op l).2.phase ≠ .uninitialized := by
    rw [(phase_withRuntime start op l).1]
    exact hAcquired
  cases call with
  | acquire =>
      rw [snd_perform_acquire]
      exact hAcquired
  | release =>
      rw [phase_perform_release]
      exact Phase.noConfusion
  | free handle address => exact hUsed _
  | disposeIterator handle => exact hUsed _

end Calls

section Runs

variable {first call : Call} {calls : List Call}

theorem run_append (calls : List Call) (call : Call) :
    run start (calls ++ [call]) = record start (run start calls) call := by
  rw [run, List.foldl_append, ← run]
  rfl

theorem phase_run_ne (start : Unit → StartOutcome σ) (first : Call) (rest : List Call) :
    (run start (first :: rest)).2.phase ≠ .uninitialized := by
  rcases List.eq_nil_or_concat (first :: rest) with hNil | ⟨calls, last, hSplit⟩
  · cases hNil
  · rw [hSplit, List.concat_eq_append, run_append]
    exact phase_perform_ne last _

/-- A transcript that begins with an acquisition or a release says whether there is a runtime. -/
theorem hasRuntime_run_iff (hFirst : first.givesBack = false) (rest : List Call) :
    (run start (first :: rest)).2.hasRuntime = true ↔
      Transcript.IsUp (run start (first :: rest)).1 := by
  induction rest using List.reverseRecOn with
  | nil =>
      change (perform start first .initial).2.hasRuntime = true ↔
        Transcript.IsUp ([] ++ [(first, (perform start first .initial).1)])
      have hNone : ¬ Transcript.IsUp [] := by simp [Transcript.IsUp]
      rw [isUp_append_iff]
      cases first with
      | acquire => simp [fst_perform_acquire, hNone]
      | release => simp [hasRuntime, phase_perform_release]
      | free => cases hFirst
      | disposeIterator => cases hFirst
  | append_singleton rest call ih =>
      have hPhase := phase_run_ne start first rest
      rw [← List.cons_append, run_append]
      generalize run start (first :: rest) = state at ih hPhase ⊢
      obtain ⟨t, l⟩ := state
      dsimp only at ih hPhase
      change (perform start call l).2.hasRuntime = true ↔
        Transcript.IsUp (t ++ [(call, (perform start call l).1)])
      rw [isUp_append_iff, ← ih]
      cases call with
      | acquire =>
          obtain ⟨answer, hAnswer⟩ := exists_answer? hPhase
          rw [fst_perform_acquire, snd_perform_acquire, acquire_of_answer? hAnswer]
          simp
      | release =>
          have hNone : (perform start .release l).2.hasRuntime = false := by
            rw [hasRuntime, phase_perform_release]
          simp [hNone]
      | free handle address =>
          have hLeaves : Leaves start (.free handle address) l := leaves_of_givesBack rfl hPhase
          rw [hasRuntime_congr hLeaves.phase_eq]
          simp
      | disposeIterator handle =>
          have hLeaves : Leaves start (.disposeIterator handle) l := leaves_of_givesBack rfl hPhase
          rw [hasRuntime_congr hLeaves.phase_eq]
          simp

/-- Whatever a host called before, to give something back starts no runtime and does not change the
phase. The code says that no runtime is there unless one was acquired and not released since. The
calls before must not have given something back to a lifecycle that was still fresh. -/
theorem leaves_of_run (first : Call) (rest : List Call) (hCall : call.givesBack = true) :
    Leaves start call (run start (first :: rest)).2 ∧
      (first.givesBack = false → ¬ Transcript.IsUp (run start (first :: rest)).1 →
        (perform start call (run start (first :: rest)).2).1 = notRunning) := by
  have hLeaves : Leaves start call (run start (first :: rest)).2 :=
    leaves_of_givesBack hCall (phase_run_ne start first rest)
  refine ⟨hLeaves, fun hFirst hDown => hLeaves.code_eq ?_⟩
  rw [← hasRuntime_run_iff hFirst] at hDown
  exact Bool.eq_false_iff.mpr hDown

end Runs

/-- Starts an engine that needs nothing from its environment. -/
def startBuiltIn : Unit → StartOutcome Engine := fun _ =>
  startWith ⟨fun _ => true, fun _ => true, fun _ => .ok "", fun _ => true, none⟩ ⟨0⟩ .initial

/-- The runtime was acquired, released, and asked for a buffer before an iterator is disposed. -/
theorem leaves_of_release :
    (run startBuiltIn [.acquire, .release, .free 0 0]).1
        = [(.acquire, 0), (.release, 1), (.free 0 0, notRunning)] ∧
      Leaves startBuiltIn (.disposeIterator 0)
        (run startBuiltIn [.acquire, .release, .free 0 0]).2 ∧
      (perform startBuiltIn (.disposeIterator 0)
        (run startBuiltIn [.acquire, .release, .free 0 0]).2).1 = notRunning := by
  have hLaw : Leaves startBuiltIn (.disposeIterator 0) _ ∧ _ :=
    leaves_of_run .acquire [.release, .free 0 0] rfl
  have hRun : (run startBuiltIn [.acquire, .release, .free 0 0]).1
      = [(.acquire, 0), (.release, 1)] ++ [(.free 0 0, notRunning)] := rfl
  have hDown : ¬ Transcript.IsUp (run startBuiltIn [.acquire, .release, .free 0 0]).1 := by
    rw [hRun, isUp_append_iff, ← List.singleton_append, isUp_append_iff]
    simp
  exact ⟨hRun, hLaw.1, hLaw.2 rfl hDown⟩

/-- A fresh lifecycle starts its runtime to free a buffer, and then nothing is known of it. -/
theorem not_leaves_of_fresh :
    (perform startBuiltIn (.free 0 0) .initial).1 = invalidHandle ∧ invalidHandle ≠ notRunning ∧
      (perform startBuiltIn (.free 0 0) .initial).2.attempts = 1 ∧
      (perform startBuiltIn (.free 0 0) .initial).2.phase = .ready 1 :=
  ⟨rfl, by decide, rfl, rfl⟩

end StatusInterface

end ArrayBridge
