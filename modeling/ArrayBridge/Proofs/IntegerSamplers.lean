import ArrayBridge.Proofs.SampledResults

/-! Samplers of integers.

A range is given by two bounds, or by the upper one alone. An empty range is refused for its value,
before anything else is looked at. From any other range every value that is drawn lies within it,
whatever the state of the generator is, up to the range of all integers. -/

namespace ArrayBridge.Engine

open Operation Outcome Generator

variable {engine : Engine} {b : CallBindings} {op : NativeOp} {implicitLow low high : Int64}
  {shape? : Option Shape} {p : Int64 → Prop}

/-- The bounds of a range: both are arguments, or the only argument is the upper one. -/
inductive Ranges (engine : Engine) (b : CallBindings) (implicitLow : Int64) : Int64 → Int64 → Prop
  | both {x y : ObjectId} {low high : Int64} (hFirst : b.required "low" = .ok x)
      (hLow : engine.integer x = .ok low) (hSecond : engine.given (b.get? "high") = some y)
      (hHigh : engine.integer y = .ok high) : Ranges engine b implicitLow low high
  | upper {x : ObjectId} {high : Int64} (hFirst : b.required "low" = .ok x)
      (hHigh : engine.integer x = .ok high) (hSecond : engine.given (b.get? "high") = none) :
      Ranges engine b implicitLow implicitLow high

theorem Ranges.integerBounds_eq (h : engine.Ranges b implicitLow low high) :
    engine.integerBounds b implicitLow = .ok (low, high) := by
  cases h with
  | both hFirst hLow hSecond hHigh =>
      rw [integerBounds, hFirst, ok_bind, hLow, ok_bind, hSecond]
      dsimp only
      rw [hHigh]
      rfl
  | upper hFirst hHigh hSecond =>
      rw [integerBounds, hFirst, ok_bind, hHigh, ok_bind, hSecond]
      rfl

/-- A call draws integers with a property, as many as the size asks for, unless the size cannot be
allocated, which is no fault of a value. -/
structure DrawsIntegers (engine : Engine) (op : NativeOp) (shape? : Option Shape) (p : Int64 → Prop) :
    Prop where
  drawn : AllocatableSize shape? → ∃ object buffers generator values,
    engine.Draws op object buffers generator ∧ object.HoldsDrawn buffers .int64 shape? values ∧
      values.length = sampleCount shape? ∧ ∀ value ∈ values, ∃ i, value = .int i ∧ p i
  refused : ¬ AllocatableSize shape? →
    ∃ e, op.perform engine = (.error e, engine) ∧ e.kind ≠ .valueError

theorem DrawsIntegers.not_valueError (h : engine.DrawsIntegers op shape? p) {e : Exception}
    (hError : (op.perform engine).1 = .error e) : e.kind ≠ .valueError := by
  by_cases hSize : AllocatableSize shape?
  · obtain ⟨object, buffers, generator, values, hDraws, -⟩ := h.drawn hSize
    rw [hDraws] at hError
    cases hError
  · obtain ⟨refusal, hRefused, hKind⟩ := h.refused hSize
    rw [hRefused] at hError
    cases hError
    exact hKind

/-- Only what a call does matters. -/
theorem DrawsIntegers.of_perform_eq {other : NativeOp} (h : engine.DrawsIntegers other shape? p)
    (hRun : op.perform engine = other.perform engine) : engine.DrawsIntegers op shape? p where
  drawn hSize := by
    obtain ⟨object, buffers, generator, values, hDraws, hRest⟩ := h.drawn hSize
    exact ⟨object, buffers, generator, values, hRun.trans hDraws, hRest⟩
  refused hSize := by
    obtain ⟨e, hRefused, hKind⟩ := h.refused hSize
    exact ⟨e, hRun.trans hRefused, hKind⟩

/-- Integers between two bounds. -/
theorem drawsIntegers_sample (hOrder : low ≤ high)
    (hChecked : ∀ shape, shape? = some shape → ∃ count, shape.checkedSize = .ok count) :
    engine.DrawsIntegers (sample .int64 (integerSampler low high .int64) shape?) shape?
      fun i => low ≤ i ∧ i ≤ high where
  drawn hSize := by
    obtain ⟨object, buffers, hDraws, hHolds⟩ :=
      exists_draws_sample engine .int64 (integerSampler low high .int64) hSize
    refine ⟨object, buffers, _, _, hDraws, hHolds, length_sampled _ _ _ _, ?_⟩
    refine forall_mem_sampled (fun g => ⟨_, rfl, integer_mem hOrder g⟩) ?_ _ _
    rintro _ ⟨i, rfl, hRange⟩
    exact ⟨i, rfl, hRange⟩
  refused hSize := sample_refuses hChecked hSize

theorem checked_of_size? (h : engine.size? b = .ok shape?) (shape : Shape) (hSome : shape? = some shape) :
    ∃ count, shape.checkedSize = .ok count := by
  subst hSome
  exact checkedSize_of_size? h

/-- The integers below an upper bound go up to the one before it. -/
theorem le_sub_one_iff (hOrder : low < high) (i : Int64) : i ≤ high - 1 ↔ i < high := by
  rw [Int64.lt_iff_toInt_lt] at hOrder
  have hLow := low.le_toInt
  have hLast : (high - 1).toInt = high.toInt - 1 := by
    have hHigh := high.toInt_lt
    rw [Int64.toInt_sub, Int64.toInt_one]
    exact Int.bmod_eq_of_le (by omega) (by omega)
  rw [Int64.le_iff_toInt_le, Int64.lt_iff_toInt_lt, hLast]
  omega

/-- The default type is that of the integers. -/
theorem randintOf_of_lt (hRange : engine.Ranges b 0 low high) (hOrder : low < high)
    (hType : engine.dtype? (b.get? "dtype") = .ok none) :
    engine.randintOf b
      = liftM (engine.size? b) >>= sample .int64 (integerSampler low (high - 1) .int64) := by
  rw [randintOf, hRange.integerBounds_eq, bind_ok]
  dsimp only
  rw [if_neg (Int64.not_le.mpr hOrder), hType, bind_ok]
  dsimp only [Option.getD_none]
  rw [if_neg (by decide)]

theorem drawsIntegers_randintOf (hRange : engine.Ranges b 0 low high) (hOrder : low < high)
    (hType : engine.dtype? (b.get? "dtype") = .ok none) (hSize : engine.size? b = .ok shape?) :
    engine.DrawsIntegers (engine.randintOf b) shape? fun i => low ≤ i ∧ i < high := by
  rw [randintOf_of_lt hRange hOrder hType, hSize, bind_ok]
  simp only [← le_sub_one_iff hOrder]
  exact drawsIntegers_sample ((le_sub_one_iff hOrder low).mpr hOrder) (checked_of_size? hSize)

theorem randintOf_of_empty (hRange : engine.Ranges b 0 low high) (hEmpty : high ≤ low) :
    (engine.randintOf b).perform engine = (.error .emptyHalfOpenRange, engine) := by
  rw [randintOf, hRange.integerBounds_eq, bind_ok]
  dsimp only
  rw [if_pos hEmpty]
  rfl

theorem randomIntegersOf_of_le (hRange : engine.Ranges b 1 low high) (hOrder : low ≤ high) :
    engine.randomIntegersOf b
      = liftM (engine.size? b) >>= sample .int64 (integerSampler low high .int64) := by
  rw [randomIntegersOf, hRange.integerBounds_eq, bind_ok]
  dsimp only
  rw [if_neg (Int64.not_lt.mpr hOrder)]

theorem drawsIntegers_randomIntegersOf (hRange : engine.Ranges b 1 low high) (hOrder : low ≤ high)
    (hSize : engine.size? b = .ok shape?) :
    engine.DrawsIntegers (engine.randomIntegersOf b) shape? fun i => low ≤ i ∧ i ≤ high := by
  rw [randomIntegersOf_of_le hRange hOrder, hSize, bind_ok]
  exact drawsIntegers_sample hOrder (checked_of_size? hSize)

theorem randomIntegersOf_of_empty (hRange : engine.Ranges b 1 low high) (hEmpty : high < low) :
    (engine.randomIntegersOf b).perform engine = (.error .emptyClosedRange, engine) := by
  rw [randomIntegersOf, hRange.integerBounds_eq, bind_ok]
  dsimp only
  rw [if_pos hEmpty]
  rfl

/-- A call that refuses an empty range for its value refuses nothing else for a value. -/
theorem valueError_iff {empty : Prop} {e : Exception}
    (hEmpty : empty → op.perform engine = (.error e, engine)) (hKind : e.kind = .valueError)
    (hOther : ¬ empty → engine.DrawsIntegers op shape? p) :
    (∃ refusal, (op.perform engine).1 = .error refusal ∧ refusal.kind = .valueError) ↔ empty := by
  constructor
  · rintro ⟨refusal, hError, hRefusal⟩
    by_contra hSome
    exact (hOther hSome).not_valueError hError hRefusal
  · intro h
    exact ⟨e, by rw [hEmpty h], hKind⟩

/-- From the half-open range up to, but not including, its upper bound every value that is drawn lies
in the range, and so it is for the closed range, up to that of all integers. An empty range is refused
for its value before the type and the size are read. With valid ones that is the only refusal of this
kind, and a size that is none is refused as such. A single bound is the upper one of a range from zero,
and of a closed one from one. -/
theorem integerSampler_law (engine : Engine) (id : ObjectId) (positional : List ObjectId)
    (keywords : List (String × ObjectId)) (b : CallBindings) (low high : Int64) :
    (engine.Calls id positional keywords (.random .randint) b → engine.Ranges b 0 low high →
      (high ≤ low → (call id positional keywords).perform engine
        = (.error .emptyHalfOpenRange, engine)) ∧
      (engine.dtype? (b.get? "dtype") = .ok none →
        (low < high → ∀ e, engine.size? b = .error e →
          (call id positional keywords).perform engine = (.error e, engine)) ∧
        ∀ shape?, engine.size? b = .ok shape? →
          (low < high → engine.DrawsIntegers (call id positional keywords) shape?
            fun i => low ≤ i ∧ i < high) ∧
          ((∃ e, ((call id positional keywords).perform engine).1 = .error e ∧
            e.kind = .valueError) ↔ high ≤ low))) ∧
    (engine.Calls id positional keywords (.random .randomIntegers) b → engine.Ranges b 1 low high →
      (high < low → (call id positional keywords).perform engine
        = (.error .emptyClosedRange, engine)) ∧
      (low ≤ high → ∀ e, engine.size? b = .error e →
        (call id positional keywords).perform engine = (.error e, engine)) ∧
      ∀ shape?, engine.size? b = .ok shape? →
        (low ≤ high → engine.DrawsIntegers (call id positional keywords) shape?
          fun i => low ≤ i ∧ i ≤ high) ∧
        ((∃ e, ((call id positional keywords).perform engine).1 = .error e ∧
          e.kind = .valueError) ↔ high < low)) := by
  constructor
  · intro hCalls hRange
    have hRun := hCalls.perform_call
    have hEmpty (h : high ≤ low) := hRun.trans (randintOf_of_empty hRange h)
    refine ⟨hEmpty, fun hType => ⟨fun h e hSize => ?_, fun shape? hSize => ?_⟩⟩
    · rw [hRun, namedCall, randomCall, randintOf_of_lt hRange h hType, hSize, bind_error]
      rfl
    · have hDrawn (h : low < high) : engine.DrawsIntegers (call id positional keywords) shape?
          fun i => low ≤ i ∧ i < high :=
        (drawsIntegers_randintOf hRange h hType hSize).of_perform_eq hRun
      exact ⟨hDrawn, valueError_iff hEmpty rfl fun h => hDrawn (Int64.not_le.mp h)⟩
  · intro hCalls hRange
    have hRun := hCalls.perform_call
    have hEmpty (h : high < low) := hRun.trans (randomIntegersOf_of_empty hRange h)
    refine ⟨hEmpty, fun h e hSize => ?_, fun shape? hSize => ?_⟩
    · rw [hRun, namedCall, randomCall, randomIntegersOf_of_le hRange h, hSize, bind_error]
      rfl
    · have hDrawn (h : low ≤ high) : engine.DrawsIntegers (call id positional keywords) shape?
          fun i => low ≤ i ∧ i ≤ high :=
        (drawsIntegers_randomIntegersOf hRange h hSize).of_perform_eq hRun
      exact ⟨hDrawn, valueError_iff hEmpty rfl fun h => hDrawn (Int64.not_lt.mp h)⟩

/-- Samplers, the least and the greatest integer, and the size of two rows of two. -/
def withExtremes : Engine :=
  ofObjects [.none, .native (.random .randint), .native (.random .randomIntegers),
    .int Int64.minValue, .int Int64.maxValue, .int 2, .tuple [⟨5, 0⟩, ⟨5, 0⟩]] (.ofValues .int64 #[])

/-- Integers from the full range, as a square, and from the range of one integer, as a number. -/
theorem integerSampler_law_full :
    (∃ object buffers generator values,
      withExtremes.Draws (call ⟨2, 0⟩ [⟨3, 0⟩, ⟨4, 0⟩, ⟨6, 0⟩] []) object buffers generator ∧
        object.HoldsDrawn buffers .int64 (some [2, 2]) values ∧ values.length = 4) ∧
      (call ⟨1, 0⟩ [⟨4, 0⟩, ⟨3, 0⟩] []).perform withExtremes = (.error .emptyHalfOpenRange, withExtremes) := by
  obtain ⟨-, hClosed⟩ := integerSampler_law withExtremes ⟨2, 0⟩ [⟨3, 0⟩, ⟨4, 0⟩, ⟨6, 0⟩] []
    ⟨"random_integers", [("low", some ⟨3, 0⟩), ("high", some ⟨4, 0⟩), ("size", some ⟨6, 0⟩)]⟩
    Int64.minValue Int64.maxValue
  obtain ⟨hHalfOpen, -⟩ := integerSampler_law withExtremes ⟨1, 0⟩ [⟨4, 0⟩, ⟨3, 0⟩] []
    ⟨"randint", [("low", some ⟨4, 0⟩), ("high", some ⟨3, 0⟩), ("size", none), ("dtype", none)]⟩
    Int64.maxValue Int64.minValue
  constructor
  · obtain ⟨-, -, hSized⟩ := hClosed ⟨rfl, _, rfl, rfl⟩ (.both rfl rfl rfl rfl)
    obtain ⟨hDraws, -⟩ := hSized (some [2, 2]) rfl
    obtain ⟨object, buffers, generator, values, hDrawn, hHolds, hLength, -⟩ :=
      (hDraws (by decide)).drawn fun shape hShape => by cases hShape; exact ⟨rfl, rfl, rfl⟩
    exact ⟨object, buffers, generator, values, hDrawn, hHolds, hLength⟩
  · exact (hHalfOpen ⟨rfl, _, rfl, rfl⟩ (.both rfl rfl rfl rfl)).1 (by decide)

end ArrayBridge.Engine
