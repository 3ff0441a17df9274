import ArrayBridge.Proofs.SamplerArguments

/-! Arrays of draws.

A sampler that is called without a size draws a number and stores it. That takes nothing from what its
arguments stand for, so it can be called again. A sampler that is called with a size draws the numbers
that so many calls without a size would draw, in row-major order, and leaves the generator where they
leave it. -/

namespace ArrayBridge

open Operation Outcome

namespace Engine

open Generator

variable {engine earlier later : Engine} {id : ObjectId} {b : CallBindings} {f : RandomFunction}
  {dtype : DType} {sampler : Sampler} {shape : Shape} {shape? : Option Shape} {count : Nat}

section Repeating

variable {op asked single : NativeOp}

/-- Calls that draw numbers, each in the state that the one before it left. -/
inductive DrawsEach (op : NativeOp) : Engine → List Scalar → Engine → Prop
  | done (engine : Engine) : DrawsEach op engine [] engine
  | next {engine last : Engine} {value : Scalar} {values : List Scalar} {generator : Generator}
      (hDraws : engine.Draws op (.ofScalar value) engine.buffers generator)
      (hRest : DrawsEach op
        { engine with heap := (engine.heap.allocate (.ofScalar value)).2, generator } values last) :
      DrawsEach op engine (value :: values) last

/-- An operation that draws as long as its arguments are there draws one number after the other. -/
theorem exists_drawsEach (hHeap : engine.heap.Consistent)
    (hSingle : 0 < count → ∀ later, engine.Recalls later → later.names = engine.names →
      op.perform later = (sample dtype sampler none).perform later) :
    ∃ last, DrawsEach op engine (replicate sampler count engine.generator).1.toList last ∧
      last.generator = (replicate sampler count engine.generator).2 := by
  induction count generalizing engine with
  | zero => exact ⟨engine, .done engine, rfl⟩
  | succ count ih =>
      -- The new number and the generator are all that changes, so the arguments are there again.
      have hAllocates := extends_allocate hHeap (.ofScalar (sampler engine.generator).1)
      let next : Engine := { engine with
        heap := (engine.heap.allocate (.ofScalar (sampler engine.generator).1)).2
        generator := (sampler engine.generator).2 }
      have hNext : engine.Recalls next := ⟨hAllocates.size_le, hAllocates.object_eq, rfl⟩
      have hDraws : engine.Draws op (.ofScalar (sampler engine.generator).1) engine.buffers
          (sampler engine.generator).2 :=
        (hSingle (Nat.succ_pos count) engine (.refl engine) rfl).trans rfl
      have hAgain (_ : 0 < count) (later : Engine) (hLater : next.Recalls later)
          (hNames : later.names = next.names) :=
        hSingle (Nat.succ_pos count) later (hNext.trans hLater) hNames
      obtain ⟨last, hRest, hGenerator⟩ := ih (hHeap.allocate _) hAgain
      refine ⟨last, ?_, ?_⟩
      · rw [replicate_succ, Array.toList_append]
        exact .next hDraws hRest
      · rw [replicate_succ]
        exact hGenerator

/-- What a call for a shape comes to, by calls for single numbers: an array of the numbers that so many
of these draw, and the generator that they leave. Only if the strides of the shape are no words it
fails. -/
structure RepeatsDraws (engine : Engine) (asked single : NativeOp) (dtype : DType) (shape : Shape) :
    Prop where
  drawn : shape.paddedSize < Word.signedLimit → ∃ values last object buffers,
    DrawsEach single engine values last ∧ values.length = shape.size ∧
    engine.Draws asked object buffers last.generator ∧
    object.HoldsDrawn buffers dtype (some shape) (values.map (·.cast dtype))
  overflows : Word.signedLimit ≤ shape.paddedSize →
    shape.size = 0 ∧ asked.perform engine = (.error .wordOverflow, engine)

theorem repeatsDraws_of_sample (hHeap : engine.heap.Consistent)
    (hSingle : 0 < shape.size → ∀ later, engine.Recalls later → later.names = engine.names →
      single.perform later = (sample dtype sampler none).perform later)
    (hAsked : asked.perform engine = (sample dtype sampler (some shape)).perform engine)
    (hShape : ∃ lengths, checkShape lengths = .ok shape) (hFits : reserve shape.size = .ok ()) :
    engine.RepeatsDraws asked single dtype shape := by
  obtain ⟨⟨count, hCount⟩, hSigned⟩ := exists_checkShape_eq_ok_iff.mp hShape
  obtain ⟨rfl, -⟩ := Shape.size_of_checkedSize hCount
  constructor
  · intro hWords
    have hStrides := (Shape.checkStrides_eq_ok_iff hSigned).mpr hWords
    have hAllocatable : AllocatableSize (some shape) := fun _ hSame => by
      cases hSame
      exact ⟨hCount, hFits, hStrides⟩
    obtain ⟨last, hEach, hGenerator⟩ := exists_drawsEach hHeap hSingle
    obtain ⟨object, buffers, hDraws, hHolds⟩ := exists_draws_sample engine dtype sampler hAllocatable
    refine ⟨_, last, object, buffers, hEach, ?_, ?_, ?_⟩
    · rw [Array.length_toList, size_replicate]
    · rw [hGenerator]
      exact hAsked.trans hDraws
    · rw [← Array.toList_map]
      exact hHolds
  · intro hLarge
    have hStrides := (Shape.checkStrides_eq_error_iff hSigned).mpr hLarge
    refine ⟨Shape.size_eq_zero_iff.mpr (mem_zero_of_checkedSize hCount hLarge), hAsked.trans ?_⟩
    rw [sample, hCount, bind_ok, hFits, bind_ok, hStrides]
    rfl

end Repeating

section Calls

variable {positional : List ObjectId} {keywords : List (String × ObjectId)} {native : Native}
  {ids : List ObjectId}

/-- A call of a function of the random module with any number of dimensions. -/
structure CallsDimensions (engine : Engine) (id : ObjectId) (positional : List ObjectId)
    (keywords : List (String × ObjectId)) (f : RandomFunction) (ids : List ObjectId) : Prop where
  function : engine.object id = .ok (.native (.random f))
  free : f.parameters? = none
  bound : (engine.argumentsOf positional keywords).variadic f.name = .ok ids

theorem argumentsOf_congr (hNames : later.names = earlier.names) (positional : List ObjectId)
    (keywords : List (String × ObjectId)) :
    later.argumentsOf positional keywords = earlier.argumentsOf positional keywords := by
  rw [argumentsOf, argumentsOf, hNames]

theorem Calls.recalls (hCalls : earlier.Calls id positional keywords native b)
    (h : earlier.Recalls later) (hNames : later.names = earlier.names) :
    later.Calls id positional keywords native b where
  function := h.object_eq hCalls.function
  bound := by
    rw [argumentsOf_congr hNames]
    exact hCalls.bound

theorem CallsDimensions.recalls (hCalls : earlier.CallsDimensions id positional keywords f ids)
    (h : earlier.Recalls later) (hNames : later.names = earlier.names) :
    later.CallsDimensions id positional keywords f ids where
  function := h.object_eq hCalls.function
  free := hCalls.free
  bound := by
    rw [argumentsOf_congr hNames]
    exact hCalls.bound

/-- What a function with any number of dimensions draws. -/
def dimensionSampler : RandomFunction → Sampler
  | .randn => standardNormalSampler
  | _ => unitSampler

theorem CallsDimensions.perform_call (h : engine.CallsDimensions id positional keywords f ids)
    (hShape : engine.dimensionShape? ids = .ok shape?) :
    (call id positional keywords).perform engine
      = (sample .float64 (dimensionSampler f) shape?).perform engine := by
  rw [perform_call_native h.function, nativeCall, h.free, h.bound, bind_ok, randomDimensionCall, hShape,
    bind_ok]
  cases f <;> rfl

theorem exists_checkShape_of_dimensionShape? (h : engine.dimensionShape? ids = .ok (some shape)) :
    ∃ lengths, checkShape lengths = .ok shape := by
  unfold dimensionShape? at h
  split at h
  · cases h
  · obtain ⟨lengths, -, h⟩ := bind_eq_ok_iff.mp h
    obtain ⟨found, hFound, h⟩ := bind_eq_ok_iff.mp h
    cases h
    exact ⟨lengths, hFound⟩

/-- A sampler without a size draws one number, now and as long as its arguments are there. -/
theorem Samples.perform_single (h : engine.Samples b 1 f dtype sampler)
    (hCalls : engine.Calls id positional keywords (.random f) b)
    (hSize : engine.given (b.get? "size") = none) (hLater : engine.Recalls later)
    (hNames : later.names = engine.names) :
    (call id positional keywords).perform later = (sample dtype sampler none).perform later := by
  have hNone : later.size? b = .ok none := by
    rw [size?, hLater.given_none hSize]
    rfl
  have hAgain : later.Samples b (sampleCount none) f dtype sampler := Samples.recalls hLater h
  rw [(hCalls.recalls hLater hNames).perform_call, namedCall,
    hAgain.randomCall_eq hNone fun _ hShape => by cases hShape]

end Calls

section Law

/-- A sampler that is called for a shape of which the elements can be allocated stores an array of what
so many calls without a size draw one after the other, in row-major order, as elements of the type of
the array, and leaves the generator as they do. These calls all succeed. So it is for all valid
arguments, which are those with which the sampler succeeds for some size, and for the functions that
take their dimensions one by one. For a shape without elements no call is made, and nothing is drawn.
Only for such a shape the strides may be no words, and then the sampler fails. -/
theorem repeatedDraws_law (engine : Engine) (hHeap : engine.heap.Consistent) (id id' : ObjectId)
    (positional positional' : List ObjectId) (keywords keywords' : List (String × ObjectId))
    (f : RandomFunction) :
    (∀ (b b' : CallBindings) (dtype : DType) (sampler : Sampler) (shape : Shape),
      engine.Calls id positional keywords (.random f) b →
      engine.Calls id' positional' keywords' (.random f) b' →
      (∀ name, name ≠ "size" → b.get? name = b'.get? name) →
      engine.Samples b shape.size f dtype sampler → engine.size? b = .ok (some shape) →
      engine.given (b'.get? "size") = none → reserve shape.size = .ok () →
        engine.RepeatsDraws (call id positional keywords) (call id' positional' keywords') dtype shape) ∧
    (∀ (ids : List ObjectId) (shape : Shape), engine.CallsDimensions id positional keywords f ids →
      engine.CallsDimensions id' positional' keywords' f [] →
      engine.dimensionShape? ids = .ok (some shape) → reserve shape.size = .ok () →
        engine.RepeatsDraws (call id positional keywords) (call id' positional' keywords') .float64
          shape) ∧
    ∀ (b : CallBindings) (result : ObjectId) (next : Engine),
      engine.Calls id positional keywords (.random f) b →
      f ∈ [.randomSample, .uniform, .normal, .randint, .randomIntegers, .choice] →
      (f = .choice → ∃ asked,
        optional engine.truth (engine.given (b.get? "replace")) = .ok asked ∧ asked.getD true = true) →
      (call id positional keywords).perform engine = (.ok result, next) →
        ∃ shape? dtype sampler, engine.size? b = .ok shape? ∧
          engine.Samples b (sampleCount shape?) f dtype sampler := by
  refine ⟨fun b b' dtype sampler shape hCalls hCalls' hOthers hSamples hSize hNone hFits => ?_,
    fun ids shape hCalls hCalls' hShape hFits => ?_, fun b result next hCalls hSampler hReplace hRun => ?_⟩
  · have hSame : SameButSize b b' := ⟨hCalls.function_eq.trans hCalls'.function_eq.symm, hOthers⟩
    have hSingle (hSome : 0 < shape.size) (later : Engine) (hLater : engine.Recalls later)
        (hNames : later.names = engine.names) :=
      ((hSamples.of_pos hSome 1).congr hSame).perform_single hCalls' hNone hLater hNames
    have hCount : engine.Samples b (sampleCount (some shape)) f dtype sampler := hSamples
    have hAsked : (call id positional keywords).perform engine
        = (sample dtype sampler (some shape)).perform engine := by
      rw [hCalls.perform_call, namedCall,
        hCount.randomCall_eq hSize fun _ hShape => by cases hShape; exact hFits]
    exact repeatsDraws_of_sample hHeap hSingle hAsked (exists_checkShape_of_size? hSize) hFits
  · have hSingle (_ : 0 < shape.size) (later : Engine) (hLater : engine.Recalls later)
        (hNames : later.names = engine.names) := (hCalls'.recalls hLater hNames).perform_call rfl
    exact repeatsDraws_of_sample hHeap hSingle (hCalls.perform_call hShape)
      (exists_checkShape_of_dimensionShape? hShape) hFits
  · rw [hCalls.perform_call] at hRun
    exact exists_samples hRun hSampler hReplace

/-- Samplers, the bounds of the numbers on a die, and the size of two rows of two. -/
def withDice : Engine :=
  ofObjects [.none, .native (.random .randint), .native (.random .rand), .int 1, .int 7, .int 2,
    .tuple [⟨5, 0⟩, ⟨5, 0⟩]] (.ofValues .int64 #[])

/-- The arguments of throws of the die. -/
def throws (size? : Option ObjectId) : CallBindings :=
  ⟨"randint", [("low", some ⟨3, 0⟩), ("high", some ⟨4, 0⟩), ("size", size?), ("dtype", none)]⟩

/-- Four throws of a die, and four numbers of the unit interval, are drawn at once as one by one. -/
theorem repeatedDraws_law_dice :
    (∃ values last object buffers,
      DrawsEach (call ⟨1, 0⟩ [⟨3, 0⟩, ⟨4, 0⟩] []) withDice values last ∧ values.length = 4 ∧
        withDice.Draws (call ⟨1, 0⟩ [⟨3, 0⟩, ⟨4, 0⟩, ⟨6, 0⟩] []) object buffers last.generator ∧
        object.HoldsDrawn buffers .int64 (some [2, 2]) (values.map (·.cast .int64))) ∧
    ∃ values last object buffers,
      DrawsEach (call ⟨2, 0⟩ [] []) withDice values last ∧ values.length = 4 ∧
        withDice.Draws (call ⟨2, 0⟩ [⟨5, 0⟩, ⟨5, 0⟩] []) object buffers last.generator ∧
        object.HoldsDrawn buffers .float64 (some [2, 2]) (values.map (·.cast .float64)) := by
  have hHeap : withDice.heap.Consistent := ⟨by simp [withDice, ofObjects], List.nodup_nil, rfl⟩
  have hWords : Shape.paddedSize [2, 2] < Word.signedLimit := by decide
  obtain ⟨hNamed, -, -⟩ := repeatedDraws_law withDice hHeap ⟨1, 0⟩ ⟨1, 0⟩ [⟨3, 0⟩, ⟨4, 0⟩, ⟨6, 0⟩]
    [⟨3, 0⟩, ⟨4, 0⟩] [] [] .randint
  obtain ⟨-, hDimensions, -⟩ := repeatedDraws_law withDice hHeap ⟨2, 0⟩ ⟨2, 0⟩ [⟨5, 0⟩, ⟨5, 0⟩] [] [] []
    .rand
  have hBounds : withDice.Samples (throws (some ⟨6, 0⟩)) (Shape.size [2, 2]) .randint .int64
      (integerSampler 1 (7 - 1) .int64) :=
    @Samples.randint _ _ _ 1 7 none (.both rfl rfl rfl rfl) (by decide) rfl (by decide)
  constructor
  · refine (hNamed (throws (some ⟨6, 0⟩)) (throws none) _ _ _ ⟨rfl, _, rfl, rfl⟩ ⟨rfl, _, rfl, rfl⟩
      (fun name hName => ?_) hBounds rfl rfl rfl).drawn hWords
    simp only [throws, Bindings.get?, List.lookup_cons, beq_eq_false_iff_ne.mpr hName]
  · exact (hDimensions [⟨5, 0⟩, ⟨5, 0⟩] [2, 2] ⟨rfl, rfl, rfl⟩ ⟨rfl, rfl, rfl⟩ rfl rfl).drawn hWords

/-- Nothing is to be drawn for the size of an empty axis and two long ones, but the sampler fails. -/
theorem not_sampled_of_empty_size :
    let engine := ofObjects [.none, .native (.random .randomSample), .int 0, .int 0x10000000000,
      .tuple [⟨2, 0⟩, ⟨3, 0⟩, ⟨3, 0⟩]] (.ofValues .int64 #[])
    engine.shape ⟨4, 0⟩ = .ok [0, 0x10000000000, 0x10000000000] ∧
      Shape.size [0, 0x10000000000, 0x10000000000] = 0 ∧
      ((call ⟨1, 0⟩ [⟨4, 0⟩] []).perform engine).1 = .error .wordOverflow :=
  ⟨by decide +kernel, by decide, by decide +kernel⟩

end Law

end Engine

end ArrayBridge
