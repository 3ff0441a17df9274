import ArrayBridge.Proofs.Lookalikes

/-! Calls with the same answer.

Two engines with the same buffers and the same generators answer calls with arguments that
look alike in the same way: both refuse, for the same reason and without a trace, or both
give the same object, perhaps under another name, and have the same buffers and generators
afterwards. -/

namespace ArrayBridge.Engine

open Heap Operation Outcome

/-- Engines with the same storage and the same random state. -/
structure Twins (left right : Engine) : Prop where
  buffers_eq : left.buffers = right.buffers
  generator_eq : left.generator = right.generator
  entropy_eq : left.entropy = right.entropy

/-- A later state of an engine, in which every object and every name is as it was. -/
structure Continues (earlier later : Engine) : Prop where
  object_eq : ∀ {id object}, earlier.object id = .ok object → later.object id = .ok object
  names_eq : later.names = earlier.names

/-- An engine that has room for a result and knows the object for no value. -/
structure Ready (engine : Engine) : Prop where
  room : engine.HasRoom 1
  none : engine.object engine.names.noneId = .ok .none

/-- Two engines have the same answer, and are twins afterwards. -/
structure SameResult (left right : Engine) (x y : ObjectId) (left' right' : Engine) : Prop where
  twins : Twins left' right'
  left_continues : left.Continues left'
  right_continues : right.Continues right'
  left_fits : left'.heap.slots.size ≤ slotLimit
  right_fits : right'.heap.slots.size ≤ slotLimit
  object : ∃ object, left'.object x = .ok object ∧ right'.object y = .ok object

variable {engine left right left' right' : Engine} {x y : ObjectId}

theorem Continues.trans {middle : Engine} (hFirst : left.Continues middle)
    (hSecond : middle.Continues left') : left.Continues left' :=
  ⟨fun h => hSecond.object_eq (hFirst.object_eq h), hSecond.names_eq.trans hFirst.names_eq⟩

theorem Extends.continues (h : left.Extends left') : left.Continues left' :=
  ⟨h.object_eq, h.names_eq⟩

/-- Objects are only those of the heap. -/
theorem Continues.of_eq (hHeap : left'.heap = left.heap) (hNames : left'.names = left.names) :
    left.Continues left' := by
  refine ⟨fun hObject => ?_, hNames⟩
  rw [object] at hObject ⊢
  rwa [hHeap]

theorem Ready.of_eq (h : left.Ready) (hHeap : left'.heap = left.heap)
    (hNames : left'.names = left.names) : left'.Ready where
  room := ⟨hHeap ▸ h.room.consistent, hHeap ▸ h.room.fits⟩
  none := by
    rw [hNames]
    exact (Continues.of_eq hHeap hNames).object_eq h.none

theorem Twins.extends (h : Twins left right) (hLeft : left.Extends left')
    (hRight : right.Extends right') : Twins left' right' where
  buffers_eq := hLeft.buffers_eq.trans (h.buffers_eq.trans hRight.buffers_eq.symm)
  generator_eq := hLeft.generator_eq.trans (h.generator_eq.trans hRight.generator_eq.symm)
  entropy_eq := hLeft.entropy_eq.trans (h.entropy_eq.trans hRight.entropy_eq.symm)

section Effects

/-- Two engines perform an effect with the same result. -/
def RunsAlike (left right : Engine) (effect other : Effect) : Prop :=
  ∃ x y left' right', effect.run left = (x, left') ∧ other.run right = (y, right') ∧
    SameResult left right x y left' right'

variable (hTwins : Twins left right) (hLeft : left.Ready) (hRight : right.Ready)
include hTwins hLeft hRight

theorem runsAlike_create (object : Object) :
    RunsAlike left right (create object) (create object) := by
  obtain ⟨x, left', hRun, hExtends, hRoom, hObject⟩ := hLeft.room.create object
  obtain ⟨y, right', hOther, hExtends', hRoom', hObject'⟩ := hRight.room.create object
  exact ⟨x, y, left', right', hRun, hOther, hTwins.extends hExtends hExtends',
    hExtends.continues, hExtends'.continues, hRoom.fits, hRoom'.fits, object, hObject, hObject'⟩

/-- The same object is shared, whatever its names are. -/
theorem runsAlike_share {object : Object} (hObject : left.object x = .ok object)
    (hObject' : right.object y = .ok object) :
    RunsAlike left right (share x) (share y) := by
  obtain ⟨left', hRun, hExtends, hRoom⟩ := hLeft.room.retain hObject
  obtain ⟨right', hOther, hExtends', hRoom'⟩ := hRight.room.retain hObject'
  refine ⟨x, y, left', right', ?_, ?_, hTwins.extends hExtends hExtends', hExtends.continues,
    hExtends'.continues, Nat.le_of_succ_le hRoom.fits, Nat.le_of_succ_le hRoom'.fits, object,
    hExtends.object_eq hObject, hExtends'.object_eq hObject'⟩
  · exact congrArg (fun result => (x, result.2)) hRun
  · exact congrArg (fun result => (y, result.2)) hOther

omit hTwins in
/-- What comes first changes no object and gives both engines the same. -/
theorem runsAlike_after {α : Type} {action : StateM Engine α} {rest : α → Effect} {a : α}
    (hRun : action.run left = (a, left')) (hOther : action.run right = (a, right'))
    (hHeap : left'.heap = left.heap) (hNames : left'.names = left.names)
    (hHeap' : right'.heap = right.heap) (hNames' : right'.names = right.names)
    (h : left'.Ready → right'.Ready → RunsAlike left' right' (rest a) (rest a)) :
    RunsAlike left right (action >>= rest) (action >>= rest) := by
  have hKept := Continues.of_eq hHeap hNames
  have hKept' := Continues.of_eq hHeap' hNames'
  obtain ⟨x, y, after, after', hRest, hRest', hSame⟩ :=
    h (hLeft.of_eq hHeap hNames) (hRight.of_eq hHeap' hNames')
  refine ⟨x, y, after, after', ?_, ?_, hSame.twins, hKept.trans hSame.left_continues,
    hKept'.trans hSame.right_continues, hSame.left_fits, hSame.right_fits, hSame.object⟩
  · rw [StateT.run_bind, hRun]
    exact hRest
  · rw [StateT.run_bind, hOther]
    exact hRest'

theorem runsAlike_createArray (form : ArrayForm) :
    RunsAlike left right (createArray form) (createArray form) := by
  have hRun (engine : Engine) : (onBuffers form.realize).run engine
      = ((form.realize engine.buffers).1,
        { engine with buffers := (form.realize engine.buffers).2 }) := rfl
  have hOther := hRun right
  rw [← hTwins.buffers_eq] at hOther
  refine runsAlike_after hLeft hRight (hRun left) hOther rfl rfl rfl rfl fun hLeft hRight => ?_
  refine runsAlike_create ?_ hLeft hRight _
  exact ⟨rfl, hTwins.generator_eq, hTwins.entropy_eq⟩

end Effects

/-- An effect that makes a result makes the same one in both engines. -/
theorem Makes.runsAlike {effect : Effect} (h : Makes effect) (hTwins : Twins left right)
    (hLeft : left.Ready) (hRight : right.Ready) : RunsAlike left right effect effect := by
  induction h generalizing left right with
  | object object => exact runsAlike_create hTwins hLeft hRight object
  | none => exact runsAlike_share hTwins hLeft hRight hLeft.none hRight.none
  | array form => exact runsAlike_createArray hTwins hLeft hRight form
  | result form =>
      have hScalar := congrArg form.scalar? hTwins.buffers_eq
      unfold RunsAlike
      rw [run_createResult, run_createResult, ← hScalar]
      cases form.scalar? left.buffers with
      | some value => exact runsAlike_create hTwins hLeft hRight _
      | none => exact runsAlike_createArray hTwins hLeft hRight form
  | drawn f rest _ ih =>
      have hRun (engine : Engine) : (draw f).run engine = ((f engine.generator).1,
          { engine with generator := (f engine.generator).2 }) := rfl
      have hOther := hRun right
      rw [← hTwins.generator_eq] at hOther
      refine runsAlike_after hLeft hRight (hRun left) hOther rfl rfl rfl rfl ?_
      exact ih _ ⟨hTwins.buffers_eq, rfl, hTwins.entropy_eq⟩
  | seeded rest _ ih =>
      have hRun (engine : Engine) : drawSeed.run engine = (engine.entropy.word.1,
          { engine with entropy := engine.entropy.word.2 }) := by
        cases engine
        rw [StateT.run, drawSeed]
      have hOther := hRun right
      rw [← hTwins.entropy_eq] at hOther
      refine runsAlike_after hLeft hRight (hRun left) hOther rfl rfl rfl rfl ?_
      exact ih _ ⟨hTwins.buffers_eq, hTwins.generator_eq, rfl⟩
  | written f rest _ ih =>
      have hRun (engine : Engine) : (onBuffers f).run engine = ((f engine.buffers).1,
          { engine with buffers := (f engine.buffers).2 }) := rfl
      have hOther := hRun right
      rw [← hTwins.buffers_eq] at hOther
      refine runsAlike_after hLeft hRight (hRun left) hOther rfl rfl rfl rfl ?_
      exact ih _ ⟨rfl, hTwins.generator_eq, hTwins.entropy_eq⟩

/-- Two operations that refuse for the same reason, or make the same result, or share the
same object. -/
inductive SameAnswer (left right : Engine) (op other : NativeOp) : Prop
  | makes (hPlans : Plans Makes op) (hSame : op = other)
  | shares (x y : ObjectId) (object : Object) (hLeft : left.object x = .ok object)
      (hRight : right.object y = .ok object) (hOp : op = always (share x))
      (hOther : other = always (share y))

/-- The same answer is either the same exception, with no other effect, or the same result. -/
theorem SameAnswer.perform {op other : NativeOp} (h : SameAnswer left right op other)
    (hTwins : Twins left right) (hLeft : left.Ready) (hRight : right.Ready) :
    (∃ e, op.perform left = (.error e, left) ∧ other.perform right = (.error e, right)) ∨
      ∃ x y left' right', op.perform left = (.ok x, left') ∧ other.perform right = (.ok y, right') ∧
        SameResult left right x y left' right' := by
  have hActs {effect effect' : Effect} (hRuns : RunsAlike left right effect effect') :
      ∃ x y left' right', (always effect : NativeOp).perform left = (.ok x, left') ∧
        (always effect' : NativeOp).perform right = (.ok y, right') ∧
          SameResult left right x y left' right' := by
    obtain ⟨x, y, left', right', hRun, hOther, hSame⟩ := hRuns
    refine ⟨x, y, left', right', ?_, ?_, hSame⟩
    · rw [perform_always, hRun]
    · rw [perform_always, hOther]
  cases h with
  | makes hPlans hSame =>
      subst hSame
      cases hPlans with
      | refuses e hOp =>
          subst hOp
          exact .inl ⟨e, rfl, rfl⟩
      | acts effect hMakes hOp =>
          subst hOp
          exact .inr (hActs (hMakes.runsAlike hTwins hLeft hRight))
  | shares x y object hObject hObject' hOp hOther =>
      subst hOp hOther
      exact .inr (hActs (runsAlike_share hTwins hLeft hRight hObject hObject'))

section Calls

variable {b b' : CallBindings}

variable (hBuffers : left.buffers = right.buffers) (h : BoundAlike left right b b')
include hBuffers h

/-- An array may be given back as it is. -/
theorem sameAnswer_asArrayOf : SameAnswer left right (left.asArrayOf b) (right.asArrayOf b') := by
  have hSource := h.required "a"
  rw [asArrayOf, asArrayOf, dtype?_eq (h.rel_get? "dtype")]
  generalize b.required "a" = source at hSource
  generalize b'.required "a" = source' at hSource
  cases hSource with
  | error e =>
      rw [bind_error, bind_error]
      exact .makes (plans_throw e) rfl
  | @ok x y hAlike =>
      have hConverted (dtype : Option DType) :
          asArrayOf.converted left x dtype = asArrayOf.converted right y dtype := by
        rw [asArrayOf.converted, asArrayOf.converted, hAlike.arrayContents_eq hBuffers]
      rw [bind_ok, bind_ok]
      cases right.dtype? (b'.get? "dtype") with
      | error e =>
          rw [bind_error, bind_error]
          exact .makes (plans_throw e) rfl
      | ok dtype =>
          have hFresh : SameAnswer left right
              (liftM (asArrayOf.converted left x dtype) >>= fun c => always (createArray (.fresh c)))
              (liftM (asArrayOf.converted right y dtype) >>= fun c =>
                always (createArray (.fresh c))) :=
            .makes (plans_check fun _ _ => plans_always (.fresh _)) (by rw [hConverted])
          rw [bind_ok, bind_ok]
          cases hAlike with
          | plain object hPlain hLeft hRight =>
              rw [hLeft, hRight, bind_ok, bind_ok]
              cases object with
              | array a =>
                  dsimp only
                  split_ifs
                  · exact .shares x y (.array a) hLeft hRight rfl rfl
                  · exact hFresh
              | _ =>
                  dsimp only
                  exact hFresh
          | numbers values hLeft hRight =>
              obtain ⟨items, hLeft, -⟩ := hLeft
              obtain ⟨others, hRight, -⟩ := hRight
              rw [hLeft, hRight, bind_ok, bind_ok]
              dsimp only
              exact hFresh

/-- Functions of the root module give the same answer to arguments that look alike. -/
theorem sameAnswer_numericCall (f : NumericFunction) :
    SameAnswer left right (left.numericCall f b) (right.numericCall f b') := by
  have hMakes (hOther : f ≠ .asarray) : Plans Makes (left.numericCall f b) :=
    (plans_numericCall f).mono fun _ hPerforms => hPerforms.makes (by simpa using hOther) (by simp)
  cases f with
  | array => exact .makes (hMakes (by decide)) (arrayOf_eq hBuffers h)
  | asarray => exact sameAnswer_asArrayOf hBuffers h
  | arange => exact .makes (hMakes (by decide)) (rangeOf_eq hBuffers h)
  | zeros => exact .makes (hMakes (by decide)) (constantOf_eq hBuffers h _)
  | ones => exact .makes (hMakes (by decide)) (constantOf_eq hBuffers h _)
  | full => exact .makes (hMakes (by decide)) (fullOf_eq hBuffers h)
  | reshape => exact .makes (hMakes (by decide)) (reshapeOf_eq hBuffers h)
  | copy => exact .makes (hMakes (by decide)) (copyOf_eq hBuffers h)
  | sum => exact .makes (hMakes (by decide)) (sumOf_eq hBuffers h)
  | add => exact .makes (hMakes (by decide)) (arithmeticOf_eq hBuffers h _)
  | subtract => exact .makes (hMakes (by decide)) (arithmeticOf_eq hBuffers h _)
  | multiply => exact .makes (hMakes (by decide)) (arithmeticOf_eq hBuffers h _)
  | lcm => exact .makes (hMakes (by decide)) (integerArithmeticOf_eq hBuffers h _)
  | gcd => exact .makes (hMakes (by decide)) (integerArithmeticOf_eq hBuffers h _)

theorem sameAnswer_randomCall (f : RandomFunction) :
    SameAnswer left right (left.randomCall f b) (right.randomCall f b') := by
  have hMakes (hOther : f ≠ .shuffle) : Plans Makes (left.randomCall f b) :=
    (plans_randomCall f).mono fun _ hPerforms => hPerforms.makes (by simp) (by simpa using hOther)
  cases f with
  | seed => exact .makes (hMakes (by decide)) (seedOf_eq hBuffers h)
  | rand => exact .makes (hMakes (by decide)) rfl
  | randn => exact .makes (hMakes (by decide)) rfl
  | randint => exact .makes (hMakes (by decide)) (randintOf_eq hBuffers h)
  | randomIntegers => exact .makes (hMakes (by decide)) (randomIntegersOf_eq hBuffers h)
  | choice => exact .makes (hMakes (by decide)) (choiceOf_eq hBuffers h)
  | bytes => exact .makes (hMakes (by decide)) (bytesOf_eq hBuffers h)
  | shuffle =>
      refine .makes (plans_shuffleOf (fun _ a _ _ => makes_shuffleRows a) fun id items hTarget hList => ?_)
        (shuffleOf_eq hBuffers h)
      have hAgree := h.required "x"
      rw [hTarget] at hAgree
      generalize b'.required "x" = target at hAgree
      obtain @⟨_, y, hAlike⟩ := hAgree
      exact (hAlike.not_list hList).elim
  | permutation => exact .makes (hMakes (by decide)) (permutationOf_eq hBuffers h)
  | uniform => exact .makes (hMakes (by decide)) (uniformOf_eq hBuffers h)
  | normal => exact .makes (hMakes (by decide)) (normalOf_eq hBuffers h)
  | randomSample => exact .makes (hMakes (by decide)) (randomSampleOf_eq hBuffers h)

end Calls

end ArrayBridge.Engine
