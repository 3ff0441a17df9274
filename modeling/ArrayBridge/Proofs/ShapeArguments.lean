import ArrayBridge.Proofs.CallAnswers
import ArrayBridge.Proofs.Creation
import ArrayBridge.Proofs.ElementCounts
import ArrayBridge.Proofs.ElementResults
import ArrayBridge.Proofs.Elementwise

/-! Shapes that are given as tuples and as arrays.

A function reads the lengths of a shape from a tuple one by one, and from an array with one axis
after its elements were brought to one type. Truth values and integers are the same lengths either
way. A float is no length of a tuple, but an array that holds one is truncated. -/

namespace ArrayBridge

open Operation Outcome

namespace DType

theorem join_assoc (first second third : DType) :
    (first.join second).join third = first.join (second.join third) := by
  cases first <;> cases second <;> cases third <;> rfl

instance : Std.Associative join := ⟨join_assoc⟩

theorem joinAll_cons (dtype : DType) (dtypes : List DType) :
    joinAll (dtype :: dtypes) = dtype.join (joinAll dtypes) := by
  rw [joinAll, List.foldl_cons, join_comm, List.foldl_assoc, joinAll]

theorem joinAll_eq_float64_iff {dtypes : List DType} :
    joinAll dtypes = .float64 ↔ .float64 ∈ dtypes := by
  induction dtypes with
  | nil => simp [joinAll]
  | cons dtype dtypes ih =>
      rw [joinAll_cons, List.mem_cons, ← ih]
      cases dtype <;> cases joinAll dtypes <;> simp [join]

/-- A type that holds all values holds those of each type. -/
theorem join_joinAll {dtype : DType} {dtypes : List DType} (h : dtype ∈ dtypes) :
    dtype.join (joinAll dtypes) = joinAll dtypes := by
  have hTwice (other : DType) : dtype.join (dtype.join other) = dtype.join other := by
    cases dtype <;> cases other <;> rfl
  induction dtypes with
  | nil => cases h
  | cons first dtypes ih =>
      rw [joinAll_cons]
      rcases List.mem_cons.mp h with rfl | hRest
      · exact hTwice _
      · rw [join_comm first, ← join_assoc, ih hRest]

end DType

namespace Scalar

variable {s : Scalar} {dtype : DType}

/-- A value that is no float stays the same integer in every larger type but that of floats. -/
theorem toInt64_cast (hType : dtype ≠ .float64) (hHeld : s.dtype.join dtype = dtype) :
    (s.cast dtype).toInt64 = s.toInt64 := by
  cases s <;> cases dtype <;> simp_all [cast, toInt64, Scalar.dtype, DType.join, toBool]

end Scalar

namespace Engine

variable {engine next : Engine} {id tuple array : ObjectId} {values : List Scalar} {a : NdArray}

section Reading

/-- A number object is read as an integer unless it is a float. -/
theorem integer_of_number {value : Scalar} (h : engine.object id = .ok (.ofScalar value)) :
    engine.integer id
      = if value.dtype = .float64 then .error (.notAnInteger "float") else .ok value.toInt64 := by
  rw [integer, scalar?, h, typeName, get?_of_object h]
  cases value <;> rfl

theorem mapM_integer_of_whole {items : List ObjectId}
    (hItems : List.Forall₂ (fun item value => engine.object item = .ok (.ofScalar value)) items values)
    (hWhole : ∀ value ∈ values, value.dtype ≠ .float64) :
    items.mapM engine.integer = .ok (values.map Scalar.toInt64) := by
  induction hItems with
  | nil => rfl
  | cons hItem _ ih =>
      obtain ⟨hFirst, hRest⟩ := List.forall_mem_cons.mp hWhole
      rw [List.mapM_cons, integer_of_number hItem, if_neg hFirst, ih hRest]
      rfl

/-- The first float among the items is refused. -/
theorem mapM_integer_of_float {items : List ObjectId}
    (hItems : List.Forall₂ (fun item value => engine.object item = .ok (.ofScalar value)) items values)
    (hFloat : ∃ value ∈ values, value.dtype = .float64) :
    items.mapM engine.integer = .error (.notAnInteger "float") := by
  induction hItems with
  | nil => simp at hFloat
  | cons hItem _ ih =>
      rw [List.mapM_cons, integer_of_number hItem]
      split
      · rfl
      · rename_i hWhole
        rw [List.exists_mem_cons_iff, or_iff_right hWhole] at hFloat
        rw [ih hFloat]
        rfl

theorem HoldsNumbers.shapeLengths_of_whole (h : engine.HoldsNumbers values tuple)
    (hWhole : ∀ value ∈ values, value.dtype ≠ .float64) :
    engine.shapeLengths tuple = .ok (values.map Scalar.toInt64) := by
  obtain ⟨items, hTuple, hItems⟩ := h
  rw [shapeLengths, hTuple]
  exact mapM_integer_of_whole hItems hWhole

theorem HoldsNumbers.shape_of_float (h : engine.HoldsNumbers values tuple)
    (hFloat : ∃ value ∈ values, value.dtype = .float64) :
    engine.shape tuple = .error (.notAnInteger "float") := by
  obtain ⟨items, hTuple, hItems⟩ := h
  rw [shape, shapeLengths, hTuple, ok_bind]
  dsimp only
  rw [mapM_integer_of_float hItems hFloat]
  rfl

/-- An array holds the numbers of a list, in the smallest type for all of them. -/
structure PacksNumbers (engine : Engine) (values : List Scalar) (id : ObjectId) (a : NdArray) : Prop where
  object_eq : engine.object id = .ok (.array a)
  contents_eq : a.contents engine.buffers = .ofLeaves [values.length] values

/-- The lengths are what the values became in the type of the array. -/
theorem PacksNumbers.shapeLengths_eq (h : engine.PacksNumbers values array a) :
    engine.shapeLengths array = .ok (values.map fun value =>
      (value.cast (Contents.ofLeaves [values.length] values).dtype).toInt64) := by
  have hRank : a.rank = 1 := congrArg Contents.rank h.contents_eq
  have hValues : a.values engine.buffers
      = values.toArray.map (·.cast (Contents.ofLeaves [values.length] values).dtype) :=
    congrArg Contents.values h.contents_eq
  rw [shapeLengths, h.object_eq, ok_bind]
  dsimp only
  rw [if_pos hRank, hValues]
  simp [pure, Except.pure]

theorem PacksNumbers.shapeLengths_of_whole (h : engine.PacksNumbers values array a)
    (hWhole : ∀ value ∈ values, value.dtype ≠ .float64) :
    engine.shapeLengths array = .ok (values.map Scalar.toInt64) := by
  rw [h.shapeLengths_eq, Except.ok.injEq]
  refine List.map_congr_left fun value hValue => ?_
  have hSome : values ≠ [] := List.ne_nil_of_mem hValue
  have hType : (Contents.ofLeaves [values.length] values).dtype
      = DType.joinAll (values.map Scalar.dtype) := if_neg hSome
  rw [hType]
  refine Scalar.toInt64_cast ?_ (DType.join_joinAll (List.mem_map_of_mem hValue))
  rw [Ne, DType.joinAll_eq_float64_iff, List.mem_map]
  exact fun ⟨other, hOther, hFloat⟩ => hWhole other hOther hFloat

/-- An array with a float among its values is truncated. -/
theorem PacksNumbers.shape_of_float (h : engine.PacksNumbers values array a)
    (hFloat : ∃ value ∈ values, value.dtype = .float64) :
    engine.shape array = checkShape (values.map fun value => truncated value.toFloat) := by
  obtain ⟨value, hValue, hType⟩ := hFloat
  have hSome : values ≠ [] := List.ne_nil_of_mem hValue
  have hJoined : (Contents.ofLeaves [values.length] values).dtype = .float64 :=
    (if_neg hSome).trans (DType.joinAll_eq_float64_iff.mpr (List.mem_map.mpr ⟨value, hValue, hType⟩))
  rw [shape, h.shapeLengths_eq, hJoined]
  rfl

/-- Numbers of which none is a float are the same shape as a tuple and as an array. -/
theorem PacksNumbers.shape_eq (h : engine.PacksNumbers values array a)
    (hTuple : engine.HoldsNumbers values tuple) (hWhole : ∀ value ∈ values, value.dtype ≠ .float64) :
    engine.shape tuple = engine.shape array := by
  rw [shape, shape, hTuple.shapeLengths_of_whole hWhole, h.shapeLengths_of_whole hWhole]

/-- Lengths are only refused for their values. -/
theorem kind_of_checkShape {lengths : List Int64} {e : Exception}
    (h : checkShape lengths = .error e) : e.kind = .valueError := by
  unfold checkShape at h
  split at h
  · cases h
    rfl
  · obtain hSize | ⟨_, _, hRest⟩ := bind_eq_error_iff.mp h
    · rw [Shape.checkedSize_eq_error fun count hCount => by rw [hCount] at hSize; cases hSize] at hSize
      cases hSize
      rfl
    · cases hRest

end Reading

section Calls

variable {name : String} {b b' : CallBindings} {native : Native}

/-- Two calls of a function got the same arguments except for one parameter, which got arguments that
are read as the same shape. -/
structure SameShape (engine : Engine) (name : String) (b b' : CallBindings) : Prop where
  function_eq : b.function = b'.function
  others : ∀ other, other ≠ name → b.get? other = b'.get? other
  argument : ∃ x y, b.get? name = some x ∧ b'.get? name = some y ∧
    engine.isNone x = false ∧ engine.isNone y = false ∧ engine.shape x = engine.shape y

namespace SameShape

variable (h : SameShape engine name b b')
include h

theorem required_eq (other : String) (hOther : other ≠ name) :
    b.required other = b'.required other := by
  rw [Bindings.required, Bindings.required, h.others other hOther, h.function_eq]

/-- Any step that reads the shape is the same. -/
theorem shape_step {f : Shape → NativeOp} :
    (liftM (b.required name) >>= fun id => liftM (engine.shape id) >>= f)
      = (liftM (b'.required name) >>= fun id => liftM (engine.shape id) >>= f) := by
  obtain ⟨x, y, hLeft, hRight, -, -, hShape⟩ := h.argument
  rw [Bindings.required, Bindings.required, hLeft, hRight]
  change (liftM (engine.shape x) >>= f) = (liftM (engine.shape y) >>= f)
  rw [hShape]

theorem size?_eq (hName : name = "size") : engine.size? b = engine.size? b' := by
  subst hName
  obtain ⟨x, y, hLeft, hRight, hSome, hSome', hShape⟩ := h.argument
  have hGiven : engine.given (b.get? "size") = some x := by
    rw [hLeft, given, Option.filter, hSome]
    rfl
  have hGiven' : engine.given (b'.get? "size") = some y := by
    rw [hRight, given, Option.filter, hSome']
    rfl
  rw [size?, size?, hGiven, hGiven', optional, optional, Option.mapM_some, Option.mapM_some, hShape]

theorem numericCall_eq {f : NumericFunction} (hName : shapeParameter (.numeric f) = some name) :
    engine.numericCall f b = engine.numericCall f b' := by
  cases f with
  | zeros | ones =>
      cases hName
      rw [numericCall, numericCall, constantOf, constantOf, h.others "dtype" (by decide)]
      exact h.shape_step
  | full =>
      cases hName
      rw [numericCall, numericCall, fullOf, fullOf, h.others "dtype" (by decide),
        h.required_eq "fill_value" (by decide)]
      exact bind_congr fun _ => bind_congr fun _ => h.shape_step
  | _ => cases hName

theorem integerBounds_eq (hLow : "low" ≠ name) (hHigh : "high" ≠ name) (implicitLow : Int64) :
    engine.integerBounds b implicitLow = engine.integerBounds b' implicitLow := by
  rw [integerBounds, integerBounds, h.required_eq "low" hLow, h.others "high" hHigh]

theorem randomCall_eq {f : RandomFunction} (hName : shapeParameter (.random f) = some name) :
    engine.randomCall f b = engine.randomCall f b' := by
  cases f with
  | randint =>
      cases hName
      rw [randomCall, randomCall, randintOf, randintOf, h.integerBounds_eq (by decide) (by decide),
        h.others "dtype" (by decide), h.size?_eq rfl]
  | randomIntegers =>
      cases hName
      rw [randomCall, randomCall, randomIntegersOf, randomIntegersOf,
        h.integerBounds_eq (by decide) (by decide), h.size?_eq rfl]
  | randomSample =>
      cases hName
      rw [randomCall, randomCall, randomSampleOf, randomSampleOf, h.size?_eq rfl]
  | uniform =>
      cases hName
      rw [randomCall, randomCall, uniformOf, uniformOf, h.others "low" (by decide),
        h.others "high" (by decide), h.size?_eq rfl]
  | normal =>
      cases hName
      rw [randomCall, randomCall, normalOf, normalOf, h.others "loc" (by decide),
        h.others "scale" (by decide), h.size?_eq rfl]
  | choice =>
      cases hName
      rw [randomCall, randomCall, choiceOf, choiceOf, h.required_eq "a" (by decide),
        h.others "replace" (by decide), h.others "p" (by decide), h.size?_eq rfl]
  | _ => cases hName

/-- A function does the same for the same shape, however it is given. -/
theorem namedCall_eq (hName : shapeParameter native = some name) :
    engine.namedCall native b = engine.namedCall native b' := by
  cases native with
  | numeric f => exact h.numericCall_eq hName
  | random f => exact h.randomCall_eq hName

end SameShape

variable {positional : List ObjectId} {keywords : List (String × ObjectId)}

theorem Calls.function_eq (h : engine.Calls id positional keywords native b) :
    b.function = native.name := by
  obtain ⟨parameters, hParameters, hBound⟩ := h.bound
  obtain ⟨-, rfl⟩ :=
    (Arguments.bind_eq_ok_iff_fits (Native.nodup_parameters hParameters)).mp hBound
  rfl

theorem Calls.perform_call (h : engine.Calls id positional keywords native b) :
    (call id positional keywords).perform engine
      = (engine.namedCall native b).perform engine := by
  obtain ⟨parameters, hParameters, hBound⟩ := h.bound
  rw [perform_call_native h.function, nativeCall_eq hParameters, hBound, bind_ok]

theorem HoldsNumbers.isNone_eq (h : engine.HoldsNumbers values id) : engine.isNone id = false := by
  obtain ⟨items, hTuple, -⟩ := h
  rw [isNone, get?_of_object hTuple]
  rfl

theorem PacksNumbers.isNone_eq (h : engine.PacksNumbers values id a) : engine.isNone id = false := by
  rw [isNone, get?_of_object h.object_eq]
  rfl

/-- A tuple of numbers is made an array that holds them, and stays what it is. -/
theorem exists_packsNumbers (hRoom : engine.HasRoom 1) (hTuple : engine.HoldsNumbers values tuple)
    (hCalls : engine.Calls id positional keywords (.numeric .array) b)
    (hObject : b.get? "object" = some tuple) (hType : engine.dtype? (b.get? "dtype") = .ok none) :
    ∃ array a next, (call id positional keywords).perform engine = (.ok array, next) ∧
      next.HoldsNumbers values tuple ∧ next.PacksNumbers values array a := by
  have hRegular : (Contents.ofLeaves [values.length] values).Regular :=
    Contents.regular_ofValues (by simp [Shape.size])
  obtain ⟨array, next, hRun, hExtends, -, hArray⟩ := hRoom.createArray
    (.fresh (.ofLeaves [values.length] values))
  refine ⟨array, _, next, ?_, ?_, hArray, ?_⟩
  · have hRequired : b.required "object" = .ok tuple := by rw [Bindings.required, hObject]
    rw [hCalls.perform_call, namedCall, numericCall, arrayOf, hRequired, bind_ok,
      hTuple.arrayContents_eq, bind_ok, hType, bind_ok]
    dsimp only
    rw [perform_always, hRun]
  · obtain ⟨items, hItems, hNumbers⟩ := hTuple
    exact ⟨items, hExtends.object_eq hItems, hNumbers.imp fun _ _ => hExtends.object_eq⟩
  · rw [hExtends.buffers_eq]
    exact NdArray.contents_allocate engine.buffers hRegular

end Calls

/-- Functions, and the tuple of an integer, a truth value and an integer. -/
def withLengths : Engine :=
  ofObjects [.none, .native (.numeric .array), .native (.numeric .zeros), .int 2, .bool true,
    .tuple [⟨3, 0⟩, ⟨4, 0⟩, ⟨3, 0⟩]] (.ofValues .int64 #[])

/-- Numbers can be made an array, which then is the same shape as the tuple of the numbers if none of
them is a float: all functions that take a shape or a size do the same with both, in all that comes of
it. If there is a float, the tuple is refused as no integers, and the array is truncated. -/
theorem shapeArgument_law (values : List Scalar) :
    (∀ (engine : Engine) (id tuple : ObjectId) (positional : List ObjectId)
      (keywords : List (String × ObjectId)) (b : CallBindings), engine.HasRoom 1 →
      engine.HoldsNumbers values tuple →
      engine.Calls id positional keywords (.numeric .array) b → b.get? "object" = some tuple →
      engine.dtype? (b.get? "dtype") = .ok none →
        ∃ array a next, (call id positional keywords).perform engine = (.ok array, next) ∧
          next.HoldsNumbers values tuple ∧ next.PacksNumbers values array a) ∧
    ∀ (engine : Engine) (tuple array : ObjectId) (a : NdArray), engine.HoldsNumbers values tuple →
      engine.PacksNumbers values array a →
      ((∀ value ∈ values, value.dtype ≠ .float64) →
        ∀ (native : Native) (name : String) (id id' : ObjectId) (positional positional' : List ObjectId)
          (keywords keywords' : List (String × ObjectId)) (b b' : CallBindings),
          shapeParameter native = some name → engine.Calls id positional keywords native b →
          engine.Calls id' positional' keywords' native b' → b.get? name = some tuple →
          b'.get? name = some array → (∀ other, other ≠ name → b.get? other = b'.get? other) →
            (call id positional keywords).perform engine
              = (call id' positional' keywords').perform engine) ∧
      ((∃ value ∈ values, value.dtype = .float64) →
        engine.shape tuple = .error (.notAnInteger "float") ∧
        (Exception.notAnInteger "float").kind = .typeError ∧
        engine.shape array = checkShape (values.map fun value => truncated value.toFloat) ∧
        ∀ e, engine.shape array = .error e → e.kind = .valueError) := by
  refine ⟨fun engine id tuple positional keywords b hRoom hTuple hCalls hObject hType =>
    exists_packsNumbers hRoom hTuple hCalls hObject hType,
    fun engine tuple array a hTuple hArray => ⟨fun hWhole => ?_, fun hFloat => ?_⟩⟩
  · intro native name id id' positional positional' keywords keywords' b b' hName hCalls hCalls'
      hLeft hRight hOthers
    have hSame : engine.SameShape name b b' :=
      ⟨hCalls.function_eq.trans hCalls'.function_eq.symm, hOthers, tuple, array, hLeft, hRight,
        hTuple.isNone_eq, hArray.isNone_eq, hArray.shape_eq hTuple hWhole⟩
    rw [hCalls.perform_call, hCalls'.perform_call, hSame.namedCall_eq hName]
  · have hShape := hArray.shape_of_float hFloat
    refine ⟨hTuple.shape_of_float hFloat, rfl, hShape, fun e hError => ?_⟩
    rw [hShape] at hError
    exact kind_of_checkShape hError

/-- With a truth value among the lengths, the tuple and the array that is made of it are the same
shape. -/
theorem shapeArgument_law_mixed : ∃ next,
    (call ⟨1, 0⟩ [⟨5, 0⟩] []).perform withLengths = (.ok ⟨6, 0⟩, next) ∧
      next.shape ⟨6, 0⟩ = .ok [2, 1, 2] ∧
      (call ⟨2, 0⟩ [⟨5, 0⟩] []).perform next = (call ⟨2, 0⟩ [⟨6, 0⟩] []).perform next := by
  have hTuple : withLengths.HoldsNumbers [.int 2, .bool true, .int 2] ⟨5, 0⟩ :=
    ⟨_, rfl, .cons rfl (.cons rfl (.cons rfl .nil))⟩
  have hRoom : withLengths.HasRoom 1 :=
    ⟨⟨by simp [withLengths, ofObjects], List.nodup_nil, rfl⟩, by decide⟩
  have hCalls : withLengths.Calls ⟨1, 0⟩ [⟨5, 0⟩] [] (.numeric .array)
      ⟨"array", [("object", some ⟨5, 0⟩), ("dtype", none)]⟩ := ⟨rfl, _, rfl, rfl⟩
  obtain ⟨hPacks, hLaw⟩ := shapeArgument_law [.int 2, .bool true, .int 2]
  obtain ⟨array, a, next, hRun, hHolds, hArray⟩ :=
    hPacks withLengths _ _ _ _ _ hRoom hTuple hCalls rfl rfl
  have hMade : (call ⟨1, 0⟩ [⟨5, 0⟩] []).perform withLengths
      = (.ok ⟨6, 0⟩, ((call ⟨1, 0⟩ [⟨5, 0⟩] []).perform withLengths).2) := rfl
  obtain ⟨hId, hNext⟩ := Prod.mk.inj (hRun.symm.trans hMade)
  cases hId
  subst hNext
  refine ⟨_, hMade, by decide +kernel, ?_⟩
  refine (hLaw _ _ _ _ hHolds hArray).1 (by decide) (.numeric .zeros) "shape" _ _ _ _ _ _
    ⟨"zeros", [("shape", some ⟨5, 0⟩), ("dtype", none)]⟩
    ⟨"zeros", [("shape", some ⟨6, 0⟩), ("dtype", none)]⟩ rfl ⟨rfl, _, rfl, rfl⟩ ⟨rfl, _, rfl, rfl⟩
    rfl rfl fun other hOther => ?_
  simp only [Bindings.get?, List.lookup_cons, beq_eq_false_iff_ne.mpr hOther]

/-- A tuple of the float two is refused as a shape, and the array that is made of it is the shape of
two elements. -/
theorem not_sameShape_of_float :
    let engine := ofObjects [.none, .native (.numeric .array), .native (.numeric .zeros), .float 2,
      .tuple [⟨3, 0⟩]] (.ofValues .int64 #[])
    let packed := (call ⟨1, 0⟩ [⟨4, 0⟩] []).perform engine
    let ofTuple := (call ⟨2, 0⟩ [⟨4, 0⟩] []).perform packed.2
    let ofArray := (call ⟨2, 0⟩ [⟨5, 0⟩] []).perform packed.2
    engine.HoldsNumbers [.float 2] ⟨4, 0⟩ ∧ packed.1 = .ok ⟨5, 0⟩ ∧
      ofTuple.1 = .error (.notAnInteger "float") ∧
      ofArray.1 = .ok ⟨6, 0⟩ ∧
      ofArray.2.object ⟨6, 0⟩ = .ok (.array ⟨⟨2⟩, .float64, [2], [1], 0⟩) :=
  ⟨⟨_, rfl, .cons rfl .nil⟩, rfl, by decide +kernel, by decide +kernel, by decide +kernel⟩

end Engine

end ArrayBridge
