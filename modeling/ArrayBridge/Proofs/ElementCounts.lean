import ArrayBridge.Proofs.LocationFaults
import ArrayBridge.Proofs.Nesting
import ArrayBridge.Proofs.Startup
import ArrayBridge.Proofs.StorageSharing
import Mathlib.Algebra.BigOperators.Group.List.Basic

/-! How many elements an array can have.

A shape that an argument or an index expression asks for is checked, and views, transposed and
reshaped arrays have no more elements than their source. So arrays go on to be addressable
unless somebody uses one of the conversions and computations that take the shape of their
result as it comes. They are few, and the first array that cannot be addressed is made by one
of them. -/

namespace ArrayBridge

namespace Shape

theorem size_eq_prod (shape : Shape) : shape.size = shape.prod := by
  induction shape with
  | nil => rfl
  | cons d ds ih => rw [size, ih, List.prod_cons]

/-- As many elements in the other order of the axes. -/
theorem size_reverse (shape : Shape) : size shape.reverse = shape.size := by
  rw [size_eq_prod, size_eq_prod]
  exact (List.reverse_perm shape).prod_eq

/-- Without an axis that is not empty there are no more elements. -/
theorem size_eraseIdx_le {shape : Shape} {axis : Nat} (hAxis : axis < shape.length)
    (hSome : shape[axis]? ≠ some 0) : size (shape.eraseIdx axis) ≤ shape.size := by
  rw [List.getElem?_eq_getElem hAxis, ne_eq, Option.some.injEq] at hSome
  have hProduct := List.CommMonoid.mul_prod_eraseIdx hAxis
  rw [size_eq_prod, size_eq_prod, ← hProduct]
  exact Nat.le_mul_of_pos_left _ (Nat.pos_of_ne_zero hSome)

end Shape

namespace Access

/-- The state after accesses, one after the other. -/
def history {σ : Type} [ForeignRuntime σ] (state : σ) (accesses : List Access) : σ :=
  accesses.foldl after state

/-- The contents that an access can make an array of. -/
def Shapes (engine : Engine) : Access → Contents → Prop
  | request asked => asked.Shapes engine
  | _ => fun _ => False

/-- An access whose result has more elements than can be addressed, and whose shape is not
checked. -/
inductive Unchecked (engine : Engine) : Access → Prop
  /-- A nest is converted. -/
  | converted (id : ObjectId) (c : Contents) (hNest : engine.nestContents id = .ok c)
      (hLarge : maxElements < c.shape.size) : Unchecked engine (.request (.asArray id))
  /-- A function takes over the elements of a nest. -/
  | takenOver {id : ObjectId} {positional : List ObjectId} {keywords : List (String × ObjectId)}
      {native : Native} {b : CallBindings} (hCalls : engine.Calls id positional keywords native b)
      (name : String) (nest : ObjectId) (c : Contents)
      (hNative : Engine.takenOver native = some name) (hArgument : b.required name = .ok nest)
      (hNest : engine.nestContents nest = .ok c) (hLarge : maxElements < c.shape.size) :
      Unchecked engine (.request (.call id positional keywords))
  /-- A sum removes the axis that is empty, or is that of a nest. -/
  | summed {id : ObjectId} {positional : List ObjectId} {keywords : List (String × ObjectId)}
      {b : CallBindings} (hCalls : engine.Calls id positional keywords (.numeric .sum) b)
      (summand : ObjectId) (c : Contents) (axis : Nat) (hArgument : b.required "a" = .ok summand)
      (hSummand : engine.arrayContents summand = .ok c) (hAxis : axis < c.rank)
      (hLarge : maxElements < Shape.size (c.shape.eraseIdx axis))
      (hSource : c.shape[axis]? = some 0 ∨ maxElements < c.shape.size) :
      Unchecked engine (.request (.call id positional keywords))
  /-- The shapes of two operands are stretched to a common one. -/
  | stretched {id : ObjectId} {positional : List ObjectId} {keywords : List (String × ObjectId)}
      {native : Native} {b : CallBindings} (hCalls : engine.Calls id positional keywords native b)
      (left right : Contents) (shape : Shape) (hNative : Engine.isElementwise native = true)
      (hOperands : engine.operands b = .ok (left, right))
      (hShape : left.shape.broadcast right.shape = .ok shape)
      (hLarge : maxElements < shape.size) : Unchecked engine (.request (.call id positional keywords))
  /-- A permutation of numbers is as long as an argument says. -/
  | counted {id : ObjectId} {positional : List ObjectId} {keywords : List (String × ObjectId)}
      {b : CallBindings} (hCalls : engine.Calls id positional keywords (.random .permutation) b)
      (argument : ObjectId) (n : Int64) (hArgument : b.required "x" = .ok argument)
      (hCount : engine.object argument = .ok (.int n)) (hLarge : maxElements < n.toNatClampNeg) :
      Unchecked engine (.request (.call id positional keywords))

end Access

namespace Engine

open Heap Operation

variable {engine next : Engine} {id : ObjectId}

/-- Every array has so many elements that they can be addressed. -/
def Addressable (engine : Engine) : Prop :=
  ∀ id a, engine.heap.get? id = some (.array a) → a.size ≤ maxElements

/-- The contents of an array-like object are those of an array or of a nest. -/
theorem size_of_arrayContents (h : engine.Addressable) {c : Contents}
    (hContents : engine.arrayContents id = .ok c) :
    c.shape.size ≤ maxElements ∨ ∃ nest, engine.nestContents id = .ok nest ∧ c = nest.trim := by
  obtain ⟨form, hForm, hEq⟩ := Outcome.bind_eq_ok_iff.mp hContents
  cases hEq
  rcases arrayForm_eq_ok hForm with ⟨a, hArray, rfl⟩ | ⟨-, nest, hNest, rfl⟩
  · exact .inl (h id a (get?_eq_some_iff.mpr (object_eq_ok_iff.mp hArray)))
  · exact .inr ⟨nest, hNest, rfl⟩

/-- Only an unchecked access makes contents with too many elements. -/
theorem unchecked_of_shapes (h : engine.Addressable) {access : Access} {c : Contents}
    (hShapes : access.Shapes engine c) (hLarge : maxElements < c.shape.size) :
    access.Unchecked engine := by
  have hNotChecked : ¬ c.Checked := by
    rintro ⟨count, hCount⟩
    obtain ⟨rfl, hFits⟩ := Shape.size_of_checkedSize hCount
    omega
  cases access with
  | request asked =>
      cases asked with
      | getAttribute id name =>
          obtain ⟨-, a, hArray, hShape⟩ := hShapes
          have hFits := h id a (get?_eq_some_iff.mpr (object_eq_ok_iff.mp hArray))
          rw [hShape, Shape.size_reverse] at hLarge
          exact absurd hFits (Nat.not_le.mpr hLarge)
      | getItem id key => exact (hNotChecked hShapes).elim
      | asArray id => exact .converted id c hShapes hLarge
      | call id positional keywords =>
          rcases hShapes with hChecked | ⟨native, b, hCalls, hDerives⟩
          · exact (hNotChecked hChecked).elim
          cases hDerives with
          | checked hChecked => exact (hNotChecked hChecked).elim
          | rearranged name argument source hNative hArgument hSource hSize =>
              rcases size_of_arrayContents h hSource with hFits | ⟨nest, hNest, rfl⟩
              · omega
              · exact .takenOver hCalls name argument nest hNative hArgument hNest (hSize ▸ hLarge)
          | summed argument source axis hNative hArgument hSource hAxis hShape =>
              subst hNative
              refine .summed hCalls argument source axis hArgument hSource hAxis (hShape ▸ hLarge) ?_
              by_cases hEmpty : source.shape[axis]? = some 0
              · exact .inl hEmpty
              · rw [hShape] at hLarge
                exact .inr (Nat.lt_of_lt_of_le hLarge (Shape.size_eraseIdx_le hAxis hEmpty))
          | combined left right hNative hOperands hShape =>
              exact .stretched hCalls left right c.shape hNative hOperands hShape hLarge
          | counted argument n hNative hArgument hCount hShape =>
              subst hNative
              refine .counted hCalls argument n hArgument hCount ?_
              rw [hShape, Shape.size, Shape.size, Nat.mul_one] at hLarge
              exact hLarge
      | _ => exact hShapes.elim
  | _ => exact hShapes.elim

/-- After an access all arrays can be addressed, or it was an unchecked one. -/
theorem Addressable.after (h : engine.Addressable) (hStored : engine.Stored) (access : Access) :
    (access.after engine).Addressable ∨ access.Unchecked engine := by
  by_cases hLarge : access.Unchecked engine
  · exact .inr hLarge
  refine .inl fun id a hNow => ?_
  rcases (footprint_of_access hStored access).arrays id a hNow with hBefore | ⟨hMade, -⟩
  · exact h id a hBefore
  cases access with
  | request asked =>
      cases hMade with
      | view source hShows _ hSize =>
          obtain ⟨other, hSource⟩ := hShows.exists_object
          exact Nat.le_trans hSize (h other source hSource)
      | fresh c _ _ hShapes hShape =>
          by_contra hMany
          refine hLarge (unchecked_of_shapes h (c := c) hShapes ?_)
          rw [← hShape]
          exact Nat.lt_of_not_le hMany
  | _ => exact hMade.elim

/-- If there is an array that cannot be addressed, one of the accesses was unchecked. -/
theorem Addressable.history (h : engine.Addressable) (hStored : engine.Stored)
    (accesses : List Access) : (Access.history engine accesses).Addressable ∨
      ∃ before access rest, accesses = before ++ access :: rest ∧
        access.Unchecked (Access.history engine before) := by
  induction accesses generalizing engine with
  | nil => exact .inl h
  | cons access accesses ih =>
      rcases h.after hStored access with hNext | hUnchecked
      · refine (ih hNext ((footprint_of_access hStored access).stored hStored)).imp_right ?_
        rintro ⟨before, later, rest, rfl, hUnchecked⟩
        exact ⟨access :: before, later, rest, rfl, hUnchecked⟩
      · exact .inr ⟨[], access, accesses, rfl, hUnchecked⟩

section Start

/-- The objects that stand for no value and for an argument are no arrays. -/
theorem no_array_of_bare (settings : EngineSettings) (entropy : Generator) (id : ObjectId)
    (a : NdArray) : (bare settings entropy).heap.get? id ≠ some (.array a) := by
  intro h
  have hBare : ((Heap.empty.allocate .none).2.allocate .noValue).2.get? id = some (.array a) := h
  rcases eq_of_get?_allocate hBare with hFirst | hEq
  · rcases eq_of_get?_allocate hFirst with hNone | hEq
    · simp [Heap.empty, get?, occupant?] at hNone
    · cases hEq
  · cases hEq

variable {made : NdArray → Prop} {written : BufferId → Nat → Prop}

theorem confined_createNatives (functions : List (String × Native)) :
    Confined written made engine (createNatives functions) := by
  induction functions generalizing engine with
  | nil => exact .refl engine
  | cons function functions ih =>
      obtain ⟨name, native⟩ := function
      rw [createNatives, List.mapM_cons]
      exact .bind (.bind (confined_create (by simp)) (.refl _)) (.bind ih (.refl _))

theorem confined_register (name : String) (id : ObjectId) :
    Confined written made engine (register name id) := .of_heap rfl fun _ _ h => h

/-- The start makes functions and modules. -/
theorem confined_createModules (root : String) : Confined written made engine (createModules root) := by
  refine .bind (.bind (confined_createNatives _) (confined_create (by simp))) (.bind ?_ ?_)
  · refine .bind (confined_createNatives _) (.bind confined_createNone ?_)
    exact .bind (confined_retain _) (confined_create (by simp))
  · refine .bind (confined_register _ _) (.bind (confined_register _ _) ?_)
    exact .bind (confined_retain _) (confined_register _ _)

/-- An engine starts without arrays. -/
theorem no_array_of_start {isDirectory : String → Bool} {entropy : Generator}
    {settings : EngineSettings} (h : start isDirectory entropy settings = .ok engine) (id : ObjectId)
    (a : NdArray) : engine.heap.get? id ≠ some (.array a) := by
  obtain ⟨_, _, h⟩ := Outcome.bind_eq_ok_iff.mp h
  obtain ⟨_, _, h⟩ := Outcome.bind_eq_ok_iff.mp h
  obtain rfl := Outcome.pure_eq_ok_iff.mp h
  intro hArray
  have hModules : Confined (fun _ _ => False) (fun _ => False) (bare settings entropy)
    (createModules settings.registeredRoot) := confined_createModules _
  rcases hModules.arrays id a hArray with hBare | ⟨hMade, -⟩
  · exact no_array_of_bare settings entropy id a hBare
  · exact hMade

end Start

section Refusal

variable {b : CallBindings} {name : String} {argument : ObjectId} {lengths : List Int64}

/-- The parameter that tells a function the shape of its result. -/
def shapeParameter : Native → Option String
  | .numeric .zeros | .numeric .ones | .numeric .full => some "shape"
  | .random .randint | .random .randomIntegers | .random .randomSample | .random .uniform
  | .random .normal | .random .choice => some "size"
  | _ => none

/-- Too many elements are a fault of the value. -/
theorem shape_eq_error (hLengths : engine.shapeLengths id = .ok lengths)
    (hLarge : maxElements < Shape.size (lengths.map Int64.toNatClampNeg)) :
    ∃ e, engine.shape id = .error e ∧ e.kind = .valueError := by
  rw [shape, hLengths]
  change ∃ e, checkShape lengths = .error e ∧ _
  unfold checkShape
  dsimp only
  split
  · exact ⟨.negativeDimension, rfl, rfl⟩
  · rw [Shape.checkedSize_of_lt_size hLarge]
    exact ⟨.shapeTooBig _, rfl, rfl⟩

/-- What can be read as a shape is an argument that was supplied. -/
theorem isNone_of_shapeLengths (hLengths : engine.shapeLengths id = .ok lengths) :
    engine.isNone id = false := by
  by_contra hNone
  rw [Bool.not_eq_false, isNone, decide_eq_true_eq] at hNone
  have hObject : engine.object id = .ok .none := object_eq_ok_iff.mpr (get?_eq_some_iff.mp hNone)
  have hInteger : engine.integer id = .error (.notAnInteger (engine.typeName id)) := by
    rw [integer, scalar?, hObject]
    rfl
  rw [shapeLengths, hObject] at hLengths
  change (engine.integer id >>= fun length => pure [length]) = _ at hLengths
  rw [hInteger] at hLengths
  cases hLengths

variable (hArgument : b.get? name = some argument)
  (hLengths : engine.shapeLengths argument = .ok lengths)
  (hLarge : maxElements < Shape.size (lengths.map Int64.toNatClampNeg))
include hArgument hLengths hLarge

/-- A function of the root module refuses a shape with too many elements. -/
theorem plans_nothing_numericCall {f : NumericFunction} (hName : shapeParameter (.numeric f) = some name) :
    Plans (fun _ => False) (engine.numericCall f b) := by
  obtain ⟨e, hShape, -⟩ := shape_eq_error hLengths hLarge
  have hRefused {shape : Shape} {found : ObjectId} (hFound : b.required name = .ok found)
      (hRead : engine.shape found = .ok shape) : False := by
    rw [Bindings.required, hArgument] at hFound
    cases hFound
    rw [hShape] at hRead
    cases hRead
  cases f with
  | zeros | ones =>
      cases hName
      exact plans_check fun found hFound => plans_check fun shape hRead => (hRefused hFound hRead).elim
  | full =>
      cases hName
      exact plans_check fun _ _ => plans_check fun _ _ => plans_check fun found hFound =>
        plans_check fun shape hRead => (hRefused hFound hRead).elim
  | _ => cases hName

/-- A sampler refuses a size with too many elements. -/
theorem plans_nothing_randomCall {f : RandomFunction} (hName : shapeParameter (.random f) = some name) :
    Plans (fun _ => False) (engine.randomCall f b) := by
  obtain ⟨e, hShape, -⟩ := shape_eq_error hLengths hLarge
  have hRefused {shape? : Option Shape} (hSize : name = "size") : engine.size? b ≠ .ok shape? := by
    subst hSize
    have hGiven : engine.given (b.get? "size") = some argument := by
      rw [hArgument, given, Option.filter, isNone_of_shapeLengths hLengths]
      rfl
    rw [size?, optional, hGiven]
    change (engine.shape argument >>= fun shape => pure (some shape)) ≠ _
    rw [hShape]
    exact fun hEq => by cases hEq
  cases f with
  | randint =>
      cases hName
      refine plans_check fun (low, high) _ => ?_
      dsimp only
      split
      · exact plans_throw_bind _ _
      · refine plans_check fun dtype _ => ?_
        split
        · exact plans_throw_bind _ _
        · exact plans_check fun _ hRead => (hRefused rfl hRead).elim
  | randomIntegers =>
      cases hName
      refine plans_check fun (low, high) _ => ?_
      dsimp only
      split
      · exact plans_throw_bind _ _
      · exact plans_check fun _ hRead => (hRefused rfl hRead).elim
  | randomSample =>
      cases hName
      exact plans_check fun _ hRead => (hRefused rfl hRead).elim
  | uniform =>
      cases hName
      exact plans_check fun _ _ => plans_check fun _ _ => plans_check fun _ hRead =>
        (hRefused rfl hRead).elim
  | normal =>
      cases hName
      refine plans_check fun location _ => plans_check fun scale _ => ?_
      dsimp only
      split
      · exact plans_throw_bind _ _
      · exact plans_check fun _ hRead => (hRefused rfl hRead).elim
  | choice =>
      cases hName
      refine plans_check fun source _ => plans_check fun pool _ => ?_
      dsimp only
      split
      · exact plans_throw_bind _ _
      · exact plans_check fun _ _ => plans_check fun _ _ => plans_check fun _ hRead =>
          (hRefused rfl hRead).elim
  | _ => cases hName

/-- A call that asks for too many elements is refused. -/
theorem refused_of_calls {native : Native} {positional : List ObjectId}
    {keywords : List (String × ObjectId)} (hCalls : engine.Calls id positional keywords native b)
    (hName : shapeParameter native = some name) :
    ∃ e, (call id positional keywords).perform engine = (.error e, engine) := by
  obtain ⟨parameters, hParameters, hBound⟩ := hCalls.bound
  have hNothing : Plans (fun _ => False)
      (engine.nativeCall native (engine.argumentsOf positional keywords)) := by
    cases native with
    | numeric f =>
        cases hParameters
        refine plans_check fun found hFound => ?_
        cases hBound.symm.trans hFound
        exact plans_nothing_numericCall hArgument hLengths hLarge hName
    | random f =>
        have hOwn : f.parameters? = some parameters := hParameters
        rw [nativeCall, hOwn]
        refine plans_check fun found hFound => ?_
        cases hBound.symm.trans hFound
        exact plans_nothing_randomCall hArgument hLengths hLarge hName
  rw [call, perform_get, perform_check, hCalls.function]
  dsimp only
  cases hNothing with
  | refuses e hOp =>
      rw [hOp]
      exact ⟨e, rfl⟩
  | acts action hKind => exact hKind.elim

end Refusal

/-- An index expression refuses a gathering of too many elements. -/
theorem locate_of_large_gathering {a : NdArray} {selectors : List Selector}
    {axes : List AxisSelection} {common : Shape} (hRank : selectors.length ≤ a.rank)
    (hAxes : Selector.resolveFrom 0 (a.completed selectors) a.shape = .ok axes)
    (hGathers : ∃ s ∈ selectors, s.isGathering = true)
    (hCommon : Shape.joinAll? (axes.filterMap AxisSelection.indexShape?) = some common)
    (hLarge : maxElements < (AxisSelection.gatheredShape axes common).size) :
    a.locate selectors = .error (.shapeTooBig (AxisSelection.gatheredShape axes common)) := by
  have hGather : a.gather axes = .error (.shapeTooBig (AxisSelection.gatheredShape axes common)) := by
    rw [NdArray.gather, hCommon]
    change (Shape.checkedSize (AxisSelection.gatheredShape axes common) >>= fun _ => _) = _
    rw [Shape.checkedSize_of_lt_size hLarge]
    rfl
  rw [NdArray.locate, if_neg (Nat.not_lt.mpr hRank)]
  change (Selector.resolveFrom 0 (a.completed selectors) a.shape >>= fun _ => _) = _
  rw [hAxes]
  exact (if_pos ((NdArray.any_isPicked_iff hRank hAxes).mpr hGathers)).trans hGather

/-- While an engine runs, all of its arrays can be addressed, or one of the accesses before was
an unchecked one: a nest or what is computed from it, a sum along an empty axis, operands
that are stretched, or a permutation of so many numbers. Whoever asks for too many elements by a
shape, a size or index arrays is refused, as a fault of the value. -/
theorem addressable_of_history {isDirectory : String → Bool} {entropy : Generator}
    {settings : EngineSettings} (hStart : start isDirectory entropy settings = .ok engine)
    (accesses : List Access) :
    ((∀ id a, (Access.history engine accesses).heap.get? id = some (.array a) →
        a.size ≤ maxElements) ∨
      ∃ before access rest, accesses = before ++ access :: rest ∧
        access.Unchecked (Access.history engine before)) ∧
    (∀ (state : Engine) (argument : ObjectId) (lengths : List Int64),
      state.shapeLengths argument = .ok lengths →
      maxElements < Shape.size (lengths.map Int64.toNatClampNeg) →
        (∃ e, state.shape argument = .error e ∧ e.kind = .valueError) ∧
        ∀ (id : ObjectId) (positional : List ObjectId) (keywords : List (String × ObjectId))
          (native : Native) (b : CallBindings) (name : String),
          state.Calls id positional keywords native b → shapeParameter native = some name →
          b.get? name = some argument →
            ∃ e, (RuntimeRequest.call id positional keywords).operation.perform state
              = (.error e, state)) ∧
    ∀ (a : NdArray) (selectors : List Selector) (axes : List AxisSelection) (common : Shape),
      selectors.length ≤ a.rank →
      Selector.resolveFrom 0 (a.completed selectors) a.shape = .ok axes →
      (∃ s ∈ selectors, s.isGathering = true) →
      Shape.joinAll? (axes.filterMap AxisSelection.indexShape?) = some common →
      maxElements < (AxisSelection.gatheredShape axes common).size →
        ∃ e, a.locate selectors = .error e ∧ e.kind = .valueError := by
  refine ⟨?_, fun state argument lengths hLengths hLarge => ⟨shape_eq_error hLengths hLarge, ?_⟩, ?_⟩
  · refine Addressable.history (fun id a h => ?_) (fun id a h => ?_) accesses
    · exact (no_array_of_start hStart id a h).elim
    · exact (no_array_of_start hStart id a h).elim
  · intro id positional keywords native b name hCalls hName hArgument
    exact refused_of_calls hArgument hLengths hLarge hCalls hName
  · intro a selectors axes common hRank hAxes hGathers hCommon hLarge
    exact ⟨_, locate_of_large_gathering hRank hAxes hGathers hCommon hLarge, rfl⟩

/-- An array of one truth value, used in a tuple of eight, beside which it stands seven times in
another tuple, and so on. Each tuple takes the array for an item of the shape of the tuple
before, so the nest has twenty axes and few values. -/
def blocks : List Access :=
  [.request (.build (.bool true)), .request (.asArray ⟨33, 0⟩),
    .request (.build (.tuple (List.replicate 8 ⟨34, 0⟩)))] ++
  (List.range 19).map (fun k =>
    .request (.build (.tuple (⟨(35 + k).toUInt32, 0⟩ :: List.replicate 7 ⟨34, 0⟩)))) ++
  [.request (.asArray ⟨54, 0⟩)]

/-- An engine that starts with the seed seven. -/
def seeded : Engine := ((createModules "numeric").run (bare ⟨none, none, "numeric", some 7⟩ ⟨0⟩)).2

theorem start_seeded : start (fun _ => true) ⟨0⟩ ⟨none, none, "numeric", some 7⟩ = .ok seeded := rfl

theorem get?_blocks : (Access.history seeded blocks).heap.get? ⟨55, 0⟩ = some (.array
    ⟨⟨1⟩, .bool, List.replicate 20 8, NdArray.rowMajorStrides (List.replicate 20 8), 0⟩) := by
  decide +kernel

theorem maxElements_lt_blocks : maxElements < Shape.size (List.replicate 20 8) := by decide +kernel

/-- The nest of blocks is converted to an array of two to the power of sixty elements. -/
theorem not_addressable_of_blocks : ∃ engine accesses id a,
    start (fun _ => true) ⟨0⟩ ⟨none, none, "numeric", some 7⟩ = .ok engine ∧
      (Access.history engine accesses).heap.get? id = some (.array a) ∧ maxElements < a.size :=
  ⟨seeded, blocks, ⟨55, 0⟩, _, start_seeded, get?_blocks, maxElements_lt_blocks⟩

/-- One of the accesses that make the blocks is an unchecked one. -/
theorem unchecked_of_blocks : ∃ engine,
    start (fun _ => true) ⟨0⟩ ⟨none, none, "numeric", some 7⟩ = .ok engine ∧
      ∃ before access rest, blocks = before ++ access :: rest ∧
        access.Unchecked (Access.history engine before) := by
  obtain ⟨hBounded, -, -⟩ := addressable_of_history start_seeded blocks
  refine ⟨seeded, start_seeded, hBounded.resolve_left fun hAll => ?_⟩
  exact Nat.not_le.mpr maxElements_lt_blocks (hAll ⟨55, 0⟩ _ get?_blocks)

end Engine

end ArrayBridge
