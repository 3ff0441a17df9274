import ArrayBridge.Proofs.Addressing
import ArrayBridge.Proofs.EngineLedger

/-! The effects of built-in functions.

Once the arguments of a call are accepted, what remains is to make one new object or
to share one that exists, besides draws and writes to buffers. So every function
gives exactly one new reference and keeps none of its own.

Most functions make something new of their arguments. Only three of them do anything with
an array that exists: one gives it back, one shows it in another shape, one shuffles it. -/

namespace ArrayBridge

/-- Contents whose number of elements was checked. -/
def Contents.Checked (c : Contents) : Prop := ∃ count, c.shape.checkedSize = .ok count

namespace Engine

open Heap Operation

variable {guard : Guard} {engine : Engine} {b : CallBindings} {native : Native}

/-- What a function does to give a result of its own: after draws and writes to buffers it
makes one object, or gives the one that stands for no value. -/
inductive Makes : Effect → Prop
  | array (form : ArrayForm) (hForm : form.Anchored) : Makes (createArray form)
  | result (form : ArrayForm) (hForm : form.Anchored) : Makes (createResult form)
  | object (object : Object) (hFixed : object.isFixed = true) (hChildren : object.children = []) :
      Makes (create object)
  | none : Makes createNone
  | drawn {α : Type} (f : Generator → α × Generator) (rest : α → Effect)
      (hRest : ∀ a, Makes (rest a)) : Makes (draw f >>= rest)
  | seeded (rest : UInt64 → Effect) (hRest : ∀ seed, Makes (rest seed)) : Makes (drawSeed >>= rest)
  | written {α : Type} (f : BufferStore → α × BufferStore) (rest : α → Effect)
      (hRest : ∀ a, Makes (rest a)) : Makes (onBuffers f >>= rest)

/-- What a function does that makes something new: after draws it makes an object that holds
no array, or an array of contents of its own. -/
inductive Originates (allowed : Contents → Prop) : Effect → Prop
  | array (c : Contents) (hAllowed : allowed c) : Originates allowed (createArray (.fresh c))
  | result (c : Contents) (hAllowed : allowed c) : Originates allowed (createResult (.fresh c))
  | object (object : Object) (hFixed : object.isFixed = true) (hChildren : object.children = []) :
      Originates allowed (create object)
  | none : Originates allowed createNone
  | drawn {α : Type} (f : Generator → α × Generator) (rest : α → Effect)
      (hRest : ∀ a, Originates allowed (rest a)) : Originates allowed (draw f >>= rest)
  | seeded (rest : UInt64 → Effect) (hRest : ∀ seed, Originates allowed (rest seed)) :
      Originates allowed (drawSeed >>= rest)

/-- What a function does to shuffle an array. -/
def shuffleRows (engine : Engine) (a : NdArray) : Effect := do
  let contents := a.contents engine.buffers
  let order ← drawOrder (contents.shape.headD 0)
  write a.buffer (a.offsets.toList.zip (rowsInOrder contents order).toList)
  createNone

/-- What a function does to shuffle a list. -/
def shuffleList (id : ObjectId) (items : List ObjectId) : Effect := do
  let items ← draw (Generator.shuffle items.toArray)
  onHeap fun heap => ((), heap.replace id (.list items.toList))
  createNone

/-- What a function does with its arguments: it makes a result, or shares an object that it
read, or shuffles a list. -/
inductive Answers (engine : Engine) : Effect → Prop
  | makes {effect : Effect} (hMakes : Makes effect) : Answers engine effect
  | shares (id : ObjectId) (object : Object) (hObject : engine.object id = .ok object) :
      Answers engine (share id)
  | shuffles (id : ObjectId) (items : List ObjectId) (hList : engine.object id = .ok (.list items)) :
      Answers engine (shuffleList id items)

/-- The parameter whose elements a function takes over as they are, if it has one. -/
def takenOver : Native → Option String
  | .numeric .array => some "object"
  | .numeric .asarray | .numeric .copy | .numeric .reshape => some "a"
  | .random .permutation => some "x"
  | _ => none

/-- Whether a function works on two operands element by element. -/
def isElementwise : Native → Bool
  | .numeric .add | .numeric .subtract | .numeric .multiply | .numeric .lcm | .numeric .gcd => true
  | _ => false

/-- The contents that a function can make of its arguments, by what is known of their shape. -/
inductive Derives (engine : Engine) (b : CallBindings) (native : Native) (c : Contents) : Prop
  | checked (h : c.Checked)
  /-- The elements of an array-like argument, possibly in another arrangement. -/
  | rearranged (name : String) (id : ObjectId) (source : Contents)
      (hNative : takenOver native = some name) (hArgument : b.required name = .ok id)
      (hSource : engine.arrayContents id = .ok source) (hSize : c.shape.size = source.shape.size)
  /-- An array-like argument without one of its axes. -/
  | summed (id : ObjectId) (source : Contents) (axis : Nat) (hNative : native = .numeric .sum)
      (hArgument : b.required "a" = .ok id) (hSource : engine.arrayContents id = .ok source)
      (hAxis : axis < source.rank) (hShape : c.shape = source.shape.eraseIdx axis)
  /-- Two array-like arguments, element by element. -/
  | combined (left right : Contents) (hNative : isElementwise native = true)
      (hOperands : engine.operands b = .ok (left, right))
      (hShape : left.shape.broadcast right.shape = .ok c.shape)
  /-- As many numbers as an argument says. -/
  | counted (id : ObjectId) (n : Int64) (hNative : native = .random .permutation)
      (hArgument : b.required "x" = .ok id) (hCount : engine.object id = .ok (.int n))
      (hShape : c.shape = [n.toNatClampNeg])

/-- What each built-in function does with its arguments. -/
inductive Performs (engine : Engine) (b : CallBindings) : Native → Effect → Prop
  | originates {native : Native} {effect : Effect} (hNative : native ≠ .numeric .reshape)
      (h : Originates (Derives engine b native) effect) : Performs engine b native effect
  /-- An array that has the element type already is given back as it is. -/
  | shares (id : ObjectId) (a : NdArray) (hArray : engine.object id = .ok (.array a)) :
      Performs engine b (.numeric .asarray) (share id)
  /-- A contiguous array is shown in another shape. -/
  | reshapes (id : ObjectId) (a : NdArray) (shape : Shape) (hArgument : b.required "a" = .ok id)
      (hArray : engine.object id = .ok (.array a)) (hContiguous : a.isContiguous = true)
      (hSize : shape.size = a.size) :
      Performs engine b (.numeric .reshape) (createArray (.view
        ⟨a.buffer, a.dtype, shape, NdArray.rowMajorStrides shape, a.offset⟩))
  /-- What is no contiguous array is copied into another shape. -/
  | copies (id : ObjectId) (c : Contents) (hArgument : b.required "a" = .ok id)
      (hApart : ∀ a, engine.object id = .ok (.array a) → a.isContiguous = false)
      (hDerives : Derives engine b (.numeric .reshape) c) :
      Performs engine b (.numeric .reshape) (createArray (.fresh c))
  | shufflesRows (id : ObjectId) (a : NdArray) (hArgument : b.required "x" = .ok id)
      (hArray : engine.object id = .ok (.array a)) :
      Performs engine b (.random .shuffle) (engine.shuffleRows a)
  | shufflesList (id : ObjectId) (items : List ObjectId)
      (hList : engine.object id = .ok (.list items)) :
      Performs engine b (.random .shuffle) (shuffleList id items)

namespace Originates

variable {allowed wider : Contents → Prop} {effect : Effect}

theorem number (value : Scalar) : Originates allowed (create (.ofScalar value)) := by
  cases value <;> exact .object _ rfl rfl

/-- Drawing an order of rows is a draw. -/
theorem ordered (rows : Nat) {rest : List Nat → Effect}
    (hRest : ∀ order, Originates allowed (rest order)) :
    Originates allowed (drawOrder rows >>= rest) := by
  rw [drawOrder, bind_assoc]
  exact .drawn _ _ fun order => hRest order.toList

theorem mono (h : Originates allowed effect) (hWider : ∀ c, allowed c → wider c) :
    Originates wider effect := by
  induction h with
  | array c hAllowed => exact .array c (hWider c hAllowed)
  | result c hAllowed => exact .result c (hWider c hAllowed)
  | object object hFixed hChildren => exact .object object hFixed hChildren
  | none => exact .none
  | drawn f rest _ ih => exact .drawn f rest ih
  | seeded rest _ ih => exact .seeded rest ih

theorem makes (h : Originates allowed effect) : Makes effect := by
  induction h with
  | array c _ => exact .array _ trivial
  | result c _ => exact .result _ trivial
  | object object hFixed hChildren => exact .object object hFixed hChildren
  | none => exact .none
  | drawn f rest _ ih => exact .drawn f rest ih
  | seeded rest _ ih => exact .seeded rest ih

end Originates

/-- Shuffling an array makes no object besides writing its rows. -/
theorem makes_shuffleRows (a : NdArray) : Makes (engine.shuffleRows a) := by
  unfold shuffleRows
  dsimp only
  rw [drawOrder, bind_assoc]
  refine .drawn _ _ fun order => ?_
  rw [pure_bind]
  exact .written _ _ fun _ => .none

theorem Makes.fresh (c : Contents) : Makes (createArray (.fresh c)) := .array _ trivial

/-- What a function does is an answer to its call. -/
theorem Performs.answers {native : Native} {effect : Effect} (h : Performs engine b native effect) :
    Answers engine effect := by
  cases h with
  | originates _ hOriginates => exact .makes hOriginates.makes
  | shares id a hArray => exact .shares id _ hArray
  | reshapes id a shape => exact .makes (.array _ (NdArray.anchored_rowMajor _ _ shape _))
  | copies id c => exact .makes (.fresh c)
  | shufflesRows id a => exact .makes (makes_shuffleRows a)
  | shufflesList id items hList => exact .shuffles id items hList

/-- All functions but two make what they give. -/
theorem Performs.makes {effect : Effect} (h : Performs engine b native effect)
    (hShares : native ≠ .numeric .asarray) (hShuffles : native ≠ .random .shuffle) : Makes effect := by
  cases h with
  | originates _ hOriginates => exact hOriginates.makes
  | shares => exact (hShares rfl).elim
  | reshapes id a shape => exact .array _ (NdArray.anchored_rowMajor _ _ shape _)
  | copies id c => exact .fresh c
  | shufflesRows => exact (hShuffles rfl).elim
  | shufflesList => exact (hShuffles rfl).elim

section Shapes

open Outcome

/-- Only checked shapes are read from an argument. -/
theorem checkedSize_of_checkShape {lengths : List Int64} {shape : Shape}
    (h : checkShape lengths = .ok shape) : ∃ count, shape.checkedSize = .ok count := by
  unfold checkShape at h
  dsimp only at h
  split at h
  · cases h
  · obtain ⟨count, hCount, hShape⟩ := bind_eq_ok_iff.mp h
    cases hShape
    exact ⟨count, hCount⟩

/-- A size is a shape of checked lengths. -/
theorem exists_checkShape_of_size? {shape : Shape} (h : engine.size? b = .ok (some shape)) :
    ∃ lengths, checkShape lengths = .ok shape := by
  unfold size? optional at h
  cases hSlot : engine.given (b.get? "size") with
  | none =>
      rw [hSlot] at h
      cases h
  | some id =>
      rw [hSlot] at h
      obtain ⟨found, hFound, hShape⟩ := bind_eq_ok_iff.mp h
      cases hShape
      obtain ⟨lengths, -, hLengths⟩ := bind_eq_ok_iff.mp hFound
      exact ⟨lengths, hLengths⟩

theorem checkedSize_of_size? {shape : Shape} (h : engine.size? b = .ok (some shape)) :
    ∃ count, shape.checkedSize = .ok count := by
  obtain ⟨lengths, hLengths⟩ := exists_checkShape_of_size? h
  exact checkedSize_of_checkShape hLengths

theorem checked_filled {dtype : DType} {shape : Shape} {value : Scalar} {c : Contents}
    (h : Contents.filled dtype shape value = .ok c) : c.Checked := by
  obtain ⟨count, hCount, h⟩ := bind_eq_ok_iff.mp h
  obtain ⟨-, -, h⟩ := bind_eq_ok_iff.mp h
  obtain ⟨-, -, h⟩ := bind_eq_ok_iff.mp h
  cases h
  exact ⟨count, hCount⟩

/-- The length of a range is that of a checked axis. -/
theorem checkedSize_of_rangeLength {start stop step : Float} {length : Nat}
    (h : rangeLength start stop step = .ok length) :
    ∃ count, Shape.checkedSize [length] = .ok count := by
  have hLast {n : Nat} (h : (Shape.checkedSize [n] >>= fun length => do
      reserve length
      return length) = .ok length) : ∃ count, Shape.checkedSize [length] = .ok count := by
    obtain ⟨count, hCount, h⟩ := bind_eq_ok_iff.mp h
    obtain ⟨_, -, h⟩ := bind_eq_ok_iff.mp h
    cases h
    obtain ⟨hSize, -⟩ := Shape.size_of_checkedSize hCount
    rw [Shape.size, Shape.size, Nat.mul_one] at hSize
    exact ⟨length, hSize ▸ hCount⟩
  unfold rangeLength at h
  dsimp only at h
  split at h
  · cases h
  · split at h
    · cases h
    · split at h
      · cases h
      · exact hLast h

theorem shape_zipWith {left right c : Contents} {dtype : DType}
    {op : Scalar → Scalar → Except Exception Scalar} (h : left.zipWith right dtype op = .ok c) :
    left.shape.broadcast right.shape = .ok c.shape := by
  simp only [Contents.zipWith, bind_eq_ok_iff, pure_eq_ok_iff] at h
  obtain ⟨shape, hShape, -, -, xs, -, ys, -, values, -, rfl⟩ := h
  exact hShape

theorem lt_of_resolveAxis {axis : Int64} {rank resolved : Nat}
    (h : resolveAxis axis rank = .ok resolved) : resolved < rank := by
  unfold resolveAxis at h
  extract_lets position at h
  split at h
  · rename_i hRange
    cases h
    omega
  · cases h

end Shapes

section Numeric

theorem plans_arrayOf : Plans (Originates (Derives engine b (.numeric .array))) (engine.arrayOf b) := by
  refine plans_check fun id hArgument => plans_check fun contents hContents =>
    plans_check fun dtype _ => ?_
  cases dtype with
  | some dtype => exact plans_always (.array _ (.rearranged _ id contents rfl hArgument hContents rfl))
  | none => exact plans_always (.array _ (.rearranged _ id contents rfl hArgument hContents rfl))

/-- What is not an array of the element type is converted. -/
theorem rearranged_of_converted {id : ObjectId} {dtype : Option DType} {c : Contents}
    (hArgument : b.required "a" = .ok id) (h : asArrayOf.converted engine id dtype = .ok c) :
    Derives engine b (.numeric .asarray) c := by
  obtain ⟨contents, hContents, h⟩ := Outcome.bind_eq_ok_iff.mp h
  refine .rearranged _ id contents rfl hArgument hContents ?_
  cases dtype with
  | some dtype =>
      cases h
      rfl
  | none =>
      cases h
      rfl

theorem plans_asArrayOf : Plans (Performs engine b (.numeric .asarray)) (engine.asArrayOf b) := by
  have hFresh {id : ObjectId} {dtype : Option DType} (hArgument : b.required "a" = .ok id) :
      Plans (Performs engine b (.numeric .asarray))
        (liftM (asArrayOf.converted engine id dtype) >>= fun c =>
          always (createArray (.fresh c)) : NativeOp) :=
    plans_check fun c hConverted => plans_always
      (.originates (by decide) (.array c (rearranged_of_converted hArgument hConverted)))
  refine plans_check fun id hArgument => plans_check fun dtype _ =>
    plans_check fun object hObject => ?_
  split
  · split
    · exact plans_always (.shares id _ hObject)
    · exact hFresh hArgument
  · exact hFresh hArgument

theorem plans_rangeOf : Plans (Originates (Derives engine b native)) (engine.rangeOf b) := by
  refine plans_check fun first _ => ?_
  split
  refine plans_check fun _ _ => plans_check fun _ _ => plans_check fun _ _ =>
    plans_check fun _ _ => plans_check fun length hLength => ?_
  exact plans_always (.array _ (.checked (checkedSize_of_rangeLength hLength)))

theorem plans_constantOf (value : Scalar) :
    Plans (Originates (Derives engine b native)) (engine.constantOf b value) := by
  refine plans_check fun _ _ => plans_check fun _ _ => plans_check fun _ _ =>
    plans_check fun c hFilled => ?_
  exact plans_always (.array c (.checked (checked_filled hFilled)))

theorem plans_fullOf : Plans (Originates (Derives engine b native)) (engine.fullOf b) := by
  refine plans_check fun _ _ => plans_check fun _ _ => plans_check fun _ _ =>
    plans_check fun _ _ => plans_check fun _ _ => plans_check fun c hFilled => ?_
  exact plans_always (.array c (.checked (checked_filled hFilled)))

/-- An array stands for itself, and any other object for the contents of a nest. -/
theorem arrayForm_eq_ok {id : ObjectId} {form : ArrayForm} (h : engine.arrayForm id = .ok form) :
    (∃ a, engine.object id = .ok (.array a) ∧ form = .view a) ∨
      (∀ a, engine.object id ≠ .ok (.array a)) ∧
        ∃ c, engine.nestContents id = .ok c ∧ form = .fresh c := by
  obtain ⟨object, hObject, h⟩ := Outcome.bind_eq_ok_iff.mp h
  rw [hObject]
  split at h
  · cases h
    exact .inl ⟨_, rfl, rfl⟩
  · rename_i hOther
    obtain ⟨c, hNest, h⟩ := Outcome.bind_eq_ok_iff.mp h
    cases h
    refine .inr ⟨fun a hArray => ?_, c, hNest, rfl⟩
    cases hArray
    exact hOther a rfl

theorem plans_reshapeOf : Plans (Performs engine b (.numeric .reshape)) (engine.reshapeOf b) := by
  refine plans_check fun id hArgument => plans_check fun form hForm => plans_check fun _ _ =>
    plans_check fun dimensions _ => plans_check fun reshaped hReshape => plans_always ?_
  have hContents : engine.arrayContents id = .ok (form.contents engine.buffers) := by
    rw [arrayContents, hForm]
    rfl
  rcases arrayForm_eq_ok hForm with ⟨a, hArray, rfl⟩ | ⟨hOther, c, -, rfl⟩
  · obtain ⟨shape, hInfer, -, rfl⟩ := NdArray.reshape_eq_ok_iff.mp hReshape
    have hSize := Shape.size_of_infer hInfer
    unfold NdArray.withShape
    split
    · rename_i hContiguous
      exact .reshapes id a shape hArgument hArray hContiguous hSize
    · rename_i hScattered
      refine .copies id _ hArgument (fun other hSame => ?_)
        (.rearranged _ id _ rfl hArgument hContents hSize)
      cases hArray.symm.trans hSame
      exact Bool.eq_false_iff.mpr hScattered
  · obtain ⟨shape, hInfer, hReshape⟩ := Outcome.bind_eq_ok_iff.mp hReshape
    obtain ⟨-, -, hEq⟩ := Outcome.bind_eq_ok_iff.mp hReshape
    cases hEq
    exact .copies id _ hArgument (fun a hArray => (hOther a hArray).elim)
      (.rearranged _ id _ rfl hArgument hContents (Shape.size_of_infer hInfer))

theorem plans_copyOf : Plans (Originates (Derives engine b (.numeric .copy))) (engine.copyOf b) :=
  plans_check fun id hArgument => plans_check fun contents hContents =>
    plans_always (.array _ (.rearranged _ id contents rfl hArgument hContents rfl))

theorem plans_sumOf : Plans (Originates (Derives engine b (.numeric .sum))) (engine.sumOf b) := by
  refine plans_check fun id hArgument => plans_check fun contents hContents => ?_
  split
  · exact plans_always (.number _)
  · refine plans_check fun _ _ => plans_check fun axis hAxis => ?_
    exact plans_always (.result _ (.summed id contents axis rfl hArgument hContents
      (lt_of_resolveAxis hAxis) rfl))

theorem plans_arithmeticOf (hNative : isElementwise native = true) (op : Arithmetic) :
    Plans (Originates (Derives engine b native)) (engine.arithmeticOf b op) := by
  refine plans_check fun (left, right) hOperands => ?_
  dsimp only
  split
  · exact plans_check fun c hZip =>
      plans_always (.result c (.combined left right hNative hOperands (shape_zipWith hZip)))
  · exact plans_throw _

theorem plans_integerArithmeticOf (hNative : isElementwise native = true)
    (f : Int64 → Int64 → Int64) :
    Plans (Originates (Derives engine b native)) (engine.integerArithmeticOf b f) := by
  refine plans_check fun (left, right) hOperands => ?_
  dsimp only
  split
  · exact plans_throw_bind _ _
  · exact plans_check fun c hZip =>
      plans_always (.result c (.combined left right hNative hOperands (shape_zipWith hZip)))

theorem plans_originates {native : Native} {op : NativeOp} (hNative : native ≠ .numeric .reshape)
    (h : Plans (Originates (Derives engine b native)) op) : Plans (Performs engine b native) op :=
  h.mono fun _ => .originates hNative

/-- Every function of the root module refuses its arguments or answers the call. -/
theorem plans_numericCall (f : NumericFunction) :
    Plans (Performs engine b (.numeric f)) (engine.numericCall f b) := by
  cases f with
  | array => exact plans_originates (by decide) plans_arrayOf
  | asarray => exact plans_asArrayOf
  | arange => exact plans_originates (by decide) plans_rangeOf
  | zeros => exact plans_originates (by decide) (plans_constantOf _)
  | ones => exact plans_originates (by decide) (plans_constantOf _)
  | full => exact plans_originates (by decide) plans_fullOf
  | reshape => exact plans_reshapeOf
  | copy => exact plans_originates (by decide) plans_copyOf
  | sum => exact plans_originates (by decide) plans_sumOf
  | add => exact plans_originates (by decide) (plans_arithmeticOf rfl _)
  | subtract => exact plans_originates (by decide) (plans_arithmeticOf rfl _)
  | multiply => exact plans_originates (by decide) (plans_arithmeticOf rfl _)
  | lcm => exact plans_originates (by decide) (plans_integerArithmeticOf rfl _)
  | gcd => exact plans_originates (by decide) (plans_integerArithmeticOf rfl _)

end Numeric

section Random

theorem plans_sample (dtype : DType) (sampler : Sampler) (shape? : Option Shape) :
    Plans (Originates Contents.Checked) (sample dtype sampler shape?) := by
  unfold sample
  cases shape? with
  | none => exact plans_always (.drawn _ _ fun _ => .number _)
  | some shape =>
      refine plans_check fun count hCount => plans_check fun _ _ => plans_check fun _ _ => ?_
      exact plans_always (.drawn _ _ fun _ => .array _ ⟨count, hCount⟩)

theorem plans_seedOf : Plans (Originates Contents.Checked) (engine.seedOf b) := by
  unfold seedOf
  split
  · refine plans_check fun seed _ => ?_
    dsimp only
    split
    · exact plans_throw_bind _ _
    · exact plans_always (.drawn _ _ fun _ => .none)
  · exact plans_always (.seeded _ fun _ => .drawn _ _ fun _ => .none)

theorem plans_randintOf : Plans (Originates Contents.Checked) (engine.randintOf b) := by
  refine plans_check fun (low, high) _ => ?_
  dsimp only
  split
  · exact plans_throw_bind _ _
  · refine plans_check fun dtype _ => ?_
    split
    · exact plans_throw_bind _ _
    · exact plans_check fun _ _ => plans_sample _ _ _

theorem plans_randomIntegersOf : Plans (Originates Contents.Checked) (engine.randomIntegersOf b) := by
  refine plans_check fun (low, high) _ => ?_
  dsimp only
  split
  · exact plans_throw_bind _ _
  · exact plans_check fun _ _ => plans_sample _ _ _

theorem plans_randomSampleOf : Plans (Originates Contents.Checked) (engine.randomSampleOf b) :=
  plans_check fun _ _ => plans_sample _ _ _

theorem plans_uniformOf : Plans (Originates Contents.Checked) (engine.uniformOf b) :=
  plans_check fun _ _ => plans_check fun _ _ => plans_check fun _ _ => plans_sample _ _ _

theorem plans_normalOf : Plans (Originates Contents.Checked) (engine.normalOf b) := by
  refine plans_check fun location _ => plans_check fun scale _ => ?_
  dsimp only
  split
  · exact plans_throw_bind _ _
  · exact plans_check fun _ _ => plans_sample _ _ _

theorem plans_choiceOf : Plans (Originates Contents.Checked) (engine.choiceOf b) := by
  refine plans_check fun source _ => plans_check fun pool _ => ?_
  dsimp only
  split
  · exact plans_throw_bind _ _
  · refine plans_check fun replace _ => plans_check fun totals _ =>
      plans_check fun shape? hShape => ?_
    split
    · exact plans_throw_bind _ _
    · split
      · exact plans_throw_bind _ _
      · refine plans_check fun _ _ => plans_always (.drawn _ _ fun picks => ?_)
        cases shape? with
        | none => exact .number _
        | some shape => exact .array _ (checkedSize_of_size? hShape)

theorem plans_bytesOf : Plans (Originates Contents.Checked) (engine.bytesOf b) := by
  refine plans_check fun _ _ => plans_check fun length _ => ?_
  dsimp only
  split
  · exact plans_throw_bind _ _
  · exact plans_always (.drawn _ _ fun _ => .object _ rfl rfl)

/-- A population is an array-like argument or as many numbers as it says. -/
theorem derives_of_population {id : ObjectId} {function : String} {pool c : Contents}
    (hArgument : b.required "x" = .ok id) (hPool : engine.population id function = .ok pool)
    (hShape : c.shape = pool.shape) : Derives engine b (.random .permutation) c := by
  obtain ⟨object, hObject, hPool⟩ := Outcome.bind_eq_ok_iff.mp hPool
  split at hPool
  · rename_i n
    split at hPool
    · cases hPool
    · cases hPool
      exact .counted id n rfl hArgument hObject hShape
  · obtain ⟨contents, hContents, hPool⟩ := Outcome.bind_eq_ok_iff.mp hPool
    split at hPool
    · cases hPool
    · cases hPool
      exact .rearranged _ id pool rfl hArgument hContents (congrArg Shape.size hShape)

theorem plans_permutationOf : Plans (Originates (Derives engine b (.random .permutation))) (engine.permutationOf b) := by
  refine plans_check fun id hArgument => plans_check fun pool hPool => plans_always ?_
  exact .ordered _ fun _ => .array _ (derives_of_population hArgument hPool rfl)

/-- Only a list is shuffled otherwise than an array. -/
theorem plans_shuffleOf {kind : Effect → Prop}
    (hRows : ∀ id a, b.required "x" = .ok id → engine.object id = .ok (.array a) →
      kind (engine.shuffleRows a))
    (hList : ∀ id items, b.required "x" = .ok id → engine.object id = .ok (.list items) →
      kind (shuffleList id items)) : Plans kind (engine.shuffleOf b) := by
  refine plans_check fun target hTarget => plans_check fun object hObject => ?_
  split
  · split
    · exact plans_throw_bind _ _
    · exact plans_always (hRows target _ hTarget hObject)
  · exact plans_always (hList target _ hTarget hObject)
  · exact plans_throw _

/-- A sampler checks the number of elements that it makes. -/
theorem plans_sampled {f : RandomFunction} {op : NativeOp}
    (h : Plans (Originates Contents.Checked) op) : Plans (Performs engine b (.random f)) op :=
  h.mono fun _ hOriginates => .originates (by simp) (hOriginates.mono fun _ => .checked)

theorem plans_randomCall (f : RandomFunction) :
    Plans (Performs engine b (.random f)) (engine.randomCall f b) := by
  cases f with
  | seed => exact plans_sampled plans_seedOf
  | rand => exact plans_sampled (plans_sample .float64 unitSampler none)
  | randn => exact plans_sampled (plans_sample .float64 standardNormalSampler none)
  | randint => exact plans_sampled plans_randintOf
  | randomIntegers => exact plans_sampled plans_randomIntegersOf
  | choice => exact plans_sampled plans_choiceOf
  | bytes => exact plans_sampled plans_bytesOf
  | shuffle =>
      exact plans_shuffleOf (fun id a => .shufflesRows id a) fun id items _ => .shufflesList id items
  | permutation => exact plans_originates (by decide) plans_permutationOf
  | uniform => exact plans_sampled plans_uniformOf
  | normal => exact plans_sampled plans_normalOf
  | randomSample => exact plans_sampled plans_randomSampleOf

theorem plans_randomDimensionCall (f : RandomFunction) (ids : List ObjectId) :
    Plans (Originates Contents.Checked) (engine.randomDimensionCall f ids) := by
  refine plans_check fun shape? _ => ?_
  split
  · exact plans_sample _ _ _
  · exact plans_sample _ _ _

end Random

section Calls

variable {native : Native} {args : Arguments ObjectId}

/-- A built-in function refuses its arguments, or performs what it does with the bindings of
its parameters. The samplers that take any number of dimensions have no bindings. -/
theorem plans_nativeCall_performs {kind : Effect → Prop}
    (hBound : ∀ parameters b effect, native.parameters? = some parameters →
      args.bind native.name parameters = .ok b → Performs engine b native effect → kind effect)
    (hSampled : ∀ effect, native.parameters? = none → Originates Contents.Checked effect →
      kind effect) :
    Plans kind (engine.nativeCall native args) := by
  cases native with
  | numeric f =>
      exact plans_check fun b hBind =>
        (plans_numericCall f).mono fun effect => hBound f.parameters b effect rfl hBind
  | random f =>
      unfold nativeCall
      dsimp only
      split
      · rename_i parameters hParameters
        exact plans_check fun b hBind =>
          (plans_randomCall f).mono fun effect => hBound parameters b effect hParameters hBind
      · rename_i hParameters
        exact plans_check fun ids _ =>
          (plans_randomDimensionCall f ids).mono fun effect => hSampled effect hParameters

/-- A built-in function refuses its arguments or answers the call. -/
theorem plans_nativeCall (native : Native) (args : Arguments ObjectId) :
    Plans (Answers engine) (engine.nativeCall native args) :=
  plans_nativeCall_performs (fun _ _ _ _ _ => Performs.answers) fun _ _ hSampled =>
    .makes hSampled.makes

end Calls

section References

theorem Makes.yields {effect : Effect} (h : Makes effect) (engine : Engine) :
    Yields guard engine effect := by
  induction h generalizing engine with
  | array form hForm => exact yields_createArray fun _ _ => hForm
  | result form hForm => exact yields_createResult fun _ _ => hForm
  | object object hFixed hChildren => exact yields_create hFixed hChildren
  | none => exact yields_createNone
  | drawn f rest _ ih => exact Moves.bind (moves_draw f) (ih _ _)
  | seeded rest _ ih => exact Moves.bind moves_drawSeed (ih _ _)
  | written f rest _ ih => exact Moves.bind (moves_onBuffers f) (ih _ _)

/-- An answer is one new reference. -/
theorem Answers.yields {effect : Effect} (h : Answers engine effect) :
    Yields guard engine effect := by
  cases h with
  | makes hMakes => exact hMakes.yields engine
  | shares id object hObject => exact yields_share fun _ _ => isLive_of_object hObject
  | shuffles id items hList =>
      refine moves_of_list hList ?_
      exact (size_retain _ _).trans (size_replace _ _ _)

/-- Every built-in function gives one new reference. -/
theorem commits_nativeCall (native : Native) (args : Arguments ObjectId) :
    Commits (Yields guard engine) (engine.nativeCall native args) engine :=
  ((plans_nativeCall native args).commits engine).mono fun _ => Answers.yields

end References

end Engine

end ArrayBridge
