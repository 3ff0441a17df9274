import ArrayBridge.Proofs.Choices
import ArrayBridge.Proofs.IntegerSamplers

/-! What the arguments of a sampler stand for.

Apart from the size the arguments of a sampler say what is drawn, and of which type. A choice with
replacement is a sampler as well: each pick is a draw of its own. Whatever the size is, a call with valid
arguments draws for that size. What they stand for does not change with the generator or with new
objects, so they can be used again. -/

namespace ArrayBridge

open Operation Outcome

namespace Generator

/-- Successive draws of a function of what is drawn are that function of successive draws. -/
theorem replicate_map {α β : Type} (draw : Generator → α × Generator) (f : α → β) (count : Nat)
    (g : Generator) : replicate (fun g => (f (draw g).1, (draw g).2)) count g
      = ((replicate draw count g).1.map f, (replicate draw count g).2) := by
  induction count generalizing g with
  | zero => simp [replicate, replicate.go]
  | succ count ih =>
      rw [replicate_succ, replicate_succ, ih]
      simp

theorem replicate_one {α : Type} (draw : Generator → α × Generator) (g : Generator) :
    replicate draw 1 g = (#[(draw g).1], (draw g).2) := rfl

end Generator

namespace Engine

open Generator

variable {engine earlier later : Engine} {id : ObjectId} {slot : Option ObjectId} {b b' : CallBindings}
  {f : RandomFunction} {dtype : DType} {sampler : Sampler} {shape : Shape} {shape? : Option Shape}
  {count : Nat}

section Picking

/-- Draws one position of a population of the given size. -/
def drawPosition (size : Nat) : Option (List Float) → Generator → Nat × Generator
  | some totals, g => (Choice.positionAt g.unit.1 totals, g.unit.2)
  | none, g => g.position size

/-- Draws one element of a population. -/
def pickSampler (pool : Contents) (totals? : Option (List Float)) : Sampler := fun g =>
  (pool.get (drawPosition pool.values.size totals? g).1, (drawPosition pool.values.size totals? g).2)

/-- With replacement the positions are successive draws of one position. -/
theorem drawPicks_replace (size count : Nat) (totals? : Option (List Float)) (g : Generator) :
    drawPicks size count true totals? g
      = ((replicate (drawPosition size totals?) count g).1.toList,
        (replicate (drawPosition size totals?) count g).2) := by
  cases totals? with
  | none => rfl
  | some totals =>
      have hMap := replicate_map unit (fun share => Choice.positionAt share totals) count g
      change replicate (drawPosition size (some totals)) count g = _ at hMap
      rw [hMap, Array.toList_map]
      rfl

/-- With replacement the elements are successive draws of one element. -/
theorem map_get_drawPicks (pool : Contents) (count : Nat) (totals? : Option (List Float)) (g : Generator) :
    (((drawPicks pool.values.size count true totals? g).1.map pool.get).toArray,
        (drawPicks pool.values.size count true totals? g).2)
      = replicate (pickSampler pool totals?) count g := by
  have hMap := replicate_map (drawPosition pool.values.size totals?) pool.get count g
  change replicate (pickSampler pool totals?) count g = _ at hMap
  rw [hMap, drawPicks_replace, ← Array.toList_map, Array.toArray_toList]

/-- What is made of a draw can be drawn itself. -/
theorem draw_bind_eq {α β γ : Type} {d : Generator → α × Generator} {e : Generator → β × Generator}
    (make : α → β) (h : ∀ g, (make (d g).1, (d g).2) = e g) (rest : β → StateM Engine γ) :
    (draw d >>= fun x => rest (make x)) = draw e >>= rest := by
  funext engine
  change rest (make (d engine.generator).1) { engine with generator := (d engine.generator).2 }
    = rest (e engine.generator).1 { engine with generator := (e engine.generator).2 }
  rw [← h engine.generator]

theorem choose_none (pool : Contents) (totals? : Option (List Float)) : choose pool true totals? none
    = draw (pickSampler pool totals?) >>= fun value => create (.ofScalar value) := by
  have hPick (g : Generator) : (((drawPicks pool.values.size 1 true totals? g).1.map
      pool.get).toArray.getD 0 (.zero pool.dtype), (drawPicks pool.values.size 1 true totals? g).2)
        = pickSampler pool totals? g := by
    have hDrawn := map_get_drawPicks pool 1 totals? g
    rw [replicate_one] at hDrawn
    obtain ⟨hFirst, hRest⟩ := Prod.mk.inj hDrawn
    rw [hFirst, hRest]
    -- What is drawn is not looked at: to compute it would count down the period of the generator.
    generalize pickSampler pool totals? g = drawn
    rfl
  have hOne : sampleCount none = 1 := rfl
  rw [choose, hOne]
  exact draw_bind_eq (fun picks : List Nat => (picks.map pool.get).toArray.getD 0 (.zero pool.dtype))
    hPick fun value => create (.ofScalar value)

theorem choose_some (pool : Contents) (totals? : Option (List Float)) (shape : Shape) :
    choose pool true totals? (some shape) = draw (replicate (pickSampler pool totals?) shape.size) >>=
      fun values => createArray (.fresh (.ofValues pool.dtype values shape)) := by
  rw [choose]
  exact draw_bind_eq (fun picks : List Nat => (picks.map pool.get).toArray)
    (map_get_drawPicks pool shape.size totals?)
    fun values => createArray (.fresh (.ofValues pool.dtype values shape))

/-- A choice with replacement samples the elements of the population. -/
theorem choose_eq_sample (pool : Contents) (totals? : Option (List Float))
    (hSize : ∀ shape, shape? = some shape →
      shape.checkedSize = .ok shape.size ∧ reserve shape.size = .ok ()) :
    (liftM ((shape?.map Shape.checkStrides).getD (.ok ())) >>= fun _ =>
      always (choose pool true totals? shape?) : NativeOp)
      = sample pool.dtype (pickSampler pool totals?) shape? := by
  cases shape? with
  | none => exact congrArg always (choose_none pool totals?)
  | some shape =>
      obtain ⟨hChecked, hReserved⟩ := hSize shape rfl
      rw [sample, hChecked, bind_ok, hReserved, bind_ok, choose_some]
      rfl

end Picking

section Arguments

/-- The arguments of a sampler, apart from the size, are valid for a number of draws. What it draws then
are elements of a type. -/
inductive Samples (engine : Engine) (b : CallBindings) (count : Nat) :
    RandomFunction → DType → Sampler → Prop
  | randomSample : Samples engine b count .randomSample .float64 unitSampler
  | uniform {low high : Float} (hLow : engine.floatOr (b.get? "low") 0 = .ok low)
      (hHigh : engine.floatOr (b.get? "high") 1 = .ok high) :
      Samples engine b count .uniform .float64 (uniformSampler low high)
  | normal {location scale : Float} (hLocation : engine.floatOr (b.get? "loc") 0 = .ok location)
      (hScale : engine.floatOr (b.get? "scale") 1 = .ok scale) (hSign : ¬ scale < 0) :
      Samples engine b count .normal .float64 (normalSampler location scale)
  | randint {low high : Int64} {dtype? : Option DType} (hRange : engine.Ranges b 0 low high)
      (hOrder : low < high) (hType : engine.dtype? (b.get? "dtype") = .ok dtype?)
      (hWhole : dtype?.getD .int64 ≠ .float64) : Samples engine b count .randint (dtype?.getD .int64)
        (integerSampler low (high - 1) (dtype?.getD .int64))
  | randomIntegers {low high : Int64} (hRange : engine.Ranges b 1 low high) (hOrder : low ≤ high) :
      Samples engine b count .randomIntegers .int64 (integerSampler low high .int64)
  | choice {source : ObjectId} {pool : Contents} {asked : Option Bool} {totals? : Option (List Float)}
      (hSource : b.required "a" = .ok source) (hPool : engine.population source "choice" = .ok pool)
      (hRank : pool.rank = 1)
      (hAsked : optional engine.truth (engine.given (b.get? "replace")) = .ok asked)
      (hReplace : asked.getD true = true)
      (hWeights : optional (engine.weightTotals pool.values.size) (engine.given (b.get? "p"))
        = .ok totals?)
      (hSome : 0 < count → 0 < pool.values.size) :
      Samples engine b count .choice pool.dtype (pickSampler pool totals?)

/-- A call with valid arguments draws for its size. -/
theorem Samples.randomCall_eq (h : engine.Samples b (sampleCount shape?) f dtype sampler)
    (hSize : engine.size? b = .ok shape?)
    (hFits : ∀ shape, shape? = some shape → reserve shape.size = .ok ()) :
    engine.randomCall f b = sample dtype sampler shape? := by
  cases h with
  | randomSample => rw [randomCall, randomSampleOf, hSize, bind_ok]
  | uniform hLow hHigh => rw [randomCall, uniformOf, hLow, bind_ok, hHigh, bind_ok, hSize, bind_ok]
  | normal hLocation hScale hSign =>
      rw [randomCall, normalOf, hLocation, bind_ok, hScale, bind_ok]
      dsimp only
      rw [if_neg hSign, hSize, bind_ok]
  | randint hRange hOrder hType hWhole =>
      rw [randomCall, randintOf, hRange.integerBounds_eq, bind_ok]
      dsimp only
      rw [if_neg (Int64.not_le.mpr hOrder), hType, bind_ok, if_neg hWhole, hSize, bind_ok]
  | randomIntegers hRange hOrder => rw [randomCall, randomIntegersOf_of_le hRange hOrder, hSize, bind_ok]
  | @choice source pool asked totals? hSource hPool hRank hAsked hReplace hWeights hSome =>
      have hChooses : engine.Chooses b source pool true totals? shape? :=
        ⟨hSource, hPool, hRank, ⟨asked, hAsked, hReplace⟩, hWeights, hSize⟩
      have hFew : ¬ Exceeds pool.values.size (sampleCount shape?) true := by
        rintro (⟨hEmpty, hMany⟩ | ⟨hNever, -⟩)
        · exact (hSome hMany).ne' hEmpty
        · cases hNever
      rw [randomCall, hChooses.choiceOf_of_not_exceeds hFew]
      refine choose_eq_sample pool totals? fun shape hShape => ⟨?_, hFits shape hShape⟩
      obtain ⟨count, hCount⟩ := checked_of_size? hSize shape hShape
      obtain ⟨rfl, -⟩ := Shape.size_of_checkedSize hCount
      exact hCount

/-- Bindings of the same function and the same arguments, apart from the size. -/
structure SameButSize (b b' : CallBindings) : Prop where
  function_eq : b.function = b'.function
  others : ∀ name, name ≠ "size" → b.get? name = b'.get? name

theorem SameButSize.required_eq (h : SameButSize b b') {name : String} (hName : name ≠ "size") :
    b.required name = b'.required name := by
  rw [Bindings.required, Bindings.required, h.others name hName, h.function_eq]

/-- The arguments that are the same are read the same. -/
theorem Samples.congr (h : engine.Samples b count f dtype sampler) (hSame : SameButSize b b') :
    engine.Samples b' count f dtype sampler := by
  have hGet := hSame.others
  have hRanges {implicitLow low high : Int64} (hRange : engine.Ranges b implicitLow low high) :
      engine.Ranges b' implicitLow low high := by
    cases hRange with
    | both hFirst hLow hSecond hHigh =>
        rw [hSame.required_eq (by decide)] at hFirst
        rw [hGet "high" (by decide)] at hSecond
        exact .both hFirst hLow hSecond hHigh
    | upper hFirst hHigh hSecond =>
        rw [hSame.required_eq (by decide)] at hFirst
        rw [hGet "high" (by decide)] at hSecond
        exact .upper hFirst hHigh hSecond
  cases h with
  | randomSample => exact .randomSample
  | uniform hLow hHigh =>
      rw [hGet "low" (by decide)] at hLow
      rw [hGet "high" (by decide)] at hHigh
      exact .uniform hLow hHigh
  | normal hLocation hScale hSign =>
      rw [hGet "loc" (by decide)] at hLocation
      rw [hGet "scale" (by decide)] at hScale
      exact .normal hLocation hScale hSign
  | randint hRange hOrder hType hWhole =>
      rw [hGet "dtype" (by decide)] at hType
      exact .randint (hRanges hRange) hOrder hType hWhole
  | randomIntegers hRange hOrder => exact .randomIntegers (hRanges hRange) hOrder
  | choice hSource hPool hRank hAsked hReplace hWeights hSome =>
      rw [hSame.required_eq (by decide)] at hSource
      rw [hGet "replace" (by decide)] at hAsked
      rw [hGet "p" (by decide)] at hWeights
      exact .choice hSource hPool hRank hAsked hReplace hWeights hSome

/-- Arguments that are valid for some draws are valid for any number of them. -/
theorem Samples.of_pos (h : engine.Samples b count f dtype sampler) (hSome : 0 < count) (other : Nat) :
    engine.Samples b other f dtype sampler := by
  cases h with
  | randomSample => exact .randomSample
  | uniform hLow hHigh => exact .uniform hLow hHigh
  | normal hLocation hScale hSign => exact .normal hLocation hScale hSign
  | randint hRange hOrder hType hWhole => exact .randint hRange hOrder hType hWhole
  | randomIntegers hRange hOrder => exact .randomIntegers hRange hOrder
  | choice hSource hPool hRank hAsked hReplace hWeights hFilled =>
      exact .choice hSource hPool hRank hAsked hReplace hWeights fun _ => hFilled hSome

theorem exists_ranges_of_integerBounds {implicitLow low high : Int64}
    (h : engine.integerBounds b implicitLow = .ok (low, high)) : engine.Ranges b implicitLow low high := by
  obtain ⟨x, hFirst, h⟩ := bind_eq_ok_iff.mp h
  obtain ⟨i, hInteger, h⟩ := bind_eq_ok_iff.mp h
  cases hSecond : engine.given (b.get? "high") with
  | some y =>
      rw [hSecond] at h
      obtain ⟨j, hHigh, hPair⟩ := bind_eq_ok_iff.mp h
      cases hPair
      exact .both hFirst hInteger hSecond hHigh
  | none =>
      rw [hSecond] at h
      cases h
      exact .upper hFirst hInteger hSecond

/-- The arguments of a sampler are valid if it succeeds with some size. -/
theorem exists_samples {result : ObjectId} {next : Engine}
    (hRun : (engine.randomCall f b).perform engine = (.ok result, next))
    (hSampler : f ∈ [.randomSample, .uniform, .normal, .randint, .randomIntegers, .choice])
    (hReplace : f = .choice → ∃ asked,
      optional engine.truth (engine.given (b.get? "replace")) = .ok asked ∧ asked.getD true = true) :
    ∃ shape? dtype sampler, engine.size? b = .ok shape? ∧
      engine.Samples b (sampleCount shape?) f dtype sampler := by
  cases f with
  | randomSample =>
      obtain ⟨shape?, hSize, -⟩ := perform_check_eq_ok_iff.mp hRun
      exact ⟨shape?, _, _, hSize, .randomSample⟩
  | uniform =>
      obtain ⟨low, hLow, hRun⟩ := perform_check_eq_ok_iff.mp hRun
      obtain ⟨high, hHigh, hRun⟩ := perform_check_eq_ok_iff.mp hRun
      obtain ⟨shape?, hSize, -⟩ := perform_check_eq_ok_iff.mp hRun
      exact ⟨shape?, _, _, hSize, .uniform hLow hHigh⟩
  | normal =>
      obtain ⟨location, hLocation, hRun⟩ := perform_check_eq_ok_iff.mp hRun
      obtain ⟨scale, hScale, hRun⟩ := perform_check_eq_ok_iff.mp hRun
      dsimp only at hRun
      split at hRun
      · cases hRun
      · rename_i hSign
        obtain ⟨shape?, hSize, -⟩ := perform_check_eq_ok_iff.mp hRun
        exact ⟨shape?, _, _, hSize, .normal hLocation hScale hSign⟩
  | randint =>
      obtain ⟨⟨low, high⟩, hBounds, hRun⟩ := perform_check_eq_ok_iff.mp hRun
      dsimp only at hRun
      split at hRun
      · cases hRun
      · rename_i hOrder
        obtain ⟨dtype?, hType, hRun⟩ := perform_check_eq_ok_iff.mp hRun
        split at hRun
        · cases hRun
        · rename_i hWhole
          obtain ⟨shape?, hSize, -⟩ := perform_check_eq_ok_iff.mp hRun
          exact ⟨shape?, _, _, hSize, .randint (exists_ranges_of_integerBounds hBounds)
            (Int64.not_le.mp hOrder) hType hWhole⟩
  | randomIntegers =>
      obtain ⟨⟨low, high⟩, hBounds, hRun⟩ := perform_check_eq_ok_iff.mp hRun
      dsimp only at hRun
      split at hRun
      · cases hRun
      · rename_i hOrder
        obtain ⟨shape?, hSize, -⟩ := perform_check_eq_ok_iff.mp hRun
        exact ⟨shape?, _, _, hSize, .randomIntegers (exists_ranges_of_integerBounds hBounds)
          (Int64.not_lt.mp hOrder)⟩
  | choice =>
      obtain ⟨source, hSource, hRun⟩ := perform_check_eq_ok_iff.mp hRun
      obtain ⟨pool, hPool, hRun⟩ := perform_check_eq_ok_iff.mp hRun
      dsimp only at hRun
      split at hRun
      · cases hRun
      · rename_i hRank
        obtain ⟨asked, hAsked, hRun⟩ := perform_check_eq_ok_iff.mp hRun
        obtain ⟨totals?, hWeights, hRun⟩ := perform_check_eq_ok_iff.mp hRun
        obtain ⟨shape?, hSize, hRun⟩ := perform_check_eq_ok_iff.mp hRun
        split at hRun
        · cases hRun
        · rename_i hEmpty
          obtain ⟨same, hSame, hTrue⟩ := hReplace rfl
          cases hAsked.symm.trans hSame
          exact ⟨shape?, _, _, hSize, .choice hSource hPool (not_not.mp hRank) hAsked hTrue hWeights
            fun hSome => Nat.pos_of_ne_zero fun hNone => hEmpty ⟨hNone, hSome⟩⟩
  | _ => simp at hSampler

end Arguments

section Recalling

theorem exists_object_of_integer {i : Int64} (h : engine.integer id = .ok i) :
    ∃ object, engine.object id = .ok object := by
  obtain ⟨value, hValue, -⟩ := bind_eq_ok_iff.mp h
  obtain ⟨object, hObject, -⟩ := bind_eq_ok_iff.mp hValue
  exact ⟨object, hObject⟩

theorem exists_object_of_float {x : Float} (h : engine.float id = .ok x) :
    ∃ object, engine.object id = .ok object := by
  obtain ⟨value, hValue, -⟩ := bind_eq_ok_iff.mp h
  obtain ⟨object, hObject, -⟩ := bind_eq_ok_iff.mp hValue
  exact ⟨object, hObject⟩

variable (h : earlier.Recalls later)
include h

/-- Whether a live object stands for no value does not change. -/
theorem Recalls.given_some {object : Object} (hObject : earlier.object id = .ok object)
    (hGiven : earlier.given slot = some id) : later.given slot = some id := by
  obtain ⟨rfl, hSome⟩ := Option.filter_eq_some_iff.mp hGiven
  refine Option.filter_eq_some_iff.mpr ⟨rfl, ?_⟩
  rw [isNone, get?_of_object hObject] at hSome
  rwa [isNone, get?_of_object (h.object_eq hObject)]

theorem Recalls.given_none (hGiven : earlier.given slot = none) : later.given slot = none := by
  refine Option.filter_eq_none_iff.mpr fun id hId => ?_
  have hNone : earlier.isNone id = true := by simpa using Option.filter_eq_none_iff.mp hGiven id hId
  have hObject : earlier.object id = .ok .none := by rw [object, of_decide_eq_true hNone]
  rw [isNone, get?_of_object (h.object_eq hObject)]
  decide

/-- An argument that may be left out is read again. -/
theorem Recalls.optional {α : Type} {read again : ObjectId → Except Exception α} {found : Option α}
    (hLive : ∀ id x, read id = .ok x → ∃ object, earlier.object id = .ok object)
    (hAgain : ∀ id x, read id = .ok x → again id = .ok x)
    (hRead : optional read (earlier.given slot) = .ok found) :
    optional again (later.given slot) = .ok found := by
  cases hGiven : earlier.given slot with
  | none =>
      rw [hGiven] at hRead
      rw [h.given_none hGiven]
      exact hRead
  | some id =>
      rw [hGiven] at hRead
      obtain ⟨x, hFound, hSome⟩ := bind_eq_ok_iff.mp hRead
      obtain ⟨object, hObject⟩ := hLive id x hFound
      rw [h.given_some hObject hGiven]
      exact bind_eq_ok_iff.mpr ⟨x, hAgain id x hFound, hSome⟩

theorem Recalls.floatOr {fallback x : Float} (hRead : earlier.floatOr slot fallback = .ok x) :
    later.floatOr slot fallback = .ok x := by
  cases hGiven : earlier.given slot with
  | none =>
      rw [Engine.floatOr, hGiven] at hRead
      rw [Engine.floatOr, h.given_none hGiven]
      exact hRead
  | some id =>
      rw [Engine.floatOr, hGiven] at hRead
      obtain ⟨object, hObject⟩ := exists_object_of_float hRead
      rw [Engine.floatOr, h.given_some hObject hGiven]
      exact h.float hRead

theorem Recalls.dtype? {found : Option DType} (hRead : earlier.dtype? slot = .ok found) :
    later.dtype? slot = .ok found := by
  cases slot with
  | none => exact hRead
  | some id =>
      obtain ⟨object, hObject, hRest⟩ := bind_eq_ok_iff.mp hRead
      exact bind_eq_ok_iff.mpr ⟨object, h.object_eq hObject, hRest⟩

theorem Recalls.ranges {implicitLow low high : Int64} (hRange : earlier.Ranges b implicitLow low high) :
    later.Ranges b implicitLow low high := by
  cases hRange with
  | both hFirst hLow hSecond hHigh =>
      obtain ⟨object, hObject⟩ := exists_object_of_integer hHigh
      exact .both hFirst (h.integer hLow) (h.given_some hObject hSecond) (h.integer hHigh)
  | upper hFirst hHigh hSecond => exact .upper hFirst (h.integer hHigh) (h.given_none hSecond)

theorem Recalls.population {pool : Contents} {function : String}
    (hRead : earlier.population id function = .ok pool) : later.population id function = .ok pool := by
  obtain ⟨object, hObject, hRest⟩ := bind_eq_ok_iff.mp hRead
  refine bind_eq_ok_iff.mpr ⟨object, h.object_eq hObject, ?_⟩
  cases object with
  | int n => exact hRest
  | _ =>
      obtain ⟨contents, hContents, hLast⟩ := bind_eq_ok_iff.mp hRest
      exact bind_eq_ok_iff.mpr ⟨contents, h.arrayContents hContents, hLast⟩

/-- Arguments are valid as long as what they stand for is there. -/
theorem Samples.recalls (hSamples : earlier.Samples b count f dtype sampler) :
    later.Samples b count f dtype sampler := by
  cases hSamples with
  | randomSample => exact .randomSample
  | uniform hLow hHigh => exact .uniform (h.floatOr hLow) (h.floatOr hHigh)
  | normal hLocation hScale hSign => exact .normal (h.floatOr hLocation) (h.floatOr hScale) hSign
  | randint hRange hOrder hType hWhole => exact .randint (h.ranges hRange) hOrder (h.dtype? hType) hWhole
  | randomIntegers hRange hOrder => exact .randomIntegers (h.ranges hRange) hOrder
  | choice hSource hPool hRank hAsked hReplace hWeights hSome =>
      refine .choice hSource (h.population hPool) hRank (h.optional ?_ ?_ hAsked) hReplace
        (h.optional ?_ ?_ hWeights) hSome
      · intro id answer hTruth
        obtain ⟨object, hObject, -⟩ := bind_eq_ok_iff.mp hTruth
        exact ⟨object, hObject⟩
      · exact fun id answer => h.truth
      · intro id totals hTotals
        obtain ⟨contents, hContents, -⟩ := bind_eq_ok_iff.mp hTotals
        obtain ⟨form, hForm, -⟩ := bind_eq_ok_iff.mp hContents
        obtain ⟨object, hObject, -⟩ := bind_eq_ok_iff.mp hForm
        exact ⟨object, hObject⟩
      · intro id totals hTotals
        obtain ⟨contents, hContents, hRest⟩ := bind_eq_ok_iff.mp hTotals
        exact bind_eq_ok_iff.mpr ⟨contents, h.arrayContents hContents, hRest⟩

end Recalling

end Engine

end ArrayBridge
