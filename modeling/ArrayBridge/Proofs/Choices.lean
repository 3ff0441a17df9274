import ArrayBridge.Proofs.Picks
import ArrayBridge.Proofs.SampledResults

/-! Choices from a population.

A choice reads its arguments and counts what is asked for. Only then can it be refused for asking too
much: for any pick of an empty population, and without replacement for more picks than there are
positions. Otherwise its result holds the elements at the positions that were picked, which are within
the population and, without replacement, all different. Rounding in the sums of weights cannot change
that. One thing is not foreseen: for a size with an empty axis nothing is picked, but the strides of the
result are multiplied all the same, and may be no words. -/

namespace ArrayBridge

open Operation Outcome

namespace Engine

open scoped List

variable {engine : Engine} {b : CallBindings} {id source : ObjectId} {pool : Contents}
  {replace : Bool} {totals? : Option (List Float)} {shape? : Option Shape} {shape : Shape}
  {picks : List Nat}

section Population

/-- The elements of an array-like object have the element type of its contents. -/
theorem dtype_of_arrayContents (hStored : engine.Stored) {c : Contents}
    (h : engine.arrayContents id = .ok c) : ∀ value ∈ c.values, value.dtype = c.dtype := by
  intro value hValue
  obtain ⟨form, hForm, hEq⟩ := bind_eq_ok_iff.mp h
  cases hEq
  rcases arrayForm_eq_ok hForm with ⟨a, hArray, rfl⟩ | ⟨-, nest, hNest, rfl⟩
  · exact NdArray.dtype_of_mem_values (hStored.of_object hArray).stored hValue
  · obtain ⟨flat, -, hRest⟩ := bind_eq_ok_iff.mp hNest
    obtain ⟨-, -, hFlat⟩ := bind_eq_ok_iff.mp hRest
    cases hFlat
    have hTaken : value ∈ (flat.contents.values.take flat.contents.shape.size).toList :=
      Array.mem_toList_iff.mpr hValue
    have hLeaf : value ∈ flat.contents.values.toList := by
      rw [Array.take_eq_extract, Array.toList_extract] at hTaken
      exact List.mem_of_mem_take hTaken
    obtain ⟨leaf, -, rfl⟩ := Array.mem_map.mp (Array.mem_toList_iff.mp hLeaf)
    exact leaf.dtype_cast _

/-- The numbers below an integer. -/
def numbersBelow (n : Int64) : Contents :=
  ⟨.int64, [n.toNatClampNeg], (Array.range n.toNatClampNeg).map fun i => .int i.toInt64⟩

@[simp] theorem toList_numbersBelow (n : Int64) :
    (numbersBelow n).values.toList = (List.range n.toNatClampNeg).map fun i => .int i.toInt64 := by
  simp [numbersBelow]

@[simp] theorem size_numbersBelow (n : Int64) : (numbersBelow n).values.size = n.toNatClampNeg := by
  simp [numbersBelow]

/-- An integer stands for the numbers below it. -/
theorem population_int {n : Int64} (hSource : engine.object source = .ok (.int n)) (function : String) :
    engine.population source function
      = if n < 0 then .error (.negativePopulation function) else .ok (numbersBelow n) := by
  rw [population, hSource, ok_bind]
  dsimp only
  split <;> rfl

theorem population_of_int {n : Int64} {function : String} (hSource : engine.object source = .ok (.int n))
    (h : engine.population source function = .ok pool) : pool = numbersBelow n := by
  rw [population_int hSource] at h
  split at h
  · cases h
  · cases h
    rfl

theorem dtype_of_population (hStored : engine.Stored) {function : String}
    (h : engine.population source function = .ok pool) :
    ∀ value ∈ pool.values, value.dtype = pool.dtype := by
  obtain ⟨object, hObject, hRest⟩ := bind_eq_ok_iff.mp h
  split at hRest
  · obtain rfl := population_of_int hObject h
    intro value hValue
    obtain ⟨i, -, rfl⟩ := Array.mem_map.mp hValue
    rfl
  · obtain ⟨contents, hContents, hRest⟩ := bind_eq_ok_iff.mp hRest
    split at hRest
    · cases hRest
    · cases hRest
      exact dtype_of_arrayContents hStored hContents

/-- There is one running total for each element of the population. -/
theorem length_of_weightTotals {count : Nat} {totals : List Float}
    (h : engine.weightTotals count id = .ok totals) : totals.length = count := by
  obtain ⟨weights, -, h⟩ := bind_eq_ok_iff.mp h
  unfold cumulativeWeights at h
  dsimp only at h
  split at h
  · cases h
  · rename_i hCount
    split at h
    · cases h
    · split at h
      · cases h
      · cases h
        rw [Choice.length_runningTotals]
        exact not_not.mp hCount

theorem length_of_weights {slot : Option ObjectId} {count : Nat} {totals : List Float}
    (h : optional (engine.weightTotals count) slot = .ok (some totals)) : totals.length = count := by
  cases slot with
  | none => cases h
  | some weights =>
      obtain ⟨found, hFound, hEq⟩ := bind_eq_ok_iff.mp h
      cases hEq
      exact length_of_weightTotals hFound

end Population

/-- The arguments of a choice are valid, and this is what they stand for. -/
structure Chooses (engine : Engine) (b : CallBindings) (source : ObjectId) (pool : Contents)
    (replace : Bool) (totals? : Option (List Float)) (shape? : Option Shape) : Prop where
  source_eq : b.required "a" = .ok source
  population_eq : engine.population source "choice" = .ok pool
  rank_eq : pool.rank = 1
  replace_eq : ∃ asked, optional engine.truth (engine.given (b.get? "replace")) = .ok asked ∧
    asked.getD true = replace
  weights_eq : optional (engine.weightTotals pool.values.size) (engine.given (b.get? "p")) = .ok totals?
  size_eq : engine.size? b = .ok shape?

/-- More picks are asked for than there can be. -/
def Exceeds (size count : Nat) (replace : Bool) : Prop :=
  (size = 0 ∧ 0 < count) ∨ (replace = false ∧ size < count)

section Choosing

/-- What a choice does once its arguments are accepted. -/
def choose (pool : Contents) (replace : Bool) (totals? : Option (List Float)) (shape? : Option Shape) :
    Effect := do
  let picks ← draw (drawPicks pool.values.size (sampleCount shape?) replace totals?)
  match shape? with
  | none => create (.ofScalar ((picks.map pool.get).toArray.getD 0 (.zero pool.dtype)))
  | some shape => createArray (.fresh (.ofValues pool.dtype (picks.map pool.get).toArray shape))

theorem Chooses.choiceOf_eq (h : engine.Chooses b source pool replace totals? shape?) :
    engine.choiceOf b =
      if pool.values.size = 0 ∧ 0 < sampleCount shape? then throw .emptyPopulation
      else if replace = false ∧ pool.values.size < sampleCount shape? then throw .sampleTooLarge
      else liftM ((shape?.map Shape.checkStrides).getD (.ok ())) >>= fun _ =>
        always (choose pool replace totals? shape?) := by
  obtain ⟨asked, hAsked, rfl⟩ := h.replace_eq
  rw [choiceOf, h.source_eq, bind_ok, h.population_eq, bind_ok]
  dsimp only
  rw [if_neg (not_not.mpr h.rank_eq), hAsked, bind_ok, h.weights_eq, bind_ok, h.size_eq, bind_ok]
  rfl

/-- The elements at positions of a population are elements of its type. -/
theorem map_cast_get (hTyped : ∀ value ∈ pool.values, value.dtype = pool.dtype)
    (hPicks : ∀ i ∈ picks, i < pool.values.size) :
    (picks.map pool.get).map (·.cast pool.dtype) = picks.map pool.get := by
  rw [List.map_map]
  refine List.map_congr_left fun i hi => ?_
  have hInside := hPicks i hi
  have hGet : pool.get i = pool.values[i] := by simp [Contents.get, hInside]
  have hType : (pool.get i).dtype = pool.dtype := hGet ▸ hTyped _ (Array.getElem_mem _)
  exact hType ▸ (pool.get i).cast_dtype

/-- Picks are stored as the elements at their positions. -/
theorem exists_draws_choose (hTyped : ∀ value ∈ pool.values, value.dtype = pool.dtype)
    (hPicks : Picks pool.values.size (sampleCount shape?) replace
      (drawPicks pool.values.size (sampleCount shape?) replace totals? engine.generator).1) :
    ∃ object buffers, engine.Draws (always (choose pool replace totals? shape?)) object buffers
        (drawPicks pool.values.size (sampleCount shape?) replace totals? engine.generator).2 ∧
      object.HoldsDrawn buffers pool.dtype shape?
        ((drawPicks pool.values.size (sampleCount shape?) replace totals? engine.generator).1.map
          pool.get) := by
  generalize hDrawn : drawPicks pool.values.size (sampleCount shape?) replace totals? engine.generator
    = drawn at hPicks ⊢
  obtain ⟨picks, generator⟩ := drawn
  have hCast := map_cast_get hTyped hPicks.lt
  cases shape? with
  | none =>
      obtain ⟨pick, rfl⟩ := List.length_eq_one_iff.mp hPicks.length_eq
      refine ⟨_, engine.buffers, ?_, .number (pool.get pick)⟩
      rw [Draws, perform_always, choose, StateT.run_bind, run_draw, hDrawn]
      rfl
  | some shape =>
      have hSize : (picks.map pool.get).toArray.size = shape.size := by
        rw [List.size_toArray, List.length_map, hPicks.length_eq]
        rfl
      have hHolds := holdsDrawn_allocate pool.dtype engine.buffers hSize
      rw [List.map_toArray, hCast] at hHolds
      refine ⟨_, _, ?_, hHolds⟩
      rw [Draws, perform_always, choose, StateT.run_bind, run_draw, hDrawn]
      rfl

/-- All elements of a population, in order. -/
theorem map_get_range (pool : Contents) :
    (List.range pool.values.size).map pool.get = pool.values.toList := by
  refine List.ext_getElem (by simp) fun i _ hInside => ?_
  rw [Array.length_toList] at hInside
  simp [Contents.get, hInside]

end Choosing

section Strides

/-- The product of the lengths of a size is no signed word where an empty axis counts as one. -/
def Overflows (shape? : Option Shape) : Prop :=
  ∃ shape, shape? = some shape ∧ Word.signedLimit ≤ shape.paddedSize

/-- The strides are multiplied up unless the product is no word. -/
theorem checkStrides_of_size? (hSize : engine.size? b = .ok shape?) :
    (¬ Overflows shape? → (shape?.map Shape.checkStrides).getD (.ok ()) = .ok ()) ∧
      (Overflows shape? → (shape?.map Shape.checkStrides).getD (.ok ()) = .error .wordOverflow) := by
  cases shape? with
  | none => exact ⟨fun _ => rfl, fun ⟨_, hNone, _⟩ => by cases hNone⟩
  | some shape =>
      obtain ⟨-, hSigned⟩ := exists_checkShape_eq_ok_iff.mp (exists_checkShape_of_size? hSize)
      constructor
      · intro hFits
        refine (Shape.checkStrides_eq_ok_iff hSigned).mpr (Nat.not_le.mp fun hLarge => ?_)
        exact hFits ⟨shape, rfl, hLarge⟩
      · rintro ⟨_, hSome, hLarge⟩
        cases hSome
        exact (Shape.checkStrides_eq_error_iff hSigned).mpr hLarge

/-- Only with an empty axis the strides of a checked shape are no words. -/
theorem mem_zero_of_checkedSize {count : Nat} (hCount : shape.checkedSize = .ok count)
    (hLarge : Word.signedLimit ≤ shape.paddedSize) : 0 ∈ shape := by
  by_contra hAxes
  have hFits := Shape.paddedSize_le_of_checkedSize hCount hAxes
  have hLimits : maxElements < Word.signedLimit := by decide
  omega

theorem mem_zero_of_overflows (hSize : engine.size? b = .ok (some shape))
    (hLarge : Word.signedLimit ≤ shape.paddedSize) : 0 ∈ shape := by
  obtain ⟨count, hCount⟩ := checkedSize_of_size? hSize
  exact mem_zero_of_checkedSize hCount hLarge

end Strides

section Law

variable {positional : List ObjectId} {keywords : List (String × ObjectId)}

theorem Chooses.refused (h : engine.Chooses b source pool replace totals? shape?)
    (hExceeds : Exceeds pool.values.size (sampleCount shape?) replace) :
    (engine.choiceOf b).perform engine
      = (.error (if pool.values.size = 0 then .emptyPopulation else .sampleTooLarge), engine) := by
  rw [h.choiceOf_eq]
  by_cases hEmpty : pool.values.size = 0 ∧ 0 < sampleCount shape?
  · rw [if_pos hEmpty, if_pos hEmpty.1]
    rfl
  · obtain ⟨hReplace, hMany⟩ := hExceeds.resolve_left hEmpty
    have hSome : pool.values.size ≠ 0 := fun hZero => hEmpty ⟨hZero, by omega⟩
    rw [if_neg hEmpty, if_pos ⟨hReplace, hMany⟩, if_neg hSome]
    rfl

/-- What a choice that does not ask for too much comes to. -/
theorem Chooses.choiceOf_of_not_exceeds (h : engine.Chooses b source pool replace totals? shape?)
    (hFew : ¬ Exceeds pool.values.size (sampleCount shape?) replace) :
    engine.choiceOf b = liftM ((shape?.map Shape.checkStrides).getD (.ok ())) >>= fun _ =>
      always (choose pool replace totals? shape?) := by
  obtain ⟨hSome, hFits⟩ := not_or.mp hFew
  rw [h.choiceOf_eq, if_neg hSome, if_neg hFits]

theorem Chooses.overflows (h : engine.Chooses b source pool replace totals? shape?)
    (hFew : ¬ Exceeds pool.values.size (sampleCount shape?) replace) (hLarge : Overflows shape?) :
    (engine.choiceOf b).perform engine = (.error .wordOverflow, engine) := by
  rw [h.choiceOf_of_not_exceeds hFew, (checkStrides_of_size? h.size_eq).2 hLarge]
  rfl

theorem Chooses.picks_drawPicks (h : engine.Chooses b source pool replace totals? shape?)
    (hFew : ¬ Exceeds pool.values.size (sampleCount shape?) replace) (g : Generator) :
    Picks pool.values.size (sampleCount shape?) replace
      (drawPicks pool.values.size (sampleCount shape?) replace totals? g).1 := by
  obtain ⟨hSome, hFits⟩ := not_or.mp hFew
  refine Engine.picks_drawPicks (fun hCount => ?_) (fun hReplace => ?_) (fun totals hTotals => ?_) g
  · exact Nat.pos_of_ne_zero fun hZero => hSome ⟨hZero, hCount⟩
  · exact Nat.not_lt.mp fun hMany => hFits ⟨hReplace, hMany⟩
  · exact length_of_weights (hTotals ▸ h.weights_eq)

/-- A choice gives elements of the population. -/
theorem Chooses.exists_draws (h : engine.Chooses b source pool replace totals? shape?)
    (hStored : engine.Stored) (hFew : ¬ Exceeds pool.values.size (sampleCount shape?) replace)
    (hStrides : ¬ Overflows shape?) :
    ∃ object buffers, engine.Draws (engine.choiceOf b) object buffers
        (drawPicks pool.values.size (sampleCount shape?) replace totals? engine.generator).2 ∧
      object.HoldsDrawn buffers pool.dtype shape?
        ((drawPicks pool.values.size (sampleCount shape?) replace totals? engine.generator).1.map
          pool.get) := by
  rw [h.choiceOf_of_not_exceeds hFew, (checkStrides_of_size? h.size_eq).1 hStrides]
  have hTyped := dtype_of_population hStored h.population_eq
  exact exists_draws_choose hTyped (h.picks_drawPicks hFew engine.generator)

/-- A choice with valid arguments is refused for its value exactly if it asks for a pick of an empty
population or, without replacement, for more picks than there are positions. Otherwise its result holds
as many elements as are asked for, each of them at a position of the population, and no position twice
without replacement; if all positions are asked for, the result is the population in another order. That
is so for all weights that are accepted, and in each state of the generator. The only exception are
sizes with an empty axis of which the other lengths have a product that is no word. -/
theorem choice_law (engine : Engine) (id : ObjectId) (positional : List ObjectId)
    (keywords : List (String × ObjectId)) (b : CallBindings) (source : ObjectId) (pool : Contents)
    (replace : Bool) (totals? : Option (List Float)) (shape? : Option Shape) (hStored : engine.Stored)
    (hCalls : engine.Calls id positional keywords (.random .choice) b)
    (hArguments : engine.Chooses b source pool replace totals? shape?) :
    ((∃ e, ((call id positional keywords).perform engine).1 = .error e ∧ e.kind = .valueError) ↔
      Exceeds pool.values.size (sampleCount shape?) replace) ∧
    (Exceeds pool.values.size (sampleCount shape?) replace →
      (call id positional keywords).perform engine
        = (.error (if pool.values.size = 0 then .emptyPopulation else .sampleTooLarge), engine)) ∧
    (¬ Exceeds pool.values.size (sampleCount shape?) replace → ¬ Overflows shape? →
      ∃ object buffers generator picks,
        engine.Draws (call id positional keywords) object buffers generator ∧
        object.HoldsDrawn buffers pool.dtype shape? (picks.map pool.get) ∧
        Picks pool.values.size (sampleCount shape?) replace picks ∧
        (replace = false → sampleCount shape? = pool.values.size →
          picks.map pool.get ~ pool.values.toList)) ∧
    (¬ Exceeds pool.values.size (sampleCount shape?) replace → Overflows shape? →
      (call id positional keywords).perform engine = (.error .wordOverflow, engine)) ∧
    (∀ shape, shape? = some shape → Word.signedLimit ≤ shape.paddedSize → 0 ∈ shape) ∧
    ∀ n : Int64, engine.object source = .ok (.int n) →
      pool.values.toList = (List.range n.toNatClampNeg).map fun i => .int i.toInt64 := by
  have hRun : (call id positional keywords).perform engine = (engine.choiceOf b).perform engine :=
    hCalls.perform_call
  have hRefused (hExceeds : Exceeds pool.values.size (sampleCount shape?) replace) :=
    hRun.trans (hArguments.refused hExceeds)
  have hDrawn (hFew : ¬ Exceeds pool.values.size (sampleCount shape?) replace)
      (hStrides : ¬ Overflows shape?) := hArguments.exists_draws hStored hFew hStrides
  have hOverflows (hFew : ¬ Exceeds pool.values.size (sampleCount shape?) replace)
      (hLarge : Overflows shape?) := hRun.trans (hArguments.overflows hFew hLarge)
  refine ⟨⟨?_, fun hExceeds => ?_⟩, hRefused, fun hFew hStrides => ?_, hOverflows, ?_, fun n hSource => ?_⟩
  · rintro ⟨e, hError, hKind⟩
    by_contra hFew
    by_cases hLarge : Overflows shape?
    · rw [hOverflows hFew hLarge] at hError
      cases hError
      cases hKind
    · obtain ⟨object, buffers, hDraws, -⟩ := hDrawn hFew hLarge
      rw [hRun, hDraws] at hError
      cases hError
  · refine ⟨_, by rw [hRefused hExceeds], ?_⟩
    split <;> rfl
  · obtain ⟨object, buffers, hDraws, hHolds⟩ := hDrawn hFew hStrides
    have hPicks := hArguments.picks_drawPicks hFew engine.generator
    refine ⟨object, buffers, _, _, hRun.trans hDraws, hHolds, hPicks, fun hReplace hAll => ?_⟩
    rw [hReplace, hAll] at hPicks ⊢
    exact (hPicks.perm_range.map pool.get).trans (.of_eq (map_get_range pool))
  · rintro shape rfl hLarge
    exact mem_zero_of_overflows hArguments.size_eq hLarge
  · rw [population_of_int hSource hArguments.population_eq, toList_numbersBelow]

end Law

section Cases

/-- An engine without arrays stores all of its arrays. -/
theorem stored_ofObjects {objects : List Object} {buffer : Buffer} (h : ∀ a, Object.array a ∉ objects) :
    (ofObjects objects buffer).Stored := by
  intro id a hArray
  obtain ⟨references, hOccupant⟩ := Heap.get?_eq_some_iff.mp hArray
  unfold Heap.occupant? at hOccupant
  split at hOccupant
  · rename_i slot hSlot
    obtain ⟨object, hObject, rfl⟩ : ∃ object, objects[id.index.toNat]? = some object ∧
        ⟨0, some ⟨1, object⟩⟩ = slot := by simpa [ofObjects] using hSlot
    split at hOccupant
    · cases hOccupant
      exact (h a (List.mem_of_getElem? hObject)).elim
    · cases hOccupant
  · cases hOccupant

/-- A choice of two numbers by weight, without replacement. -/
def withWeights : Engine :=
  ofObjects [.none, .native (.random .choice), .int 2, .bool false, .float 0.5, .tuple [⟨4, 0⟩, ⟨4, 0⟩]]
    (.ofValues .int64 #[])

/-- By equal weights and without replacement the numbers below two come in some order. -/
theorem choice_law_halves : ∃ object buffers generator values,
    withWeights.Draws (call ⟨1, 0⟩ [⟨2, 0⟩, ⟨2, 0⟩, ⟨3, 0⟩, ⟨5, 0⟩] []) object buffers generator ∧
      object.HoldsDrawn buffers .int64 (some [2]) values ∧ values ~ [.int 0, .int 1] := by
  have hArguments : withWeights.Chooses
      ⟨"choice", [("a", some ⟨2, 0⟩), ("size", some ⟨2, 0⟩), ("replace", some ⟨3, 0⟩), ("p", some ⟨5, 0⟩)]⟩
      ⟨2, 0⟩ (numbersBelow 2) false (some [0.5, 1]) (some [2]) :=
    ⟨rfl, (population_int rfl "choice").trans (if_neg (by decide)), rfl, ⟨some false, rfl, rfl⟩,
      by decide +kernel, by decide +kernel⟩
  obtain ⟨-, -, hDrawn, -⟩ := choice_law withWeights ⟨1, 0⟩ [⟨2, 0⟩, ⟨2, 0⟩, ⟨3, 0⟩, ⟨5, 0⟩] [] _ _ _ _ _ _
    (stored_ofObjects (by simp)) ⟨rfl, _, rfl, rfl⟩ hArguments
  have hCount : (numbersBelow 2).values.size = 2 := (size_numbersBelow 2).trans (by decide)
  have hFew : ¬ Exceeds (numbersBelow 2).values.size (sampleCount (some [2])) false := by
    rw [hCount]
    simp [Exceeds, sampleCount, Shape.size]
  have hStrides : ¬ Overflows (some [2]) := by
    rintro ⟨_, hSome, hLarge⟩
    cases hSome
    exact absurd hLarge (by decide)
  obtain ⟨object, buffers, generator, picks, hDraws, hHolds, -, hAll⟩ := hDrawn hFew hStrides
  refine ⟨object, buffers, generator, _, hDraws, hHolds, ?_⟩
  exact (hAll rfl hCount.symm).trans (.of_eq (toList_numbersBelow 2))

/-- Nothing is to be picked for the size of an empty axis and two long ones, but the choice fails. -/
theorem not_chosen_of_empty_size :
    let engine := ofObjects [.none, .native (.random .choice), .int 3, .int 0, .int 0x10000000000,
      .tuple [⟨3, 0⟩, ⟨4, 0⟩, ⟨4, 0⟩]] (.ofValues .int64 #[])
    engine.shape ⟨5, 0⟩ = .ok [0, 0x10000000000, 0x10000000000] ∧
      Shape.size [0, 0x10000000000, 0x10000000000] = 0 ∧
      ((call ⟨1, 0⟩ [⟨2, 0⟩, ⟨5, 0⟩] []).perform engine).1 = .error .wordOverflow :=
  ⟨by decide +kernel, by decide, by decide +kernel⟩

end Cases

end Engine

end ArrayBridge
