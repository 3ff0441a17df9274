import ArrayBridge.Proofs.Reshaping

/-! What a reshape does to the elements.

A reshape leaves the elements in their row-major order and only gives them other axes. A contiguous
array is not copied for that: the elements are in the cells from its offset on, one after the other,
whatever its strides say about axes that have a single index. The shape of the array leads back to
it, since the number of elements is the same; only an axis that is longer than a dimension can say
is lost, and such an axis stands beside an empty one. -/

namespace ArrayBridge

namespace Shape

variable {shape : Shape} {dimensions : List Int64} {elements : Nat}

/-- The dimensions that spell out a shape of signed words. -/
def asDimensions (shape : Shape) : List Int64 := shape.map Int64.ofNat

/-- A signed word is a dimension that says its length. -/
theorem ofNat_of_signed {d : Nat} (h : d < Word.signedLimit) :
    0 ≤ Int64.ofNat d ∧ Int64.ofNat d ≠ -1 ∧ (Int64.ofNat d).toNatClampNeg = d := by
  have hValue : (Int64.ofNat d).toInt = d := Int64.toInt_ofNat_of_lt h
  have hNonneg : 0 ≤ Int64.ofNat d := by
    rw [Int64.le_iff_toInt_le, hValue, Int64.toInt_zero]
    exact Int.natCast_nonneg d
  refine ⟨hNonneg, fun hMinusOne => ?_, Int64.toNatClampNeg_ofNat_of_lt h⟩
  rw [hMinusOne] at hNonneg
  exact absurd hNonneg (by decide)

theorem given_asDimensions (h : ∀ d ∈ shape, d < Word.signedLimit) :
    given shape.asDimensions = shape := by
  have hAll : shape.asDimensions.filter (0 ≤ ·) = shape.asDimensions := by
    refine List.filter_eq_self.mpr fun length hLength => ?_
    obtain ⟨d, hd, rfl⟩ := List.mem_map.mp hLength
    exact decide_eq_true (ofNat_of_signed (h d hd)).1
  rw [given, hAll, asDimensions, List.map_map]
  exact (List.map_congr_left fun d hd => (ofNat_of_signed (h d hd)).2.2).trans (List.map_id shape)

theorem fill_asDimensions (h : ∀ d ∈ shape, d < Word.signedLimit) (inferred : Nat) :
    fill shape.asDimensions inferred = shape := by
  rw [fill, asDimensions, List.map_map]
  refine (List.map_congr_left fun d hd => ?_).trans (List.map_id shape)
  obtain ⟨-, hOther, hLength⟩ := ofNat_of_signed (h d hd)
  rw [Function.comp_apply, if_neg hOther, hLength, id_eq]

/-- A shape of signed words describes as many elements as it has. -/
theorem describes_asDimensions (h : ∀ d ∈ shape, d < Word.signedLimit) :
    Describes shape.asDimensions shape.size := by
  have hNone : -1 ∉ shape.asDimensions := fun hMinusOne => by
    obtain ⟨d, hd, hEq⟩ := List.mem_map.mp hMinusOne
    exact (ofNat_of_signed (h d hd)).2.1 hEq
  have hLengths : Lengths shape.asDimensions := by
    have hCount : shape.asDimensions.count (-1) = 0 := List.count_eq_zero_of_not_mem hNone
    refine ⟨by rw [hCount]; exact Nat.zero_le 1, fun length hLength => ?_⟩
    obtain ⟨d, hd, rfl⟩ := List.mem_map.mp hLength
    exact Int64.le_trans (by decide) (ofNat_of_signed (h d hd)).1
  refine ⟨hLengths, ?_⟩
  rw [if_neg hNone, otherProduct_eq hLengths, knownProduct, given_asDimensions h]

/-- What is filled in for the dimension that is left out is the quotient; all other lengths are the
dimensions. -/
theorem forall₂_fill (h : Lengths dimensions) :
    List.Forall₂ (fun (d : Int64) (n : Nat) =>
      (n : Int) = if d = -1 then elements / otherProduct dimensions else d.toInt)
      dimensions (fill dimensions (elements / knownProduct dimensions)) := by
  rw [otherProduct_eq h, fill, List.forall₂_map_right_iff, List.forall₂_same]
  intro d hd
  rcases h.eq_neg_one_or_nonneg hd with rfl | hNonneg
  · rw [if_pos rfl, if_pos rfl, Int.natCast_ediv]
  · have hOther : d ≠ -1 := by
      rintro rfl
      exact absurd hNonneg (by decide)
    have hSign := Int64.le_iff_toInt_le.mp hNonneg
    rw [Int64.toInt_zero] at hSign
    rw [if_neg hOther, if_neg hOther]
    exact Int.toNat_of_nonneg hSign

end Shape

namespace NdArray

open Shape

variable {a : NdArray} {store : BufferStore} {shape : Shape} {dimensions : List Int64}
  {form : ArrayForm}

section Elements

/-- Under another shape of the same size the values are the same. -/
theorem values_withShape (h : a.WellFormed store) (hSize : shape.size = a.size) :
    ((a.withShape store shape).realize store).1.values ((a.withShape store shape).realize store).2
      = a.values store := by
  unfold withShape
  split
  · rename_i hContiguous
    rw [← Array.toList_inj, toList_values_of_isContiguous hContiguous, ← hSize]
    exact toList_values_of_isContiguous (isContiguous_of_rowMajor rfl)
  · exact values_allocate store ((size_values a store).trans hSize.symm)
      fun value hValue => dtype_of_mem_values h.stored hValue

/-- New contents do not get a buffer that was there. -/
theorem buffer_allocate_ne (h : a.WellFormed store) (c : Contents) :
    (allocate store c).1.buffer ≠ a.buffer := by
  intro hSame
  obtain ⟨buffer, hBuffer, -⟩ := h.stored
  obtain ⟨entry, hEntry, -⟩ := Option.map_eq_some_iff.mp hBuffer
  have hOld : a.buffer.index < store.stored.size := (Array.getElem?_eq_some_iff.mp hEntry).1
  have hNew : (allocate store c).1.buffer.index = store.stored.size := rfl
  rw [hSame] at hNew
  omega

theorem sharesStorage_withShape (h : a.WellFormed store) (shape : Shape) :
    ((a.withShape store shape).realize store).1.sharesStorage a = a.isContiguous := by
  unfold withShape
  split
  · rename_i hContiguous
    rw [hContiguous]
    exact decide_eq_true rfl
  · rename_i hOther
    rw [Bool.not_eq_true] at hOther
    rw [hOther]
    exact decide_eq_false (buffer_allocate_ne h _)

theorem shape_withShape : ((a.withShape store shape).realize store).1.shape = shape := by
  unfold withShape
  split <;> rfl

end Elements

/-- What a reshape comes to if its products may be numbers of any size. -/
structure ReshapesTo (a : NdArray) (store : BufferStore) (dimensions : List Int64)
    (form : ArrayForm) : Prop where
  describes : Describes dimensions a.size
  form_eq : form = a.withShape store (a.target dimensions)

/-- Whatever a reshape gives is what the dimensions call for. -/
theorem reshapesTo_of_reshape (h : a.reshape store dimensions = .ok form) :
    a.ReshapesTo store dimensions form := by
  have hReshaped := reshape_reshaped a store dimensions
  rw [h] at hReshaped
  cases hReshaped with
  | described hDescribes suffice => exact ⟨hDescribes, rfl⟩

/-- A reshape gives what the dimensions call for, unless words do not suffice for it. -/
theorem ReshapesTo.reshape_eq (h : a.ReshapesTo store dimensions form) :
    a.reshape store dimensions = .ok form ∨
      a.reshape store dimensions = .error .wordOverflow ∧ ¬ a.WordsSuffice dimensions := by
  obtain ⟨hDescribes, rfl⟩ := h
  have hReshaped := reshape_reshaped a store dimensions
  generalize a.reshape store dimensions = outcome at hReshaped ⊢
  cases hReshaped with
  | malformed e kind hOther => exact absurd hDescribes.toLengths hOther
  | overflow _ leaves => exact .inr ⟨rfl, leaves⟩
  | mismatch _ hOther => exact absurd hDescribes hOther
  | described => exact .inl rfl

/-- The shape of an array leads back to it from any other one. -/
theorem reshapesTo_back {b : NdArray} {later : BufferStore} (hSize : b.size = a.size)
    (hSigned : ∀ d ∈ a.shape, d < Word.signedLimit) :
    b.ReshapesTo later a.shape.asDimensions (b.withShape later a.shape) := by
  refine ⟨?_, by rw [target, fill_asDimensions hSigned]⟩
  rw [hSize]
  exact describes_asDimensions hSigned

/-- A reshape keeps the elements. Its result has the dimensions for its shape, with the quotient in
place of the one that is left out, and the values of the array in the same order; it shares the
storage exactly if the array is contiguous. If the lengths of the array can be written as
dimensions, these lead back to its shape and its values. The program does all this as long as
its words suffice, and so always where there are elements that a signed word can count. For the
contiguous arrays, of which the strides are given up, the cells follow one another. -/
theorem elements_reshape (h : a.WellFormed store) (dimensions : List Int64) :
    (∀ form, a.reshape store dimensions = .ok form → a.ReshapesTo store dimensions form) ∧
    (∀ form, a.ReshapesTo store dimensions form →
      (a.reshape store dimensions = .ok form ∨
        a.reshape store dimensions = .error .wordOverflow ∧ ¬ a.WordsSuffice dimensions) ∧
      ∀ b later, form.realize store = (b, later) →
        List.Forall₂ (fun (d : Int64) (n : Nat) =>
          (n : Int) = if d = -1 then a.size / otherProduct dimensions else d.toInt)
          dimensions b.shape ∧
        b.values later = a.values store ∧
        b.sharesStorage a = a.isContiguous ∧
        ((∀ d ∈ a.shape, d < Word.signedLimit) →
          ∃ back, b.ReshapesTo later a.shape.asDimensions back ∧
            (0 < a.size → a.size < Word.signedLimit →
              b.reshape later a.shape.asDimensions = .ok back) ∧
            (back.realize later).1.shape = a.shape ∧
            (back.realize later).1.values (back.realize later).2 = a.values store)) ∧
    (a.isContiguous = true → a.offsets.toList = (List.range a.size).map (a.offset + ·)) := by
  refine ⟨fun form => reshapesTo_of_reshape, fun form hForm => ⟨hForm.reshape_eq, ?_⟩,
    toList_offsets_of_isContiguous⟩
  obtain ⟨hDescribes, rfl⟩ := hForm
  intro b later hRealize
  have hTarget : (a.target dimensions).size = a.size := hDescribes.size_fill
  have hFormed := (h.sound_withShape hTarget).wellFormed_realize
  have hShape : ((a.withShape store (a.target dimensions)).realize store).1.shape
      = a.target dimensions := shape_withShape
  have hValues := values_withShape h hTarget
  have hShares := sharesStorage_withShape h (a.target dimensions)
  rw [hRealize] at hFormed hShape hValues hShares
  refine ⟨?dimensions, hValues, hShares, fun hSigned => ?back⟩
  case dimensions =>
    rw [hShape]
    exact forall₂_fill hDescribes.toLengths
  case back =>
    have hSize : b.size = a.size := (congrArg Shape.size hShape).trans hTarget
    have hBack : b.ReshapesTo later a.shape.asDimensions (b.withShape later a.shape) :=
      reshapesTo_back hSize hSigned
    refine ⟨_, hBack, fun hElements hWord => ?_, shape_withShape,
      (values_withShape hFormed hSize.symm).trans hValues⟩
    rw [← hSize] at hElements hWord
    have hSuffice := wordsSuffice_of_describes hBack.describes hElements hWord
    exact hBack.reshape_eq.resolve_right fun hOverflow => hOverflow.2 hSuffice

/-- A square by its columns has to be copied to become a single row. -/
theorem elements_reshape_of_columns :
    let columns : NdArray := ⟨⟨0⟩, .int64, [2, 2], [1, 2], 0⟩
    let store := (BufferStore.empty.allocate (.ints #[1, 2, 3, 4])).2
    columns.WellFormed store ∧ ∃ form b later, columns.reshape store [-1] = .ok form ∧
      form.realize store = (b, later) ∧ b.shape = [4] ∧
      (b.values later).toList = [.int 1, .int 3, .int 2, .int 4] ∧
      b.sharesStorage columns = false ∧
      ∃ back, b.reshape later [2, 2] = .ok back ∧ (back.realize later).1.shape = [2, 2] := by
  intro columns store
  have hFormed : columns.WellFormed store :=
    .of_listing rfl ⟨_, rfl, rfl⟩ (by decide) (by decide)
  have hReshape : columns.reshape store [-1] = .ok (columns.withShape store [4]) :=
    reshape_eq_ok_iff.mpr ⟨[4], by decide, by decide, rfl⟩
  obtain ⟨hGives, hElements, -⟩ := elements_reshape hFormed [-1]
  obtain ⟨-, hResult⟩ := hElements _ (hGives _ hReshape)
  obtain ⟨-, hValues, hShares, hBack⟩ := hResult _ _ rfl
  obtain ⟨back, -, hSucceeds, hShape, -⟩ := hBack (by decide)
  refine ⟨hFormed, _, _, _, hReshape, rfl, rfl, ?values, hShares, back,
    hSucceeds (by decide) (by decide), hShape⟩
  rw [hValues, toList_values]
  rfl

/-- An array without elements, one axis of which is longer than a signed word can say, can be
reshaped, and then no dimensions lead back to its shape. -/
theorem not_restored_of_long_axis :
    let long : NdArray := ofBuffer ⟨0⟩ .int64 [0x8000000000000000, 0]
    let store := (BufferStore.empty.allocate (.ints #[])).2
    let flat : NdArray := ofBuffer ⟨0⟩ .int64 [0]
    long.WellFormed store ∧ long.reshape store [0] = .ok (.view flat) ∧
      ∀ dimensions form, flat.reshape store dimensions = .ok form → form.shape ≠ long.shape := by
  intro long store flat
  have hBuffer : store.buffer? ⟨0⟩ = some (.ints #[]) := rfl
  have hFormed : long.WellFormed store :=
    wellFormed_rowMajor long.shape 0 hBuffer fun hAxes => absurd hAxes (by decide)
  have hReshape : long.reshape store [0] = .ok (.view flat) :=
    reshape_eq_ok_iff.mpr ⟨[0], by decide, by decide, rfl⟩
  refine ⟨hFormed, hReshape, fun dimensions form hBack hShape => ?_⟩
  obtain ⟨-, rfl⟩ := reshapesTo_of_reshape hBack
  have hLong : 0x8000000000000000 ∈ flat.target dimensions := by
    have hSame : (flat.withShape store (flat.target dimensions)).shape
        = flat.target dimensions := rfl
    rw [← hSame, hShape]
    exact List.mem_cons_self
  exact absurd (lt_signedLimit_of_mem_fill (by decide) hLong) (by decide)

end NdArray

end ArrayBridge
