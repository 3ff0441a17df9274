import ArrayBridge.Proofs.Layout
import ArrayBridge.Proofs.StrideProducts

/-! What a reshape answers.

The dimensions describe the elements of an array if their product is the number of elements, or if
the one that is left out can be found. The code multiplies the dimensions in machine words. While
these products fit, it accepts exactly the dimensions that describe the elements and refuses all
others with a fault of the value. The products leave the words only for dimensions of arrays
without elements and for dimensions that do not describe the elements. -/

namespace ArrayBridge

namespace Shape

variable {dimensions : List Int64} {shape : Shape} {elements start known : Nat}

/-- The product of the dimensions other than minus one, as a number of any size. -/
def otherProduct : List Int64 → Int
  | [] => 1
  | d :: ds => if d = -1 then otherProduct ds else d.toInt * otherProduct ds

/-- Whether dimensions are a list of lengths of which at most one is left out. -/
structure Lengths (dimensions : List Int64) : Prop where
  few : dimensions.count (-1) ≤ 1
  signs : ∀ d ∈ dimensions, -1 ≤ d

/-- Whether dimensions describe a shape of so many elements: their product is that number, or the
length that is left out is determined by the product of the others. -/
structure Describes (dimensions : List Int64) (elements : Nat) : Prop extends Lengths dimensions where
  product : if -1 ∈ dimensions then otherProduct dimensions ≠ 0 ∧ otherProduct dimensions ∣ elements
    else otherProduct dimensions = elements

/-- The products from the outermost axis inward all are machine words. -/
def Multiplies (shape : Shape) : Prop := ∀ outer : Shape, outer <+: shape → outer.size < Word.count

section Products

theorem Lengths.eq_neg_one_or_nonneg (h : Lengths dimensions) {d : Int64} (hd : d ∈ dimensions) :
    d = -1 ∨ 0 ≤ d :=
  Shape.eq_neg_one_or_nonneg (Int64.not_lt.mpr (h.signs d hd))

/-- The lengths that are given are the dimensions other than minus one. -/
theorem otherProduct_eq (h : Lengths dimensions) :
    otherProduct dimensions = knownProduct dimensions := by
  have hSigns := fun d (hd : d ∈ dimensions) => h.eq_neg_one_or_nonneg hd
  clear h
  induction dimensions with
  | nil => rfl
  | cons d ds ih =>
      have hTail := ih fun e he => hSigns e (List.mem_cons_of_mem d he)
      simp only [otherProduct, knownProduct, given] at hTail ⊢
      rcases hSigns d List.mem_cons_self with rfl | hNonneg
      · rw [if_pos rfl, List.filter_cons_of_neg (by decide)]
        exact hTail
      · have hOther : d ≠ -1 := by
          rintro rfl
          exact absurd hNonneg (by decide)
        have hLength : d.toInt = d.toNatClampNeg := by
          have hSign := Int64.le_iff_toInt_le.mp hNonneg
          rw [Int64.toInt_zero] at hSign
          exact (Int.toNat_of_nonneg hSign).symm
        rw [if_neg hOther, List.filter_cons_of_pos (by simpa using hNonneg), List.map_cons, size,
          Int.natCast_mul, hTail, hLength]

/-- There is no product in machine words exactly if one of the products on the way is none. -/
theorem foldlM_wordProduct_eq_none_iff (hStart : start < Word.count) :
    shape.foldlM (fun product d =>
        if product * d < Word.count then some (product * d) else none) start = none ↔
      ∃ outer : Shape, outer <+: shape ∧ Word.count ≤ start * outer.size := by
  induction shape generalizing start with
  | nil =>
      constructor
      · intro h
        cases h
      · rintro ⟨outer, hOuter, hLarge⟩
        rw [List.prefix_nil.mp hOuter, size] at hLarge
        omega
  | cons d ds ih =>
      rw [List.foldlM_cons]
      by_cases hFits : start * d < Word.count
      · rw [if_pos hFits]
        refine (ih hFits).trans ⟨?_, ?_⟩
        · rintro ⟨outer, hOuter, hLarge⟩
          rw [Nat.mul_assoc] at hLarge
          exact ⟨d :: outer, List.cons_prefix_cons.mpr ⟨rfl, hOuter⟩, hLarge⟩
        · rintro ⟨outer, hOuter, hLarge⟩
          rcases List.prefix_cons_iff.mp hOuter with rfl | ⟨rest, rfl, hRest⟩
          · rw [size] at hLarge
            omega
          · rw [size, ← Nat.mul_assoc] at hLarge
            exact ⟨rest, hRest, hLarge⟩
      · rw [if_neg hFits]
        refine iff_of_true rfl ⟨[d], List.cons_prefix_cons.mpr ⟨rfl, List.nil_prefix⟩, ?_⟩
        rw [size, size, Nat.mul_one]
        exact Nat.not_lt.mp hFits

theorem wordProduct?_eq_none_iff : shape.wordProduct? = none ↔ ¬ shape.Multiplies := by
  rw [wordProduct?, foldlM_wordProduct_eq_none_iff (by decide), Multiplies]
  simp only [Nat.one_mul, not_forall, exists_prop, Nat.not_lt]

theorem wordProduct?_eq_some_iff :
    shape.wordProduct? = some known ↔ shape.Multiplies ∧ known = shape.size := by
  constructor
  · intro h
    refine ⟨?_, size_of_wordProduct? h⟩
    by_contra hLeaves
    rw [wordProduct?_eq_none_iff.mpr hLeaves] at h
    cases h
  · rintro ⟨hFits, rfl⟩
    cases hProduct : shape.wordProduct? with
    | none => exact absurd hFits (wordProduct?_eq_none_iff.mp hProduct)
    | some product => rw [size_of_wordProduct? hProduct]

/-- The first axes of a shape with elements have no more of them. -/
theorem size_le_of_prefix {outer : Shape} (h : outer <+: shape) (hAxes : 0 ∉ shape) :
    outer.size ≤ shape.size := by
  induction outer generalizing shape with
  | nil => exact Nat.pos_of_ne_zero (mt size_eq_zero_iff.mp hAxes)
  | cons d ds ih =>
      cases shape with
      | nil => cases List.prefix_nil.mp h
      | cons e es =>
          obtain ⟨rfl, hRest⟩ := List.cons_prefix_cons.mp h
          exact Nat.mul_le_mul_left d (ih hRest fun hZero => hAxes (List.mem_cons_of_mem d hZero))

end Products

/-- What dimensions lead to for a number of elements. -/
inductive Inferred (elements : Nat) (dimensions : List Int64) : Except Exception Shape → Prop
  | malformed (e : Exception) (kind : e.kind = .valueError) (h : ¬ Lengths dimensions) :
      Inferred elements dimensions (.error e)
  | overflow (h : Lengths dimensions) (leaves : ¬ (given dimensions).Multiplies) :
      Inferred elements dimensions (.error .wordOverflow)
  | mismatch (h : Lengths dimensions) (other : ¬ Describes dimensions elements)
      (fits : (given dimensions).Multiplies) :
      Inferred elements dimensions (.error (.cannotReshape elements dimensions))
  | described (h : Describes dimensions elements) (fits : (given dimensions).Multiplies) :
      Inferred elements dimensions (.ok (fill dimensions (elements / knownProduct dimensions)))

theorem describes_iff (h : Lengths dimensions) :
    Describes dimensions elements ↔
      if unknownCount dimensions = 1 then
        ¬ (knownProduct dimensions = 0 ∨ elements % knownProduct dimensions ≠ 0)
      else knownProduct dimensions = elements := by
  have hUnknown : -1 ∈ dimensions ↔ unknownCount dimensions = 1 := by
    have hFew := h.few
    rw [← List.count_pos_iff, unknownCount]
    omega
  have hDescribes : Describes dimensions elements ↔
      if -1 ∈ dimensions then otherProduct dimensions ≠ 0 ∧ otherProduct dimensions ∣ elements
      else otherProduct dimensions = elements := ⟨Describes.product, fun hProduct => ⟨h, hProduct⟩⟩
  rw [hDescribes, otherProduct_eq h]
  simp only [hUnknown]
  split
  · rw [Int.natCast_dvd_natCast, Nat.dvd_iff_mod_eq_zero]
    omega
  · exact Int.natCast_inj

/-- Without a dimension that is left out nothing is filled in. -/
theorem fill_congr (h : -1 ∉ dimensions) (left right : Nat) :
    fill dimensions left = fill dimensions right := by
  refine List.map_congr_left fun d hd => ?_
  have hOther : d ≠ -1 := fun hEq => h (hEq ▸ hd)
  rw [if_neg hOther, if_neg hOther]

/-- The shape that is inferred, or the failure, is what the dimensions lead to. -/
theorem infer_inferred (elements : Nat) (dimensions : List Int64) :
    Inferred elements dimensions (infer elements dimensions) := by
  unfold infer
  by_cases hSeveral : 1 < unknownCount dimensions
  · rw [if_pos hSeveral]
    exact .malformed _ rfl fun h => Nat.not_lt.mpr h.few hSeveral
  by_cases hNegative : dimensions.any (· < -1)
  · rw [if_neg hSeveral, if_pos hNegative]
    obtain ⟨d, hd, hLess⟩ := List.any_eq_true.mp hNegative
    exact .malformed _ rfl fun h => Int64.not_lt.mpr (h.signs d hd) (of_decide_eq_true hLess)
  have hLengths : Lengths dimensions := by
    refine ⟨Nat.not_lt.mp hSeveral, fun d hd => Int64.not_lt.mp fun hLess => ?_⟩
    exact hNegative (List.any_eq_true.mpr ⟨d, hd, decide_eq_true hLess⟩)
  rw [if_neg hSeveral, if_neg hNegative]
  by_cases hFits : (given dimensions).Multiplies
  · rw [wordProduct?_eq_some_iff.mpr ⟨hFits, rfl⟩]
    change Inferred elements dimensions (if unknownCount dimensions = 1 then
        if knownProduct dimensions = 0 ∨ elements % knownProduct dimensions ≠ 0
        then .error (.cannotReshape elements dimensions)
        else .ok (fill dimensions (elements / knownProduct dimensions))
      else if knownProduct dimensions ≠ elements
        then .error (.cannotReshape elements dimensions)
        else .ok (fill dimensions 0))
    have hDescribes : Describes dimensions elements ↔ _ := describes_iff hLengths
    by_cases hUnknown : unknownCount dimensions = 1
    · rw [if_pos hUnknown] at hDescribes ⊢
      split
      · rename_i hFactor
        exact .mismatch hLengths (fun h => hDescribes.mp h hFactor) hFits
      · rename_i hFactor
        exact .described (hDescribes.mpr hFactor) hFits
    · rw [if_neg hUnknown] at hDescribes ⊢
      split
      · rename_i hSize
        exact .mismatch hLengths (mt hDescribes.mp hSize) hFits
      · rename_i hSize
        have hNone : -1 ∉ dimensions := by
          have hFew := hLengths.few
          rw [← List.count_eq_zero]
          rw [unknownCount] at hUnknown
          omega
        -- Nothing is left out, so it does not matter which length would be filled in.
        rw [fill_congr hNone 0 (elements / knownProduct dimensions)]
        exact .described (hDescribes.mpr (not_not.mp hSize)) hFits
  · rw [wordProduct?_eq_none_iff.mpr hFits]
    exact .overflow hLengths hFits

/-- The shape that dimensions describe has as many elements as there are. -/
theorem Describes.size_fill (h : Describes dimensions elements) :
    size (fill dimensions (elements / knownProduct dimensions)) = elements := by
  have hDescribes := (describes_iff h.toLengths).mp h
  have hFew : unknownCount dimensions ≤ 1 := h.few
  rw [Shape.size_fill _ _ fun d hd => h.eq_neg_one_or_nonneg hd]
  by_cases hUnknown : unknownCount dimensions = 1
  · rw [if_pos hUnknown] at hDescribes
    rw [hUnknown, Nat.pow_one]
    exact Nat.mul_div_cancel' (Nat.dvd_of_mod_eq_zero (by omega))
  · rw [if_neg hUnknown] at hDescribes
    rw [show unknownCount dimensions = 0 by omega, Nat.pow_zero, Nat.mul_one, hDescribes]

/-- The given dimensions of an array with elements are lengths of it, and not more than those. -/
theorem Describes.knownProduct_le (h : Describes dimensions elements) (hElements : 0 < elements) :
    0 < knownProduct dimensions ∧ knownProduct dimensions ≤ elements := by
  have hDescribes := (describes_iff h.toLengths).mp h
  split at hDescribes
  · have hFactor : knownProduct dimensions ∣ elements := Nat.dvd_of_mod_eq_zero (by omega)
    exact ⟨by omega, Nat.le_of_dvd hElements hFactor⟩
  · omega

/-- All lengths of a shape that dimensions describe are signed words if the number of elements
is. -/
theorem lt_signedLimit_of_mem_fill (hElements : elements < Word.signedLimit) {d : Nat}
    (hd : d ∈ fill dimensions (elements / knownProduct dimensions)) : d < Word.signedLimit := by
  obtain ⟨length, -, rfl⟩ := List.mem_map.mp hd
  split
  · exact Nat.lt_of_le_of_lt (Nat.div_le_self _ _) hElements
  · have hWord := length.toInt_lt
    rw [Int64.toNatClampNeg, Word.signedLimit]
    omega

end Shape

namespace NdArray

open Outcome Shape

variable {a : NdArray} {store : BufferStore} {dimensions : List Int64}

/-- The shape under which dimensions show an array. -/
def target (a : NdArray) (dimensions : List Int64) : Shape :=
  fill dimensions (a.size / knownProduct dimensions)

/-- Whether machine words suffice for a reshape: for the products of the dimensions that are
given, and for the strides of the shape that the dimensions describe. -/
structure WordsSuffice (a : NdArray) (dimensions : List Int64) : Prop where
  product : (given dimensions).Multiplies
  strides : Describes dimensions a.size → (a.target dimensions).checkStrides = .ok ()

/-- What a reshape can come to. -/
inductive Reshaped (a : NdArray) (store : BufferStore) (dimensions : List Int64) :
    Except Exception ArrayForm → Prop
  | malformed (e : Exception) (kind : e.kind = .valueError) (h : ¬ Lengths dimensions) :
      Reshaped a store dimensions (.error e)
  | overflow (h : Lengths dimensions) (leaves : ¬ a.WordsSuffice dimensions) :
      Reshaped a store dimensions (.error .wordOverflow)
  | mismatch (h : Lengths dimensions) (other : ¬ Describes dimensions a.size)
      (suffice : a.WordsSuffice dimensions) :
      Reshaped a store dimensions (.error (.cannotReshape a.size dimensions))
  | described (h : Describes dimensions a.size) (suffice : a.WordsSuffice dimensions) :
      Reshaped a store dimensions (.ok (a.withShape store (a.target dimensions)))

/-- The reshape of an array, or its failure, is what the dimensions lead to. -/
theorem reshape_reshaped (a : NdArray) (store : BufferStore) (dimensions : List Int64) :
    a.Reshaped store dimensions (a.reshape store dimensions) := by
  have hInferred := infer_inferred a.size dimensions
  unfold reshape
  generalize infer a.size dimensions = inferred at hInferred
  cases hInferred with
  | malformed e kind h => exact .malformed e kind h
  | overflow h leaves => exact .overflow h fun suffice => leaves suffice.product
  | mismatch h other fits => exact .mismatch h other ⟨fits, fun hDescribes => absurd hDescribes other⟩
  | described h fits =>
      change a.Reshaped store dimensions ((a.target dimensions).checkStrides >>= fun _ =>
        pure (a.withShape store (a.target dimensions)))
      rcases checkStrides_eq_ok_or (a.target dimensions) with hStrides | hStrides
      · rw [hStrides]
        exact .described h ⟨fits, fun _ => hStrides⟩
      · rw [hStrides]
        refine .overflow h.toLengths fun suffice => ?_
        rw [suffice.strides h] at hStrides
        cases hStrides

theorem checkStrides_target_iff (hSize : a.size < Word.signedLimit) :
    (a.target dimensions).checkStrides = .ok () ↔
      (a.target dimensions).paddedSize < Word.signedLimit :=
  checkStrides_eq_ok_iff fun _ hd => lt_signedLimit_of_mem_fill hSize hd

/-- What it takes for words to suffice, for arrays whose number of elements is a signed word. -/
theorem wordsSuffice_iff (hSize : a.size < Word.signedLimit) :
    a.WordsSuffice dimensions ↔ (given dimensions).Multiplies ∧
      (Describes dimensions a.size → (a.target dimensions).paddedSize < Word.signedLimit) := by
  rw [← checkStrides_target_iff hSize]
  exact ⟨fun suffice => ⟨suffice.product, suffice.strides⟩, fun ⟨hProduct, hStrides⟩ =>
    ⟨hProduct, hStrides⟩⟩

/-- Words suffice for every shape of an array that has elements. -/
theorem wordsSuffice_of_describes (h : Describes dimensions a.size) (hElements : 0 < a.size)
    (hSize : a.size < Word.signedLimit) : a.WordsSuffice dimensions := by
  refine (wordsSuffice_iff hSize).mpr ⟨fun outer hOuter => ?product, fun _ => ?strides⟩
  case product =>
    obtain ⟨hPositive, hKnown⟩ := h.knownProduct_le hElements
    have hAxes : 0 ∉ given dimensions := mt size_eq_zero_iff.mpr (Nat.ne_of_gt hPositive)
    have hPrefix : outer.size ≤ knownProduct dimensions := size_le_of_prefix hOuter hAxes
    have hLimits : Word.signedLimit ≤ Word.count := by decide
    omega
  case strides =>
    have hTarget : (a.target dimensions).size = a.size := h.size_fill
    have hAxes : 0 ∉ a.target dimensions :=
      mt size_eq_zero_iff.mpr (by rw [hTarget]; exact Nat.ne_of_gt hElements)
    rw [paddedSize_eq_size hAxes, hTarget]
    exact hSize

/-- While machine words suffice, a reshape succeeds exactly for the dimensions that describe the
elements of the array, with the shape they describe, and refuses all others with a fault of the
value. Where they do not suffice, dimensions with a wrong sign are refused as always, and all others
end in an overflow. For an array whose number of elements is a signed word they suffice if the
products of the given dimensions and of the strides are words, and so for all dimensions that
describe the elements of an array that has some. -/
theorem reshape_outcome (a : NdArray) (store : BufferStore) (dimensions : List Int64) :
    (a.WordsSuffice dimensions →
      ((∃ form, a.reshape store dimensions = .ok form) ↔ Describes dimensions a.size)) ∧
    (∀ form, a.reshape store dimensions = .ok form → Describes dimensions a.size ∧
      form = a.withShape store (a.target dimensions) ∧ (a.target dimensions).size = a.size) ∧
    (a.WordsSuffice dimensions ∨ ¬ Lengths dimensions → ¬ Describes dimensions a.size →
      ∃ e, a.reshape store dimensions = .error e ∧ e.kind = .valueError) ∧
    (a.reshape store dimensions = .error .wordOverflow ↔
      Lengths dimensions ∧ ¬ a.WordsSuffice dimensions) ∧
    (a.size < Word.signedLimit →
      (a.WordsSuffice dimensions ↔ (given dimensions).Multiplies ∧
        (Describes dimensions a.size → (a.target dimensions).paddedSize < Word.signedLimit)) ∧
      (0 < a.size → Describes dimensions a.size → a.WordsSuffice dimensions)) := by
  have hReshaped := reshape_reshaped a store dimensions
  refine ⟨fun suffice => ?exact, fun form hForm => ?sound, fun hRegion hOther => ?refused,
    ?overflow, fun hSize => ⟨wordsSuffice_iff hSize, fun hElements h =>
      wordsSuffice_of_describes h hElements hSize⟩⟩
  all_goals generalize a.reshape store dimensions = outcome at *
  case exact =>
    cases hReshaped with
    | malformed e kind h => simpa using fun hDescribes : Describes _ _ => h hDescribes.toLengths
    | overflow h leaves => exact absurd suffice leaves
    | mismatch h other => simpa using other
    | described h => simpa using h
  case sound =>
    subst hForm
    cases hReshaped with
    | described h suffice => exact ⟨h, rfl, h.size_fill⟩
  case refused =>
    cases hReshaped with
    | malformed e kind h => exact ⟨e, rfl, kind⟩
    | overflow h leaves => exact absurd h (hRegion.resolve_left leaves)
    | mismatch h other suffice => exact ⟨_, rfl, rfl⟩
    | described h suffice => exact absurd h hOther
  case overflow =>
    cases hReshaped with
    | malformed e kind h =>
        have hOther : e ≠ .wordOverflow := by
          rintro rfl
          cases kind
        simp [hOther, h]
    | overflow h leaves => simp [h, leaves]
    | mismatch h other suffice => simp [suffice]
    | described h suffice => simp [suffice]

/-- Two rows of three elements, with the second dimension left out. -/
theorem reshape_outcome_of_rows :
    (ofBuffer ⟨0⟩ .int64 [2, 3]).size < Word.signedLimit ∧
      Describes [3, -1] (ofBuffer ⟨0⟩ .int64 [2, 3]).size ∧
      (ofBuffer ⟨0⟩ .int64 [2, 3]).reshape .empty [3, -1]
        = .ok (.view ⟨⟨0⟩, .int64, [3, 2], [2, 1], 0⟩) := by
  have hSize : (ofBuffer ⟨0⟩ .int64 [2, 3]).size < Word.signedLimit := by decide
  have hDescribes : Describes [3, -1] (ofBuffer ⟨0⟩ .int64 [2, 3]).size :=
    ⟨⟨by decide, by simp⟩, by decide⟩
  obtain ⟨hExact, hSound, -, -, hWords⟩ := reshape_outcome (ofBuffer ⟨0⟩ .int64 [2, 3]) .empty [3, -1]
  have hSuffice := (hWords hSize).2 (by decide) hDescribes
  obtain ⟨form, hForm⟩ := (hExact hSuffice).mpr hDescribes
  obtain ⟨-, rfl, -⟩ := hSound form hForm
  exact ⟨hSize, hDescribes, hForm⟩

/-- An array without elements is not reshaped to two dimensions whose product is no word, and this
is not refused with a fault of the value either. -/
theorem not_refused_of_large_square :
    ¬ Describes [0x100000000, 0x100000000] (ofBuffer ⟨0⟩ .int64 [0]).size ∧
      (ofBuffer ⟨0⟩ .int64 [0]).reshape .empty [0x100000000, 0x100000000] = .error .wordOverflow ∧
      Exception.wordOverflow.kind ≠ .valueError := by
  refine ⟨fun h => absurd h.product (by decide), rfl, by decide⟩

end NdArray

end ArrayBridge
