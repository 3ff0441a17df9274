import ArrayBridge.Proofs.Layout
import ArrayBridge.Proofs.StrideProducts
import Mathlib.Data.Int.ModEq

/-! The order in which the odometer visits the indices of a shape.

A step of the odometer leads to a lexicographically greater index, and to the next row-major rank: the
coordinates that start again at zero lose all ranks of the axes behind the one that grows, but one, and
that one is worth just as many. So the rank of an index is the number of the indices that were visited
before it. Strides in machine words give the same ranks as far as words can tell numbers apart. -/

namespace ArrayBridge

/-- A length that is read as a signed word stays the same modulo the number of words. -/
theorem signedLength_modEq (size : Nat) : signedLength size ≡ size [ZMOD Word.count] := by
  rw [signedLength, Int64.toInt_ofNat']
  exact Int.bmod_emod

namespace Shape

variable {shape : Shape} {index next : List Nat}

section Steps

/-- Coordinates that start again at zero have the rank zero. -/
theorem dot_zeros (index weights : List Nat) : dot (index.map fun _ => 0) weights = 0 := by
  induction index generalizing weights with
  | nil => cases weights <;> rfl
  | cons i is ih =>
      cases weights with
      | nil => rfl
      | cons w ws => rw [List.map_cons, dot, ih, Nat.zero_mul]

/-- The last index of a shape has the last rank. -/
theorem dot_of_advance_eq_none (hIn : shape.Contains index) (h : shape.advance index = none) :
    dot index shape.strides + 1 = shape.size := by
  induction shape generalizing index with
  | nil =>
      rw [contains_nil_iff.mp hIn]
      rfl
  | cons d ds ih =>
      cases index with
      | nil => exact hIn.elim
      | cons i is =>
          simp only [advance] at h
          split at h
          · cases h
          · rename_i hStep
            have hLast : d = i + 1 := by
              have hHead : i < d := hIn.1
              split at h
              · cases h
              · omega
            have hTail := ih hIn.2 hStep
            rw [strides, dot, size, paddedSize_eq_size hIn.2.zero_notMem, hLast, Nat.succ_mul,
              ← hTail]
            omega

/-- A step of the odometer leads to the next rank. -/
theorem dot_of_advance (hIn : shape.Contains index) (h : shape.advance index = some next) :
    dot next shape.strides = dot index shape.strides + 1 := by
  induction shape generalizing index next with
  | nil => simp [advance] at h
  | cons d ds ih =>
      cases index with
      | nil => exact hIn.elim
      | cons i is =>
          simp only [advance] at h
          split at h
          · rename_i js hStep
            cases h
            rw [strides, dot, dot, ih hIn.2 hStep, Nat.add_assoc]
          · rename_i hStep
            split at h
            · cases h
              have hTail := dot_of_advance_eq_none hIn.2 hStep
              rw [strides, dot, dot, dot_zeros, paddedSize_eq_size hIn.2.zero_notMem, Nat.succ_mul,
                ← hTail]
              omega
            · cases h

/-- A step of the odometer leads to a greater index. -/
theorem lt_of_advance (h : shape.advance index = some next) : index < next := by
  induction shape generalizing index next with
  | nil => simp [advance] at h
  | cons d ds ih =>
      cases index with
      | nil => simp [advance] at h
      | cons i is =>
          simp only [advance] at h
          split at h
          · rename_i js hStep
            cases h
            exact List.cons_lt_cons_iff.mpr (.inr ⟨rfl, ih hStep⟩)
          · split at h
            · cases h
              exact List.cons_lt_cons_iff.mpr (.inl (Nat.lt_succ_self i))
            · cases h

end Steps

section Visits

/-- What is visited from an index on stands at the ranks from that of the index on, and in increasing
order. -/
theorem toList_visitFrom_ordered (hIn : shape.Contains index) (visited : Array (List Nat)) :
    ∃ later : List (List Nat), (shape.visitFrom index visited).toList = visited.toList ++ index :: later ∧
      (index :: later).Pairwise (· < ·) ∧
      ∀ k visit, (index :: later)[k]? = some visit →
        dot visit shape.strides = dot index shape.strides + k := by
  fun_induction visitFrom shape index visited with
  | case1 index visited hStep =>
      refine ⟨[], Array.toList_push, List.pairwise_singleton _ _, fun k visit hVisit => ?_⟩
      obtain ⟨rfl, rfl⟩ : k = 0 ∧ index = visit := by
        cases k <;> simp_all
      rfl
  | case2 index visited next hStep ih =>
      obtain ⟨hNext, -⟩ := listingFrom_of_advance hIn hStep
      obtain ⟨later, hVisited, hOrder, hRanks⟩ := ih hNext
      have hLess := lt_of_advance hStep
      refine ⟨next :: later, by rw [hVisited, Array.toList_push, List.append_assoc]; rfl, ?_, ?_⟩
      · refine List.pairwise_cons.mpr ⟨fun visit hVisit => ?_, hOrder⟩
        rcases List.mem_cons.mp hVisit with rfl | hLater
        · exact hLess
        · exact List.lt_trans hLess ((List.pairwise_cons.mp hOrder).1 visit hLater)
      · intro k visit hVisit
        cases k with
        | zero =>
            obtain rfl : index = visit := Option.some.inj hVisit
            rfl
        | succ k =>
            rw [hRanks k visit hVisit, dot_of_advance hIn hStep]
            omega

/-- The odometer starts at the rank zero. -/
theorem indices_ordered (shape : Shape) : shape.indices.toList.Pairwise (· < ·) ∧
    ∀ k index, shape.indices[k]? = some index → dot index shape.strides = k := by
  unfold indices
  split
  · exact ⟨List.Pairwise.nil, fun k index hIndex => by simp at hIndex⟩
  · rename_i hAxes
    obtain ⟨later, hVisited, hOrder, hRanks⟩ := toList_visitFrom_ordered (contains_zeros hAxes) #[]
    rw [List.nil_append] at hVisited
    refine ⟨hVisited ▸ hOrder, fun k index hIndex => ?_⟩
    rw [← Array.getElem?_toList, hVisited] at hIndex
    rw [hRanks k index hIndex, dot_zeros, Nat.zero_add]

end Visits

section Words

variable {inner : Int} {strides : List Int}

/-- The row-major strides in signed words. They are multiplied up from the innermost axis outward,
and the product of all axes has to be a word, too. -/
def wordStrides? : Shape → Option (List Int)
  | [] => some []
  | d :: ds => do
    let strides ← wordStrides? ds
    let inner ← paddedProduct? ds
    let _ ← Word.signed? (inner * signedLength (max d 1))
    return inner :: strides

theorem wordStrides?_cons_eq_some_iff {d : Nat} {ds : Shape} :
    wordStrides? (d :: ds) = some strides ↔ ∃ rest inner outer, wordStrides? ds = some rest ∧
      paddedProduct? ds = some inner ∧ paddedProduct? (d :: ds) = some outer ∧
      strides = inner :: rest := by
  rw [wordStrides?, paddedProduct?]
  cases wordStrides? ds with
  | none => simp
  | some rest =>
      cases paddedProduct? ds with
      | none => simp
      | some inner =>
          cases hOuter : Word.signed? (inner * signedLength (max d 1)) <;> simp [hOuter, eq_comm]

/-- The strides are words exactly if the products on the way are. -/
theorem exists_wordStrides?_iff (shape : Shape) :
    (∃ strides, shape.wordStrides? = some strides) ↔ shape.checkStrides = .ok () := by
  have hProduct (shape : Shape) : shape.checkStrides = .ok () ↔ ∃ p, shape.paddedProduct? = some p := by
    rw [checkStrides]
    cases shape.paddedProduct? <;> simp
  simp only [hProduct]
  induction shape with
  | nil => exact iff_of_true ⟨[], rfl⟩ ⟨1, rfl⟩
  | cons d ds ih =>
      simp only [wordStrides?_cons_eq_some_iff]
      constructor
      · rintro ⟨_, _, _, outer, -, -, hOuter, -⟩
        exact ⟨outer, hOuter⟩
      · rintro ⟨outer, hOuter⟩
        obtain ⟨inner, hInner, -⟩ := Option.bind_eq_some_iff.mp hOuter
        obtain ⟨rest, hRest⟩ := ih.mpr ⟨inner, hInner⟩
        exact ⟨_, rest, inner, outer, hRest, hInner, hOuter, rfl⟩

/-- A product in words is the product modulo the number of words. -/
theorem paddedProduct?_modEq (h : shape.paddedProduct? = some inner) :
    inner ≡ shape.paddedSize [ZMOD Word.count] := by
  induction shape generalizing inner with
  | nil =>
      cases h
      rfl
  | cons d ds ih =>
      obtain ⟨tail, hTail, hInner⟩ := Option.bind_eq_some_iff.mp h
      unfold Word.signed? at hInner
      split at hInner
      · cases hInner
        rw [paddedSize, Nat.mul_comm, Int.natCast_mul]
        exact (ih hTail).mul (signedLength_modEq _)
      · cases hInner

/-- With strides in words an index has its rank modulo the number of words. -/
theorem displacement_modEq (h : shape.wordStrides? = some strides) (index : List Nat) :
    NdArray.displacement index strides ≡ dot index shape.strides [ZMOD Word.count] := by
  induction shape generalizing index strides with
  | nil =>
      cases h
      cases index <;> rfl
  | cons d ds ih =>
      obtain ⟨rest, inner, -, hRest, hInner, -, rfl⟩ := wordStrides?_cons_eq_some_iff.mp h
      cases index with
      | nil => rfl
      | cons i is =>
          rw [NdArray.displacement, Shape.strides, dot, Int.natCast_add, Int.natCast_mul]
          exact ((paddedProduct?_modEq hInner).mul_left i).add (ih hRest is)

/-- Where the number of elements is a signed word, the strides in words are the strides. -/
theorem wordStrides?_of_size_lt (hAxes : 0 ∉ shape) (hFits : shape.size < Word.signedLimit) :
    shape.wordStrides? = some (NdArray.rowMajorStrides shape) := by
  induction shape with
  | nil => rfl
  | cons d ds ih =>
      have hSigned (e : Nat) (he : e ∈ d :: ds) : e < Word.signedLimit :=
        Nat.lt_of_le_of_lt (le_size_of_mem he hAxes) hFits
      have hTail : paddedSize ds ≤ paddedSize (d :: ds) :=
        paddedSize_le_of_suffix (List.suffix_cons d ds)
      rw [← paddedSize_eq_size hAxes] at hFits
      have hTailFits : paddedSize ds < Word.signedLimit := Nat.lt_of_le_of_lt hTail hFits
      have hTailAxes : 0 ∉ ds := fun hZero => hAxes (List.mem_cons_of_mem d hZero)
      rw [wordStrides?_cons_eq_some_iff]
      refine ⟨_, _, paddedSize (d :: ds), ih hTailAxes (paddedSize_eq_size hTailAxes ▸ hTailFits), ?_, ?_,
        rfl⟩
      · rw [paddedProduct?_eq fun e he => hSigned e (List.mem_cons_of_mem d he), if_pos hTailFits]
        rfl
      · rw [paddedProduct?_eq hSigned, if_pos hFits]

end Words

/-- The odometer visits each index inside a shape once, as many as there are elements: the empty index
alone if there are no axes, and none if an axis is empty. It visits them in strictly increasing
lexicographic order. So the row-major rank of an index is the number of visits before it. That is also
its rank under the strides in signed words, which exist where all elements can be counted in such words;
where strides of other shapes are words, the rank is the same modulo the number of words. -/
theorem odometer_law (shape : Shape) :
    shape.indices.size = shape.size ∧
    (shape = [] → shape.indices = #[[]]) ∧ (0 ∈ shape → shape.indices = #[]) ∧
    (∀ index, index ∈ shape.indices ↔ shape.Contains index) ∧
    shape.indices.toList.Pairwise (· < ·) ∧
    (∀ k index, shape.indices[k]? = some index → dot index shape.strides = k) ∧
    (0 ∉ shape → shape.size < Word.signedLimit → ∃ strides, shape.wordStrides? = some strides ∧
      ∀ (k : Nat) index, shape.indices[k]? = some index → NdArray.displacement index strides = k) ∧
    ∀ strides, shape.wordStrides? = some strides → ∀ (k : Nat) index, shape.indices[k]? = some index →
      NdArray.displacement index strides ≡ k [ZMOD Word.count] := by
  obtain ⟨hOrder, hRanks⟩ := indices_ordered shape
  refine ⟨size_indices shape, ?_, fun hEmpty => if_pos hEmpty, fun _ => mem_indices, hOrder, hRanks,
    fun hAxes hFits => ⟨_, wordStrides?_of_size_lt hAxes hFits, fun k index hIndex => ?_⟩,
    fun strides hStrides k index hIndex => ?_⟩
  · rintro rfl
    rw [← Array.toList_inj, toList_indices]
    rfl
  · rw [NdArray.displacement_rowMajorStrides, hRanks k index hIndex]
  · have hRank := displacement_modEq hStrides index
    rwa [hRanks k index hIndex] at hRank

/-- Of the sixty indices of a box the one with the coordinates two, one and three comes after 48
others. -/
theorem odometer_law_of_box : (indices [3, 4, 5])[48]? = some [2, 1, 3] ∧
    ∃ strides, wordStrides? [3, 4, 5] = some strides ∧ NdArray.displacement [2, 1, 3] strides = 48 := by
  obtain ⟨-, -, -, hAll, -, hRanks, hWords, -⟩ := odometer_law [3, 4, 5]
  obtain ⟨k, hVisit⟩ := Array.mem_iff_getElem?.mp ((hAll [2, 1, 3]).mpr (by decide))
  have hRank : 48 = k := hRanks k [2, 1, 3] hVisit
  subst hRank
  obtain ⟨strides, hStrides, hSame⟩ := hWords (by decide) (by decide)
  exact ⟨hVisit, strides, hStrides, hSame 48 [2, 1, 3] hVisit⟩

end Shape

end ArrayBridge
