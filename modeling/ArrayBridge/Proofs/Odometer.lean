import ArrayBridge.Shape.Basic
import Mathlib.Data.List.Nodup

/-! The odometer visits every index of a shape once, in row-major order.

The odometer is compared with the enumeration that follows the axes: for each
coordinate of the first axis in turn, all indices of the other axes. -/

namespace ArrayBridge.Shape

/-- An index lies inside a shape if it has one coordinate for each axis, and each
coordinate is below the length of its axis. -/
def Contains : Shape → List Nat → Prop
  | [], [] => True
  | d :: ds, i :: is => i < d ∧ Contains ds is
  | _, _ => False

instance decidableContains : (shape : Shape) → (index : List Nat) → Decidable (shape.Contains index)
  | [], [] => .isTrue trivial
  | d :: ds, i :: is =>
    have := decidableContains ds is
    inferInstanceAs (Decidable (i < d ∧ Contains ds is))
  | [], _ :: _ => .isFalse id
  | _ :: _, [] => .isFalse id

@[simp] theorem contains_nil_nil : Contains [] [] := trivial

@[simp] theorem contains_cons_cons {d i : Nat} {ds is : List Nat} :
    Contains (d :: ds) (i :: is) ↔ i < d ∧ Contains ds is := Iff.rfl

@[simp] theorem contains_nil_iff {index : List Nat} : Contains [] index ↔ index = [] := by
  cases index <;> simp [Contains]

@[simp] theorem not_contains_cons_nil {d : Nat} {ds : List Nat} : ¬ Contains (d :: ds) [] := id

theorem Contains.length_eq {shape : Shape} {index : List Nat} (h : shape.Contains index) :
    index.length = shape.length := by
  induction shape generalizing index with
  | nil => simp_all
  | cons d ds ih =>
      cases index with
      | nil => exact h.elim
      | cons i is => simp [ih h.2]

/-- A shape with an index inside has no empty axis. -/
theorem Contains.zero_notMem {shape : Shape} {index : List Nat} (h : shape.Contains index) :
    0 ∉ shape := by
  induction shape generalizing index with
  | nil => simp
  | cons d ds ih =>
      cases index with
      | nil => exact h.elim
      | cons i is =>
          have hHead : i < d := h.1
          simp only [List.mem_cons, not_or]
          exact ⟨by omega, ih h.2⟩

theorem contains_zeros {shape : Shape} (h : 0 ∉ shape) : shape.Contains (shape.map fun _ => 0) := by
  induction shape with
  | nil => trivial
  | cons d ds ih =>
      simp only [List.mem_cons, not_or] at h
      exact ⟨Nat.pos_of_ne_zero (Ne.symm h.1), ih h.2⟩

/-- Padding only matters where an axis is empty. -/
theorem paddedSize_eq_size {shape : Shape} (h : 0 ∉ shape) : shape.paddedSize = shape.size := by
  induction shape with
  | nil => rfl
  | cons d ds ih =>
      simp only [List.mem_cons, not_or] at h
      rw [paddedSize, size, ih h.2, Nat.max_eq_left (by omega)]

theorem size_eq_zero_iff {shape : Shape} : shape.size = 0 ↔ 0 ∈ shape := by
  induction shape with
  | nil => simp [size]
  | cons d ds ih => rw [size, Nat.mul_eq_zero, ih, List.mem_cons, eq_comm]

/-- Where there are elements, no axis is longer than their number. -/
theorem le_size_of_mem {shape : Shape} {d : Nat} (hMem : d ∈ shape) (hPositive : 0 ∉ shape) :
    d ≤ shape.size := by
  induction shape with
  | nil => cases hMem
  | cons n rest ih =>
      simp only [List.mem_cons, not_or] at hPositive
      rcases List.mem_cons.mp hMem with rfl | hRest
      · refine Nat.le_mul_of_pos_right d (Nat.pos_of_ne_zero fun hZero => ?_)
        exact hPositive.2 (size_eq_zero_iff.mp hZero)
      · refine Nat.le_trans (ih hRest hPositive.2) ?_
        exact Nat.le_mul_of_pos_left _ (Nat.pos_of_ne_zero (Ne.symm hPositive.1))

@[simp] theorem length_strides (shape : Shape) : shape.strides.length = shape.length := by
  induction shape with
  | nil => rfl
  | cons d ds ih => simp [strides, ih]

section Enumeration

/-- All indices of a shape, listed axis by axis. -/
def listing : Shape → List (List Nat)
  | [] => [[]]
  | d :: ds => (List.range d).flatMap fun i => (listing ds).map (i :: ·)

theorem mem_listing {shape : Shape} {index : List Nat} :
    index ∈ shape.listing ↔ shape.Contains index := by
  induction shape generalizing index with
  | nil => simp [listing]
  | cons d ds ih =>
      cases index with
      | nil => simp [listing]
      | cons i is => simp [listing, ih]

theorem nodup_listing (shape : Shape) : shape.listing.Nodup := by
  induction shape with
  | nil => simp [listing]
  | cons d ds ih =>
      rw [listing, List.nodup_flatMap]
      refine ⟨fun i _ => ih.map fun _ _ h => (List.cons.inj h).2, ?_⟩
      refine List.nodup_range.imp fun {i j} hNe => ?_
      intro index hLeft hRight
      obtain ⟨_, _, rfl⟩ := List.mem_map.mp hLeft
      obtain ⟨_, _, hEq⟩ := List.mem_map.mp hRight
      exact hNe (List.cons.inj hEq).1.symm

@[simp] theorem length_listing (shape : Shape) : shape.listing.length = shape.size := by
  induction shape with
  | nil => rfl
  | cons d ds ih => simp [listing, size, ih]

theorem listing_eq_nil {shape : Shape} (h : 0 ∈ shape) : shape.listing = [] := by
  rw [← List.length_eq_zero_iff, length_listing]
  exact size_eq_zero_iff.mpr h

/-- The indices of a shape from a given one on. -/
def listingFrom : Shape → List Nat → List (List Nat)
  | d :: ds, i :: is => (listingFrom ds is).map (i :: ·)
      ++ (List.range' (i + 1) (d - (i + 1))).flatMap fun j => (listing ds).map (j :: ·)
  | _, _ => [[]]

theorem listingFrom_zeros {shape : Shape} (h : 0 ∉ shape) :
    shape.listingFrom (shape.map fun _ => 0) = shape.listing := by
  induction shape with
  | nil => rfl
  | cons d ds ih =>
      simp only [List.mem_cons, not_or] at h
      obtain ⟨n, rfl⟩ : ∃ n, d = n + 1 := ⟨d - 1, by omega⟩
      simp only [List.map_cons, listingFrom, listing, ih h.2, List.range_eq_range',
        List.range'_succ, List.flatMap_cons, Nat.zero_add, Nat.add_sub_cancel]

/-- The last index has no successor, and only itself is left. -/
theorem listingFrom_of_advance_eq_none {shape : Shape} {index : List Nat}
    (hIn : shape.Contains index) (h : shape.advance index = none) :
    shape.listingFrom index = [index] := by
  induction shape generalizing index with
  | nil =>
      rw [contains_nil_iff.mp hIn]
      rfl
  | cons d ds ih =>
      cases index with
      | nil => exact hIn.elim
      | cons i is =>
          simp only [advance] at h
          split at h
          · cases h
          · rename_i hStep
            have hLast : d - (i + 1) = 0 := by
              have := hIn.1
              split at h
              · cases h
              · omega
            simp [listingFrom, ih hIn.2 hStep, hLast]

/-- A step of the odometer leads to the next index of the enumeration. -/
theorem listingFrom_of_advance {shape : Shape} {index next : List Nat}
    (hIn : shape.Contains index) (h : shape.advance index = some next) :
    shape.Contains next ∧ shape.listingFrom index = index :: shape.listingFrom next := by
  induction shape generalizing index next with
  | nil => simp [advance] at h
  | cons d ds ih =>
      cases index with
      | nil => exact hIn.elim
      | cons i is =>
          simp only [advance] at h
          split at h
          · rename_i js hStep
            cases h
            obtain ⟨hNext, hTail⟩ := ih hIn.2 hStep
            refine ⟨⟨hIn.1, hNext⟩, ?_⟩
            simp [listingFrom, hTail]
          · rename_i hStep
            split at h
            · rename_i hRoom
              cases h
              have hZeros : (is.map fun _ => 0) = ds.map fun _ => 0 := by
                simp [List.map_const', hIn.2.length_eq]
              have hPositive := hIn.2.zero_notMem
              rw [hZeros]
              refine ⟨⟨hRoom, contains_zeros hPositive⟩, ?_⟩
              obtain ⟨n, hn⟩ : ∃ n, d - (i + 1) = n + 1 := ⟨d - (i + 1) - 1, by omega⟩
              have hRest : d - (i + 1 + 1) = n := by omega
              simp only [listingFrom, listingFrom_of_advance_eq_none hIn.2 hStep,
                listingFrom_zeros hPositive, hn, hRest, List.range'_succ, List.flatMap_cons,
                List.map_cons, List.map_nil, List.singleton_append]
            · cases h

/-- From any index inside the shape, the odometer visits the rest of the
enumeration and stops. -/
theorem toList_visitFrom {shape : Shape} {index : List Nat} (visited : Array (List Nat))
    (hIn : shape.Contains index) :
    (shape.visitFrom index visited).toList = visited.toList ++ shape.listingFrom index := by
  fun_induction visitFrom shape index visited with
  | case1 index visited hStep =>
      rw [listingFrom_of_advance_eq_none hIn hStep, Array.toList_push]
  | case2 index visited next hStep ih =>
      obtain ⟨hNext, hTail⟩ := listingFrom_of_advance hIn hStep
      rw [ih hNext, hTail, Array.toList_push, List.append_assoc]
      rfl

/-- The odometer enumerates exactly the indices of the shape, in the order of the
enumeration axis by axis. -/
theorem toList_indices (shape : Shape) : shape.indices.toList = shape.listing := by
  unfold indices
  split
  · rename_i h
    rw [listing_eq_nil h]
  · rename_i h
    rw [toList_visitFrom #[] (contains_zeros h), listingFrom_zeros h]
    rfl

theorem mem_indices {shape : Shape} {index : List Nat} :
    index ∈ shape.indices ↔ shape.Contains index := by
  rw [← Array.mem_toList_iff, toList_indices, mem_listing]

@[simp] theorem size_indices (shape : Shape) : shape.indices.size = shape.size := by
  rw [← Array.length_toList, toList_indices, length_listing]

end Enumeration

section RowMajor

/-- Blocks of one length are found at the multiples of that length. -/
theorem getElem?_flatMap_range {α : Type} (f : Nat → List α) {width count i r : Nat}
    (hWidth : ∀ j, (f j).length = width) (hi : i < count) (hr : r < width) :
    ((List.range count).flatMap f)[i * width + r]? = (f i)[r]? := by
  induction count with
  | zero => omega
  | succ count ih =>
      have hLength : ((List.range count).flatMap f).length = count * width := by
        simp [List.length_flatMap, hWidth]
      rw [List.range_succ, List.flatMap_append, List.flatMap_singleton]
      rcases Nat.lt_or_ge i count with hLt | hGe
      · have hBelow : i * width + r < count * width := by
          calc i * width + r < i * width + width := by omega
            _ = (i + 1) * width := (Nat.succ_mul i width).symm
            _ ≤ count * width := Nat.mul_le_mul_right _ hLt
        rw [List.getElem?_append_left (by omega), ih hLt]
      · have hEq : i = count := by omega
        subst hEq
        rw [List.getElem?_append_right (by omega), hLength, Nat.add_sub_cancel_left]

/-- The strides of a shape weigh an index to its position in the enumeration. -/
theorem listing_getElem?_dot {shape : Shape} {index : List Nat} (h : shape.Contains index) :
    shape.listing[dot index shape.strides]? = some index := by
  induction shape generalizing index with
  | nil =>
      rw [contains_nil_iff.mp h]
      rfl
  | cons d ds ih =>
      cases index with
      | nil => exact h.elim
      | cons i is =>
          have hTail := ih h.2
          have hBound : dot is (strides ds) < size ds := by
            have := (List.getElem?_eq_some_iff.mp hTail).1
            rwa [length_listing] at this
          rw [listing, strides, dot, paddedSize_eq_size h.2.zero_notMem,
            getElem?_flatMap_range _ (by simp) h.1 hBound, List.getElem?_map, hTail]
          rfl

theorem dot_strides_lt {shape : Shape} {index : List Nat} (h : shape.Contains index) :
    dot index shape.strides < shape.size := by
  have := (List.getElem?_eq_some_iff.mp (listing_getElem?_dot h)).1
  rwa [length_listing] at this

/-- Two indices of one shape have different row-major positions. -/
theorem dot_strides_injective {shape : Shape} {i j : List Nat} (hi : shape.Contains i)
    (hj : shape.Contains j) (h : dot i shape.strides = dot j shape.strides) : i = j := by
  have hFound := listing_getElem?_dot hi
  rw [h, listing_getElem?_dot hj] at hFound
  exact (Option.some.inj hFound).symm

/-- Every position of the row-major order is that of an index. -/
theorem exists_dot_strides_eq {shape : Shape} {k : Nat} (h : k < shape.size) :
    ∃ index, shape.Contains index ∧ dot index shape.strides = k := by
  have hListed : k < shape.listing.length := by rwa [length_listing]
  have hIn := mem_listing.mp (List.getElem_mem hListed)
  obtain ⟨hPosition, hFound⟩ := List.getElem?_eq_some_iff.mp (listing_getElem?_dot hIn)
  exact ⟨_, hIn, (nodup_listing shape).getElem_inj_iff.mp hFound⟩

/-- The indices of a shape stand at the row-major positions, one after the other. -/
theorem map_dot_listing (shape : Shape) :
    shape.listing.map (fun index => dot index shape.strides) = List.range shape.size := by
  refine List.ext_getElem (by simp) fun k hListed hRange => ?_
  rw [List.length_range] at hRange
  obtain ⟨index, hIn, rfl⟩ := exists_dot_strides_eq hRange
  obtain ⟨_, hFound⟩ := List.getElem?_eq_some_iff.mp (listing_getElem?_dot hIn)
  rw [List.getElem_map, List.getElem_range, hFound]

end RowMajor

end ArrayBridge.Shape
