import ArrayBridge.Proofs.EngineLedger
import ArrayBridge.Proofs.Layout
import Mathlib.Data.Fintype.Card

/-! Nests of numbers, arrays and sequences.

A nest is rectangular if all items of a sequence have the same shape, an array counting
with its own. The objects on a way down are all different and each has a slot of its own,
so no way down is longer than there are slots. -/

namespace ArrayBridge

/-- The contents of an array with the given leaves of a nest as its values: their element
type is the smallest one that holds all of them. -/
def Contents.ofLeaves (shape : Shape) (leaves : List Scalar) : Contents :=
  .ofValues (if leaves = [] then .float64 else DType.joinAll (leaves.map Scalar.dtype))
    leaves.toArray shape

theorem DType.foldl_join_of_forall {dtype : DType} {dtypes : List DType}
    (h : ∀ other ∈ dtypes, other = dtype) : dtypes.foldl join dtype = dtype := by
  induction dtypes with
  | nil => rfl
  | cons other dtypes ih =>
      rw [List.forall_mem_cons] at h
      rw [List.foldl_cons, h.1]
      have hSame : join dtype dtype = dtype := by cases dtype <;> rfl
      rw [hSame]
      exact ih h.2

/-- Leaves of one type stay as they are. -/
theorem Contents.ofLeaves_of_dtype {shape : Shape} {leaves : List Scalar} (dtype : DType)
    (hSome : leaves ≠ []) (hType : ∀ value ∈ leaves, value.dtype = dtype) :
    Contents.ofLeaves shape leaves = ⟨dtype, shape, leaves.toArray⟩ := by
  have hJoin : DType.joinAll (leaves.map Scalar.dtype) = dtype := by
    obtain ⟨first, rest, rfl⟩ := List.exists_cons_of_ne_nil hSome
    rw [List.forall_mem_cons] at hType
    have hFirst : DType.join .bool first.dtype = dtype := by
      rw [hType.1]
      cases dtype <;> rfl
    rw [DType.joinAll, List.map_cons, List.foldl_cons, hFirst]
    exact DType.foldl_join_of_forall (by simpa using hType.2)
  have hValues : leaves.map (·.cast dtype) = leaves := by
    refine (List.map_congr_left fun value hValue => ?_).trans (List.map_id _)
    rw [← hType value hValue]
    exact value.cast_dtype
  rw [Contents.ofLeaves, if_neg hSome, hJoin, Contents.ofValues, List.map_toArray, hValues]

/-- What an object is as a part of a nest. -/
inductive Part where
  | number (value : Scalar)
  | array (array : NdArray)
  | sequence (items : List ObjectId)

namespace Engine

/-- The part of a nest that an object is. -/
def part? (engine : Engine) (id : ObjectId) : Option Part :=
  match engine.object id with
  | .ok (.tuple items) | .ok (.list items) => some (.sequence items)
  | .ok (.array a) => some (.array a)
  | .ok object => object.number?.map .number
  | .error _ => none

section Specification

variable (engine : Engine)

/-- An object that is built of numbers, arrays and sequences, to any depth. -/
inductive IsNest : ObjectId → Prop
  | number {id : ObjectId} {value : Scalar} (h : engine.part? id = some (.number value)) : IsNest id
  | array {id : ObjectId} {a : NdArray} (h : engine.part? id = some (.array a)) : IsNest id
  | sequence {id : ObjectId} {items : List ObjectId} (h : engine.part? id = some (.sequence items))
      (hItems : ∀ item ∈ items, IsNest item) : IsNest id

/-- An object is a rectangular nest of a shape. -/
inductive HasShape : ObjectId → Shape → Prop
  | number {id : ObjectId} {value : Scalar} (h : engine.part? id = some (.number value)) :
      HasShape id []
  | array {id : ObjectId} {a : NdArray} (h : engine.part? id = some (.array a)) :
      HasShape id a.shape
  | empty {id : ObjectId} (h : engine.part? id = some (.sequence [])) : HasShape id [0]
  | sequence {id : ObjectId} {items : List ObjectId} {shape : Shape}
      (h : engine.part? id = some (.sequence items)) (hSome : items ≠ [])
      (hItems : ∀ item ∈ items, HasShape item shape) : HasShape id (items.length :: shape)

/-- The numbers in a nest from first to last, those in its arrays included. -/
inductive Leaves : ObjectId → List Scalar → Prop
  | number {id : ObjectId} {value : Scalar} (h : engine.part? id = some (.number value)) :
      Leaves id [value]
  | array {id : ObjectId} {a : NdArray} (h : engine.part? id = some (.array a)) :
      Leaves id (a.values engine.buffers).toList
  | sequence {id : ObjectId} {items : List ObjectId} (leaves : ObjectId → List Scalar)
      (h : engine.part? id = some (.sequence items))
      (hItems : ∀ item ∈ items, Leaves item (leaves item)) : Leaves id (items.flatMap leaves)

/-- At the given depth of an array of a rank, each array in the nest and each sequence
without items ends with the innermost axis. -/
inductive Fills (rank : Nat) : Nat → ObjectId → Prop
  | number {depth : Nat} {id : ObjectId} {value : Scalar}
      (h : engine.part? id = some (.number value)) : Fills rank depth id
  | array {depth : Nat} {id : ObjectId} {a : NdArray} (h : engine.part? id = some (.array a))
      (hRank : depth + a.rank = rank) : Fills rank depth id
  | empty {depth : Nat} {id : ObjectId} (h : engine.part? id = some (.sequence []))
      (hRank : depth + 1 = rank) : Fills rank depth id
  | sequence {depth : Nat} {id : ObjectId} {items : List ObjectId}
      (h : engine.part? id = some (.sequence items)) (hSome : items ≠ [])
      (hItems : ∀ item ∈ items, Fills rank (depth + 1) item) : Fills rank depth id

end Specification

section Shapes

variable {engine : Engine} {id : ObjectId} {rank depth : Nat} {shape : Shape}
  {items : List ObjectId} {leaves : List Scalar}

theorem IsNest.exists_part (hNest : engine.IsNest id) : ∃ part, engine.part? id = some part := by
  cases hNest with
  | number h | array h | sequence h _ => exact ⟨_, h⟩

/-- All leaves of a nest can be listed. -/
theorem IsNest.exists_leaves (hNest : engine.IsNest id) : ∃ leaves, engine.Leaves id leaves := by
  induction hNest with
  | number hPart => exact ⟨_, .number hPart⟩
  | array hPart => exact ⟨_, .array hPart⟩
  | @sequence id items hPart hItems ih =>
      have hAll (item : ObjectId) : ∃ leaves, item ∈ items → engine.Leaves item leaves := by
        by_cases hItem : item ∈ items
        · obtain ⟨leaves, hLeaves⟩ := ih item hItem
          exact ⟨leaves, fun _ => hLeaves⟩
        · exact ⟨[], fun h => (hItem h).elim⟩
      choose leaves hLeaves using hAll
      exact ⟨_, .sequence leaves hPart hLeaves⟩

theorem Leaves.eq_of_number {value : Scalar} (hLeaves : engine.Leaves id leaves)
    (hPart : engine.part? id = some (.number value)) : leaves = [value] := by
  cases hLeaves with
  | number h => rw [hPart] at h; cases h; rfl
  | array h | sequence _ h => rw [hPart] at h; cases h

theorem Leaves.eq_of_array {a : NdArray} (hLeaves : engine.Leaves id leaves)
    (hPart : engine.part? id = some (.array a)) : leaves = (a.values engine.buffers).toList := by
  cases hLeaves with
  | array h => rw [hPart] at h; cases h; rfl
  | number h | sequence _ h => rw [hPart] at h; cases h

theorem Leaves.eq_of_sequence (hLeaves : engine.Leaves id leaves)
    (hPart : engine.part? id = some (.sequence items)) :
    ∃ each, leaves = items.flatMap each ∧ ∀ item ∈ items, engine.Leaves item (each item) := by
  cases hLeaves with
  | sequence each h hItems => rw [hPart] at h; cases h; exact ⟨each, rfl, hItems⟩
  | number h | array h => rw [hPart] at h; cases h

/-- A rectangular nest has as many leaves as its shape has elements. -/
theorem HasShape.length_leaves (hShape : engine.HasShape id shape)
    (hLeaves : engine.Leaves id leaves) : leaves.length = shape.size := by
  induction hShape generalizing leaves with
  | number hPart =>
      rw [hLeaves.eq_of_number hPart]
      rfl
  | array hPart =>
      rw [hLeaves.eq_of_array hPart, Array.length_toList, NdArray.size_values]
      rfl
  | empty hPart =>
      obtain ⟨each, rfl, -⟩ := hLeaves.eq_of_sequence hPart
      rfl
  | @sequence id items shape hPart hSome hItems ih =>
      obtain ⟨each, rfl, hEach⟩ := hLeaves.eq_of_sequence hPart
      have hSizes : items.map (fun item => (each item).length) = items.map fun _ => shape.size :=
        List.map_congr_left fun item hItem => ih item hItem (hEach item hItem)
      rw [List.length_flatMap, hSizes, Shape.size]
      simp

/-- A rectangular nest fills its shape. -/
theorem HasShape.fills (h : engine.HasShape id shape) (depth : Nat) :
    engine.Fills (depth + shape.length) depth id := by
  induction h generalizing depth with
  | number hPart => exact .number hPart
  | array hPart => exact .array hPart rfl
  | empty hPart => exact .empty hPart rfl
  | sequence hPart hSome hItems ih =>
      refine .sequence hPart hSome fun item hItem => ?_
      rw [List.length_cons, Nat.add_comm _ 1, ← Nat.add_assoc]
      exact ih item hItem (depth + 1)

theorem Fills.isNest (h : engine.Fills rank depth id) : engine.IsNest id := by
  induction h with
  | number hPart => exact .number hPart
  | array hPart => exact .array hPart
  | empty hPart => exact .sequence hPart (by simp)
  | sequence hPart _ _ ih => exact .sequence hPart ih

theorem HasShape.isNest (h : engine.HasShape id shape) : engine.IsNest id := (h.fills 0).isNest

theorem HasShape.array_eq {a : NdArray} (hShape : engine.HasShape id shape)
    (hPart : engine.part? id = some (.array a)) : shape = a.shape := by
  cases hShape with
  | array h => rw [hPart] at h; cases h; rfl
  | number h | empty h | sequence h => rw [hPart] at h; cases h

end Shapes

section Depth

variable {engine : Engine} {id : ObjectId} {bound : Nat}

/-- From an object the walk goes down fewer steps than the bound. -/
def Within (engine : Engine) : Nat → ObjectId → Prop
  | 0, _ => False
  | bound + 1, id => ∀ items, engine.part? id = some (.sequence items) →
      ∀ item ∈ items, engine.Within bound item

theorem Within.succ (h : engine.Within bound id) : engine.Within (bound + 1) id := by
  induction bound generalizing id with
  | zero => exact h.elim
  | succ bound ih => exact fun items hPart item hItem => ih (h items hPart item hItem)

theorem Within.mono {wider : Nat} (h : engine.Within bound id) (hLe : bound ≤ wider) :
    engine.Within wider id := Nat.le_induction h (fun _ _ => Within.succ) wider hLe

/-- The walk through a nest ends. -/
theorem IsNest.exists_within (hNest : engine.IsNest id) : ∃ bound, engine.Within bound id := by
  induction hNest with
  | number hPart | array hPart =>
      refine ⟨1, fun items hItems => ?_⟩
      rw [hPart] at hItems
      cases hItems
  | @sequence id items hPart hItems ih =>
      have hAll : ∃ bound, ∀ item ∈ items, engine.Within bound item := by
        clear hPart hItems
        induction items with
        | nil => exact ⟨0, by simp⟩
        | cons item items ihItems =>
            obtain ⟨first, hFirst⟩ := ih item List.mem_cons_self
            obtain ⟨rest, hRest⟩ := ihItems fun c hc => ih c (List.mem_cons_of_mem _ hc)
            refine ⟨max first rest, List.forall_mem_cons.mpr ⟨hFirst.mono (le_max_left _ _), ?_⟩⟩
            exact fun c hc => (hRest c hc).mono (le_max_right _ _)
      obtain ⟨bound, hBound⟩ := hAll
      refine ⟨bound + 1, fun found hFound => ?_⟩
      rw [hPart] at hFound
      cases hFound
      exact hBound

/-- The longest way down from an object has a number of steps. -/
def Height (engine : Engine) (steps : Nat) (id : ObjectId) : Prop :=
  engine.Within (steps + 1) id ∧ ¬ engine.Within steps id

theorem Height.unique {first second : Nat} (hFirst : engine.Height first id)
    (hSecond : engine.Height second id) : first = second := by
  rcases Nat.lt_trichotomy first second with hLess | hSame | hMore
  · exact absurd (hFirst.1.mono hLess) hSecond.2
  · exact hSame
  · exact absurd (hSecond.1.mono hMore) hFirst.2

theorem IsNest.exists_height (hNest : engine.IsNest id) : ∃ steps, engine.Height steps id := by
  obtain ⟨bound, hBound⟩ := hNest.exists_within
  induction bound with
  | zero => exact hBound.elim
  | succ bound ih =>
      by_cases hLess : engine.Within bound id
      · exact ih hLess
      · exact ⟨bound, hBound, hLess⟩

/-- A longest way down passes all smaller heights. -/
theorem IsNest.exists_of_height {steps lower : Nat} (hNest : engine.IsNest id)
    (h : engine.Height steps id) (hLower : lower ≤ steps) :
    ∃ c, engine.IsNest c ∧ engine.Height lower c := by
  induction steps generalizing id with
  | zero =>
      obtain rfl : lower = 0 := Nat.le_zero.mp hLower
      exact ⟨id, hNest, h⟩
  | succ steps ih =>
      rcases Nat.lt_or_ge steps lower with hTop | hBelow
      · obtain rfl : lower = steps + 1 := by omega
        exact ⟨id, hNest, h⟩
      · obtain ⟨hWithin, hNot⟩ := h
        simp only [Within, not_forall] at hNot
        obtain ⟨items, hPart, item, hItem, hDeep⟩ := hNot
        have hInside : engine.IsNest item := by
          cases hNest with
          | sequence hFound hItems => rw [hPart] at hFound; cases hFound; exact hItems item hItem
          | number hFound | array hFound => rw [hPart] at hFound; cases hFound
        exact ih hInside ⟨hWithin items hPart item hItem, hDeep⟩ hBelow

theorem isLive_of_part {part : Part} (h : engine.part? id = some part) :
    engine.heap.isLive id = true := by
  unfold part? at h
  cases hObject : engine.object id with
  | error e => simp [hObject] at h
  | ok object => exact isLive_of_object hObject

theorem IsNest.isLive (hNest : engine.IsNest id) : engine.heap.isLive id = true := by
  cases hNest with
  | number h | array h | sequence h _ => exact isLive_of_part h

/-- The walk through a nest goes down fewer steps than there are slots: objects of
different heights differ, and each has a slot of its own. -/
theorem IsNest.within_size (hNest : engine.IsNest id) :
    engine.Within engine.heap.slots.size id := by
  by_contra hDeep
  obtain ⟨steps, hHeight⟩ := hNest.exists_height
  have hSteps : engine.heap.slots.size ≤ steps := by
    by_contra hLess
    exact hDeep (hHeight.1.mono (by omega))
  have hWay (lower : Fin (engine.heap.slots.size + 1)) :
      ∃ c, engine.IsNest c ∧ engine.Height lower c :=
    hNest.exists_of_height hHeight (by omega)
  choose way hNests hHeights using hWay
  let slot (lower : Fin (engine.heap.slots.size + 1)) : Fin engine.heap.slots.size :=
    ⟨(way lower).index.toNat, Heap.lt_of_isLive (hNests lower).isLive⟩
  have hInjective : Function.Injective slot := by
    intro first second hSlot
    have hSame := Heap.eq_of_index_eq (hNests first).isLive (hNests second).isLive
      (UInt32.toNat_inj.mp (Fin.mk.inj hSlot))
    exact Fin.ext ((hHeights first).unique (hSame ▸ hHeights second))
  have hCount := Fintype.card_le_of_injective slot hInjective
  rw [Fintype.card_fin, Fintype.card_fin] at hCount
  omega

end Depth

end Engine

end ArrayBridge
