import ArrayBridge.Proofs.ElementCounts
import ArrayBridge.Proofs.IterationProtocol
import ArrayBridge.Proofs.KnownNames
import ArrayBridge.Proofs.StorageSharing
import ArrayBridge.Proofs.Traversal
import Mathlib.Data.List.NodupEquivFin

/-! Reading arrays out.

The host gets the elements of an array by a walk through its rows. What it gets are the values
of the array in storage, in row-major order and with the type of the array, and reading them
leaves no trace. The walk counts rows by signed words, so an array whose first axis is longer
cannot be read. -/

namespace ArrayBridge

open Operation

namespace Heap

/-- There are no more places than names of slots. -/
theorem Consistent.places_le {heap : Heap} (h : heap.Consistent)
    (hSmall : heap.slots.size ≤ slotLimit) : heap.places ≤ slotLimit := by
  have hBelow : heap.free.map UInt32.toNat ⊆ List.range heap.slots.size := by
    intro i hi
    obtain ⟨index, hIndex, rfl⟩ := List.mem_map.mp hi
    obtain ⟨_, hVacant⟩ := h.vacant index hIndex
    exact List.mem_range.mpr (Array.getElem?_eq_some_iff.mp hVacant).1
  have hDistinct : (heap.free.map UInt32.toNat).Nodup :=
    h.free_nodup.map fun _ _ hEq => UInt32.toNat_inj.mp hEq
  have hFew := (hDistinct.subperm hBelow).length_le
  rw [List.length_map, List.length_range] at hFew
  unfold places
  omega

end Heap

namespace Engine

variable {engine : Engine} {id : ObjectId} {references : Nat} {a : NdArray}

/-- What was an engine once is what it is now: all objects with the numbers of their references,
all cells, both generators and all names. Only which free slot is used next can differ. -/
structure Restored (before after : Engine) : Prop where
  occupant?_eq : ∀ id, after.heap.occupant? id = before.heap.occupant? id
  live_eq : after.heap.live = before.heap.live
  buffers_eq : after.buffers = before.buffers
  generator_eq : after.generator = before.generator
  entropy_eq : after.entropy = before.entropy
  names_eq : after.names = before.names

/-- All elements of an array are read in row-major order, and the engine is as before. -/
theorem perform_read_array (out : Array Primitive) (hHeap : engine.heap.Consistent)
    (hSmall : engine.heap.slots.size ≤ Heap.slotLimit)
    (hArray : engine.heap.occupant? id = some ⟨references + 1, .array a⟩) (hAnchored : a.Anchored)
    (hWalkable : a.shape.Walkable) (hPlaces : 2 * a.rank ≤ engine.heap.places) :
    ∃ after, (Flatten.read Flatten.depthLimit id out).perform engine
        = (.ok (out ++ (a.values engine.buffers).map primitiveOf), after) ∧
      engine.Restored after := by
  have hDepth : a.rank < Flatten.depthLimit := by
    have hNames := hHeap.places_le hSmall
    simp only [Heap.slotLimit, Flatten.depthLimit] at *
    omega
  have hReads : engine.Reads engine.heap.occupant? engine.heap.live engine.heap.places
      (Flatten.read Flatten.depthLimit id out) (out ++ primitives (a.values engine.buffers).toList) :=
    reads_array hArray hAnchored hWalkable hDepth hPlaces
  obtain ⟨after, hRead, hStores⟩ := hReads _ (hHeap.stores hSmall)
  rw [primitives, ← Array.toList_map] at hRead
  exact ⟨{ engine with heap := after }, hRead,
    ⟨congrFun hStores.occupant?_eq, hStores.number_eq, rfl, rfl, rfl, rfl⟩⟩

/-- Arrays go on to stand on buffers of their element type. -/
theorem lasting_stored : Lasting Stored where
  request request _ hStored := (footprint_of_access hStored (.request request)).stored hStored
  retain id _ hStored := (footprint_of_access hStored (.retain id)).stored hStored
  release id _ hStored := (footprint_of_access hStored (.release id)).stored hStored

end Engine

section Types

/-- The values of a stored array have its element type. -/
theorem NdArray.StoredIn.dtype_values {a : NdArray} {store : BufferStore} (h : a.StoredIn store)
    {value : Scalar} (hValue : value ∈ (a.values store).toList) : value.dtype = a.dtype := by
  exact dtype_of_mem_values h.stored (Array.mem_toList_iff.mp hValue)

/-- The host value of the elements of an array. -/
def DType.hostValues (dtype : DType) (numbers : List Scalar) : HostValue :=
  match dtype with
  | .bool => .bools (numbers.map Scalar.toBool)
  | .int64 => .ints (numbers.map Scalar.toInt64)
  | .float64 => .floats (numbers.map Scalar.toFloat)

/-- The values of an array are of the type that its elements call for. -/
theorem DType.accept_hostValues (dtype : DType) (numbers : List Scalar) :
    dtype.valuesType.accept (dtype.hostValues numbers) = .ok (dtype.hostValues numbers) := by
  cases dtype <;> rfl

end Types

namespace Session

variable {runtime next : Engine} {handles : HandleTable} {root : String} {id : ObjectId}
  {numbers : List Scalar}

/-- Scalars that can all be converted are read as a sequence. -/
theorem perform_sequence {α : Type} (convert : Primitive → Option α) (value : Scalar → α)
    (hRead : (Flatten.scalars id).perform runtime
      = (.ok (numbers.map Engine.primitiveOf).toArray, next))
    (hConvert : ∀ s ∈ numbers, convert (Engine.primitiveOf s) = some (value s)) (expected : String) :
    (sequence id expected convert).perform ⟨runtime, handles, root⟩
      = (.ok (numbers.map value), ⟨next, handles, root⟩) := by
  have hAll {f : Primitive → Except BridgeError α}
      (hAccepts : ∀ p found, convert p = some found → f p = .ok found) :
      (numbers.map Engine.primitiveOf).mapM f = .ok (numbers.map value) := by
    rw [Outcome.mapM_eq_ok_iff, List.forall₂_map_left_iff, List.forall₂_map_right_iff,
      List.forall₂_same]
    exact fun s hs => hAccepts _ _ (hConvert s hs)
  rw [sequence, perform_bind, perform_runtimeOp, hRead]
  dsimp only
  rw [hAll fun p found hFound => by rw [hFound]]
  rfl

/-- Numbers of one type are read as values of that type. -/
theorem perform_coerce_values {dtype : DType} (hRead : (Flatten.scalars id).perform runtime
      = (.ok (numbers.map Engine.primitiveOf).toArray, next))
    (hTypes : ∀ s ∈ numbers, s.dtype = dtype) :
    (coerce id dtype.valuesTag).perform ⟨runtime, handles, root⟩
      = (.ok (dtype.hostValues numbers), ⟨next, handles, root⟩) := by
  have hSequence {α : Type} (convert : Primitive → Option α) (value : Scalar → α)
      (hConvert : ∀ s : Scalar, s.dtype = dtype → convert (Engine.primitiveOf s) = some (value s))
      (expected : String) : (sequence id expected convert).perform ⟨runtime, handles, root⟩
        = (.ok (numbers.map value), ⟨next, handles, root⟩) :=
    perform_sequence convert value hRead (fun s hs => hConvert s (hTypes s hs)) expected
  cases dtype with
  | bool =>
      rw [DType.valuesTag, coerce, perform_bind, hSequence Primitive.asBool? Scalar.toBool fun s hs => ?_]
      · rfl
      · cases s with
        | bool b => rfl
        | int | float => cases hs
  | int64 =>
      rw [DType.valuesTag, coerce, perform_bind, hSequence Primitive.asInt? Scalar.toInt64 fun s hs => ?_]
      · rfl
      · cases s with
        | int i => rfl
        | bool | float => cases hs
  | float64 =>
      rw [DType.valuesTag, coerce, perform_bind, hSequence Primitive.asFloat? Scalar.toFloat fun s _ => ?_]
      · rfl
      · rw [Primitive.asFloat?, Engine.number?_primitiveOf, Option.map_some]

/-- The elements of an array come as values of its type, and the engine is as before. -/
theorem perform_values {session : Session Engine} {b : ArrayObject} {references : Nat} {a : NdArray}
    (hHandle : session.handles.get? b.handle = some id) (hType : b.dtype = a.dtype)
    (hStored : a.StoredIn session.runtime.buffers) (hHeap : session.runtime.heap.Consistent)
    (hSmall : session.runtime.heap.slots.size ≤ Heap.slotLimit)
    (hArray : session.runtime.heap.occupant? id = some ⟨references + 1, .array a⟩)
    (hAnchored : a.Anchored) (hWalkable : a.shape.Walkable)
    (hPlaces : 2 * a.rank ≤ session.runtime.heap.places) :
    ∃ after, (values b).perform session
        = (.ok (a.dtype.hostValues (a.values session.runtime.buffers).toList),
          { session with runtime := after }) ∧ session.runtime.Restored after := by
  obtain ⟨after, hRead, hRestored⟩ :=
    Engine.perform_read_array #[] hHeap hSmall hArray hAnchored hWalkable hPlaces
  rw [Array.empty_append] at hRead
  refine ⟨after, ?_, hRestored⟩
  rw [values, perform_bind, perform_lookup, hHandle]
  dsimp only
  rw [hType]
  exact perform_coerce_values (by rw [← Array.toList_map]; exact hRead) fun s hs =>
    hStored.dtype_values hs

end Session

namespace Engine

/-- A view that shows a square of numbers in reverse on both axes. -/
def reversedSquare : NdArray := ⟨⟨0⟩, .int64, [2, 2], [-2, -1], 3⟩

/-- An engine with the numbers from one to four, which are shown in reverse. -/
def withReversedSquare : Engine :=
  { withSquare with heap := ⟨#[⟨0, some ⟨1, .array reversedSquare⟩⟩], [], 1⟩ }

theorem wellFormed_reversedSquare : reversedSquare.WellFormed withReversedSquare.buffers := by
  have hSquare : square.WellFormed withReversedSquare.buffers :=
    NdArray.wellFormed_allocate .empty (c := ⟨.int64, [2, 2], #[.int 1, .int 2, .int 3, .int 4]⟩) rfl
  have hLocate : square.locate [.slice ⟨none, none, some (-1)⟩, .slice ⟨none, none, some (-1)⟩]
      = .ok (.view reversedSquare) := rfl
  exact (hSquare.view_of_locate hLocate).1

/-- An array without elements whose first axis is longer than a signed word can tell. -/
def longAxis : NdArray := ⟨⟨0⟩, .int64, [0x8000000000000000, 0], [1, 1], 0⟩

def withLongAxis : Engine where
  heap := ⟨#[⟨0, some ⟨1, .array longAxis⟩⟩], [], 1⟩
  buffers := (NdArray.allocate .empty ⟨.int64, [0x8000000000000000, 0], #[]⟩).2
  generator := ⟨7⟩
  entropy := ⟨11⟩
  names := default

/-- The length of the first axis does matter. The walk through so long an axis fails at its first
row, though the array is well-formed and has no elements to be read. -/
theorem not_reads_long_axis :
    withLongAxis.heap.Consistent ∧ withLongAxis.heap.slots.size ≤ Heap.slotLimit ∧
      withLongAxis.heap.occupant? ⟨0, 0⟩ = some ⟨1, .array longAxis⟩ ∧
      longAxis.WellFormed withLongAxis.buffers ∧ longAxis.values withLongAxis.buffers = #[] ∧
      2 * longAxis.rank ≤ withLongAxis.heap.places ∧
      ((Flatten.read Flatten.depthLimit ⟨0, 0⟩ #[]).perform withLongAxis).1
        = .error (.indexOutOfBounds 0 0 0x8000000000000000) := by
  refine ⟨⟨by simp [withLongAxis], by simp [withLongAxis], rfl⟩, by decide, rfl,
    NdArray.wellFormed_allocate .empty (c := ⟨.int64, [0x8000000000000000, 0], #[]⟩) rfl, ?_,
    by decide, rfl⟩
  rw [← Array.size_eq_zero_iff, NdArray.size_values]
  rfl

end Engine

namespace Interpreter

variable {session after : Session Engine} {b : ArrayObject} {dtype : DType} {numbers : List Scalar}

/-- What was read as values of a type is given to the host as such. -/
theorem perform_toVector {root : String} (hType : b.dtype = dtype) (hValues :
    (Session.values b).perform session = (.ok (dtype.hostValues numbers), after)) :
    (toVector b dtype).perform ⟨some session, root⟩
      = (.ok (dtype.hostValues numbers), ⟨some after, root⟩) := by
  have hCheck : b.checkDType dtype = .ok () := if_pos hType
  rw [toVector, hCheck]
  dsimp only
  rw [perform_run, perform_bind, hValues]
  dsimp only
  rw [DType.accept_hostValues]
  rfl

/-- Reading an array out agrees with its storage. However its strides run, the walk through its
rows ends and adds the values of its cells in row-major order to what was read before, and all
objects, references and cells are as they were. So the host gets the elements of every array
behind a handle, as values of its type. The elements and the rows have to be so many that a
signed word counts them, and slots have to be left for a cursor and a row for each axis. -/
theorem reads_elements :
    (∀ (engine : Engine) (id : ObjectId) (references : Nat) (a : NdArray) (out : Array Primitive),
      engine.heap.Consistent → engine.heap.slots.size ≤ Heap.slotLimit →
      engine.heap.occupant? id = some ⟨references + 1, .array a⟩ → a.WellFormed engine.buffers →
      a.shape.Walkable → 2 * a.rank ≤ engine.heap.places →
        ∃ after, (Flatten.read Flatten.depthLimit id out).perform engine
            = (.ok (out ++ (a.values engine.buffers).map Engine.primitiveOf), after) ∧
          engine.Restored after) ∧
    ∀ (isDirectory : String → Bool) (entropy : Generator) (settings : EngineSettings)
      (engine : Engine) (root : String) (actions : List Action) (session : Session Engine)
      (b : ArrayObject) (id : ObjectId) (a : NdArray),
      Engine.start isDirectory entropy settings = .ok engine →
      ((ofRuntime engine root).play actions).session = some session →
      session.handles.get? b.handle = some id → session.runtime.heap.get? id = some (.array a) →
      b.dtype = a.dtype → a.shape.Walkable →
      session.runtime.heap.slots.size ≤ Heap.slotLimit →
      2 * a.rank ≤ session.runtime.heap.places →
        ∃ after, (run (Session.values b)).perform ((ofRuntime engine root).play actions)
            = (.ok (a.dtype.hostValues (a.values session.runtime.buffers).toList),
              { (ofRuntime engine root).play actions with
                session := some { session with runtime := after } }) ∧
          (toVector b a.dtype).perform ((ofRuntime engine root).play actions)
            = (.ok (a.dtype.hostValues (a.values session.runtime.buffers).toList),
              { (ofRuntime engine root).play actions with
                session := some { session with runtime := after } }) ∧
          session.runtime.Restored after := by
  constructor
  · intro engine id references a out hHeap hSmall hArray hFormed hWalkable hPlaces
    exact Engine.perform_read_array out hHeap hSmall hArray hFormed.anchored hWalkable hPlaces
  · intro isDirectory entropy settings engine root actions session b id a hStart hSession hHandle
      hArray hType hWalkable hSmall hPlaces
    have hBalanced := balanced_of_play hStart hSession hSmall
    have hStored : session.runtime.Stored :=
      Engine.lasting_stored.of_play (fun id a h => (Engine.no_array_of_start hStart id a h).elim)
        root actions hSession
    obtain ⟨references, hOccupant⟩ := Heap.get?_eq_some_iff.mp hArray
    obtain ⟨others, rfl⟩ : ∃ others, references = others + 1 :=
      Nat.exists_eq_succ_of_ne_zero (Nat.ne_of_gt (hBalanced.positive _ _ hOccupant))
    obtain ⟨after, hValues, hRestored⟩ := Session.perform_values hHandle hType (hStored id a hArray)
      hBalanced.toConsistent hSmall hOccupant (hBalanced.admitted id _ hOccupant) hWalkable hPlaces
    generalize (ofRuntime engine root).play actions = interpreter at hSession
    obtain ⟨_, name⟩ := interpreter
    obtain rfl := hSession
    refine ⟨after, ?_, ?_, hRestored⟩
    · rw [perform_run, hValues]
    · exact perform_toVector hType hValues

/-- The host makes an array of three numbers and a view that shows them in reverse. -/
def reversal : List Action :=
  [.ask (.callArray (.positional "array" [.provided (.ints [0, 1, 2])])),
    .ask (.getItem ⟨0x100000000⟩ (.axes [.slice ⟨none, none, some (-1)⟩]))]

/-- A square that is read backwards in storage, and the elements of a view that runs backwards. -/
theorem reads_elements_of_reversed :
    (∃ after, (Flatten.read Flatten.depthLimit ⟨0, 0⟩ #[.none]).perform Engine.withReversedSquare
        = (.ok #[.none, .int 4, .int 3, .int 2, .int 1], after) ∧
      Engine.withReversedSquare.Restored after) ∧
    ∃ session after, ((ofRuntime Engine.seeded "numeric").play reversal).session = some session ∧
      (toVector ⟨⟨0x100000001⟩, 0x100000010, 24, .int64, [3]⟩ .int64).perform
          ((ofRuntime Engine.seeded "numeric").play reversal)
        = (.ok (.ints [2, 1, 0]), { (ofRuntime Engine.seeded "numeric").play reversal with
            session := some { session with runtime := after } }) ∧
      session.runtime.Restored after := by
  obtain ⟨hStorage, hBridge⟩ := reads_elements
  refine ⟨?_, ?_⟩
  · obtain ⟨after, hRead, hRestored⟩ := hStorage Engine.withReversedSquare ⟨0, 0⟩ 0
      Engine.reversedSquare #[.none] ⟨by simp [Engine.withReversedSquare],
        by simp [Engine.withReversedSquare], rfl⟩ (by decide) rfl
      Engine.wellFormed_reversedSquare ⟨by decide, by decide⟩ (by decide)
    have hElements : (Engine.reversedSquare.values Engine.withReversedSquare.buffers).map
        Engine.primitiveOf = #[.int 4, .int 3, .int 2, .int 1] := by cbv
    rw [hElements] at hRead
    exact ⟨after, hRead, hRestored⟩
  · let view : NdArray := ⟨⟨0⟩, .int64, [3], [-1], 2⟩
    have hMade : ((ofRuntime Engine.seeded "numeric").play reversal).session.map (fun session =>
          (session.handles.get? ⟨0x100000001⟩, session.runtime.heap.get? ⟨35, 1⟩,
            session.runtime.heap.slots.size, session.runtime.heap.free.length,
            (view.values session.runtime.buffers).toList))
        = some (some ⟨35, 1⟩, some (.array view), 38, 3, [.int 2, .int 1, .int 0]) := by cbv
    obtain ⟨session, hSession, hFacts⟩ := Option.map_eq_some_iff.mp hMade
    simp only [Prod.mk.injEq] at hFacts
    obtain ⟨hHandle, hArray, hSize, hFree, hElements⟩ := hFacts
    have hPlaces : 2 * view.rank ≤ session.runtime.heap.places := by
      rw [Heap.places, hFree]
      exact Nat.le_add_right_of_le (by decide)
    obtain ⟨after, -, hVector, hRestored⟩ := hBridge _ _ _ _ "numeric" reversal session
      ⟨⟨0x100000001⟩, 0x100000010, 24, .int64, [3]⟩ ⟨35, 1⟩ view Engine.start_seeded hSession
      hHandle hArray rfl ⟨by decide, by decide⟩ (by rw [hSize]; decide) hPlaces
    rw [hElements] at hVector
    exact ⟨session, after, hSession, hVector, hRestored⟩

end Interpreter

end ArrayBridge
