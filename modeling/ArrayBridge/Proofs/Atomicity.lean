import ArrayBridge.Proofs.Assignment
import ArrayBridge.Proofs.EngineConservation

/-! Requests that are refused leave no trace.

Whatever a request asks of the engine, either it is carried out or the engine is what it
was before: heap, buffers, cursors and generators included. So a refused request can be
left out of a history, and in particular it does not disturb the numbers that a seed
gives. -/

namespace ArrayBridge

/-- A request for something that a runtime can refuse, with the type of its answer. -/
inductive RuntimeRequest : Type → Type where
  | importModule (name : String) : RuntimeRequest ObjectId
  | getAttribute (id : ObjectId) (name : String) : RuntimeRequest ObjectId
  | call (id : ObjectId) (positional : List ObjectId) (keywords : List (String × ObjectId)) :
      RuntimeRequest ObjectId
  | getItem (id key : ObjectId) : RuntimeRequest ObjectId
  | setItem (id key value : ObjectId) : RuntimeRequest Unit
  | iterate (id : ObjectId) : RuntimeRequest ObjectId
  | next (id : ObjectId) : RuntimeRequest (Option ObjectId)
  | asArray (id : ObjectId) : RuntimeRequest ObjectId
  | build (value : Primitive) : RuntimeRequest ObjectId
  | extract (id : ObjectId) : RuntimeRequest Primitive

namespace RuntimeRequest

variable {σ α : Type} [ForeignRuntime σ]

/-- What a runtime does for a request. -/
def operation : RuntimeRequest α → RuntimeOp σ α
  | importModule name => ForeignRuntime.importModule name
  | getAttribute id name => ForeignRuntime.getAttribute id name
  | call id positional keywords => ForeignRuntime.call id positional keywords
  | getItem id key => ForeignRuntime.getItem id key
  | setItem id key value => ForeignRuntime.setItem id key value
  | iterate id => ForeignRuntime.iterate id
  | next id => ForeignRuntime.next id
  | asArray id => ForeignRuntime.asArray id
  | build value => ForeignRuntime.build value
  | extract id => ForeignRuntime.extract id

/-- Whether a runtime refuses a request in a state. -/
def isRefused (state : σ) (request : RuntimeRequest α) : Bool :=
  match (request.operation.perform state).1 with
  | .ok _ => false
  | .error _ => true

/-- The state after a request. -/
def after (state : σ) (request : RuntimeRequest α) : σ := (request.operation.perform state).2

/-- The state after a history of requests. -/
def history (state : σ) : List (Sigma RuntimeRequest) → σ
  | [] => state
  | ⟨_, request⟩ :: rest => history (request.after state) rest

/-- The requests of a history that are carried out. -/
def carriedOut (state : σ) : List (Sigma RuntimeRequest) → List (Sigma RuntimeRequest)
  | [] => []
  | ⟨α, request⟩ :: rest =>
    if request.isRefused state then carriedOut (request.after state) rest
    else ⟨α, request⟩ :: carriedOut (request.after state) rest

/-- The references that a request takes. -/
def taken : RuntimeRequest α → Multiset ObjectId
  | build value => ↑value.references
  | _ => 0

/-- The references that the answer to a request gives. -/
def given : RuntimeRequest α → α → Multiset ObjectId
  | importModule _, id | getAttribute _ _, id | call _ _ _, id | getItem _ _, id => {id}
  | iterate _, id | asArray _, id | build _, id => {id}
  | next _, item => ↑item.toList
  | setItem _ _ _, _ | extract _, _ => 0

end RuntimeRequest

namespace Engine

open Operation

variable {α : Type} {engine : Engine}

/-- Whatever is asked of the engine, it refuses without a trace or moves references as
the request says. -/
theorem commits_request (base : Heap) (request : RuntimeRequest α) :
    Commits (fun action => Moves (InOrder base) request.taken action request.given engine)
      request.operation engine := by
  rw [← guards_nothing base base]
  cases request with
  | importModule name => exact commits_importModule name
  | getAttribute id name => exact commits_getAttribute id name
  | call id positional keywords => exact commits_call id positional keywords
  | getItem id key => exact commits_getItem id key
  | setItem id key value => exact commits_setItem id key value
  | iterate id => exact commits_iterate id
  | next id => exact commits_next id (Guard.frees_nothing base base id)
  | asArray id => exact commits_asArray id
  | build value => exact commits_build value
  | extract id => exact commits_extract id

/-- A request that fails leaves the whole engine as it was. -/
theorem eq_of_refused (request : RuntimeRequest α) {next : Engine} {e : Exception}
    (h : request.operation.perform engine = (.error e, next)) : next = engine := by
  have hSame := (commits_request engine.heap request).state_eq_of_error (by rw [h])
  rwa [h] at hSame

/-- An engine with the integer sampler and a number. -/
def withSampler : Engine where
  heap := ⟨#[⟨0, some ⟨1, .native (.random .randint)⟩⟩, ⟨0, some ⟨1, .int 3⟩⟩], [], 2⟩
  buffers := default
  generator := ⟨7⟩
  entropy := ⟨11⟩
  names := default

/-- A range that ends where it starts is refused before a number is drawn. -/
theorem eq_of_refused_sample : ∃ next,
    (RuntimeRequest.call ⟨0, 0⟩ [⟨1, 0⟩, ⟨1, 0⟩] []).operation.perform withSampler
      = (.error .emptyHalfOpenRange, next) ∧ next = withSampler :=
  ⟨withSampler, rfl, eq_of_refused (.call ⟨0, 0⟩ [⟨1, 0⟩, ⟨1, 0⟩] []) rfl⟩

/-- A request that is refused changes nothing. -/
theorem after_of_isRefused {request : RuntimeRequest α} (h : request.isRefused engine = true) :
    request.after engine = engine := by
  cases hRun : request.operation.perform engine with
  | mk outcome next =>
      cases outcome with
      | ok a => simp [RuntimeRequest.isRefused, hRun] at h
      | error e =>
          rw [RuntimeRequest.after, hRun]
          exact eq_of_refused request hRun

/-- The engine after a history is the one after the requests that were carried out. -/
theorem history_carriedOut (requests : List (Sigma RuntimeRequest)) :
    RuntimeRequest.history engine (RuntimeRequest.carriedOut engine requests)
      = RuntimeRequest.history engine requests := by
  induction requests generalizing engine with
  | nil => rfl
  | cons entry rest ih =>
      obtain ⟨α, request⟩ := entry
      rw [RuntimeRequest.carriedOut, RuntimeRequest.history]
      split
      · rename_i hRefused
        rw [after_of_isRefused hRefused]
        exact ih
      · exact ih

section Shuffling

/-! An array is shuffled in place after the order of its rows was drawn. Writing the rows
is the assignment of all of them, which the array never refuses. -/

theorem size_shuffle {α : Type} (items : Array α) (g : Generator) :
    (Generator.shuffle items g).1.size = items.size := by
  unfold Generator.shuffle
  generalize List.range' 1 (items.size - 1) = steps
  induction steps generalizing items g with
  | nil => rfl
  | cons i steps ih =>
      rw [List.foldl_cons]
      refine (ih _ _).trans ?_
      simp

/-- There are as many values in any order of the rows. -/
theorem size_rowsInOrder {c : Contents} {order : List Nat} (hShape : c.shape ≠ [])
    (hCount : c.values.size = c.shape.size) (hOrder : order.length = c.shape.headD 0) :
    (rowsInOrder c order).size = c.shape.size := by
  obtain ⟨rows, rest, hEq⟩ := List.exists_cons_of_ne_nil hShape
  rw [hEq] at hCount hOrder ⊢
  rw [List.headD_cons] at hOrder
  have hRows : (rowsInOrder c order).size
      = order.length * (if rows = 0 then 0 else c.values.size / rows) := by
    simp [rowsInOrder, hEq, List.length_flatMap]
  rw [hRows, hOrder, hCount, Shape.size]
  split
  · rename_i hNone
    rw [hNone, Nat.zero_mul, Nat.zero_mul]
  · rw [Nat.mul_div_cancel_left _ (by omega)]

theorem length_drawOrder (rows : Nat) (engine : Engine) :
    ((drawOrder rows).run engine).1.length = rows := by
  change (Generator.shuffle (Array.range rows) engine.generator).1.toList.length = rows
  simp [size_shuffle]

/-- The cells that a shuffle of an array writes are those of an assignment to the whole
array, which is never refused. -/
theorem assignment_shuffled {engine : Engine} {a : NdArray} (hRank : a.rank ≠ 0)
    (hStrides : a.strides.length = a.shape.length)
    (hWords : ∀ n ∈ a.shape, n < 0x8000000000000000) :
    let contents := a.contents engine.buffers
    let rows := rowsInOrder contents ((drawOrder (a.shape.headD 0)).run engine).1
    a.assignment [] { contents with values := rows } = .ok (a.offsets.toList.zip rows.toList) := by
  intro contents rows
  refine NdArray.assignment_nil hStrides hWords rfl ?_
  refine size_rowsInOrder (fun hEmpty => hRank ?_) (NdArray.size_values a _) (length_drawOrder _ _)
  exact List.length_eq_zero_iff.mpr hEmpty

end Shuffling

end Engine

end ArrayBridge
