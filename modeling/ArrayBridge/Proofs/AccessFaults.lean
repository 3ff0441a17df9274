import ArrayBridge.Proofs.ElementResults

/-! What can be wrong with an access to elements.

An access can be wrong in many ways at once. The faults have an order, and what the bridge looks at
itself comes first: the handle, and the form of the index expression. -/

namespace ArrayBridge

open Operation Engine

/-- An access to elements of the array behind a handle. -/
inductive ElementAccess where
  | read (h : Handle) (index : Index)
  | write (h : Handle) (index : Index) (value : HostValue)
  deriving DecidableEq, Inhabited

/-- What can be wrong with an access. -/
inductive AccessFault where
  | released
  | deadHandle
  | notArray
  | rank
  | zeroStep
  | deadOperand
  | notIndex
  | notArrayLike
  | outside
  | tooLarge
  | shape
  deriving DecidableEq, Inhabited

namespace AccessFault

/-- All faults, in the order in which they are looked for. -/
def order : List AccessFault :=
  [released, deadHandle, notArray, rank, zeroStep, deadOperand, notIndex, notArrayLike, outside,
    tooLarge, shape]

/-- The number of faults that are looked for before. -/
def place (fault : AccessFault) : Nat := order.idxOf fault

theorem eq_of_place_eq {fault other : AccessFault} (h : fault.place = other.place) :
    fault = other := by
  have hMem : fault ∈ order := by cases fault <;> decide
  exact (List.idxOf_inj hMem).mp h

end AccessFault

/-- An index expression has a position for each axis, or no more indices than there are axes. -/
def Index.FitsRank (rank : Nat) : Index → Prop
  | offsets positions => positions.length = rank
  | axes indices => indices.length ≤ rank

section Validation

variable {index : Index} {rank : Nat}

theorem Index.validate_of_not_fitsRank (h : ¬ index.FitsRank rank) :
    index.validate rank = .error (.rank rank index.items.length) := by
  cases index with
  | offsets positions =>
      rw [Index.items, List.length_map]
      exact if_neg h
  | axes indices => exact if_pos (Nat.not_le.mp h)

theorem Index.validate_of_zeroStep (h : index.FitsRank rank)
    (hZero : ∃ item ∈ index.items, item.hasZeroStep = true) :
    index.validate rank = .error .zeroStep := by
  cases index with
  | offsets positions =>
      obtain ⟨item, hMem, hStill⟩ := hZero
      obtain ⟨position, -, rfl⟩ := List.mem_map.mp hMem
      cases hStill
  | axes indices =>
      rw [Index.validate, if_neg (Nat.not_lt.mpr h)]
      exact if_pos (List.any_eq_true.mpr hZero)

theorem Index.validate_eq_ok (h : index.FitsRank rank)
    (hZero : ¬ ∃ item ∈ index.items, item.hasZeroStep = true) : index.validate rank = .ok () := by
  cases index with
  | offsets positions => exact if_pos h
  | axes indices =>
      rw [Index.validate, if_neg (Nat.not_lt.mpr h)]
      exact if_neg (mt List.any_eq_true.mp hZero)

end Validation

namespace ElementAccess

open Session

def handle : ElementAccess → Handle
  | read h _ | write h _ _ => h

def index : ElementAccess → Index
  | read _ index | write _ index _ => index

/-- The value that is written. -/
def value? : ElementAccess → Option HostValue
  | read _ _ => none
  | write _ _ value => some value

/-- The number of objects that are made for an access besides its key. A read makes one for its
result. -/
def objectsAfterKey : ElementAccess → Nat
  | read _ _ => 1
  | write _ _ value => value.objects

/-- The number of objects that are made for an access. -/
def objects (access : ElementAccess) : Nat := access.index.objects + access.objectsAfterKey

/-- The access on a session. Only a read has an item. -/
def op : ElementAccess → BridgeOp Engine (Option Item)
  | read h index => do return some (← Session.getItem h index)
  | write h index value => do
    Session.setItem h index value
    return none

/-- The access on an interpreter. -/
def run (access : ElementAccess) : InterpreterOp Engine (Option Item) := Interpreter.run access.op

/-- A handle that an access needs besides that of its array. -/
def Uses (access : ElementAccess) (h : Handle) : Prop :=
  .foreign h ∈ access.index.items ∨ access.value? = some (.handle h)

/-- An exception of the engine as the host sees it. For a write, a bad value is a mismatch of
shapes. -/
def report (e : Exception) : ElementAccess → BridgeError
  | read _ _ => .foreignCall readPath e
  | write _ _ _ => .index (.shape e.message)

/-- An access to a session has a fault, and the host is told so by an error. -/
inductive Faulty (session : Session Engine) (access : ElementAccess) :
    AccessFault → BridgeError → Prop
  | deadHandle (hGet : session.handles.get? access.handle = none) :
      Faulty session access .deadHandle (.invalidHandle access.handle)
  | notArray {id : ObjectId} (hGet : session.handles.get? access.handle = some id)
      (hOther : ∀ a, session.runtime.object id ≠ .ok (.array a)) :
      Faulty session access .notArray (.typeMismatch "ndarray" (session.runtime.typeName id))
  | rank {a : NdArray} (hNames : session.NamesArray access.handle a)
      (hRank : ¬ access.index.FitsRank a.rank) :
      Faulty session access .rank (.index (.rank a.rank access.index.items.length))
  | zeroStep (hZero : ∃ item ∈ access.index.items, item.hasZeroStep = true) :
      Faulty session access .zeroStep (.index .zeroStep)
  | deadOperand {h : Handle} (hUses : access.Uses h) (hGet : session.handles.get? h = none) :
      Faulty session access .deadOperand (.invalidHandle h)
  | notIndex (message : String) (hIndex : session.IsNoIndex access.index) :
      Faulty session access .notIndex (.index (.outOfRange message))
  | notArrayLike {value : HostValue} {e : Exception} (hValue : access.value? = some value)
      (hUnreadable : session.Unreadable value) (hKind : e.kind = .typeError) :
      Faulty session access .notArrayLike (.foreignCall writePath e)
  | outside {a : NdArray} {selectors : List Selector} (message : String)
      (hNames : session.NamesArray access.handle a)
      (hSelects : List.Forall₂ session.Selects access.index.items selectors)
      (hCovers : ¬ a.Covers selectors) :
      Faulty session access .outside (.index (.outOfRange message))
  | tooLarge {a : NdArray} {selectors : List Selector} {shape : Shape} {e : Exception}
      (hNames : session.NamesArray access.handle a)
      (hSelects : List.Forall₂ session.Selects access.index.items selectors)
      (hGathers : ∃ s ∈ selectors, s.isGathering = true)
      (hShape : a.SelectionShape selectors shape) (hLarge : ∀ size, shape.checkedSize ≠ .ok size)
      (hKind : e.kind = .valueError) : Faulty session access .tooLarge (access.report e)
  | shape {a : NdArray} {selectors : List Selector} {value : HostValue} {c : Contents}
      {target : Shape} (message : String) (hNames : session.NamesArray access.handle a)
      (hSelects : List.Forall₂ session.Selects access.index.items selectors)
      (hValue : access.value? = some value) (hHolds : session.Holds value c)
      (hShape : a.SelectionShape selectors target) (hFits : ¬ c.Fits target) :
      Faulty session access .shape (.index (.shape message))

/-- The faults of an access to an interpreter. One that was shut down has no session to look at. -/
inductive FaultyAt (access : ElementAccess) : Interpreter Engine → AccessFault → BridgeError → Prop
  | released (root : String) : FaultyAt access ⟨none, root⟩ .released .released
  | running {session : Session Engine} {fault : AccessFault} {e : BridgeError} (root : String)
      (h : Faulty session access fault e) : FaultyAt access ⟨some session, root⟩ fault e

/-- The elements that a read gathers can be stored: the row-major strides of their shape are words,
also where there are no elements and an empty axis counts as one. -/
def Storable (session : Session Engine) : ElementAccess → Prop
  | read h index => ∀ a selectors shape, session.NamesArray h a →
      List.Forall₂ session.Selects index.items selectors →
      (∃ s ∈ selectors, s.isGathering = true) → a.SelectionShape selectors shape →
      shape.size = 0 → shape.checkStrides = .ok ()
  | write _ _ _ => True

variable {session now : Session Engine} {access : ElementAccess}
  {fault other : AccessFault} {e : BridgeError}

/-- None of the faults that are looked for before a given one is there. -/
def ClearBefore (session : Session Engine) (access : ElementAccess) (fault : AccessFault) : Prop :=
  ∀ earlier e, earlier.place < fault.place → ¬ Faulty session access earlier e

theorem clearBefore_deadHandle (session : Session Engine) (access : ElementAccess) :
    ClearBefore session access .deadHandle := by
  intro earlier e hPlace hFaulty
  cases hFaulty <;> exact absurd hPlace (by decide)

theorem ClearBefore.next (h : ClearBefore session access fault)
    (hClear : ∀ e, ¬ Faulty session access fault e) (hNext : other.place = fault.place + 1) :
    ClearBefore session access other := by
  intro earlier e hPlace hFaulty
  rcases Nat.lt_succ_iff_lt_or_eq.mp (hNext ▸ hPlace) with hBefore | hSame
  · exact h earlier e hBefore hFaulty
  · obtain rfl := AccessFault.eq_of_place_eq hSame
    exact hClear e hFaulty

/-- The answer to an access: its first fault, or an item if there is none. What is read and cannot
be stored is left open. -/
inductive Answer (session : Session Engine) (access : ElementAccess) :
    Except BridgeError (Option Item) → Prop
  | refused {fault : AccessFault} {e : BridgeError} (hFaulty : Faulty session access fault e)
      (hFirst : ClearBefore session access fault) : Answer session access (.error e)
  | granted (item : Option Item) (hNone : ∀ fault e, ¬ Faulty session access fault e) :
      Answer session access (.ok item)
  | beyond (outcome : Except BridgeError (Option Item))
      (hNone : ∀ fault e, ¬ Faulty session access fault e) (hBeyond : ¬ access.Storable session) :
      Answer session access outcome

/-- The shape of a value is the last thing that is looked at. -/
theorem ClearBefore.none (hClear : ClearBefore session access .shape)
    (hShape : ∀ e, ¬ Faulty session access .shape e) (fault : AccessFault) (e : BridgeError) :
    ¬ Faulty session access fault e := by
  intro hFaulty
  have hPlace : fault.place ≤ AccessFault.shape.place := by cases fault <;> decide
  rcases hPlace.lt_or_eq with hBefore | hSame
  · exact hClear fault e hBefore hFaulty
  · obtain rfl := AccessFault.eq_of_place_eq hSame
    exact hShape e hFaulty

section Target

theorem fst_perform_op_of_target {after : Session Engine}
    (hTarget : (target access.handle access.index : BridgeOp Engine ObjectId).perform session
      = (.error e, after)) : (access.op.perform session).1 = .error e := by
  cases access with
  | read h index =>
      change (target h index).perform session = _ at hTarget
      rw [op, perform_bind, Session.getItem, perform_bind, getObject, perform_bind, hTarget]
  | write h index value =>
      change (target h index).perform session = _ at hTarget
      rw [op, perform_bind, Session.setItem, perform_bind, hTarget]

theorem fst_perform_op_of_key {id : ObjectId} {after : Session Engine}
    (hTarget : (target access.handle access.index : BridgeOp Engine ObjectId).perform session
      = (.ok id, session))
    (hKey : (key access.index : BridgeOp Engine ObjectId).perform session = (.error e, after)) :
    (access.op.perform session).1 = .error e := by
  cases access with
  | read h index =>
      change (target h index).perform session = _ at hTarget
      change (key index).perform session = _ at hKey
      rw [op, perform_bind, Session.getItem, perform_bind, getObject, perform_bind, hTarget]
      dsimp only
      rw [perform_bind, hKey]
  | write h index value =>
      change (target h index).perform session = _ at hTarget
      change (key index).perform session = _ at hKey
      rw [op, perform_bind, Session.setItem, perform_bind, hTarget]
      dsimp only
      rw [perform_bind, hKey]

/-- The array of an access is found, and the form of the index expression suits it. -/
structure Admitted (session : Session Engine) (access : ElementAccess) (id : ObjectId)
    (a : NdArray) : Prop where
  get? : session.handles.get? access.handle = some id
  object_eq : session.runtime.object id = .ok (.array a)
  perform_target : (target access.handle access.index : BridgeOp Engine ObjectId).perform session
    = (.ok id, session)
  rank : access.index.FitsRank a.rank
  moves : ¬ ∃ item ∈ access.index.items, item.hasZeroStep = true
  clear : ClearBefore session access .deadOperand

section Clearing

variable {id : ObjectId} {a : NdArray}

theorem clearBefore_notArray (hGet : session.handles.get? access.handle = some id) :
    ClearBefore session access .notArray := by
  refine (clearBefore_deadHandle session access).next (fun e hFaulty => ?_) rfl
  cases hFaulty with
  | deadHandle hNone => cases hGet.symm.trans hNone

theorem clearBefore_rank (hNames : session.NamesArray access.handle a) :
    ClearBefore session access .rank := by
  obtain ⟨id, hGet, hArray⟩ := hNames
  refine (clearBefore_notArray hGet).next (fun e hFaulty => ?_) rfl
  cases hFaulty with
  | notArray hGet' hOther =>
      cases hGet.symm.trans hGet'
      exact hOther a hArray

theorem clearBefore_zeroStep (hNames : session.NamesArray access.handle a)
    (hFits : access.index.FitsRank a.rank) : ClearBefore session access .zeroStep := by
  refine (clearBefore_rank hNames).next (fun e hFaulty => ?_) rfl
  cases hFaulty with
  | rank hOther hRank => exact hRank (hOther.unique hNames ▸ hFits)

end Clearing

/-- The form of an index expression is looked at when the array is found. -/
theorem answer_or_admitted_of_array {id : ObjectId} {a : NdArray}
    (hGet : session.handles.get? access.handle = some id)
    (hArray : session.runtime.object id = .ok (.array a)) :
    Answer session access (access.op.perform session).1 ∨ Admitted session access id a := by
  have hNames : session.NamesArray access.handle a := ⟨id, hGet, hArray⟩
  have hTarget := perform_target hGet hArray access.index
  by_cases hFits : access.index.FitsRank a.rank
  · have hClear := clearBefore_zeroStep hNames hFits
    by_cases hZero : ∃ item ∈ access.index.items, item.hasZeroStep = true
    · rw [Index.validate_of_zeroStep hFits hZero] at hTarget
      rw [fst_perform_op_of_target hTarget]
      exact .inl (.refused (.zeroStep hZero) hClear)
    · rw [Index.validate_eq_ok hFits hZero] at hTarget
      refine .inr ⟨hGet, hArray, hTarget, hFits, hZero, hClear.next (fun e hFaulty => ?_) rfl⟩
      cases hFaulty with
      | zeroStep hSome => exact hZero hSome
  · rw [Index.validate_of_not_fitsRank hFits] at hTarget
    rw [fst_perform_op_of_target hTarget]
    exact .inl (.refused (.rank hNames hFits) (clearBefore_rank hNames))

/-- What the bridge itself looks at comes first. -/
theorem answer_or_admitted (h : Underway session session) :
    Answer session access (access.op.perform session).1 ∨
      ∃ id a, Admitted session access id a := by
  cases hGet : session.handles.get? access.handle with
  | none =>
      have hTarget : (target access.handle access.index : BridgeOp Engine ObjectId).perform session
          = (.error (.invalidHandle access.handle), session) := by
        rw [target, perform_bind, Session.arrayOf, perform_bind, perform_lookup, hGet]
      rw [fst_perform_op_of_target hTarget]
      exact .inl (.refused (.deadHandle hGet) (clearBefore_deadHandle session access))
  | some id =>
      obtain ⟨object, hKind, hObject, -⟩ := h.handle access.handle id hGet
      cases object with
      | array a => exact (answer_or_admitted_of_array hGet hObject).imp_right fun h => ⟨id, a, h⟩
      | iterator cursor =>
          have hOther (a : NdArray) : session.runtime.object id ≠ .ok (.array a) := by
            rw [hObject]
            rintro ⟨⟩
          have hInfo : session.runtime.arrayInfo? id = none := by
            rw [arrayInfo?, get?_of_object hObject]
          have hTarget : (target access.handle access.index : BridgeOp Engine ObjectId).perform
              session = (.error (.typeMismatch "ndarray" (session.runtime.typeName id)), session) := by
            rw [target, perform_bind, Session.arrayOf, perform_bind, perform_lookup, hGet]
            dsimp only
            rw [perform_bind, perform_arrayInfo, hInfo]
            rfl
          rw [fst_perform_op_of_target hTarget]
          exact .inl (.refused (.notArray hGet hOther) (clearBefore_notArray hGet))
      | _ => cases hKind

end Target
end ElementAccess

end ArrayBridge
