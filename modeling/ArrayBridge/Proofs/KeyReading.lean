import ArrayBridge.Proofs.CallAnswers
import ArrayBridge.Proofs.IndexKeys

/-! What the engine reads from what the bridge builds for an access to elements.

A key has an item for each index, and whether it can be used as an index is seen only when the
engine reads it. The same goes for a value that is written. The bridge itself refuses nothing but
handles that are not registered, and the first of these decides. -/

namespace ArrayBridge

open Operation Engine Outcome

/-- What an array selects as an index. That is what it denotes, and an array of floats that has
no elements selects no positions. -/
inductive NdArray.Selects (a : NdArray) (store : BufferStore) : Selector → Prop
  | denoted {selector : Selector} (h : a.Denotes store selector) : a.Selects store selector
  | nothing (hType : a.dtype = .float64) (hEmpty : a.size = 0) :
      a.Selects store (.indices #[] a.shape)

/-- An array that can be used as an index: one of integers, a mask with one axis, or an empty one
of floats. -/
def NdArray.IsIndexArray (a : NdArray) : Prop :=
  a.dtype = .int64 ∨ a.dtype = .bool ∧ a.rank = 1 ∨ a.dtype = .float64 ∧ a.size = 0

theorem NdArray.exists_selects_iff {a : NdArray} {store : BufferStore} :
    (∃ s, a.Selects store s) ↔ a.IsIndexArray := by
  constructor
  · rintro ⟨s, hSelects⟩
    cases hSelects with
    | denoted h =>
        cases h with
        | position hType _ | positions hType _ => exact .inl hType
        | flags hType hRank => exact .inr (.inl ⟨hType, hRank⟩)
    | nothing hType hEmpty => exact .inr (.inr ⟨hType, hEmpty⟩)
  · rintro (hType | ⟨hType, hRank⟩ | ⟨hType, hEmpty⟩)
    · by_cases hShape : a.shape = []
      · exact ⟨_, .denoted (.position hType (if_pos hShape))⟩
      · exact ⟨_, .denoted (.positions hType hShape)⟩
    · exact ⟨_, .denoted (.flags hType hRank)⟩
    · exact ⟨_, .nothing hType hEmpty⟩

namespace Engine

variable {engine left right : Engine} {id : ObjectId} {a : NdArray} {object : Object}

theorem selector_of_dtype_ne (hArray : engine.object id = .ok (.array a)) (hType : a.dtype ≠ .int64) :
    engine.selector id = selector.ofContents (a.contents engine.buffers) := by
  rw [Engine.selector, hArray]
  simp only [bind, Except.bind]
  split
  · rename_i hInt _
    exact absurd hInt hType
  · rfl

end Engine

theorem NdArray.Selects.selector_eq {engine : Engine} {id : ObjectId} {a : NdArray} {s : Selector}
    (h : a.Selects engine.buffers s) (hArray : engine.object id = .ok (.array a)) :
    engine.selector id = .ok s := by
  cases h with
  | denoted h => exact h.selector_eq hArray
  | nothing hType hEmpty =>
      rw [Engine.selector_of_dtype_ne hArray (by simp [hType]), selector.ofContents, contents, hType]
      exact if_pos hEmpty

namespace Engine

variable {engine left right : Engine} {id : ObjectId} {a : NdArray} {object : Object}

/-- Any other array is refused as an index. -/
theorem selector_of_not_isIndexArray (hArray : engine.object id = .ok (.array a))
    (h : ¬ a.IsIndexArray) : ∃ e, engine.selector id = .error e ∧ e.kind = .indexError := by
  rw [NdArray.IsIndexArray, not_or, not_or, not_and, not_and] at h
  obtain ⟨hInt, hMask, hEmpty⟩ := h
  rw [selector_of_dtype_ne hArray hInt, selector.ofContents, NdArray.contents]
  cases hType : a.dtype with
  | int64 => exact absurd hType hInt
  | bool => exact ⟨.maskRank, if_neg (hMask hType), rfl⟩
  | float64 => exact ⟨.floatIndex, if_neg (hEmpty hType), rfl⟩

/-- What is no number, no array and no sequence has no contents. -/
theorem arrayContents_of_part_eq_none (hObject : engine.object id = .ok object)
    (hPart : engine.part? id = none) :
    engine.arrayContents id = .error (.notArrayLike object.typeName) := by
  unfold part? at hPart
  rw [hObject] at hPart
  rw [arrayContents, arrayForm, hObject]
  cases object with
  | tuple | list | array | bool | int | float => cases hPart
  | _ =>
      simp only [bind, Except.bind, nestContents, flattenInto, hObject]
      rfl

/-- What the bridge registers is read in the same way as long as buffers stay. -/
theorem selector_eq_of_registrable (hLeft : left.object id = .ok object)
    (hRight : right.object id = .ok object) (hKind : object.isRegistrable = true)
    (hBuffers : right.buffers = left.buffers) : right.selector id = left.selector id := by
  rw [Engine.selector, Engine.selector, hLeft, hRight]
  cases object with
  | array a =>
      simp only [bind, Except.bind]
      rw [hBuffers]
  | iterator cursor => rfl
  | _ => cases hKind

end Engine

namespace Session

variable {session now : Session Engine} {engine next : Engine} {handle : Handle} {id : ObjectId}
  {object : Object} {index : Index} {item : AxisIndex} {selector other : Selector}

section Indices

/-- A handle is that of an array. -/
def NamesArray (session : Session Engine) (handle : Handle) (a : NdArray) : Prop :=
  ∃ id, session.handles.get? handle = some id ∧ session.runtime.object id = .ok (.array a)

theorem NamesArray.unique {a b : NdArray} (hLeft : session.NamesArray handle a)
    (hRight : session.NamesArray handle b) : a = b := by
  obtain ⟨id, hGet, hArray⟩ := hLeft
  obtain ⟨_, hGet', hArray'⟩ := hRight
  cases hGet.symm.trans hGet'
  cases hArray.symm.trans hArray'
  rfl

/-- What an index on one axis selects. -/
inductive Selects (session : Session Engine) : AxisIndex → Selector → Prop
  | at (i : Int64) : Selects session (.at i) (.at i)
  | full : Selects session .full (.slice .full)
  | slice (bounds : SliceBounds) : Selects session (.slice bounds) (.slice bounds)
  | fancy (positions : List Int64) : Selects session (.fancy positions) (.ofIndices positions)
  | mask (flags : List Bool) : Selects session (.mask flags) (.mask flags.toArray)
  | foreign {handle : Handle} {a : NdArray} {selector : Selector}
      (hNames : session.NamesArray handle a) (hSelects : a.Selects session.runtime.buffers selector) :
      Selects session (.foreign handle) selector

theorem Selects.unique (hLeft : session.Selects item selector)
    (hRight : session.Selects item other) : selector = other := by
  cases hLeft with
  | foreign hNames hSelects =>
      cases hRight with
      | foreign hNames' hSelects' =>
          obtain rfl := hNames.unique hNames'
          obtain ⟨id, -, hArray⟩ := hNames
          exact Except.ok.inj
            ((hSelects.selector_eq hArray).symm.trans (hSelects'.selector_eq hArray))
  | _ =>
      cases hRight
      rfl

theorem selectors_unique {items : List AxisIndex} {selectors others : List Selector}
    (hLeft : List.Forall₂ session.Selects items selectors)
    (hRight : List.Forall₂ session.Selects items others) : selectors = others := by
  have hUnique : Relator.RightUnique session.Selects := fun _ _ _ hOne hOther => hOne.unique hOther
  exact hUnique.forall₂ hLeft hRight

/-- What the engine reads from the item of a key: what the index selects, or an exception if the
index is a handle of something that cannot be used as an index. -/
inductive Reads (session : Session Engine) (engine : Engine) (id : ObjectId) : AxisIndex → Prop
  | selects {item : AxisIndex} {selector : Selector} (hSelects : session.Selects item selector)
      (hRead : engine.selector id = .ok selector) : Reads session engine id item
  | refuses {handle : Handle} (object : Object) {e : Exception}
      (hNothing : ∀ a, session.NamesArray handle a → ¬ a.IsIndexArray)
      (hKind : object.isRegistrable = true) (hObject : engine.object id = .ok object)
      (hRead : engine.selector id = .error e) (hIndexing : e.kind = .indexError) :
      Reads session engine id (.foreign handle)

theorem Reads.mono (h : Reads session engine id item) (hExtends : engine.Extends next) :
    Reads session next id item := by
  cases h with
  | selects hSelects hRead => exact .selects hSelects (hExtends.selector hRead)
  | refuses object hNothing hKind hObject hRead hIndexing =>
      have hNext := hExtends.object_eq hObject
      refine .refuses object hNothing hKind hNext ?_ hIndexing
      rw [selector_eq_of_registrable hObject hNext hKind hExtends.buffers_eq, hRead]

/-- What a registered handle stands for is an array that selects something, or it is refused. -/
theorem reads_registered (hGet : session.handles.get? handle = some id)
    (hKind : object.isRegistrable = true) (hBefore : session.runtime.object id = .ok object)
    (hObject : engine.object id = .ok object) (hBuffers : engine.buffers = session.runtime.buffers) :
    Reads session engine id (.foreign handle) := by
  have hSame := selector_eq_of_registrable hBefore hObject hKind hBuffers
  cases object with
  | array a =>
      have hNames : session.NamesArray handle a := ⟨id, hGet, hBefore⟩
      by_cases hIndex : a.IsIndexArray
      · obtain ⟨s, hSelects⟩ := NdArray.exists_selects_iff.mpr hIndex
        exact .selects (.foreign hNames hSelects) (hSame.trans (hSelects.selector_eq hBefore))
      · obtain ⟨e, hRead, hIndexing⟩ := selector_of_not_isIndexArray hBefore hIndex
        refine .refuses (.array a) (fun b hOther => ?_) rfl hObject (hSame.trans hRead) hIndexing
        rwa [hOther.unique hNames]
  | iterator cursor =>
      have hRead : engine.selector id = .error (.notAnIndex (Object.iterator cursor).typeName) := by
        rw [Engine.selector, hObject]
        rfl
      refine .refuses (.iterator cursor) (fun a hNames => ?_) rfl hObject hRead rfl
      obtain ⟨_, hGet', hArray⟩ := hNames
      cases hGet.symm.trans hGet'
      cases hBefore.symm.trans hArray
  | _ => cases hKind

/-- The foreign arrays of an index expression are registered. -/
def IndexRegistered (session : Session Engine) (index : Index) : Prop :=
  ∀ handle, .foreign handle ∈ index.items → ∃ id, session.handles.get? handle = some id

theorem builds_reads (h : Underway session now) (hSome : item ≠ .mask [])
    (hItem : ∀ handle, item = .foreign handle → ∃ id, session.handles.get? handle = some id) :
    Builds item.objects (axisKey item) now fun id engine => Reads session engine id item := by
  have hPlain {selector : Selector} (hDenotes : now.Denotes item selector)
      (hSelects : session.Selects item selector) :
      Builds item.objects (axisKey item) now fun id engine => Reads session engine id item :=
    (builds_axisKey hDenotes hSome).mono fun _ _ => .selects hSelects
  cases item with
  | «at» i => exact hPlain (.at i) (.at i)
  | full => exact hPlain .full .full
  | slice bounds => exact hPlain (.slice bounds) (.slice bounds)
  | fancy positions => exact hPlain (.fancy positions) (.fancy positions)
  | mask flags => exact hPlain (.mask flags) (.mask flags)
  | foreign handle =>
      obtain ⟨id, hGet⟩ := hItem handle rfl
      obtain ⟨object, hKind, hBefore, hNow⟩ := h.handle handle id hGet
      refine builds_handle (h.handles_eq ▸ hGet) hNow fun later hExtends => ?_
      exact reads_registered hGet hKind hBefore (hExtends.object_eq hNow)
        (hExtends.buffers_eq.trans h.buffers_eq)

end Indices

section Keys

variable {key : ObjectId} {selectors : List Selector}

/-- A key has an item for each index. -/
def HoldsKey (session : Session Engine) (engine : Engine) (index : Index) (key : ObjectId) : Prop :=
  ∃ found, engine.object key = .ok (.tuple found) ∧
    List.Forall₂ (fun id item => Reads session engine id item) found index.items

theorem HoldsKey.mono (h : HoldsKey session engine index key) (hExtends : engine.Extends next) :
    HoldsKey session next index key := by
  obtain ⟨found, hObject, hFound⟩ := h
  exact ⟨found, hExtends.object_eq hObject, hFound.imp fun _ _ hReads => hReads.mono hExtends⟩

/-- Some index is a handle of something that cannot be used as an index. -/
def IsNoIndex (session : Session Engine) (index : Index) : Prop :=
  ∃ handle, .foreign handle ∈ index.items ∧
    ∀ a, session.NamesArray handle a → ¬ a.IsIndexArray

theorem not_selects_of_isNoIndex (h : session.IsNoIndex index) :
    ¬ List.Forall₂ session.Selects index.items selectors := by
  obtain ⟨handle, hMem, hNothing⟩ := h
  intro hSelects
  obtain ⟨i, hBound, hItem⟩ := List.getElem_of_mem hMem
  have hHere := hSelects.get hBound (hSelects.length_eq ▸ hBound)
  rw [List.get_eq_getElem, hItem] at hHere
  generalize selectors.get _ = selector at hHere
  cases hHere with
  | foreign hNames hSelected =>
      exact hNothing _ hNames (NdArray.exists_selects_iff.mp ⟨_, hSelected⟩)

/-- The first item that is no index decides what is wrong with a key. -/
theorem HoldsKey.selectors_eq (h : HoldsKey session engine index key) :
    (∃ selectors, List.Forall₂ session.Selects index.items selectors ∧
      engine.selectors key = .ok selectors) ∨
    session.IsNoIndex index ∧ ∃ e, engine.selectors key = .error e ∧ e.kind = .indexError := by
  obtain ⟨found, hObject, hFound⟩ := h
  have hRead : engine.selectors key = found.mapM engine.selector := by
    rw [Engine.selectors, hObject]
    rfl
  rw [hRead, IsNoIndex]
  generalize index.items = items at hFound ⊢
  clear hRead hObject
  induction hFound with
  | nil => exact .inl ⟨[], .nil, rfl⟩
  | @cons id item found items hHead _ ih =>
      rw [List.mapM_cons]
      cases hHead with
      | refuses object hNothing hKind hHere hRead hIndexing =>
          rw [hRead]
          exact .inr ⟨⟨_, List.mem_cons_self, hNothing⟩, _, rfl, hIndexing⟩
      | @selects _ selector hSelects hRead =>
          rw [hRead]
          rcases ih with ⟨selectors, hRest, hTail⟩ | ⟨⟨handle, hMem, hNothing⟩, e, hTail, hIndexing⟩
          · exact .inl ⟨selector :: selectors, .cons hSelects hRest, by rw [hTail]; rfl⟩
          · exact .inr ⟨⟨handle, List.mem_cons_of_mem _ hMem, hNothing⟩, e, by rw [hTail]; rfl,
              hIndexing⟩

variable (h : Underway session now) (hMasks : .mask [] ∉ index.items)
include h hMasks

/-- The items of a key are built one after the other. -/
theorem builds_items {items : List AxisIndex} (hPart : ∀ item ∈ items, item ∈ index.items)
    (hItems : ∀ handle, .foreign handle ∈ items → ∃ id, session.handles.get? handle = some id)
    {later : Session Engine} (hLater : now.Extends later) : List.Forall₂
      (fun item result => ∀ last, later.Extends last → Builds item.objects (axisKey item) last
        fun id engine => Reads session engine id result) items items := by
  refine List.forall₂_same.mpr fun item hMem last hExtends => ?_
  refine builds_reads (h.extends (hLater.trans hExtends)) (fun hEmpty => ?_) fun handle hForeign => ?_
  · exact hMasks (hEmpty ▸ hPart item hMem)
  · exact hItems handle (hForeign ▸ hMem)

theorem builds_holdsKey (hItems : session.IndexRegistered index) :
    Builds index.objects (Session.key index) now
      fun id engine => HoldsKey session engine index id :=
  builds_tuple indexPath (builds_items h hMasks (fun _ => id) hItems (.refl now))
    fun _ _ _ _ hExtends hReads => hReads.mono hExtends

/-- The first handle that is not registered ends the building of a key. -/
theorem perform_key_unregistered (hItems : ¬ session.IndexRegistered index) {spare : Nat}
    (hRoom : now.runtime.HasRoom (index.objects + spare)) :
    ∃ handle after, .foreign handle ∈ index.items ∧ session.handles.get? handle = none ∧
      (Session.key index : BridgeOp Engine ObjectId).perform now
        = (.error (.invalidHandle handle), after) := by
  let isGood (item : AxisIndex) : Prop :=
    ∀ handle, item = .foreign handle → ∃ id, session.handles.get? handle = some id
  have hSome : ∃ item ∈ index.items, ¬ isGood item := by
    by_contra hNone
    push Not at hNone
    exact hItems fun handle hMem => hNone _ hMem handle rfl
  obtain ⟨good, item, rest, hSplit, hBad, hGood⟩ := exists_first hSome
  obtain ⟨handle, rfl, hNot⟩ : ∃ handle, item = .foreign handle ∧
      ∀ id, session.handles.get? handle ≠ some id := by simpa [isGood] using hBad
  have hGet := Option.eq_none_iff_forall_ne_some.mpr hNot
  have hEnough : now.runtime.HasRoom ((good.map AxisIndex.objects).sum + 0) := by
    refine ⟨hRoom.consistent, Nat.le_trans ?_ hRoom.fits⟩
    rw [Index.objects, hSplit, List.map_append, List.sum_append]
    omega
  have hPart : ∀ item ∈ good, item ∈ index.items :=
    fun item hMem => hSplit ▸ List.mem_append_left _ hMem
  have hBuilds := builds_items h hMasks hPart (fun handle hMem => hGood _ hMem handle rfl) (.refl now)
  obtain ⟨ids, later, hRun, hExtends, -, -⟩ := builds_collect hBuilds
    (fun _ _ _ _ hExtends hReads => hReads.mono hExtends) #[] (.refl now) 0 hEnough
  have hFails : (axisKey (.foreign handle) : BridgeOp Engine ObjectId).perform later
      = (.error (.invalidHandle handle), later) := by
    rw [axisKey, toForeign, perform_bind, perform_lookup, hExtends.handles_eq, h.handles_eq, hGet]
  refine ⟨handle, ((releaseAll ids.toList : BridgeOp Engine Unit).perform later).2,
    hSplit ▸ by simp, hGet, ?_⟩
  rw [Session.key, hSplit, perform_bind, perform_collect_of_error hRun hFails]

end Keys

section Values

variable {value : HostValue} {c other : Contents}

/-- What is read from a value that is written: a number without axes, a list with one axis, or the
contents of an array. -/
inductive Holds (session : Session Engine) : HostValue → Contents → Prop
  | number {value : HostValue} {p : Primitive} {x : Scalar} (hValue : value.immediate? = some p)
      (hNumber : p.number? = some x) : Holds session value (.ofLeaves [] [x])
  | numbers {value : HostValue} {xs : List Scalar} (hValue : value.numbers? = some xs) :
      Holds session value (.ofLeaves [xs.length] xs)
  | array {handle : Handle} {a : NdArray} (hNames : session.NamesArray handle a) :
      Holds session (.handle handle) (a.contents session.runtime.buffers)

/-- A value without elements: no value, text, bytes, or an iterator. -/
inductive Unreadable (session : Session Engine) : HostValue → Prop
  | none : Unreadable session .none
  | str (text : String) : Unreadable session (.str text)
  | bytes (octets : List UInt8) : Unreadable session (.bytes octets)
  | iterator {handle : Handle} {id : ObjectId} {cursor : Cursor}
      (hGet : session.handles.get? handle = some id)
      (hObject : session.runtime.object id = .ok (.iterator cursor)) :
      Unreadable session (.handle handle)

theorem Holds.unique (hLeft : session.Holds value c) (hRight : session.Holds value other) :
    c = other := by
  cases hLeft with
  | number hValue hNumber =>
      cases hRight with
      | number hValue' hNumber' =>
          cases hValue.symm.trans hValue'
          cases hNumber.symm.trans hNumber'
          rfl
      | numbers hValue' => cases value <;> cases hValue <;> cases hValue'
      | array => cases hValue
  | numbers hValue =>
      cases hRight with
      | number hValue' => cases value <;> cases hValue <;> cases hValue'
      | numbers hValue' =>
          cases hValue.symm.trans hValue'
          rfl
      | array => cases hValue
  | array hNames =>
      cases hRight with
      | number hValue' => cases hValue'
      | numbers hValue' => cases hValue'
      | array hNames' => rw [hNames.unique hNames']

theorem Holds.not_unreadable (h : session.Holds value c) : ¬ session.Unreadable value := by
  intro hUnreadable
  cases hUnreadable with
  | iterator hGet hObject =>
      cases h with
      | number hValue => cases hValue
      | numbers hValue => cases hValue
      | array hNames =>
          obtain ⟨_, hGet', hArray⟩ := hNames
          cases hGet.symm.trans hGet'
          cases hObject.symm.trans hArray
  | _ =>
      cases h with
      | number hValue hNumber =>
          cases hValue
          cases hNumber
      | numbers hValue => cases hValue

/-- From the object of a value its contents are read, or it is refused for its type. -/
theorem Stands.arrayContents_eq (h : Stands session engine id value)
    (hBuffers : engine.buffers = session.runtime.buffers) :
    (∃ c, session.Holds value c ∧ engine.arrayContents id = .ok c) ∨
    session.Unreadable value ∧ ∃ e, engine.arrayContents id = .error e ∧ e.kind = .typeError := by
  have hRefused {object : Object} (hObject : engine.object id = .ok object)
      (hPart : engine.part? id = none) :
      ∃ e, engine.arrayContents id = .error e ∧ e.kind = .typeError :=
    ⟨_, arrayContents_of_part_eq_none hObject hPart, rfl⟩
  cases h with
  | handle object hGet hKind hBefore hObject =>
      cases object with
      | array a =>
          refine .inl ⟨_, .array ⟨id, hGet, hBefore⟩, ?_⟩
          rw [arrayContents, arrayForm, hObject, ← hBuffers]
          rfl
      | iterator cursor =>
          refine .inr ⟨.iterator hGet hBefore, hRefused hObject ?_⟩
          rw [part?, hObject]
          rfl
      | _ => cases hKind
  | immediate p hValue hObject =>
      cases hNumber : p.number? with
      | some x =>
          refine .inl ⟨_, .number hValue hNumber, arrayContents_number ?_⟩
          cases p <;> cases hNumber <;> exact hObject
      | none =>
          have hPart : engine.part? id = none := by
            rw [part?, hObject]
            cases value <;> cases hValue <;> cases hNumber <;> rfl
          refine .inr ⟨?_, hRefused hObject hPart⟩
          cases value <;> cases hValue <;> cases hNumber
          · exact .none
          · exact .str _
          · exact .bytes _
  | numbers xs hValue hHolds => exact .inl ⟨_, .numbers hValue, hHolds.arrayContents_eq⟩

end Values

end Session

end ArrayBridge
