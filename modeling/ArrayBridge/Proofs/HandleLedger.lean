import ArrayBridge.Bridge.Session
import ArrayBridge.Proofs.Conservation
import ArrayBridge.Proofs.References

/-! The ledger of a session.

Every registered handle holds one reference. So a session is in order if its runtime is
in order while the references of all handles are held besides those that an operation
holds. -/

namespace ArrayBridge

namespace HandleTable

/-- Each free slot is vacant and listed once, and the registered handles are counted. -/
structure Consistent (table : HandleTable) : Prop where
  vacant : ∀ index ∈ table.free, ∃ generation kind,
    table.entries[index.toNat]? = some ⟨generation, none, kind⟩
  free_nodup : table.free.Nodup
  live_eq : table.live = table.objects.length

variable {table : HandleTable} {h : Handle} {id : ObjectId} {kind : HandleKind}

theorem entry?_eq_some_iff : table.entry? h = some (id, kind) ↔
    table.entries[h.index.toNat]? = some ⟨h.generation, some id, kind⟩ := by
  unfold entry?
  split
  · rename_i generation object other hEntry
    rw [hEntry]
    split_ifs with hGeneration <;> simp [hGeneration]
  · rename_i hNone
    constructor
    · intro hFalse
      cases hFalse
    · intro hEntry
      exact absurd hEntry (hNone _ _ _)

theorem get?_eq_some_iff : table.get? h = some id ↔ ∃ kind, table.entry? h = some (id, kind) := by
  simp [get?]

theorem consistent_empty : Consistent empty := ⟨by simp [empty], List.nodup_nil, rfl⟩

theorem objects_eq_flatMap (table : HandleTable) :
    table.objects = table.entries.toList.flatMap fun entry => entry.object.toList :=
  List.filterMap_eq_flatMap_toList _ _

/-- Another entry in a slot brings its reference for that of the old one. -/
theorem count_objects_set (next : HandleTable) {i : Nat} {old new : HandleEntry}
    (hOld : table.entries[i]? = some old)
    (hNext : next.entries = table.entries.setIfInBounds i new) (c : ObjectId) :
    next.objects.count c + old.object.toList.count c
      = table.objects.count c + new.object.toList.count c := by
  rw [objects_eq_flatMap, objects_eq_flatMap, hNext, Array.toList_setIfInBounds]
  exact Heap.count_flatMap_set (fun entry => entry.object.toList)
    (by rw [Array.getElem?_toList, hOld]) new c

/-- What a registered handle stands for is one of the registered objects. -/
theorem mem_objects_of_get? (hGet : table.get? h = some id) : id ∈ table.objects := by
  obtain ⟨kind, hEntry⟩ := get?_eq_some_iff.mp hGet
  have hMem := Array.mem_of_getElem? (entry?_eq_some_iff.mp hEntry)
  exact List.mem_filterMap.mpr ⟨_, Array.mem_toList_iff.mpr hMem, rfl⟩

/-- A new handle takes over the reference to its object. -/
theorem coe_objects_insert (hTable : table.Consistent) (id : ObjectId) (kind : HandleKind) :
    (↑(table.insert id kind).2.objects : Multiset ObjectId) = id ::ₘ ↑table.objects := by
  obtain ⟨entries, free, live⟩ := table
  cases free with
  | nil =>
      rw [Multiset.cons_coe, Multiset.coe_eq_coe]
      simp only [insert, objects, Array.toList_push, List.filterMap_append]
      exact List.perm_append_comm
  | cons index free =>
      obtain ⟨generation, other, hVacant⟩ := hTable.vacant index (by simp)
      ext c
      have hCount := count_objects_set
        (insert ⟨entries, index :: free, live⟩ id kind).2 hVacant rfl c
      simpa [List.count_cons, Multiset.count_cons, eq_comm (a := c)] using hCount

theorem Consistent.insert (hTable : table.Consistent) (id : ObjectId) (kind : HandleKind) :
    (table.insert id kind).2.Consistent := by
  have hCard := congrArg Multiset.card (coe_objects_insert hTable id kind)
  simp only [Multiset.coe_card, Multiset.card_cons] at hCard
  obtain ⟨entries, free, live⟩ := table
  cases free with
  | nil => exact ⟨by simp [HandleTable.insert], List.nodup_nil, hCard ▸ congrArg Nat.succ hTable.live_eq⟩
  | cons index free =>
      obtain ⟨hFirst, hRest⟩ := List.nodup_cons.mp hTable.free_nodup
      refine ⟨fun next hNext => ?_, hRest, hCard ▸ congrArg Nat.succ hTable.live_eq⟩
      have hOther : index.toNat ≠ next.toNat := fun hSame =>
        ne_of_mem_of_not_mem hNext hFirst (UInt32.toNat_inj.mp hSame.symm)
      simp only [HandleTable.insert, Array.getElem?_setIfInBounds, if_neg hOther]
      exact hTable.vacant next (List.mem_cons_of_mem _ hNext)

/-- A handle that is removed gives its reference back. -/
theorem coe_objects_remove (hGet : table.get? h = some id) :
    (table.remove h).1 = some id ∧
      (↑table.objects : Multiset ObjectId) = id ::ₘ ↑(table.remove h).2.objects := by
  obtain ⟨kind, hEntry⟩ := get?_eq_some_iff.mp hGet
  have hNext : (table.remove h).2.entries
      = table.entries.setIfInBounds h.index.toNat ⟨h.generation, none, kind⟩ := by
    rw [remove, hEntry]
  refine ⟨by rw [remove, hEntry], ?_⟩
  ext c
  have hCount := count_objects_set _ (entry?_eq_some_iff.mp hEntry) hNext c
  simpa [List.count_cons, Multiset.count_cons, eq_comm (a := c)] using hCount.symm

/-- A registered handle is not in a free slot. -/
theorem Consistent.index_ne (hTable : table.Consistent) (hEntry : table.entry? h = some (id, kind))
    {index : UInt32} (hIndex : index ∈ table.free) : h.index.toNat ≠ index.toNat := by
  intro hSame
  obtain ⟨generation, other, hVacant⟩ := hTable.vacant index hIndex
  rw [entry?_eq_some_iff, hSame, hVacant] at hEntry
  cases hEntry

theorem Consistent.remove (hTable : table.Consistent) (hGet : table.get? h = some id) :
    (table.remove h).2.Consistent := by
  have hCard := congrArg Multiset.card (coe_objects_remove hGet).2
  simp only [Multiset.coe_card, Multiset.card_cons] at hCard
  have hLive := hTable.live_eq
  obtain ⟨kind, hEntry⟩ := get?_eq_some_iff.mp hGet
  have hBound := (Array.getElem?_eq_some_iff.mp (entry?_eq_some_iff.mp hEntry)).1
  simp only [HandleTable.remove, hEntry] at hCard ⊢
  refine ⟨fun index hIndex => ?_, ?_, ?_⟩
  · rw [Array.getElem?_setIfInBounds]
    rcases List.mem_cons.mp hIndex with rfl | hFree
    · rw [if_pos rfl, if_pos hBound]
      exact ⟨h.generation, kind, rfl⟩
    · rw [if_neg (hTable.index_ne hEntry hFree)]
      exact hTable.vacant index hFree
  · exact List.nodup_cons.mpr ⟨fun hFree => hTable.index_ne hEntry hFree rfl, hTable.free_nodup⟩
  · dsimp only
    omega

theorem remove_of_get?_eq_none (hGet : table.get? h = none) : table.remove h = (none, table) := by
  have hEntry : table.entry? h = none := by simpa [get?] using hGet
  rw [remove, hEntry]

/-- What a handle stands for does not matter to its reference. -/
theorem coe_objects_setKind (table : HandleTable) (h : Handle) (kind : HandleKind) :
    (↑(table.setKind h kind).objects : Multiset ObjectId) = ↑table.objects := by
  unfold setKind
  split
  · rename_i id old hEntry
    ext c
    have hCount := count_objects_set
      { table with entries := table.entries.setIfInBounds h.index.toNat ⟨h.generation, some id, kind⟩ }
      (entry?_eq_some_iff.mp hEntry) rfl c
    simpa using hCount
  · rfl

theorem Consistent.setKind (hTable : table.Consistent) (h : Handle) (kind : HandleKind) :
    (table.setKind h kind).Consistent := by
  have hCard := congrArg Multiset.card (coe_objects_setKind table h kind)
  simp only [Multiset.coe_card] at hCard
  unfold HandleTable.setKind at hCard ⊢
  split at hCard
  · rename_i id old hEntry
    refine ⟨fun index hIndex => ?_, hTable.free_nodup, hTable.live_eq.trans hCard.symm⟩
    rw [Array.getElem?_setIfInBounds, if_neg (hTable.index_ne hEntry hIndex)]
    exact hTable.vacant index hIndex
  · exact hTable

end HandleTable

namespace Session

open Operation

variable {σ α : Type} {taken rest failed : Multiset ObjectId} {given : α → Multiset ObjectId}

/-- The handles are in order, and so is the runtime while they are held. -/
def InOrder (ledger : Ledger σ) : Ledger (Session σ) := fun held session =>
  session.handles.Consistent ∧ ledger (held + ↑session.handles.objects) session.runtime

/-- Only the code zero reports success. -/
theorem isOk_ofCode {code : Int} : (ReleaseStatus.ofCode code).isOk = true ↔ code = 0 := by
  unfold ReleaseStatus.ofCode ReleaseStatus.isOk
  split_ifs <;> simp_all

/-- A ledger of sessions by which the bridge conserves references. In every state the
runtime keeps a ledger of its own, and while it does the session is in order. An object
of a handle can be shared, an array can get a handle, and a buffer can be released. -/
structure Carrying [ForeignRuntime σ] (ledger : Ledger (Session σ)) : Prop where
  lift {held : Multiset ObjectId} {session : Session σ} : ledger held session →
    ∃ inner : Ledger σ, Sustaining inner ∧ inner held session.runtime ∧
      ∀ held runtime, inner held runtime → ledger held ⟨runtime, session.handles, session.root⟩
  share {held : Multiset ObjectId} {session : Session σ} {h : Handle} {id : ObjectId} :
    ledger held session → session.handles.get? h = some id →
      ledger (id ::ₘ held)
        ⟨ForeignRuntime.retain id session.runtime, session.handles, session.root⟩
  adopt {held : Multiset ObjectId} {session : Session σ} {id : ObjectId} :
    ledger (id ::ₘ held) session →
      ((ForeignRuntime.arrayInfo id).run session.runtime).1.isSome →
      ledger held ⟨((ForeignRuntime.arrayInfo id).run session.runtime).2,
        (session.handles.insert id .object).2, session.root⟩
  freeBuffer (h : Handle) (address : Nat) :
    Conserves ledger 0 (freeBuffer h address) (fun _ => 0) 0

section Runtime

theorem perform_runtimeOp (path : String) (op : RuntimeOp σ α) (runtime : σ) (handles : HandleTable)
    (root : String) : (runtimeOp path op).perform ⟨runtime, handles, root⟩
      = match op.perform runtime with
        | (.ok result, next) => (.ok result, ⟨next, handles, root⟩)
        | (.error e, next) => (.error (.foreignCall path e), ⟨next, handles, root⟩) := rfl

theorem perform_tryRuntime (op : RuntimeOp σ α) (runtime : σ) (handles : HandleTable)
    (root : String) : (tryRuntime op).perform ⟨runtime, handles, root⟩
      = (.ok (op.perform runtime).1, ⟨(op.perform runtime).2, handles, root⟩) := rfl

theorem perform_onRuntime (action : StateM σ α) (session : Session σ) :
    (onRuntime action).perform session = (.ok (action.run session.runtime).1,
      ⟨(action.run session.runtime).2, session.handles, session.root⟩) := rfl

theorem perform_outcome (op : BridgeOp σ α) (session : Session σ) :
    (outcome op).perform session = (.ok (op.perform session).1, (op.perform session).2) := rfl

theorem perform_lookup (h : Handle) (session : Session σ) :
    (lookup h).perform session = match session.handles.get? h with
      | some id => (.ok id, session)
      | none => (.error (.invalidHandle h), session) := rfl

/-- Releasing a buffer removes the handle if, and only if, the runtime accepts the
address. -/
theorem perform_freeBuffer [ForeignRuntime σ] (h : Handle) (address : Nat) (session : Session σ) :
    (freeBuffer h address).perform session = match session.handles.get? h with
      | none => (.ok .staleHandle, session)
      | some id =>
        let result := (ForeignRuntime.releaseBuffer id address).run session.runtime
        if result.1 = 0 then (.ok .ok, ⟨result.2, (session.handles.remove h).2, session.root⟩)
        else (.ok (.ofCode result.1), ⟨result.2, session.handles, session.root⟩) := by
  obtain ⟨runtime, handles, root⟩ := session
  have hGet : (get : BridgeOp σ (Session σ)).perform ⟨runtime, handles, root⟩
      = (.ok ⟨runtime, handles, root⟩, ⟨runtime, handles, root⟩) := rfl
  rw [freeBuffer, perform_bind, hGet]
  dsimp only
  cases handles.get? h with
  | none => rfl
  | some id =>
      dsimp only
      rw [perform_bind, perform_onRuntime]
      dsimp only
      generalize (ForeignRuntime.releaseBuffer id address).run runtime = result
      obtain ⟨code, next⟩ := result
      by_cases hCode : code = 0
      · rw [if_pos (isOk_ofCode.mpr hCode)]
        simp only [hCode, if_true]
        rfl
      · rw [if_neg fun hOk => hCode (isOk_ofCode.mp hOk)]
        simp only [hCode, if_false]
        rfl

variable {ledger : Ledger (Session σ)}

theorem conserves_ofOutcome {result : Except BridgeError α}
    (h : outcomeReferences given failed result = taken) :
    Conserves ledger taken (ofOutcome result) given failed := by
  subst h
  exact fun _ _ hOrder => hOrder

/-- A result without references, or a failure. -/
theorem conserves_ofOutcome_plain (result : Except BridgeError α) :
    Conserves ledger 0 (ofOutcome result) (fun _ => 0) 0 :=
  conserves_ofOutcome (outcomeReferences_const result)

theorem conserves_get : Conserves ledger taken (get : BridgeOp σ (Session σ))
    (fun _ => taken) failed := fun _ _ h => h

/-- Looking a handle up moves no references. -/
theorem conserves_lookup (h : Handle) :
    Conserves ledger taken (lookup h) (fun _ => taken) taken := by
  intro frame session hOrder
  rw [perform_lookup]
  cases session.handles.get? h with
  | some id => exact hOrder
  | none => exact hOrder

/-- An operation of the runtime conserves what it conserves in the runtime. -/
theorem conserves_runtimeOp_of_lift {op : RuntimeOp σ α}
    (h : ∀ held session, ledger held session → ∃ inner : Ledger σ,
      Conserves inner taken op given failed ∧ inner held session.runtime ∧
        ∀ held runtime, inner held runtime →
          ledger held ⟨runtime, session.handles, session.root⟩) (path : String) :
    Conserves ledger taken (runtimeOp path op) given failed := by
  rintro frame ⟨runtime, handles, root⟩ hBefore
  obtain ⟨inner, hConserves, hInner, hBack⟩ := h _ _ hBefore
  have hAfter := hConserves frame runtime hInner
  rw [perform_runtimeOp]
  cases hRun : op.perform runtime with
  | mk outcome next =>
      rw [hRun] at hAfter
      cases outcome with
      | ok result => exact hBack _ _ hAfter
      | error e => exact hBack _ _ hAfter

variable [ForeignRuntime σ]

theorem conserves_typeName (id : ObjectId) :
    Conserves ledger taken (typeName id) (fun _ => taken) failed := fun _ _ h => h

variable (hCarrying : Carrying ledger)
include hCarrying

theorem conserves_runtimeOp {op : RuntimeOp σ α}
    (h : ∀ inner : Ledger σ, Sustaining inner → Conserves inner taken op given failed)
    (path : String) : Conserves ledger taken (runtimeOp path op) given failed := by
  refine conserves_runtimeOp_of_lift (fun held session hBefore => ?_) path
  obtain ⟨inner, hSustaining, hInner, hBack⟩ := hCarrying.lift hBefore
  exact ⟨inner, h inner hSustaining, hInner, hBack⟩

/-- The outcome of an operation of the runtime is data, so there is no failure. -/
theorem conserves_tryRuntime {op : RuntimeOp σ α}
    (h : ∀ inner : Ledger σ, Sustaining inner → Conserves inner 0 op given 0)
    (rest : Multiset ObjectId) : Conserves ledger rest (tryRuntime op)
      (fun outcome => outcomeReferences given 0 outcome + rest) failed := by
  rintro frame ⟨runtime, handles, root⟩ hBefore
  obtain ⟨inner, hSustaining, hInner, hBack⟩ := hCarrying.lift hBefore
  have hAfter := h inner hSustaining (rest + frame) runtime (Multiset.zero_add _ ▸ hInner)
  rw [← Multiset.add_assoc] at hAfter
  exact hBack _ _ hAfter

theorem conserves_onRuntime {action : StateM σ α}
    (h : ∀ inner : Ledger σ, Sustaining inner →
      ∀ runtime, Moves inner taken action given runtime) :
    Conserves ledger taken (onRuntime action) given failed := by
  rintro frame ⟨runtime, handles, root⟩ hBefore
  obtain ⟨inner, hSustaining, hInner, hBack⟩ := hCarrying.lift hBefore
  exact hBack _ _ (h inner hSustaining runtime frame hInner)

theorem conserves_release (id : ObjectId) (rest : Multiset ObjectId) :
    Conserves ledger (rest + {id}) (release id) (fun _ => rest) failed := by
  apply conserves_onRuntime hCarrying
  intro inner hSustaining runtime frame hRuntime
  rw [Multiset.add_comm rest, Multiset.singleton_add, Multiset.cons_add] at hRuntime
  exact hSustaining.release id _ runtime hRuntime

/-- All of a list of references are released. -/
theorem conserves_releaseAll (ids : List ObjectId) (rest : Multiset ObjectId) :
    Conserves ledger (rest + ↑ids) (releaseAll ids) (fun _ => rest) failed := by
  apply conserves_onRuntime hCarrying
  intro inner hSustaining runtime frame hRuntime
  rw [Multiset.add_comm rest] at hRuntime
  simp only [StateT.run]
  induction ids generalizing runtime with
  | nil => simpa using hRuntime
  | cons id ids ih =>
      rw [← Multiset.cons_coe, Multiset.cons_add, Multiset.cons_add] at hRuntime
      exact ih _ (hSustaining.release id _ runtime hRuntime)

theorem conserves_arrayInfo (id : ObjectId) :
    Conserves ledger taken (arrayInfo id) (fun _ => taken) failed := by
  apply conserves_onRuntime hCarrying
  intro inner hSustaining runtime
  simpa only [Multiset.zero_add] using (hSustaining.arrayInfo id runtime).beside taken

/-- The object of a registered handle is held, so there can be another reference to it. -/
theorem conserves_share (h : Handle) : Conserves ledger 0 (do
    let id ← lookup h
    retain id
    return id) ({·}) 0 := by
  intro frame session hBefore
  rw [perform_bind, perform_lookup]
  rw [Multiset.zero_add] at hBefore
  cases hGet : session.handles.get? h with
  | none =>
      dsimp only [outcomeReferences]
      rwa [Multiset.zero_add]
  | some id => exact hCarrying.share hBefore hGet

end Runtime

section Handles

variable {ledger : Ledger σ}

theorem conserves_register (id : ObjectId) (kind : HandleKind) :
    Conserves (InOrder ledger) {id} (register id kind) (fun _ => 0) failed := by
  rintro frame ⟨runtime, handles, root⟩ ⟨hTable, hRuntime⟩
  refine ⟨hTable.insert id kind, ?_⟩
  change ledger (0 + frame + ↑(handles.insert id kind).2.objects) runtime
  rwa [HandleTable.coe_objects_insert hTable, Multiset.zero_add, Multiset.add_cons,
    ← Multiset.cons_add]

/-- A removed handle gives its reference to whoever removed it. -/
theorem conserves_remove (h : Handle) :
    Conserves (InOrder ledger) 0 (onHandles fun handles => handles.remove h)
      (fun id? => (↑id?.toList : Multiset ObjectId)) failed := by
  rintro frame ⟨runtime, handles, root⟩ ⟨hTable, hRuntime⟩
  change (handles.remove h).2.Consistent ∧
    ledger (↑(handles.remove h).1.toList + frame + ↑(handles.remove h).2.objects) runtime
  dsimp only at hTable hRuntime
  cases hGet : handles.get? h with
  | none =>
      rw [HandleTable.remove_of_get?_eq_none hGet]
      exact ⟨hTable, hRuntime⟩
  | some id =>
      obtain ⟨hId, hObjects⟩ := HandleTable.coe_objects_remove hGet
      refine ⟨hTable.remove hGet, ?_⟩
      rw [Multiset.zero_add, hObjects, Multiset.add_cons, ← Multiset.cons_add] at hRuntime
      rw [hId]
      exact hRuntime

theorem conserves_setKind (h : Handle) (kind : HandleKind) :
    Conserves (InOrder ledger) rest (onHandles fun handles => ((), handles.setKind h kind))
      (fun _ => rest) failed := by
  rintro frame ⟨runtime, handles, root⟩ ⟨hTable, hRuntime⟩
  refine ⟨hTable.setKind h kind, ?_⟩
  change ledger (rest + frame + ↑(handles.setKind h kind).objects) runtime
  rw [HandleTable.coe_objects_setKind]
  exact hRuntime

theorem conserves_framed {op : RuntimeOp σ α} (h : Conserves ledger taken op given failed)
    (rest : Multiset ObjectId) :
    Conserves (fun held => ledger (held + rest)) taken op given failed := by
  intro frame runtime hBefore
  have hAfter := h (frame + rest) runtime (Multiset.add_assoc _ _ _ ▸ hBefore)
  rwa [← Multiset.add_assoc] at hAfter

theorem moves_framed {action : StateM σ α} {runtime : σ}
    (h : Moves ledger taken action given runtime) (rest : Multiset ObjectId) :
    Moves (fun held => ledger (held + rest)) taken action given runtime := by
  intro frame hBefore
  have hAfter := h (frame + rest) (Multiset.add_assoc _ _ _ ▸ hBefore)
  rwa [← Multiset.add_assoc] at hAfter

variable [ForeignRuntime σ]

/-- What a ledger allows, it allows while more is held. -/
theorem sustaining_framed (h : Sustaining ledger) (rest : Multiset ObjectId) :
    Sustaining fun held => ledger (held + rest) where
  importModule name := conserves_framed (h.importModule name) rest
  getAttribute id name := conserves_framed (h.getAttribute id name) rest
  call id positional keywords := conserves_framed (h.call id positional keywords) rest
  getItem id key := conserves_framed (h.getItem id key) rest
  setItem id key value := conserves_framed (h.setItem id key value) rest
  iterate id := conserves_framed (h.iterate id) rest
  asArray id := conserves_framed (h.asArray id) rest
  build value := conserves_framed (h.build value) rest
  extract id := conserves_framed (h.extract id) rest
  scalars id := conserves_framed (h.scalars id) rest
  arrayInfo id runtime := moves_framed (h.arrayInfo id runtime) rest
  retain id held runtime hHeld hBefore := by
    rw [Multiset.cons_add]
    exact h.retain id _ runtime (Multiset.mem_add.mpr (.inl hHeld)) hBefore
  release id held runtime hBefore := by
    rw [Multiset.cons_add] at hBefore
    exact h.release id _ runtime hBefore
  releaseBuffer id address runtime := moves_framed (h.releaseBuffer id address runtime) rest

variable (hSustaining : Sustaining ledger)
include hSustaining

/-- A handle whose buffer is released goes together with its reference; any other
status leaves both. -/
theorem conserves_freeBuffer (h : Handle) (address : Nat) :
    Conserves (InOrder ledger) 0 (freeBuffer h address) (fun _ => 0) 0 := by
  rintro frame ⟨runtime, handles, root⟩ ⟨hTable, hRuntime⟩
  rw [outcomeReferences_const, perform_freeBuffer]
  rw [Multiset.zero_add] at hRuntime ⊢
  dsimp only at hTable hRuntime ⊢
  cases hFound : handles.get? h with
  | none => exact ⟨hTable, hRuntime⟩
  | some id =>
      obtain ⟨-, hObjects⟩ := HandleTable.coe_objects_remove hFound
      rw [hObjects, Multiset.add_cons, ← Multiset.singleton_add] at hRuntime
      have hAfter := hSustaining.releaseBuffer id address runtime _ hRuntime
      dsimp only at hAfter ⊢
      split_ifs with hCode
      · rw [if_pos hCode, Multiset.zero_add] at hAfter
        exact ⟨hTable.remove hFound, hAfter⟩
      · rw [if_neg hCode, Multiset.singleton_add, ← Multiset.add_cons, ← hObjects] at hAfter
        exact ⟨hTable, hAfter⟩

/-- The references of the handles are held besides all others. -/
theorem carrying_inOrder : Carrying (InOrder ledger) where
  lift := fun {_ session} ⟨hTable, hRuntime⟩ =>
    ⟨_, sustaining_framed hSustaining ↑session.handles.objects, hRuntime,
      fun _ _ hInner => ⟨hTable, hInner⟩⟩
  share := fun {held session h id} ⟨hTable, hRuntime⟩ hGet => by
    refine ⟨hTable, ?_⟩
    have hHeld : id ∈ held + (↑session.handles.objects : Multiset ObjectId) :=
      Multiset.mem_add.mpr (.inr (HandleTable.mem_objects_of_get? hGet))
    rw [Multiset.cons_add]
    exact hSustaining.retain id _ session.runtime hHeld hRuntime
  adopt := fun {held session id} ⟨hTable, hRuntime⟩ _ => by
    refine ⟨hTable.insert id .object, ?_⟩
    rw [HandleTable.coe_objects_insert hTable, Multiset.add_cons, ← Multiset.cons_add]
    have hSame := hSustaining.arrayInfo id session.runtime (id ::ₘ held + ↑session.handles.objects)
    simp only [Multiset.zero_add] at hSame
    exact hSame hRuntime
  freeBuffer := conserves_freeBuffer hSustaining

end Handles

end Session

end ArrayBridge
