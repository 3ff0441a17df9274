import ArrayBridge.Proofs.HandleHistory
import ArrayBridge.Proofs.ReferenceCounts

/-! A cursor that stays.

As long as a handle of a cursor stays, so do the cursor, where it is, and its source.
Operations of the bridge work around it: they can register more handles of the cursor and
remove others, but none of them moves it. Only the next item of the cursor itself does. -/

namespace ArrayBridge

open Operation HandleTable

namespace Session

/-- The slots of the heap and those of the handles have names of their own. -/
def Roomy (session : Session Engine) : Prop :=
  session.runtime.heap.slots.size ≤ Heap.slotLimit ∧
    session.handles.entries.size ≤ Heap.slotLimit

/-- A cursor stays as it was before, since one reference to it is kept aside for the
handles that stay. All other handles of the cursor are those from before, or iterators
that have not begun. -/
structure Shelters (base : Heap) (before : Session Engine) (c : ObjectId) (stays : Handle → Prop)
    (held : Multiset ObjectId) (session : Session Engine) : Prop where
  cursor : ∃ cursor, before.runtime.heap.get? c = some (.iterator cursor)
  named : ∀ h, stays h → before.handles.get? h = some c
  nonempty : ∃ h, stays h
  consistent : session.handles.Consistent
  guarded : ∃ rest, (↑session.handles.objects : Multiset ObjectId) = c ::ₘ rest ∧
    Engine.Guards ⟨base, {c}, before.runtime.heap⟩ (held + rest) session.runtime
  kept : ∀ h, stays h → session.handles.entry? h = before.handles.entry? h
  only : ∀ h kind, session.handles.entry? h = some (c, kind) →
    before.handles.entry? h = some (c, kind) ∨ kind = .iterator .created

/-- A cursor stays as long as there is room. -/
def Sheltered (base : Heap) (before : Session Engine) (c : ObjectId) (stays : Handle → Prop) :
    Ledger (Session Engine) := fun held session =>
  session.Roomy → Shelters base before c stays held session

variable {base : Heap} {before session : Session Engine} {c id : ObjectId}
  {stays : Handle → Prop} {held rest taken failed : Multiset ObjectId} {h : Handle}
  {kind : HandleKind}

namespace Shelters

/-- A handle that stays names the cursor. -/
theorem get?_of_stays (hShelters : Shelters base before c stays held session) (hStays : stays h) :
    session.handles.get? h = some c := by
  rw [← hShelters.named h hStays, get?, get?, hShelters.kept h hStays]

/-- The cursor is where it was. -/
theorem get?_cursor (hShelters : Shelters base before c stays held session)
    (hRoom : session.Roomy) :
    session.runtime.heap.get? c = before.runtime.heap.get? c := by
  obtain ⟨rest, -, hGuards⟩ := hShelters.guarded
  exact (hGuards hRoom.1).2.same c ⟨c, Multiset.mem_singleton_self c, .refl⟩

/-- An array is not the cursor. -/
theorem ne_of_array (hShelters : Shelters base before c stays held session)
    (hRoom : session.Roomy) {a : NdArray} (hArray : session.runtime.heap.get? id = some (.array a)) :
    id ≠ c := by
  rintro rfl
  obtain ⟨cursor, hCursor⟩ := hShelters.cursor
  rw [hShelters.get?_cursor hRoom, hCursor] at hArray
  cases hArray

/-- What a handle names is live. -/
theorem isLive (hShelters : Shelters base before c stays held session) (hRoom : session.Roomy)
    (hGet : session.handles.get? h = some id) : session.runtime.heap.isLive id = true := by
  obtain ⟨rest, hObjects, hGuards⟩ := hShelters.guarded
  refine (hGuards hRoom.1).2.balanced.held_live id ?_
  have hMem : id ∈ (↑session.handles.objects : Multiset ObjectId) := mem_objects_of_get? hGet
  rw [hObjects, Multiset.mem_cons] at hMem
  simp only [Multiset.mem_add, Multiset.mem_singleton]
  exact hMem.imp_right .inr

/-- A new handle takes over a reference. A new handle of the cursor has not begun. -/
theorem insert (hShelters : Shelters base before c stays (id ::ₘ held) session)
    (hKind : id = c → kind = .iterator .created)
    (hRoom : (session.handles.insert id kind).2.entries.size ≤ Heap.slotLimit) :
    Shelters base before c stays held
      ⟨session.runtime, (session.handles.insert id kind).2, session.root⟩ := by
  have hTable := hShelters.consistent
  have hEntry := entry?_insert hTable id kind hRoom
  refine ⟨hShelters.cursor, hShelters.named, hShelters.nonempty, hTable.insert id kind, ?_, ?_, ?_⟩
  · obtain ⟨rest, hObjects, hGuards⟩ := hShelters.guarded
    refine ⟨id ::ₘ rest, ?_, ?_⟩
    · rw [coe_objects_insert hTable, hObjects, Multiset.cons_swap]
    · rwa [Multiset.add_cons, ← Multiset.cons_add]
  · intro h hStays
    obtain ⟨old, hOld⟩ := get?_eq_some_iff.mp (hShelters.get?_of_stays hStays)
    rw [hEntry, if_neg (ne_insert_of_entry hTable id kind hRoom hOld)]
    exact hShelters.kept h hStays
  · intro h found hFound
    rw [hEntry] at hFound
    split_ifs at hFound
    · cases hFound
      exact .inr (hKind rfl)
    · exact hShelters.only h found hFound

/-- A handle that need not stay gives its reference back. -/
theorem remove (hShelters : Shelters base before c stays held session)
    (hGet : session.handles.get? h = some id) (hLeaves : ¬ stays h) :
    Shelters base before c stays (id ::ₘ held)
      ⟨session.runtime, (session.handles.remove h).2, session.root⟩ := by
  have hOther (other : Handle) (hStays : stays other) : other ≠ h := by
    rintro rfl
    exact hLeaves hStays
  obtain ⟨-, hRemoved⟩ := coe_objects_remove hGet
  refine ⟨hShelters.cursor, hShelters.named, hShelters.nonempty,
    hShelters.consistent.remove hGet, ?_, ?_, ?_⟩
  · -- One handle stays, so the reference that is kept aside is another one.
    obtain ⟨other, hStays⟩ := hShelters.nonempty
    have hKept : (session.handles.remove h).2.get? other = some c := by
      rw [get?_remove, if_neg (hOther other hStays)]
      exact hShelters.get?_of_stays hStays
    obtain ⟨left, hLeft⟩ := Multiset.exists_cons_of_mem
      (show c ∈ (↑(session.handles.remove h).2.objects : Multiset ObjectId) from
        mem_objects_of_get? hKept)
    obtain ⟨rest, hObjects, hGuards⟩ := hShelters.guarded
    have hRest : rest = id ::ₘ left := by
      rw [hObjects, hLeft, Multiset.cons_swap] at hRemoved
      exact (Multiset.cons_inj_right c).mp hRemoved
    refine ⟨left, hLeft, ?_⟩
    rwa [hRest, Multiset.add_cons, ← Multiset.cons_add] at hGuards
  · intro other hStays
    rw [entry?_remove, if_neg (hOther other hStays)]
    exact hShelters.kept other hStays
  · intro other found hFound
    rw [entry?_remove] at hFound
    split_ifs at hFound
    exact hShelters.only other found hFound

/-- What a handle stands for can change, if it is not one of the cursor. -/
theorem setKind (hShelters : Shelters base before c stays held session)
    (hOther : session.handles.get? h ≠ some c) (kind : HandleKind) :
    Shelters base before c stays held
      ⟨session.runtime, session.handles.setKind h kind, session.root⟩ := by
  refine ⟨hShelters.cursor, hShelters.named, hShelters.nonempty,
    hShelters.consistent.setKind h kind, ?_, ?_, ?_⟩
  · rw [coe_objects_setKind]
    exact hShelters.guarded
  · intro other hStays
    have hHere : other ≠ h := by
      rintro rfl
      exact hOther (hShelters.get?_of_stays hStays)
    rw [entry?_setKind, if_neg hHere]
    exact hShelters.kept other hStays
  · intro other found hFound
    have hGet : session.handles.get? other = some c := by
      rw [← get?_setKind h kind]
      exact get?_eq_some_iff.mpr ⟨found, hFound⟩
    have hHere : other ≠ h := by
      rintro rfl
      exact hOther hGet
    rw [entry?_setKind, if_neg hHere] at hFound
    exact hShelters.only other found hFound

end Shelters

section Carry

variable (base before c stays)

/-- What a heap without room allows, a session allows, since nothing is claimed then. -/
theorem lift_sheltered (hSession : Sheltered base before c stays held session) :
    ∃ inner : Ledger Engine, Sustaining inner ∧ inner held session.runtime ∧
      ∀ held runtime, inner held runtime →
        Sheltered base before c stays held ⟨runtime, session.handles, session.root⟩ := by
  by_cases hRoom : session.Roomy
  · have hShelters := hSession hRoom
    obtain ⟨rest, hObjects, hGuards⟩ := hShelters.guarded
    refine ⟨_, sustaining_framed (Engine.sustaining _) rest, hGuards, fun held runtime h _ => ?_⟩
    exact { hShelters with guarded := ⟨rest, hObjects, h⟩ }
  · by_cases hHeap : session.runtime.heap.slots.size ≤ Heap.slotLimit
    · exact ⟨_, sustaining_anything, trivial, fun _ _ _ h => (hRoom ⟨hHeap, h.2⟩).elim⟩
    · refine ⟨_, Engine.sustaining Engine.noGuard, Engine.guards_noGuard_iff.mpr hHeap, ?_⟩
      exact fun _ _ hFull h => (Engine.guards_noGuard_iff.mp hFull h.1).elim

/-- The buffer of a cursor is not released, so its handles stay. -/
theorem conserves_freeBuffer_sheltered (h : Handle) (address : Nat) :
    Conserves (Sheltered base before c stays) 0 (freeBuffer h address) (fun _ => 0) 0 := by
  rintro frame ⟨runtime, handles, root⟩ hBefore hAfter
  rw [outcomeReferences_const, Multiset.zero_add]
  rw [Multiset.zero_add] at hBefore
  rw [perform_freeBuffer] at hAfter ⊢
  dsimp only at hAfter ⊢
  cases hGet : handles.get? h with
  | none =>
      rw [hGet] at hAfter
      exact hBefore hAfter
  | some id =>
      rw [hGet] at hAfter
      dsimp only at hAfter ⊢
      have hRoom : Roomy ⟨runtime, handles, root⟩ := by
        obtain ⟨hHeap, hEntries⟩ := hAfter
        split_ifs at hHeap hEntries
        · exact ⟨Engine.size_releaseBuffer id address runtime ▸ hHeap,
            size_remove handles h ▸ hEntries⟩
        · exact ⟨Engine.size_releaseBuffer id address runtime ▸ hHeap, hEntries⟩
      have hShelters := hBefore hRoom
      obtain ⟨⟨a, hArray, -⟩, hRun⟩ | ⟨-, hRun⟩ :=
        Engine.run_releaseBuffer (hShelters.isLive hRoom hGet) address
      · have hLeaves : ¬ stays h := fun hStays => by
          cases hGet.symm.trans (hShelters.get?_of_stays hStays)
          exact hShelters.ne_of_array hRoom hArray rfl
        have hRemoved := hShelters.remove hGet hLeaves
        obtain ⟨rest, hObjects, hGuards⟩ := hRemoved.guarded
        rw [hRun]
        refine { hRemoved with guarded := ⟨rest, hObjects, ?_⟩ }
        rw [Multiset.cons_add] at hGuards
        exact Engine.guards_release hGuards
      · rw [hRun]
        exact hShelters

theorem carrying_sheltered : Carrying (Sheltered base before c stays) where
  lift := lift_sheltered base before c stays
  share := fun {held session h id} hBefore hGet hRoom => by
    have hHeap : session.runtime.heap.slots.size ≤ Heap.slotLimit :=
      Heap.size_retain session.runtime.heap id ▸ hRoom.1
    have hShelters := hBefore ⟨hHeap, hRoom.2⟩
    obtain ⟨rest, hObjects, hGuards⟩ := hShelters.guarded
    refine { hShelters with guarded := ⟨rest, hObjects, fun _ => ?_⟩ }
    obtain ⟨hKnown, hHolds⟩ := hGuards hHeap
    rw [Multiset.cons_add]
    exact ⟨hKnown, hHolds.retain (hShelters.isLive ⟨hHeap, hRoom.2⟩ hGet)⟩
  adopt := fun {held session id} hBefore hInfo hRoom => by
    have hEntries := Nat.le_trans (size_le_size_insert session.handles id .object) hRoom.2
    have hShelters := hBefore ⟨hRoom.1, hEntries⟩
    refine hShelters.insert (fun hSame => ?_) hRoom.2
    obtain ⟨a, hArray⟩ := Engine.array_of_arrayInfo hInfo
    exact (hShelters.ne_of_array ⟨hRoom.1, hEntries⟩ hArray hSame).elim
  freeBuffer := conserves_freeBuffer_sheltered base before c stays

theorem conserves_register_sheltered (id : ObjectId) :
    Conserves (Sheltered base before c stays) {id} (register id (.iterator .created))
      (fun _ => 0) failed := by
  rintro frame ⟨runtime, handles, root⟩ hBefore hRoom
  have hEntries := Nat.le_trans (size_le_size_insert handles id (.iterator .created)) hRoom.2
  have hShelters := hBefore ⟨hRoom.1, hEntries⟩
  rw [Multiset.singleton_add] at hShelters
  change Shelters base before c stays (0 + frame) _
  rw [Multiset.zero_add]
  exact hShelters.insert (fun _ => rfl) hRoom.2

theorem conserves_remove_sheltered (hLeaves : ¬ stays h) :
    Conserves (Sheltered base before c stays) 0 (onHandles fun handles => handles.remove h)
      (fun id? => (↑id?.toList : Multiset ObjectId)) failed := by
  rintro frame ⟨runtime, handles, root⟩ hBefore hRoom
  have hShelters := hBefore ⟨hRoom.1, size_remove handles h ▸ hRoom.2⟩
  change Shelters base before c stays (↑(handles.remove h).1.toList + frame)
    ⟨runtime, (handles.remove h).2, root⟩
  rw [Multiset.zero_add] at hShelters
  cases hGet : handles.get? h with
  | none =>
      rw [remove_of_get?_eq_none hGet]
      simpa using hShelters
  | some id =>
      rw [(coe_objects_remove hGet).1]
      simpa using hShelters.remove hGet hLeaves

end Carry

/-- No request but one for a next item touches the cursor, as long as handles of it are
neither disposed of nor released. -/
theorem special_sheltered {request : Request} (hNext : ∀ h, request ≠ .next h)
    (hLeaves : ∀ h, request = .dispose h ∨ request = .release h → ¬ stays h) :
    Interpreter.Special (Sheltered base before c stays) request := by
  have hCarrying := carrying_sheltered base before c stays
  cases request with
  | iterate h =>
      refine Conserves.bind (conserves_lookup h) fun id => ?_
      apply (conserves_runtimeOp hCarrying (fun _ h => h.iterate id) "iter").bind
      intro iterator
      exact conserves_register_sheltered base before c stays iterator
  | next h => exact (hNext h rfl).elim
  | dispose h =>
      exact conserves_dispose hCarrying
        (conserves_remove_sheltered base before c stays (hLeaves h (.inl rfl)))
  | release h =>
      exact conserves_releaseHandle hCarrying
        (conserves_remove_sheltered base before c stays (hLeaves h (.inr rfl)))
  | _ => trivial

end Session

end ArrayBridge
