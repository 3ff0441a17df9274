import ArrayBridge.Proofs.RowDelivery

/-! The protocol of iteration.

A host asks for an iterator over an array and then for anything else, in any order. As
long as it keeps a handle of the iterator, the requests for a next item are answered with
the rows of the array, each once and in order, and with nothing after the last one. -/

namespace ArrayBridge

open Operation HandleTable

namespace Session

variable {base : Heap} {session : Session Engine} {c source : ObjectId} {a : NdArray}
  {n k : Nat} {h : Handle}

/-- A new iterator over an array stands before the first row. -/
theorem walks_iterate (hOrder : InOrder (Engine.InOrder base) 0 session)
    (hGet : session.handles.get? h = some source)
    (hArray : session.runtime.heap.get? source = some (.array a)) {rest : Shape}
    (hShape : a.shape = n :: rest) :
    ∃ i c after, (iterate h).perform session = (.ok i, after) ∧
      (after.Roomy → after.handles.entry? i = some (c, .iterator .created) ∧
        Walks c source a n 0 after) := by
  let heap := session.runtime.heap.retain source
  let result := heap.allocate (.iterator ⟨source, 0, n⟩)
  have hRun : (iterate h).perform session = (.ok (session.handles.insert result.1
      (.iterator .created)).1, ⟨{ session.runtime with heap := result.2 },
        (session.handles.insert result.1 (.iterator .created)).2, session.root⟩) := by
    have hIterate : (ForeignRuntime.iterate source : RuntimeOp Engine _).perform session.runtime
        = (.ok result.1, { session.runtime with heap := result.2 }) :=
      Engine.perform_iterate_array hArray hShape
    rw [iterate, perform_bind, perform_lookup, hGet]
    dsimp only
    rw [perform_bind, perform_runtimeOp, hIterate]
    rfl
  refine ⟨_, result.1, _, hRun, fun hRoom => ?_⟩
  obtain ⟨hTable, hRuntime⟩ := hOrder
  have hBefore : session.runtime.heap.slots.size ≤ Heap.slotLimit := by
    have hGrows := Heap.size_le_size_allocate heap (.iterator ⟨source, 0, n⟩)
    rw [Heap.size_retain] at hGrows
    exact Nat.le_trans hGrows hRoom.1
  obtain ⟨-, hBalanced⟩ := hRuntime hBefore
  obtain ⟨_, hStored⟩ := Heap.get?_eq_some_iff.mp hArray
  have hLive : session.runtime.heap.isLive source = true := Heap.isLive_iff.mpr ⟨_, hStored⟩
  have hRetained := hBalanced.retain hLive
  obtain ⟨hNew, hMap⟩ := Heap.occupant?_allocate (.iterator ⟨source, 0, n⟩) hRetained.vacant hRoom.1
  have hEntry := entry?_insert hTable result.1 (.iterator .created) hRoom.2
  have hSource : heap.isLive source = true :=
    hRetained.held_live source (Multiset.mem_cons_self _ _)
  refine ⟨?_, ?_, ?_, Nat.zero_le n, ?_⟩
  · rw [hEntry, if_pos rfl]
  · rw [Heap.get?, hMap, if_pos rfl]
    rfl
  · rw [hRetained.get?_allocate _ hSource, Heap.get?_retain, hArray]
  · intro other kind hOther
    rw [hEntry] at hOther
    split_ifs at hOther
    · cases hOther
      refine ⟨.created, rfl, fun hDone => ?_⟩
      cases hDone
    · -- What the other handles name was there before the cursor.
      have hMem := mem_objects_of_get? (get?_eq_some_iff.mpr ⟨kind, hOther⟩)
      have hOld := hRetained.held_live result.1
        (Multiset.mem_cons_of_mem (Multiset.mem_add.mpr (.inr hMem)))
      rw [hNew] at hOld
      cases hOld

/-- An iterator over an iterator is that iterator itself, behind another handle. -/
theorem perform_iterate_cursor {cursor : Cursor} (hTable : session.handles.Consistent)
    (hGet : session.handles.get? h = some c)
    (hCursor : session.runtime.heap.get? c = some (.iterator cursor)) :
    ∃ i after, (iterate h).perform session = (.ok i, after) ∧
      (after.Roomy → after.handles.entry? i = some (c, .iterator .created)) := by
  have hFound : session.runtime.object c = .ok (.iterator cursor) := by rw [Engine.object, hCursor]
  have hIterate : (ForeignRuntime.iterate c : RuntimeOp Engine _).perform session.runtime
      = (.ok c, { session.runtime with heap := session.runtime.heap.retain c }) := by
    change (Engine.iterate c).perform session.runtime = _
    rw [Engine.iterate, perform_get, perform_check, hFound]
    rfl
  have hRun : (iterate h).perform session = (.ok (session.handles.insert c (.iterator .created)).1,
      ⟨{ session.runtime with heap := session.runtime.heap.retain c },
        (session.handles.insert c (.iterator .created)).2, session.root⟩) := by
    rw [iterate, perform_bind, perform_lookup, hGet]
    dsimp only
    rw [perform_bind, perform_runtimeOp, hIterate]
    rfl
  refine ⟨_, _, hRun, fun hRoom => ?_⟩
  rw [entry?_insert hTable c (.iterator .created) hRoom.2, if_pos rfl]

end Session

/-- A progress never turns back. -/
def IterationState.rank : IterationState → Nat
  | created => 0
  | yielding => 1
  | exhausted => 2

/-- A request that does not take a handle away. -/
def Request.Spares (request : Request) (h : Handle) : Prop :=
  request ≠ .dispose h ∧ request ≠ .release h

namespace Interpreter

variable {σ α : Type} [ForeignRuntime σ]

/-- Whatever a host asks for, it keeps one of the handles of an object at every step. -/
def KeepsHandle (c : ObjectId) : Interpreter σ → List Request → Prop
  | _, [] => True
  | interpreter, request :: requests =>
    (∃ h, (interpreter.session.bind fun session => session.handles.get? h) = some c ∧
        request.Spares h) ∧
      KeepsHandle c ((answer request).perform interpreter).2 requests

/-- Whether an outcome is an item. -/
def isItem : Except BridgeError (Option Item) → Bool
  | .ok (some _) => true
  | _ => false

/-- Whether a request asks an object for its next item and gets one. -/
def yields (c : ObjectId) (interpreter : Interpreter σ) : Request → Bool
  | .next h =>
    match interpreter.session with
    | some session =>
      session.handles.get? h = some c && isItem ((Session.next h).perform session).1
    | none => false
  | _ => false

/-- How many items of an object a list of requests gets. -/
def delivered (c : ObjectId) : Interpreter σ → List Request → Nat
  | _, [] => 0
  | interpreter, request :: requests =>
    (yields c interpreter request).toNat
      + delivered c ((answer request).perform interpreter).2 requests

omit [ForeignRuntime σ] in
theorem perform_run (op : BridgeOp σ α) (session : Session σ) (root : String) :
    (run op).perform ⟨some session, root⟩
      = ((op.perform session).1, ⟨some (op.perform session).2, root⟩) := rfl

section Rooms

variable {base : Heap} {session after final : Session Engine} {root later : String}
  {request : Request} {interpreter : Interpreter Engine}

/-- No request makes room. -/
theorem roomy_of_answer (hTable : session.handles.Consistent)
    (hRun : ((answer request).perform ⟨some session, root⟩).2 = ⟨some after, later⟩)
    (hRoom : after.Roomy) : session.Roomy := by
  constructor
  · by_contra hFull
    have hRuns : InOrder (Engine.Guards Engine.noGuard) 0 ⟨some session, root⟩ :=
      ⟨session, rfl, hTable, Engine.guards_noGuard_iff.mpr hFull⟩
    obtain ⟨next, hNext, hOrder⟩ := running_answer
      (Session.carrying_inOrder Engine.conserving_noGuard.toSustaining)
      (special_inOrder Engine.conserving_noGuard request) hRuns
    rw [hRun] at hNext
    cases hNext
    exact Engine.guards_noGuard_iff.mp hOrder.2 hRoom.1
  · obtain ⟨events, next, root, hNext, hChanges⟩ := exists_changes_of_answer session root request
    rw [hRun] at hNext
    cases hNext
    exact Nat.le_trans hChanges.size_le hRoom.2

/-- No list of requests makes room. -/
theorem roomy_of_serve (hOrder : InOrder (Engine.InOrder base) 0 interpreter)
    (requests : List Request) (hSession : interpreter.session = some session)
    (hFinal : (interpreter.serve requests).session = some final) (hRoom : final.Roomy) :
    session.Roomy := by
  induction requests generalizing interpreter session with
  | nil =>
      cases hSession.symm.trans hFinal
      exact hRoom
  | cons request requests ih =>
      have hNext := running_answer (Session.carrying_inOrder Engine.conserving.toSustaining)
        (special_inOrder Engine.conserving request) hOrder
      have ⟨after, hAfter, _⟩ := hNext
      have hLater := ih hNext hAfter hFinal
      obtain ⟨_, root⟩ := interpreter
      obtain rfl := hSession
      obtain ⟨_, hFound, hTable, -⟩ := hOrder
      cases hFound
      generalize hRun : ((answer request).perform ⟨some session, root⟩).2 = next at hAfter
      obtain ⟨_, later⟩ := next
      obtain rfl := hAfter
      exact roomy_of_answer hTable hRun hLater

end Rooms

section Walk

open Session

variable {base : Heap} {session after final : Session Engine} {root later : String}
  {request : Request} {c source : ObjectId} {a : NdArray} {n k : Nat} {rest : Shape}

/-- A handle of the cursor that a request spares goes on to name it, and its progress only
moves forward. -/
def Progresses (c : ObjectId) (request : Request) (session after : Session Engine) : Prop :=
  ∀ h state, session.handles.entry? h = some (c, .iterator state) → request.Spares h →
    ∃ next, after.handles.entry? h = some (c, .iterator next) ∧ state.rank ≤ next.rank

/-- A request for a next item moves the cursor if, and only if, it goes to the cursor and
there is a row left. -/
theorem walks_answer_next {h : Handle} (hWalks : Walks c source a n k session)
    (hOrder : Session.InOrder (Engine.InOrder base) 0 session) (hBefore : session.Roomy)
    (hShape : a.shape = n :: rest) (hWords : ∀ d ∈ a.shape, d < 0x8000000000000000)
    (hGet : session.handles.get? h = some c) (hRoom : ((Session.next h).perform session).2.Roomy) :
    Walks c source a n (k + (yields c ⟨some session, root⟩ (.next h)).toNat)
        ((Session.next h).perform session).2 ∧
      Progresses c (.next h) session ((Session.next h).perform session).2 := by
  obtain ⟨kind, hEntry⟩ := get?_eq_some_iff.mp hGet
  obtain ⟨state, rfl, hDone⟩ := hWalks.iterators h kind hEntry
  obtain hLess | rfl := Nat.lt_or_eq_of_le hWalks.le
  · obtain ⟨item, after, hRun, hDelivers, hAfter⟩ :=
      hWalks.perform_next_row hOrder hBefore hShape hWords hEntry hLess hRoom
    have hYields : yields c ⟨some session, root⟩ (.next h) = true := by
      simp [yields, hGet, hRun, isItem]
    rw [hYields, hRun]
    refine ⟨hAfter, fun other old hOther _ => ?_⟩
    by_cases hSame : other = h
    · subst hSame
      cases hEntry.symm.trans hOther
      refine ⟨.yielding, hDelivers.state, ?_⟩
      cases state with
      | exhausted => exact absurd (hDone rfl) (Nat.ne_of_lt hLess)
      | _ => decide
    · exact ⟨old, hDelivers.others other _ hSame hOther, Nat.le_refl _⟩
  · obtain ⟨handles, hRun, hHere, hOthers, hAfter⟩ := hWalks.perform_next_end hEntry
    have hYields : yields c ⟨some session, root⟩ (.next h) = false := by
      simp [yields, hGet, hRun, isItem]
    rw [hYields, hRun]
    refine ⟨hAfter, fun other old hOther _ => ?_⟩
    by_cases hSame : other = h
    · subst hSame
      exact ⟨.exhausted, hHere, by cases old <;> decide⟩
    · exact ⟨old, hOthers other _ hSame hOther, Nat.le_refl _⟩

/-- Every request leaves a cursor between two rows, if a handle of the cursor is kept. -/
theorem walks_answer (hWalks : Walks c source a n k session)
    (hOrder : Session.InOrder (Engine.InOrder base) 0 session)
    (hShape : a.shape = n :: rest) (hWords : ∀ d ∈ a.shape, d < 0x8000000000000000)
    (hKept : ∃ h, session.handles.get? h = some c ∧ request.Spares h)
    (hRun : ((answer request).perform ⟨some session, root⟩).2 = ⟨some after, later⟩)
    (hRoom : after.Roomy) :
    Walks c source a n (k + (yields c ⟨some session, root⟩ request).toNat) after ∧
      Progresses c request session after := by
  have hBefore := roomy_of_answer hOrder.1 hRun hRoom
  let stays (h : Handle) : Prop := session.handles.get? h = some c ∧ request.Spares h
  have hShelters : Shelters base session c stays 0 session :=
    shelters_of_inOrder hOrder hBefore hWalks.cursor (fun _ hStays => hStays.1) hKept
  -- A request that does not move the cursor leaves all of its handles as they are.
  have hAround (hAfter : Shelters base session c stays 0 after)
      (hYields : yields c ⟨some session, root⟩ request = false) :
      Walks c source a n (k + (yields c ⟨some session, root⟩ request).toNat) after ∧
        Progresses c request session after := by
    rw [hYields]
    refine ⟨hWalks.after hAfter hRoom, fun h state hEntry hSpares => ⟨state, ?_, Nat.le_refl _⟩⟩
    rw [hAfter.kept h ⟨get?_eq_some_iff.mpr ⟨_, hEntry⟩, hSpares⟩, hEntry]
  by_cases hNext : ∃ h, request = .next h
  · obtain ⟨h, rfl⟩ := hNext
    rw [answer, state_forget, perform_run] at hRun
    cases hRun
    by_cases hGet : session.handles.get? h = some c
    · exact walks_answer_next hWalks hOrder hBefore hShape hWords hGet hRoom
    · exact hAround (sheltered_next_other hWalks hShelters hGet hRoom) (by simp [yields, hGet])
  · push Not at hNext
    have hSpecial : Special (Sheltered base session c stays) request :=
      special_sheltered hNext fun h hLeaves hStays => by
        rcases hLeaves with rfl | rfl
        · exact hStays.2.1 rfl
        · exact hStays.2.2 rfl
    have hRuns : Running (Sheltered base session c stays) 0 ⟨some session, root⟩ :=
      ⟨session, rfl, fun _ => hShelters⟩
    obtain ⟨next, hFound, hAfter⟩ :=
      running_answer (carrying_sheltered base session c stays) hSpecial hRuns
    rw [hRun] at hFound
    cases hFound
    refine hAround (hAfter hRoom) ?_
    cases request with
    | next h => exact absurd rfl (hNext h)
    | _ => rfl

/-- A whole list of requests moves the cursor by as many rows as it delivers. -/
theorem walks_serve (hWalks : Walks c source a n k session)
    (hOrder : Session.InOrder (Engine.InOrder base) 0 session)
    (hShape : a.shape = n :: rest) (hWords : ∀ d ∈ a.shape, d < 0x8000000000000000)
    (requests : List Request) (hKeeps : KeepsHandle c ⟨some session, root⟩ requests)
    (hFinal : (serve ⟨some session, root⟩ requests).session = some final) (hRoom : final.Roomy) :
    Walks c source a n (k + delivered c ⟨some session, root⟩ requests) final ∧
      Session.InOrder (Engine.InOrder base) 0 final := by
  induction requests generalizing session root k with
  | nil =>
      cases hFinal
      exact ⟨hWalks, hOrder⟩
  | cons request requests ih =>
      obtain ⟨⟨h, hGet, hSpares⟩, hLater⟩ := hKeeps
      have hRuns : InOrder (Engine.InOrder base) 0 ⟨some session, root⟩ := ⟨session, rfl, hOrder⟩
      have hNext := running_answer (Session.carrying_inOrder Engine.conserving.toSustaining)
        (special_inOrder Engine.conserving request) hRuns
      have ⟨after, hAfter, hAfterOrder⟩ := hNext
      change (serve ((answer request).perform ⟨some session, root⟩).2 requests).session
        = some final at hFinal
      have hAfterRoom := roomy_of_serve hNext requests hAfter hFinal hRoom
      rw [delivered, ← Nat.add_assoc]
      generalize hRun : ((answer request).perform ⟨some session, root⟩).2 = next at *
      obtain ⟨_, later⟩ := next
      obtain rfl := hAfter
      obtain ⟨hMoved, -⟩ :=
        walks_answer hWalks hOrder hShape hWords ⟨h, hGet, hSpares⟩ hRun hAfterRoom
      exact ih hMoved hAfterOrder hLater hFinal

/-- What the handles of a cursor over an array promise after a number of rows. -/
structure Iterates (c : ObjectId) (a : NdArray) (n k : Nat) (session : Session Engine) : Prop where
  /-- There are never more items than rows. -/
  le : k ≤ n
  /-- Each handle is an iterator. One that is exhausted saw the end. -/
  iterators : ∀ h kind, session.handles.entry? h = some (c, kind) →
    ∃ state, kind = .iterator state ∧ (state = .exhausted → k = n)
  /-- While there are rows left, the next item of each handle is the next row. -/
  row : k < n → ∀ h, session.handles.get? h = some c →
    ((Session.next h).perform session).2.Roomy →
      ∃ item after, (Session.next h).perform session = (.ok (some item), after) ∧
        Delivers c a k h session item after
  /-- After the last row there is nothing, for every handle, and nothing changes but the
  progress of the handle. -/
  finished : k = n → ∀ h, session.handles.get? h = some c → ∃ handles,
    (Session.next h).perform session = (.ok none, ⟨session.runtime, handles, session.root⟩) ∧
      handles.entry? h = some (c, .iterator .exhausted)
  /-- An iterator over one of the handles is another handle of the cursor. -/
  again : ∀ h, session.handles.get? h = some c → ∃ i after,
    (Session.iterate h).perform session = (.ok i, after) ∧
      (after.Roomy → after.handles.entry? i = some (c, .iterator .created))
  /-- Whatever the host asks for next, the progress of a handle only moves forward. -/
  forward : ∀ root request after later,
    ((answer request).perform ⟨some session, root⟩).2 = ⟨some after, later⟩ → after.Roomy →
      Progresses c request session after

theorem iterates_of_walks (hWalks : Walks c source a n k session)
    (hOrder : Session.InOrder (Engine.InOrder base) 0 session) (hRoom : session.Roomy)
    (hShape : a.shape = n :: rest) (hWords : ∀ d ∈ a.shape, d < 0x8000000000000000) :
    Iterates c a n k session := by
  have hIterator (h : Handle) (hGet : session.handles.get? h = some c) :
      ∃ state, session.handles.entry? h = some (c, .iterator state) := by
    obtain ⟨kind, hEntry⟩ := get?_eq_some_iff.mp hGet
    obtain ⟨state, rfl, -⟩ := hWalks.iterators h kind hEntry
    exact ⟨state, hEntry⟩
  constructor
  case le => exact hWalks.le
  case iterators => exact hWalks.iterators
  case row =>
    intro hLess h hGet hAfter
    obtain ⟨state, hEntry⟩ := hIterator h hGet
    obtain ⟨item, after, hRun, hDelivers, -⟩ :=
      hWalks.perform_next_row hOrder hRoom hShape hWords hEntry hLess hAfter
    exact ⟨item, after, hRun, hDelivers⟩
  case finished =>
    rintro rfl h hGet
    obtain ⟨state, hEntry⟩ := hIterator h hGet
    obtain ⟨handles, hRun, hHere, -, -⟩ := hWalks.perform_next_end hEntry
    exact ⟨handles, hRun, hHere⟩
  case again => exact fun h hGet => perform_iterate_cursor hOrder.1 hGet hWalks.cursor
  case forward =>
    intro root request after later hRun hAfter h state hEntry hSpares
    have hKept : ∃ h, session.handles.get? h = some c ∧ request.Spares h :=
      ⟨h, get?_eq_some_iff.mpr ⟨_, hEntry⟩, hSpares⟩
    exact (walks_answer hWalks hOrder hShape hWords hKept hRun hAfter).2 h state hEntry hSpares

end Walk

section Start

variable {isDirectory : String → Bool} {entropy : Generator} {settings : EngineSettings}
  {engine : Engine} {session : Session Engine} {h : Handle} {source : ObjectId} {a : NdArray}
  {n : Nat} {rest : Shape}

/-- An iterator over an array delivers the rows of the array, each once and in order,
whatever else the host asks for, as long as it keeps a handle of the iterator. Each row is
read from the storage as it is when the host asks for it. The lengths of the axes are such
as a signed word can count, and slots are left for the objects and the handles. -/
theorem iterate_delivers_rows (hStart : Engine.start isDirectory entropy settings = .ok engine)
    (root : String) (earlier : List Request)
    (hSession : ((ofRuntime engine root).serve earlier).session = some session)
    (hGet : session.handles.get? h = some source)
    (hArray : session.runtime.heap.get? source = some (.array a)) (hShape : a.shape = n :: rest)
    (hWords : ∀ d ∈ a.shape, d < 0x8000000000000000) :
    ∃ i c begun, (run (Session.iterate h)).perform ((ofRuntime engine root).serve earlier)
        = (.ok i, begun) ∧
      (∀ after, begun.session = some after → after.Roomy →
        after.handles.entry? i = some (c, .iterator .created)) ∧
      ∀ requests final, KeepsHandle c begun requests →
        (begun.serve requests).session = some final → final.Roomy →
          Iterates c a n (delivered c begun requests) final := by
  have hFirst : InOrder (Engine.InOrder engine.heap) 0 (ofRuntime engine root) :=
    ⟨_, rfl, consistent_empty, Engine.inOrder_of_start hStart⟩
  have hServed := inOrder_serve Engine.conserving hFirst earlier
  generalize (ofRuntime engine root).serve earlier = interpreter at hSession hServed ⊢
  obtain ⟨_, name⟩ := interpreter
  obtain rfl := hSession
  obtain ⟨_, hFound, hOrder⟩ := id hServed
  cases hFound
  obtain ⟨i, c, after, hRun, hBegins⟩ := Session.walks_iterate hOrder hGet hArray hShape
  have hAfter : InOrder (Engine.InOrder engine.heap) 0 ⟨some after, name⟩ := by
    have hNext := running_answer (Session.carrying_inOrder Engine.conserving.toSustaining)
      (special_inOrder Engine.conserving (.iterate h)) hServed
    rwa [answer, state_forget, perform_run, hRun] at hNext
  refine ⟨i, c, ⟨some after, name⟩, ?_, ?_, ?_⟩
  · rw [perform_run, hRun]
  · rintro _ ⟨⟩ hRoom
    exact (hBegins hRoom).1
  · intro requests final hKeeps hFinal hRoom
    have hBegun := (hBegins (roomy_of_serve hAfter requests rfl hFinal hRoom)).2
    obtain ⟨_, hHere, hAfterOrder⟩ := id hAfter
    cases hHere
    obtain ⟨hWalks, hFinalOrder⟩ :=
      walks_serve hBegun hAfterOrder hShape hWords requests hKeeps hFinal hRoom
    rw [Nat.zero_add] at hWalks
    exact iterates_of_walks hWalks hFinalOrder hRoom hShape hWords

/-- An array is freed while an iterator walks through it, and its first row still comes. -/
theorem iterate_delivers_rows_of_freed :
    ∃ engine session a begun final, Engine.start (fun _ => true) ⟨0⟩ ⟨none, none, "numeric", some 7⟩
        = .ok engine ∧
      ((ofRuntime engine "numeric").serve
        [.callArray (.positional "zeros" [.provided (.ints [2])])]).session = some session ∧
      session.runtime.heap.get? ⟨35, 0⟩ = some (.array a) ∧
      (run (Session.iterate ⟨0x100000000⟩)).perform ((ofRuntime engine "numeric").serve
        [.callArray (.positional "zeros" [.provided (.ints [2])])]) = (.ok ⟨0x100000001⟩, begun) ∧
      (begun.serve [.free ⟨0x100000000⟩ 0x100000000, .next ⟨0x100000001⟩]).session = some final ∧
      final.handles.get? ⟨0x100000000⟩ = none ∧ Iterates ⟨33, 1⟩ a 2 1 final := by
  have hStart : Engine.start (fun _ => true) ⟨0⟩ ⟨none, none, "numeric", some 7⟩ = .ok
      ((Engine.createModules "numeric").run (Engine.bare ⟨none, none, "numeric", some 7⟩ ⟨0⟩)).2 := rfl
  have hMade : ((ofRuntime ((Engine.createModules "numeric").run
      (Engine.bare ⟨none, none, "numeric", some 7⟩ ⟨0⟩)).2 "numeric").serve
        [.callArray (.positional "zeros" [.provided (.ints [2])])]).session.map
        (fun session => (session.handles.get? ⟨0x100000000⟩, session.runtime.heap.get? ⟨35, 0⟩))
      = some (some ⟨35, 0⟩, some (.array ⟨⟨0⟩, .float64, [2], [1], 0⟩)) := by cbv
  obtain ⟨session, hSession, hFacts⟩ := Option.map_eq_some_iff.mp hMade
  obtain ⟨hGet, hArray⟩ := Prod.mk.inj hFacts
  obtain ⟨i, c, begun, hRun, hNamed, hLaw⟩ := iterate_delivers_rows hStart "numeric" _ hSession hGet
    hArray rfl (by decide)
  obtain ⟨hHandle, hNext⟩ := Prod.ext_iff.mp hRun
  dsimp only at hHandle hNext
  have hBegun : (Except.ok i, begun.session.map fun after => (after.runtime.heap.slots.size,
        after.handles.entries.size, after.handles.entry? ⟨0x100000001⟩))
      = ((.ok ⟨0x100000001⟩, some (36, 2, some (⟨33, 1⟩, .iterator .created))) :
        Except BridgeError Handle × _) := by
    rw [← hHandle, ← hNext]
    cbv
  have hServed : (delivered ⟨33, 1⟩ begun
        [.free ⟨0x100000000⟩ 0x100000000, .next ⟨0x100000001⟩],
      (((answer (.free ⟨0x100000000⟩ 0x100000000)).perform begun).2.session.bind fun after =>
        after.handles.get? ⟨0x100000001⟩),
      ((begun.serve [.free ⟨0x100000000⟩ 0x100000000, .next ⟨0x100000001⟩]).session.map fun final =>
        (final.runtime.heap.slots.size, final.handles.entries.size,
          final.handles.get? ⟨0x100000000⟩)))
      = (1, some ⟨33, 1⟩, some (36, 2, none)) := by
    rw [← hNext]
    cbv
  obtain ⟨hName, hState⟩ := Prod.mk.inj hBegun
  obtain ⟨hCount, hSecond, hEnd⟩ := (Prod.mk.inj hServed).imp_right Prod.mk.inj
  obtain ⟨after, hAfter, hEntries⟩ := Option.map_eq_some_iff.mp hState
  obtain ⟨final, hFinal, hSizes⟩ := Option.map_eq_some_iff.mp hEnd
  simp only [Prod.mk.injEq] at hEntries hSizes
  cases hName
  have hRoom : after.Roomy := by
    rw [Session.Roomy, hEntries.1, hEntries.2.1]
    decide
  have hCursor := hNamed after hAfter hRoom
  rw [hEntries.2.2] at hCursor
  cases hCursor
  have hKeeps : KeepsHandle ⟨33, 1⟩ begun
      [.free ⟨0x100000000⟩ 0x100000000, .next ⟨0x100000001⟩] := by
    refine ⟨⟨⟨0x100000001⟩, ?_, by decide, by decide⟩,
      ⟨⟨0x100000001⟩, hSecond, by decide, by decide⟩, trivial⟩
    rw [hAfter, Option.bind_some, get?, hEntries.2.2, Option.map_some]
  have hLast := hLaw _ final hKeeps hFinal (by
    rw [Session.Roomy, hSizes.1, hSizes.2.1]
    decide)
  rw [hCount] at hLast
  exact ⟨_, session, _, begun, final, hStart, hSession, hArray, hRun, hFinal, hSizes.2.2, hLast⟩

end Start

end Interpreter

end ArrayBridge
