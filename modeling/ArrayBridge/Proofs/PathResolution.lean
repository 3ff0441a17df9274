import ArrayBridge.Proofs.ReferenceCounts

/-! Paths lead to objects of the start.

Modules and their members were there when the engine was started, and they stay as they are.
So following a path only adds references to such objects and releases others: nothing is
made, and nothing is written. -/

namespace ArrayBridge.Session

open Operation Engine

/-- A session is as it was before, except that objects have other references or are gone. -/
structure Sheds (before after : Session Engine) : Prop where
  handles_eq : after.handles = before.handles
  root_eq : after.root = before.root
  buffers_eq : after.runtime.buffers = before.runtime.buffers
  generator_eq : after.runtime.generator = before.runtime.generator
  entropy_eq : after.runtime.entropy = before.runtime.entropy
  names_eq : after.runtime.names = before.runtime.names
  size_eq : after.runtime.heap.slots.size = before.runtime.heap.slots.size
  object_of : ∀ {id object}, after.runtime.heap.get? id = some object →
    before.runtime.heap.get? id = some object

variable {base : Heap} {before middle after session : Session Engine} {held : Multiset ObjectId}
  {id : ObjectId} {object : Object}

theorem Sheds.refl (session : Session Engine) : session.Sheds session :=
  ⟨rfl, rfl, rfl, rfl, rfl, rfl, rfl, fun h => h⟩

theorem Sheds.trans (hFirst : before.Sheds middle) (hSecond : middle.Sheds after) :
    before.Sheds after where
  handles_eq := hSecond.handles_eq.trans hFirst.handles_eq
  root_eq := hSecond.root_eq.trans hFirst.root_eq
  buffers_eq := hSecond.buffers_eq.trans hFirst.buffers_eq
  generator_eq := hSecond.generator_eq.trans hFirst.generator_eq
  entropy_eq := hSecond.entropy_eq.trans hFirst.entropy_eq
  names_eq := hSecond.names_eq.trans hFirst.names_eq
  size_eq := hSecond.size_eq.trans hFirst.size_eq
  object_of h := hFirst.object_of (hSecond.object_of h)

theorem sheds_retain (session : Session Engine) (id : ObjectId) :
    session.Sheds ⟨{ session.runtime with heap := session.runtime.heap.retain id },
      session.handles, session.root⟩ :=
  ⟨rfl, rfl, rfl, rfl, rfl, rfl, Heap.size_retain _ id, fun h => Heap.get?_retain _ id _ ▸ h⟩

theorem sheds_release (session : Session Engine) (id : ObjectId) :
    session.Sheds ⟨{ session.runtime with heap := session.runtime.heap.release id },
      session.handles, session.root⟩ :=
  ⟨rfl, rfl, rfl, rfl, rfl, rfl, Heap.size_releaseAll _ _, Heap.get?_releaseAll⟩

/-- What is still there is what it was. -/
theorem Sheds.get?_eq (h : before.Sheds after) (hLive : after.runtime.heap.isLive id = true) :
    after.runtime.heap.get? id = before.runtime.heap.get? id := by
  obtain ⟨occupant, hOccupant⟩ := Heap.isLive_iff.mp hLive
  have hAfter := Heap.get?_eq_some_iff.mpr ⟨occupant.references, hOccupant⟩
  exact hAfter.trans (h.object_of hAfter).symm

section Paths

/-- On the way along a path all held references are to objects of the start, and there is no
other change since the way began. -/
def AlongPath (base : Heap) (before : Session Engine) : Ledger (Session Engine) :=
  fun held session => InOrder (Engine.InOrder base) held session ∧
    (∀ id ∈ held, base.isLive id = true) ∧ before.Sheds session

/-- An object of the start is what it was then. -/
theorem exists_object_of_base {held : Multiset ObjectId} {heap : Heap}
    (h : base.Balanced held heap) (hLive : base.isLive id = true) :
    ∃ object, heap.get? id = some object ∧ object.isFixed = true ∧
      ∀ c ∈ object.children, base.isLive c = true := by
  obtain ⟨occupant, hOccupant⟩ := Heap.isLive_iff.mp hLive
  exact ⟨occupant.object, Heap.get?_eq_some_iff.mpr (h.kept id occupant hOccupant),
    h.settled.fixed id occupant hOccupant, h.settled.children_live id occupant hOccupant⟩

/-- A module is an object of the start. -/
theorem sheds_importModule (hOrder : InOrder (Engine.InOrder base) held session)
    (hRoom : session.runtime.heap.slots.size ≤ Heap.slotLimit) (name : String) :
    ∃ outcome after, (tryRuntime (ForeignRuntime.importModule name)).perform session
        = (.ok outcome, after) ∧ session.Sheds after ∧ ∀ id ∈ found outcome, base.isLive id = true := by
  obtain ⟨runtime, handles, root⟩ := session
  have hRun : (ForeignRuntime.importModule name : RuntimeOp Engine _).perform runtime
      = (importModule name).perform runtime := rfl
  rw [importModule, perform_get] at hRun
  rw [perform_tryRuntime]
  cases hFound : runtime.names.modules.lookup name with
  | none =>
      rw [hFound] at hRun
      rw [hRun]
      exact ⟨_, _, rfl, .refl _, fun id hMem => absurd hMem (Multiset.notMem_zero id)⟩
  | some id =>
      rw [hFound] at hRun
      rw [hRun]
      refine ⟨_, _, rfl, sheds_retain ⟨runtime, handles, root⟩ id, fun other hMem => ?_⟩
      obtain rfl := Multiset.mem_singleton.mp hMem
      obtain ⟨earlier, later, hSplit, -⟩ := List.lookup_eq_some_iff.mp hFound
      exact (hOrder.2 hRoom).1.live _ (by simp [Namespace.objects, hSplit])

/-- A member of an object of the start is one as well. -/
theorem sheds_getAttribute (hOrder : InOrder (Engine.InOrder base) held session)
    (hRoom : session.runtime.heap.slots.size ≤ Heap.slotLimit) (hBase : base.isLive id = true)
    (name : String) :
    ∃ outcome after, (tryRuntime (ForeignRuntime.getAttribute id name)).perform session
        = (.ok outcome, after) ∧ session.Sheds after ∧ ∀ id ∈ found outcome, base.isLive id = true := by
  obtain ⟨object, hObject, hFixed, hChildren⟩ := exists_object_of_base (hOrder.2 hRoom).2 hBase
  obtain ⟨runtime, handles, root⟩ := session
  have hRefuses (e : Exception) (hRun : (ForeignRuntime.getAttribute id name :
      RuntimeOp Engine _).perform runtime = (.error e, runtime)) :
      ∃ outcome after, (tryRuntime (ForeignRuntime.getAttribute id name)).perform
          ⟨runtime, handles, root⟩ = (.ok outcome, after) ∧
        Sheds ⟨runtime, handles, root⟩ after ∧ ∀ id ∈ found outcome, base.isLive id = true := by
    rw [perform_tryRuntime, hRun]
    exact ⟨_, _, rfl, .refl _, fun id hMem => absurd hMem (Multiset.notMem_zero id)⟩
  have hRun : (ForeignRuntime.getAttribute id name : RuntimeOp Engine _).perform runtime
      = (getAttribute id name).perform runtime := rfl
  have hHere : runtime.object id = .ok object := by rw [Engine.object, hObject]
  rw [getAttribute, perform_get, perform_check, hHere] at hRun
  cases object with
  | module m =>
      dsimp only at hRun
      cases hMember : m.attributes.lookup name with
      | none =>
          rw [hMember] at hRun
          exact hRefuses _ hRun
      | some member =>
          rw [hMember] at hRun
          rw [perform_tryRuntime, hRun]
          refine ⟨_, _, rfl, sheds_retain ⟨runtime, handles, root⟩ member, fun other hMem => ?_⟩
          obtain rfl := Multiset.mem_singleton.mp hMem
          obtain ⟨earlier, later, hSplit, -⟩ := List.lookup_eq_some_iff.mp hMember
          exact hChildren other (by simp [Object.children, hSplit])
  | array a => cases hFixed
  | _ => exact hRefuses _ hRun

/-- Paths keep to the objects of the start. -/
theorem following_alongPath (hRoom : before.runtime.heap.slots.size ≤ Heap.slotLimit) :
    Following (AlongPath base before) := by
  have hFollowing : Following (InOrder (Engine.InOrder base)) :=
    (carrying_inOrder conserving.toSustaining).following
  constructor
  · rintro name failed frame session ⟨hOrder, hLive, hSheds⟩
    rw [Multiset.zero_add] at hLive
    have hAfter := hFollowing.importModule name failed frame session hOrder
    obtain ⟨outcome, after, hRun, hStep, hFound⟩ :=
      sheds_importModule hOrder (hSheds.size_eq ▸ hRoom) name
    rw [hRun] at hAfter ⊢
    refine ⟨hAfter, fun id hMem => ?_, hSheds.trans hStep⟩
    exact (Multiset.mem_add.mp hMem).elim (hFound id) (hLive id)
  · rintro id name failed frame session ⟨hOrder, hLive, hSheds⟩
    have hAfter := hFollowing.getAttribute id name failed frame session hOrder
    have hBase := hLive id (by simp)
    obtain ⟨outcome, after, hRun, hStep, hFound⟩ :=
      sheds_getAttribute hOrder (hSheds.size_eq ▸ hRoom) hBase name
    rw [hRun] at hAfter ⊢
    refine ⟨hAfter, fun other hMem => ?_, hSheds.trans hStep⟩
    rw [outcomeReferences, Multiset.add_assoc] at hMem
    exact (Multiset.mem_add.mp hMem).elim (hFound other) (hLive other)
  · rintro id rest failed frame session ⟨hOrder, hLive, hSheds⟩
    refine ⟨hFollowing.release id rest failed frame session hOrder, fun other hMem => hLive other ?_,
      hSheds.trans (sheds_release session id)⟩
    rw [Multiset.add_comm rest, Multiset.add_assoc]
    exact Multiset.mem_add.mpr (.inr hMem)

/-- A path that leads to an object leads to one of the start. Whether or not it does, nothing
else changes. -/
theorem alongPath_resolve (hOrder : InOrder (Engine.InOrder base) 0 session)
    (hRoom : session.runtime.heap.slots.size ≤ Heap.slotLimit) (path : String) :
    AlongPath base session (outcomeReferences ({·}) 0 ((resolve path).perform session).1)
      ((resolve path).perform session).2 := by
  have hResolve := conserves_resolve (following_alongPath hRoom) path 0 session
    ⟨hOrder, fun id hMem => absurd hMem (Multiset.notMem_zero id), .refl session⟩
  rwa [Multiset.add_zero] at hResolve

end Paths

end ArrayBridge.Session
