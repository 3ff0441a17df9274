import ArrayBridge.Engine.Start
import ArrayBridge.Proofs.EngineLedger
import ArrayBridge.Proofs.Outcome

/-! The start of an engine.

The start only makes objects, each after those that it owns, and gives them names. So
the heap that it leaves is settled, and all names are those of live objects. -/

namespace ArrayBridge

namespace Heap

variable {base : Heap} {id : ObjectId} {object : Object}

/-- A settled heap stays settled if a new object stays as it is and owns live ones. -/
theorem Settled.allocate (h : base.Settled) (object : Object) (hFixed : object.isFixed = true)
    (hChildren : ∀ c ∈ object.children, base.isLive c = true)
    (hRoom : (base.allocate object).2.slots.size ≤ slotLimit) :
    (base.allocate object).2.Settled ∧
      ∀ c, c = (base.allocate object).1 ∨ base.isLive c = true →
        (base.allocate object).2.isLive c = true := by
  obtain ⟨-, hMap⟩ := occupant?_allocate object (by simp [h.free_eq]) hRoom
  have hLive (c : ObjectId) (hc : c = (base.allocate object).1 ∨ base.isLive c = true) :
      (base.allocate object).2.isLive c = true := by
    rw [isLive, hMap]
    split_ifs with hNew
    · rfl
    · exact hc.resolve_left hNew
  refine ⟨?_, hLive⟩
  exact {
    occupied := by
      have hOccupied := h.occupied
      have hFree := h.free_eq
      obtain ⟨slots, free, live⟩ := base
      obtain rfl : free = [] := hFree
      intro slot hSlot
      rcases Array.mem_push.mp hSlot with hOld | rfl
      · exact hOccupied slot hOld
      · rfl
    free_eq := by
      have hFree := h.free_eq
      obtain ⟨slots, free, live⟩ := base
      obtain rfl : free = [] := hFree
      rfl
    live_eq := by
      have hCount := h.live_eq
      have hFree := h.free_eq
      obtain ⟨slots, free, live⟩ := base
      obtain rfl : free = [] := hFree
      simp only [Heap.allocate, Array.size_push]
      exact congrArg Nat.succ hCount
    positive := fun c now hNow => by
      rw [hMap] at hNow
      split_ifs at hNow
      · cases hNow
        exact Nat.one_pos
      · exact h.positive c now hNow
    children_live := fun c now hNow d hd => by
      rw [hMap] at hNow
      split_ifs at hNow
      · cases hNow
        exact hLive d (.inr (hChildren d hd))
      · exact hLive d (.inr (h.children_live c now hNow d hd))
    fixed := fun c now hNow => by
      rw [hMap] at hNow
      split_ifs at hNow
      · cases hNow
        exact hFixed
      · exact h.fixed c now hNow }

theorem Settled.retain (h : base.Settled) (hLive : base.isLive id = true) :
    (base.retain id).Settled := by
  obtain ⟨occupant, hOccupant⟩ := isLive_iff.mp hLive
  have hRetain := retain_eq_put hOccupant
  have hFound {c : ObjectId} {now : Occupant} (hNow : (base.retain id).occupant? c = some now) :
      ∃ old, base.occupant? c = some old ∧ old.object = now.object ∧
        old.references ≤ now.references := by
    rw [hRetain, occupant?_put hOccupant] at hNow
    split_ifs at hNow with hHere
    · cases hNow
      exact ⟨occupant, hHere ▸ hOccupant, rfl, Nat.le_succ _⟩
    · exact ⟨now, hNow, rfl, Nat.le_refl _⟩
  exact {
    occupied := by
      rw [hRetain, slots_put]
      intro slot hSlot
      rcases Array.mem_or_eq_of_mem_setIfInBounds hSlot with hOld | rfl
      · exact h.occupied slot hOld
      · rfl
    free_eq := by rw [hRetain, free_put, h.free_eq]
    live_eq := by rw [size_retain, hRetain, live_put, h.live_eq]
    positive := fun c now hNow => by
      obtain ⟨old, hOld, -, hReferences⟩ := hFound hNow
      exact Nat.lt_of_lt_of_le (h.positive c old hOld) hReferences
    children_live := fun c now hNow d hd => by
      obtain ⟨old, hOld, hObject, -⟩ := hFound hNow
      rw [isLive_retain]
      exact h.children_live c old hOld d (hObject ▸ hd)
    fixed := fun c now hNow => by
      obtain ⟨old, hOld, hObject, -⟩ := hFound hNow
      exact hObject ▸ h.fixed c old hOld }

end Heap

namespace Engine

open Heap

/-- Nothing was removed so far, and what is held or known by name is live. -/
def Starting : Ledger Engine := WithRoom fun names held heap =>
  heap.Settled ∧ (∀ id ∈ held, heap.isLive id = true) ∧ names.KnownIn heap

variable {engine : Engine} {taken : Multiset ObjectId} {id : ObjectId} {object : Object}

section Actions

theorem starting_create (object : Object) (hFixed : object.isFixed = true) :
    Moves Starting ↑object.children (create object) ({·}) engine := by
  refine moves_onHeap (size_le_size_allocate _ _) fun frame hRoom ⟨hSettled, hHeld, hKnown⟩ => ?_
  obtain ⟨hNext, hLive⟩ := hSettled.allocate object hFixed (fun c hc => hHeld c (by simp [hc])) hRoom
  refine ⟨hNext, fun c hc => hLive c ?_, hKnown.mono fun c hc => ?_⟩
  · rw [Multiset.singleton_add, Multiset.mem_cons] at hc
    exact hc.imp_right fun hFrame => hHeld c (Multiset.mem_add.mpr (.inr hFrame))
  · have hSmall := (size_le_size_allocate _ _).trans hRoom
    exact (hSettled.balanced hSmall).get?_allocate object hc

/-- A new object without children. -/
theorem starting_create_plain (hFixed : object.isFixed = true) (hChildren : object.children = []) :
    Moves Starting 0 (create object) ({·}) engine := by
  have hCreate : Moves Starting ↑object.children (create object) ({·}) engine :=
    starting_create object hFixed
  rwa [hChildren] at hCreate

/-- Another reference to what is held or known by name. -/
theorem starting_retain (h : id ∈ taken ∨ id ∈ engine.names.objects) :
    Moves Starting taken (retain id) (fun _ => id ::ₘ taken) engine := by
  refine moves_onHeap (size_retain _ _).ge fun frame _ ⟨hSettled, hHeld, hKnown⟩ => ?_
  have hId : engine.heap.isLive id = true := by
    rcases h with hTaken | hName
    · exact hHeld id (Multiset.mem_add.mpr (.inl hTaken))
    · exact hKnown.live id hName
  refine ⟨hSettled.retain hId, fun c hc => ?_, hKnown.mono fun c _ => get?_retain _ _ c⟩
  rw [isLive_retain]
  rcases Multiset.mem_cons.mp (Multiset.cons_add id taken frame ▸ hc) with rfl | hOld
  · exact hId
  · exact hHeld c hOld

theorem starting_share (h : id ∈ taken ∨ id ∈ engine.names.objects) :
    Moves Starting taken (share id) (fun c => c ::ₘ taken) engine := starting_retain h

theorem starting_createNone :
    Moves Starting taken createNone (fun id => id ::ₘ taken) engine :=
  Moves.of_run_eq rfl (starting_share (.inr (by simp [Namespace.objects])))

/-- A name takes over the reference to its object. -/
theorem starting_register (name : String) (id : ObjectId) :
    Moves Starting (id ::ₘ taken) (register name id) (fun _ => taken) engine := by
  intro frame h hRoom
  obtain ⟨hSettled, hHeld, hKnown⟩ := h hRoom
  rw [Multiset.cons_add] at hHeld
  refine ⟨hSettled, fun c hc => hHeld c (Multiset.mem_cons_of_mem hc),
    ⟨fun c hc => ?_, hKnown.none, hKnown.noValue⟩⟩
  have hNames : c = id ∨ c ∈ engine.names.objects := by
    simp only [register, StateT.run, Namespace.register, Namespace.objects, List.mem_cons,
      List.map_cons] at hc
    rcases hc with rfl | rfl | rfl | hModule
    · exact .inr (by simp [Namespace.objects])
    · exact .inr (by simp [Namespace.objects])
    · exact .inl rfl
    · obtain ⟨entry, hEntry, rfl⟩ := List.mem_map.mp hModule
      refine .inr (List.mem_cons_of_mem _ (List.mem_cons_of_mem _ ?_))
      exact List.mem_map_of_mem (List.mem_of_mem_filter hEntry)
  rcases hNames with rfl | hName
  · exact hHeld c (Multiset.mem_cons_self c _)
  · exact hKnown.live c hName

end Actions

section Modules

theorem starting_createNatives (functions : List (String × Native)) :
    Moves Starting taken (createNatives functions)
      (fun attributes => ↑(attributes.map Prod.snd) + taken) engine := by
  induction functions generalizing engine taken with
  | nil => exact moves_return (Multiset.zero_add taken)
  | cons function functions ih =>
      obtain ⟨name, native⟩ := function
      have hFirst : Moves Starting taken (create (.native native)) (fun id => id ::ₘ taken) engine := by
        have hCreate : Moves Starting 0 (create (.native native)) ({·}) engine :=
          starting_create_plain rfl rfl
        simpa only [Multiset.singleton_add] using hCreate.beside taken
      rw [createNatives, List.mapM_cons, bind_assoc]
      apply hFirst.step
      intro id next
      rw [pure_bind]
      refine ih.step fun attributes last => moves_return ?_
      rw [List.map_cons, ← Multiset.cons_coe, Multiset.cons_add, Multiset.add_cons]

theorem starting_createRandomModule :
    Moves Starting 0 createRandomModule ({·}) engine := by
  apply (starting_createNatives _).step
  intro attributes next
  rw [Multiset.add_zero]
  exact starting_create (.module ⟨"random", attributes⟩) rfl

theorem starting_createRootModule (root : String) (random : ObjectId) :
    Moves Starting {random} (createRootModule root random) (fun id => id ::ₘ {random}) engine := by
  apply (starting_createNatives _).step
  intro attributes next
  apply starting_createNone.step
  intro newAxis next
  apply (starting_retain (.inl (by simp))).step
  intro _ next
  generalize hModule :
    Object.module ⟨root, attributes ++ [("newaxis", newAxis), ("random", random)]⟩ = object
  have hTaken : ↑object.children + {random}
      = random ::ₘ newAxis ::ₘ (↑(attributes.map Prod.snd) + {random}) := by
    subst hModule
    ext c
    simp [Object.children, List.count_cons, Multiset.count_cons, Multiset.count_singleton,
      eq_comm (a := c)]
    omega
  have hCreate : Moves Starting ↑object.children (create object) ({·}) next :=
    starting_create object (hModule ▸ rfl)
  rw [← hTaken]
  exact hCreate.frame {random}

theorem starting_createModules (root : String) :
    Moves Starting 0 (createModules root) (fun _ => 0) engine := by
  apply starting_createRandomModule.step
  intro random next
  apply (starting_createRootModule root random).step
  intro numeric next
  apply (starting_register root numeric).step
  intro _ next
  have hRandom : Moves Starting (random ::ₘ 0) (register "random" random) (fun _ => 0) next :=
    starting_register "random" random
  have hName : random ∈ ((register "random" random).run next).2.names.objects := by
    change random ∈ (next.names.register "random" random).objects
    simp [Namespace.register, Namespace.objects]
  refine hRandom.bind ((starting_retain (.inr hName)).step fun _ next => ?_)
  exact starting_register _ random

theorem starting_bare (settings : EngineSettings) (entropy : Generator) :
    Starting 0 (bare settings entropy) := by
  intro hRoom
  have hEmpty : (Heap.empty.allocate .none).2.slots.size ≤ slotLimit := by
    exact Nat.le_of_ble_eq_true rfl
  obtain ⟨hFirst, hNone⟩ := settled_empty.allocate .none rfl (by simp [Object.children]) hEmpty
  obtain ⟨hSecond, hBoth⟩ := hFirst.allocate .noValue rfl (by simp [Object.children])
    hRoom
  refine ⟨hSecond, by simp, fun id hName => ?_, rfl, rfl⟩
  rcases List.mem_cons.mp hName with rfl | hName
  · exact hBoth _ (.inr (hNone _ (.inl rfl)))
  · rcases List.mem_cons.mp hName with rfl | hModule
    · exact hBoth _ (.inl rfl)
    · cases hModule

end Modules

/-- An engine that starts is in order over its own heap while nobody holds anything. -/
theorem inOrder_of_start {isDirectory : String → Bool} {entropy : Generator}
    {settings : EngineSettings} (h : start isDirectory entropy settings = .ok engine) :
    InOrder engine.heap 0 engine := by
  obtain ⟨_, _, h⟩ := Outcome.bind_eq_ok_iff.mp h
  obtain ⟨_, _, h⟩ := Outcome.bind_eq_ok_iff.mp h
  obtain rfl := Outcome.pure_eq_ok_iff.mp h
  have hStarting := starting_createModules settings.registeredRoot 0 (starting_bare settings entropy)
  intro hRoom
  obtain ⟨hSettled, -, hKnown⟩ := hStarting hRoom
  exact ⟨hKnown, hSettled.balanced hRoom⟩

end Engine

end ArrayBridge
