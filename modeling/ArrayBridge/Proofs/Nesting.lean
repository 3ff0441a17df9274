import ArrayBridge.Proofs.Nests
import ArrayBridge.Proofs.Outcome
import ArrayBridge.Proofs.StrideProducts
import Mathlib

/-! Nests as arrays.

The walk that flattens a nest carries the shape that it knows: while there are no values
the shape can grow inward, and from then on it is what the rest of the nest is compared
with. -/

namespace ArrayBridge

namespace Engine

variable {engine : Engine} {id : ObjectId}

section Parts

variable {items : List ObjectId} {a : NdArray} {value : Scalar} {bound depth : Nat}
  {f g : Flattening}

/-- The first step of the walk from an object, by the part that it is. -/
theorem flattenInto_part {part : Part} (h : engine.part? id = some part) :
    engine.flattenInto (bound + 1) depth id f = match part with
      | .number value => f.meetNumber depth value
      | .array a => f.meetShape depth a.shape >>= fun f =>
          .ok { f with values := f.values ++ a.values engine.buffers }
      | .sequence items => f.meetAxis depth items.length >>= fun f =>
          items.foldlM (fun f item => engine.flattenInto bound (depth + 1) item f) f := by
  unfold part? at h
  rw [flattenInto]
  cases hObject : engine.object id with
  | error e => simp [hObject] at h
  | ok object =>
      rw [hObject] at h
      cases object with
      | tuple | list | array | bool | int | float => cases h; rfl
      | _ => simp [Object.number?] at h

/-! A walk that succeeds, opened at its first step. -/

theorem flattenInto_number_ok (hPart : engine.part? id = some (.number value))
    (h : engine.flattenInto bound depth id f = .ok g) :
    depth = f.shape.length ∧ g = { f with values := f.values.push value } := by
  cases bound with
  | zero => cases h
  | succ bound =>
      rw [flattenInto_part hPart] at h
      dsimp only [Flattening.meetNumber] at h
      split at h
      · rename_i hDepth
        cases h
        exact ⟨hDepth, rfl⟩
      · cases h

theorem flattenInto_array_ok (hPart : engine.part? id = some (.array a))
    (h : engine.flattenInto bound depth id f = .ok g) :
    ∃ met, f.meetShape depth a.shape = .ok met ∧
      g = { met with values := met.values ++ a.values engine.buffers } := by
  cases bound with
  | zero => cases h
  | succ bound =>
      rw [flattenInto_part hPart] at h
      obtain ⟨met, hMet, hEq⟩ := Outcome.bind_eq_ok_iff.mp h
      cases hEq
      exact ⟨met, hMet, rfl⟩

theorem flattenInto_sequence_ok (hPart : engine.part? id = some (.sequence items))
    (h : engine.flattenInto bound depth id f = .ok g) :
    ∃ lower met, f.meetAxis depth items.length = .ok met ∧
      items.foldlM (fun f item => engine.flattenInto lower (depth + 1) item f) met = .ok g := by
  cases bound with
  | zero => cases h
  | succ bound =>
      rw [flattenInto_part hPart] at h
      obtain ⟨met, hMet, hRest⟩ := Outcome.bind_eq_ok_iff.mp h
      exact ⟨bound, met, hMet, hRest⟩

end Parts

end Engine

namespace Flattening

variable {f g next : Flattening} {depth length : Nat} {full shape : Shape}

/-- What a part of the walk can do to the shape: it grows while there are no values, and
stays as it is from then on. -/
structure Grows (f g : Flattening) : Prop where
  shape_prefix : f.shape <+: g.shape
  settled : f.values ≠ #[] → g.shape = f.shape ∧ g.values ≠ #[]

theorem Grows.refl (f : Flattening) : Grows f f := ⟨List.prefix_refl _, fun h => ⟨rfl, h⟩⟩

theorem Grows.trans (hFirst : Grows f g) (hSecond : Grows g next) : Grows f next where
  shape_prefix := hFirst.shape_prefix.trans hSecond.shape_prefix
  settled h := by
    obtain ⟨hShape, hValues⟩ := hFirst.settled h
    obtain ⟨hNextShape, hNextValues⟩ := hSecond.settled hValues
    exact ⟨hNextShape.trans hShape, hNextValues⟩

theorem grows_append (f : Flattening) (values : Array Scalar) :
    Grows f { f with values := f.values ++ values } :=
  ⟨List.prefix_refl _, fun h => ⟨rfl, by simp [h]⟩⟩

theorem drop_eq_cons {shape : Shape} (h : [length] <+: shape.drop depth) :
    shape.drop depth = length :: shape.drop (depth + 1) := by
  obtain ⟨rest, hRest⟩ := h
  rw [← List.tail_drop, ← hRest]
  rfl

/-- The axis that was met is known afterwards. -/
theorem meetAxis_ok (h : f.meetAxis depth length = .ok g) :
    Grows f g ∧ g.values = f.values ∧ [length] <+: g.shape.drop depth := by
  unfold meetAxis at h
  split at h
  · rename_i known hKnown
    split at h
    · rename_i hSame
      cases h
      obtain ⟨hBound, hHere⟩ := List.getElem?_eq_some_iff.mp hKnown
      rw [List.drop_eq_getElem_cons hBound, hHere, hSame]
      exact ⟨.refl _, rfl, List.prefix_append _ _⟩
    · cases h
  · split at h
    · rename_i hOpen
      cases h
      obtain ⟨hDepth, hEmpty⟩ := hOpen
      refine ⟨⟨List.prefix_append _ _, fun hSome => ?_⟩, rfl, ?_⟩
      · exact absurd (Array.isEmpty_iff.mp hEmpty) hSome
      · rw [hDepth, List.drop_left]
    · cases h

/-- The axes of an array that was met are known afterwards, from its depth on. -/
theorem meetShape_ok (h : f.meetShape depth shape = .ok g) :
    Grows f g ∧ g.values = f.values ∧ shape <+: g.shape.drop depth := by
  induction shape generalizing f depth with
  | nil =>
      cases h
      exact ⟨.refl _, rfl, List.nil_prefix⟩
  | cons length rest ih =>
      obtain ⟨next, hAxis, hRest⟩ := Outcome.bind_eq_ok_iff.mp h
      obtain ⟨hFirst, hValues, hKnown⟩ := meetAxis_ok hAxis
      obtain ⟨hGrows, hSame, hPrefix⟩ := ih hRest
      refine ⟨hFirst.trans hGrows, hSame.trans hValues, ?_⟩
      rw [drop_eq_cons (hKnown.trans (List.IsPrefix.drop hGrows.shape_prefix depth))]
      exact List.cons_prefix_cons.mpr ⟨rfl, hPrefix⟩

/-- The walk is about to meet the axes of the full shape from a depth on: they are known,
or the shape is known up to there. -/
def Ready (full : Shape) (depth : Nat) (f : Flattening) : Prop :=
  f.shape = full ∨ f.values = #[] ∧ f.shape = full.take depth

theorem Ready.meetAxis (h : Ready full depth f) (hAxis : full[depth]? = some length) :
    ∃ g, f.meetAxis depth length = .ok g ∧ g.values = f.values ∧ Ready full (depth + 1) g := by
  obtain ⟨hBound, hLength⟩ := List.getElem?_eq_some_iff.mp hAxis
  rcases h with hFull | ⟨hEmpty, hTaken⟩
  · refine ⟨f, ?_, rfl, .inl hFull⟩
    simp [Flattening.meetAxis, hFull, hAxis]
  · refine ⟨{ f with shape := f.shape ++ [length] }, ?_, rfl, .inr ⟨hEmpty, ?_⟩⟩
    · have hKnown : f.shape.length = depth := by
        rw [hTaken, List.length_take, Nat.min_eq_left hBound.le]
      simp [Flattening.meetAxis, hKnown, hEmpty]
    · rw [List.take_succ_eq_append_getElem hBound, hLength, ← hTaken]

/-- Where no axes remain, the full shape is known. -/
theorem Ready.shape_eq (h : Ready full depth f) (hEnd : full.drop depth = []) : f.shape = full := by
  rcases h with hFull | ⟨-, hTaken⟩
  · exact hFull
  · rw [hTaken, List.take_of_length_le (List.drop_eq_nil_iff.mp hEnd)]

theorem axis_of_drop (h : full.drop depth = length :: shape) :
    full[depth]? = some length ∧ full.drop (depth + 1) = shape := by
  rw [← List.head?_drop, ← List.tail_drop, h]
  exact ⟨rfl, rfl⟩

/-- An array that has the remaining axes is accepted. -/
theorem Ready.meetShape (h : Ready full depth f) (hDepth : depth ≤ full.length)
    (hShape : full.drop depth = shape) :
    f.meetShape depth shape = .ok { f with shape := full } := by
  induction shape generalizing f depth with
  | nil =>
      rw [Flattening.meetShape, ← h.shape_eq hShape]
  | cons length rest ih =>
      obtain ⟨hAxis, hRest⟩ := axis_of_drop hShape
      obtain ⟨next, hMet, hValues, hReady⟩ := h.meetAxis hAxis
      rw [Flattening.meetShape, hMet]
      change next.meetShape (depth + 1) rest = _
      rw [ih hReady (List.getElem?_eq_some_iff.mp hAxis).1 hRest, hValues]

/-- A number is accepted where all axes are known. -/
theorem Ready.meetNumber (h : Ready full full.length f) (value : Scalar) :
    f.meetNumber full.length value = .ok ⟨full, f.values.push value⟩ := by
  have hFull := h.shape_eq (List.drop_length (l := full))
  simp [Flattening.meetNumber, hFull]

end Flattening

namespace Engine

open Flattening Outcome

section Walk

variable {engine : Engine} {id : ObjectId} {bound depth rank : Nat} {f g : Flattening}
  {full shape : Shape} {items : List ObjectId} {leaves : List Scalar}

/-- A step of a walk that keeps a relation between the shapes keeps it over all items. -/
theorem grows_foldlM (hGrows : ∀ item ∈ items, ∀ f g,
      engine.flattenInto bound depth item f = .ok g → Grows f g)
    (h : items.foldlM (fun f item => engine.flattenInto bound depth item f) f = .ok g) :
    Grows f g := by
  induction items generalizing f with
  | nil =>
      cases h
      exact .refl _
  | cons item items ih =>
      rw [List.foldlM_cons] at h
      obtain ⟨next, hFirst, hRest⟩ := bind_eq_ok_iff.mp h
      rw [List.forall_mem_cons] at hGrows
      exact (hGrows.1 f next hFirst).trans (ih hGrows.2 hRest)

theorem IsNest.grows (hNest : engine.IsNest id) (h : engine.flattenInto bound depth id f = .ok g) :
    Grows f g := by
  induction hNest generalizing bound depth f g with
  | number hPart =>
      obtain ⟨-, rfl⟩ := flattenInto_number_ok hPart h
      exact ⟨List.prefix_refl _, fun _ => ⟨rfl, by simp⟩⟩
  | array hPart =>
      obtain ⟨met, hMet, rfl⟩ := flattenInto_array_ok hPart h
      exact (meetShape_ok hMet).1.trans (grows_append met _)
  | sequence hPart hItems ih =>
      obtain ⟨lower, met, hMet, hRest⟩ := flattenInto_sequence_ok hPart h
      refine (meetAxis_ok hMet).1.trans (grows_foldlM (fun item hItem f g hStep => ?_) hRest)
      exact ih item hItem hStep

/-- The values that a walk collects are the leaves. -/
theorem Leaves.values_eq (hLeaves : engine.Leaves id leaves)
    (h : engine.flattenInto bound depth id f = .ok g) : g.values = f.values ++ leaves.toArray := by
  induction hLeaves generalizing bound depth f g with
  | number hPart =>
      obtain ⟨-, rfl⟩ := flattenInto_number_ok hPart h
      simp
  | array hPart =>
      obtain ⟨met, hMet, rfl⟩ := flattenInto_array_ok hPart h
      simp [(meetShape_ok hMet).2.1]
  | @sequence id items leaves hPart hItems ih =>
      obtain ⟨lower, met, hMet, hRest⟩ := flattenInto_sequence_ok hPart h
      rw [← (meetAxis_ok hMet).2.1]
      clear hMet hPart hItems h
      induction items generalizing met with
      | nil =>
          cases hRest
          simp
      | cons item items ihItems =>
          rw [List.foldlM_cons] at hRest
          obtain ⟨next, hFirst, hLater⟩ := bind_eq_ok_iff.mp hRest
          rw [ihItems (fun c hc => ih c (List.mem_cons_of_mem _ hc)) next hLater,
            ih item List.mem_cons_self hFirst]
          simp

/-- A nest that was accepted and fills the shape has the rest of the shape. -/
theorem Fills.hasShape (hFills : engine.Fills full.length depth id)
    (h : engine.flattenInto bound depth id f = .ok g) (hPrefix : g.shape <+: full)
    (hDone : g.values ≠ #[] → g.shape = full) : engine.HasShape id (full.drop depth) := by
  generalize hRank : full.length = rank at hFills
  induction hFills generalizing bound f g with
  | number hPart =>
      obtain ⟨hDepth, rfl⟩ := flattenInto_number_ok hPart h
      have hFull : f.shape = full := hDone (by simp)
      rw [hDepth, hFull, List.drop_length]
      exact .number hPart
  | array hPart hFilled =>
      obtain ⟨met, hMet, rfl⟩ := flattenInto_array_ok hPart h
      have hAxes := (meetShape_ok hMet).2.2.trans (List.IsPrefix.drop hPrefix _)
      rw [← hAxes.eq_of_length (by rw [List.length_drop, hRank, ← hFilled, NdArray.rank]; omega)]
      exact .array hPart
  | empty hPart hFilled =>
      obtain ⟨lower, met, hMet, hEq⟩ := flattenInto_sequence_ok hPart h
      cases hEq
      have hAxis := (meetAxis_ok hMet).2.2.trans (List.IsPrefix.drop hPrefix _)
      rw [← hAxis.eq_of_length (by rw [List.length_drop, hRank, ← hFilled]; simp)]
      exact .empty hPart
  | @sequence depth id items hPart hSome hItems ih =>
      obtain ⟨lower, met, hMet, hRest⟩ := flattenInto_sequence_ok hPart h
      have hNests : ∀ item ∈ items, engine.IsNest item :=
        fun item hItem => (hItems item hItem).isNest
      have hGrown := grows_foldlM (fun item hItem _ _ => (hNests item hItem).grows) hRest
      have hAxis := (meetAxis_ok hMet).2.2.trans
        (List.IsPrefix.drop (hGrown.shape_prefix.trans hPrefix) depth)
      rw [drop_eq_cons hAxis]
      refine .sequence hPart hSome fun item hItem => ?_
      -- The walk of an item begins and ends somewhere in that of all items.
      obtain ⟨before, after, rfl⟩ := List.append_of_mem hItem
      rw [List.foldlM_append] at hRest
      obtain ⟨start, -, hFrom⟩ := bind_eq_ok_iff.mp hRest
      rw [List.foldlM_cons] at hFrom
      obtain ⟨stop, hWalk, hAfter⟩ := bind_eq_ok_iff.mp hFrom
      have hLater := grows_foldlM (fun c hc _ _ =>
        (hNests c (List.mem_append_right _ (List.mem_cons_of_mem _ hc))).grows) hAfter
      refine ih item hItem hWalk (hLater.shape_prefix.trans hPrefix) fun hValues => ?_
      obtain ⟨hSame, hStill⟩ := hLater.settled hValues
      exact hSame.symm.trans (hDone hStill)

end Walk

section Acceptance

variable {engine : Engine} {id : ObjectId} {bound depth : Nat} {f : Flattening}
  {full shape : Shape} {leaves : List Scalar}

/-- Once the full shape is known, the items only add their leaves. -/
theorem foldlM_known {items : List ObjectId} (each : ObjectId → List Scalar)
    (h : ∀ item ∈ items, ∀ values, engine.flattenInto bound depth item ⟨full, values⟩
      = .ok ⟨full, values ++ (each item).toArray⟩) (values : Array Scalar) :
    items.foldlM (fun f item => engine.flattenInto bound depth item f) ⟨full, values⟩
      = .ok ⟨full, values ++ (items.flatMap each).toArray⟩ := by
  induction items generalizing values with
  | nil => simp [pure, Except.pure]
  | cons item items ih =>
      rw [List.forall_mem_cons] at h
      rw [List.foldlM_cons, h.1]
      refine (ih h.2 _).trans ?_
      simp

/-- A rectangular nest is accepted where its shape is the rest of the full one. -/
theorem HasShape.accepted (hShape : engine.HasShape id shape) (hWithin : engine.Within bound id)
    (hLeaves : engine.Leaves id leaves) (hFull : full.drop depth = shape)
    (hDepth : depth ≤ full.length) (hReady : Ready full depth f) :
    engine.flattenInto bound depth id f = .ok ⟨full, f.values ++ leaves.toArray⟩ := by
  induction hShape generalizing bound depth f leaves with
  | number hPart =>
      cases bound with
      | zero => exact hWithin.elim
      | succ bound =>
          obtain rfl : depth = full.length := Nat.le_antisymm hDepth (List.drop_eq_nil_iff.mp hFull)
          rw [flattenInto_part hPart, hLeaves.eq_of_number hPart]
          refine (hReady.meetNumber _).trans ?_
          simp
  | array hPart =>
      cases bound with
      | zero => exact hWithin.elim
      | succ bound =>
          rw [flattenInto_part hPart, hLeaves.eq_of_array hPart]
          dsimp only
          rw [hReady.meetShape hDepth hFull]
          simp [bind, Except.bind]
  | empty hPart =>
      cases bound with
      | zero => exact hWithin.elim
      | succ bound =>
          obtain ⟨each, rfl, -⟩ := hLeaves.eq_of_sequence hPart
          obtain ⟨hAxis, hRest⟩ := axis_of_drop hFull
          obtain ⟨g, hMet, hValues, hNext⟩ := hReady.meetAxis hAxis
          rw [flattenInto_part hPart]
          dsimp only
          rw [List.length_nil, hMet]
          have hKnown := hNext.shape_eq hRest
          obtain ⟨known, values⟩ := g
          cases hKnown
          cases hValues
          simp [bind, Except.bind, pure, Except.pure]
  | @sequence id items shape hPart hSome hItems ih =>
      cases bound with
      | zero => exact hWithin.elim
      | succ bound =>
          obtain ⟨each, rfl, hEach⟩ := hLeaves.eq_of_sequence hPart
          obtain ⟨hAxis, hRest⟩ := axis_of_drop hFull
          obtain ⟨g, hMet, hValues, hNext⟩ := hReady.meetAxis hAxis
          have hInside : depth + 1 ≤ full.length := (List.getElem?_eq_some_iff.mp hAxis).1
          have hItem (item : ObjectId) (hMem : item ∈ items) {f : Flattening}
              (hItemReady : Ready full (depth + 1) f) :
              engine.flattenInto bound (depth + 1) item f
                = .ok ⟨full, f.values ++ (each item).toArray⟩ :=
            ih item hMem (hWithin items hPart item hMem) (hEach item hMem) hRest hInside hItemReady
          rw [flattenInto_part hPart]
          dsimp only
          rw [hMet, ← hValues]
          -- The first item completes the shape, the others are compared with it.
          obtain ⟨first, others, rfl⟩ := List.exists_cons_of_ne_nil hSome
          change (first :: others).foldlM
            (fun f item => engine.flattenInto bound (depth + 1) item f) g = _
          rw [List.foldlM_cons, hItem first List.mem_cons_self hNext]
          refine (foldlM_known each (fun item hMem values => ?_) _).trans ?_
          · exact hItem item (List.mem_cons_of_mem _ hMem) (.inl rfl)
          · simp

end Acceptance

section Law

variable {engine : Engine} {id : ObjectId} {shape : Shape} {leaves : List Scalar} {c : Contents}

theorem contents_mk (shape : Shape) (leaves : List Scalar) :
    Flattening.contents ⟨shape, leaves.toArray⟩ = .ofLeaves shape leaves := by
  simp only [Flattening.contents, Contents.ofLeaves, DType.joinAll, List.foldl_map,
    List.isEmpty_toArray, List.isEmpty_iff, List.foldl_toArray]

/-- Every rectangular nest whose strides are words is accepted, as the array of its leaves. -/
theorem HasShape.nestContents_eq (hShape : engine.HasShape id shape)
    (hLeaves : engine.Leaves id leaves) :
    engine.nestContents id = shape.checkStrides >>= fun _ => .ok (.ofLeaves shape leaves) := by
  have hWalk : engine.flattenInto (engine.heap.slots.size + 1) 0 id .empty
      = .ok ⟨shape, leaves.toArray⟩ := by
    have hAccepted := hShape.accepted hShape.isNest.within_size.succ hLeaves List.drop_zero
      (Nat.zero_le _) (f := .empty) (.inr ⟨rfl, by simp [Flattening.empty]⟩)
    simpa [Flattening.empty] using hAccepted
  rw [nestContents, hWalk, ← contents_mk]
  rfl

/-- What is accepted holds the leaves, and it is rectangular if it fills its shape. -/
theorem IsNest.of_nestContents (hNest : engine.IsNest id) (h : engine.nestContents id = .ok c) :
    (∃ leaves, engine.Leaves id leaves ∧ c = .ofLeaves c.shape leaves) ∧
      (engine.HasShape id c.shape ↔ engine.Fills c.shape.length 0 id) := by
  obtain ⟨⟨shape, values⟩, hWalk, hRest⟩ := bind_eq_ok_iff.mp h
  obtain ⟨-, -, hContents⟩ := bind_eq_ok_iff.mp hRest
  cases hContents
  obtain ⟨leaves, hLeaves⟩ := hNest.exists_leaves
  have hValues : values = leaves.toArray := by
    simpa [Flattening.empty] using hLeaves.values_eq hWalk
  refine ⟨⟨leaves, hLeaves, ?_⟩, fun hShape => ?_, fun hFills => ?_⟩
  · rw [hValues, contents_mk]
    rfl
  · simpa using hShape.fills 0
  · exact hFills.hasShape hWalk (List.prefix_refl _) fun _ => rfl

/-- How an object is converted, by the part of a nest that it is. -/
theorem arrayForm_part {part : Part} (h : engine.part? id = some part) :
    engine.arrayForm id = match part with
      | .array a => .ok (.view a)
      | _ => (engine.nestContents id).map ArrayForm.fresh := by
  unfold part? at h
  unfold arrayForm
  cases hObject : engine.object id with
  | error e => simp [hObject] at h
  | ok object =>
      rw [hObject] at h
      cases object with
      | array found => cases h; rfl
      | tuple | list | bool | int | float => cases h; cases engine.nestContents id <;> rfl
      | _ => simp [Object.number?] at h

theorem arrayForm_of_ne_array {part : Part} (h : engine.part? id = some part)
    (hOther : ∀ a, part ≠ .array a) :
    engine.arrayForm id = (engine.nestContents id).map ArrayForm.fresh := by
  rw [arrayForm_part h]
  cases part with
  | array a => exact (hOther a rfl).elim
  | number | sequence => rfl

/-- An array is converted to itself, and every other rectangular nest to a fresh array of
its shape, if the row-major strides of the shape are words, as those of a shape with elements
are if their number is one. Whatever is converted to a fresh array, the array holds the leaves
from first to last, in the smallest type for all of them. It is rectangular exactly if every
array and every empty sequence in it ends with the innermost axis; then there is a value for
each element. -/
theorem arrayForm_law (hNest : engine.IsNest id) :
    (∀ shape, engine.HasShape id shape →
      (∃ form, engine.arrayForm id = .ok form ∧ form.shape = shape) ∨
        shape.checkStrides = .error .wordOverflow ∧
          (shape.size = 0 ∨ Word.signedLimit ≤ shape.size) ∧
          engine.arrayForm id = .error .wordOverflow) ∧
    ∀ form, engine.arrayForm id = .ok form →
      (engine.HasShape id form.shape ↔ engine.Fills form.shape.length 0 id) ∧
      ((∃ a, form = .view a ∧ engine.part? id = some (.array a)) ∨
        ∃ c leaves, form = .fresh c ∧ engine.Leaves id leaves ∧ c = .ofLeaves c.shape leaves ∧
          (engine.HasShape id c.shape → c.values.size = c.shape.size)) := by
  obtain ⟨part, hPart⟩ := hNest.exists_part
  by_cases hArray : ∃ a, part = .array a
  · obtain ⟨a, rfl⟩ := hArray
    rw [arrayForm_part hPart]
    refine ⟨fun shape hShape => .inl ⟨_, rfl, ?_⟩, fun form hForm => ?_⟩
    · exact (hShape.array_eq hPart).symm
    · cases hForm
      have hOwn : engine.HasShape id a.shape := .array hPart
      exact ⟨⟨fun _ => .array hPart (Nat.zero_add _), fun _ => hOwn⟩, .inl ⟨a, rfl, hPart⟩⟩
  · rw [arrayForm_of_ne_array hPart fun a h => hArray ⟨a, h⟩]
    refine ⟨fun shape hShape => ?_, fun form hForm => ?_⟩
    · obtain ⟨leaves, hLeaves⟩ := hNest.exists_leaves
      rw [hShape.nestContents_eq hLeaves]
      rcases shape.checkStrides_eq_ok_or with hStrides | hStrides
      · exact .inl ⟨_, by rw [hStrides]; rfl, rfl⟩
      · exact .inr ⟨hStrides, shape.size_of_checkStrides hStrides, by rw [hStrides]; rfl⟩
    · obtain ⟨c, hContents, rfl⟩ : ∃ c, engine.nestContents id = .ok c ∧ form = .fresh c := by
        cases hContents : engine.nestContents id with
        | error e => rw [hContents] at hForm; cases hForm
        | ok c => rw [hContents] at hForm; cases hForm; exact ⟨c, rfl, rfl⟩
      obtain ⟨⟨leaves, hLeaves, hValues⟩, hFills⟩ := hNest.of_nestContents hContents
      refine ⟨hFills, .inr ⟨c, leaves, rfl, hLeaves, hValues, fun hShape => ?_⟩⟩
      rw [hValues]
      simpa [Contents.ofLeaves, Contents.ofValues] using hShape.length_leaves hLeaves

/-- An engine with the given objects, each with one reference, and one buffer. -/
def ofObjects (objects : List Object) (buffer : Buffer) : Engine where
  heap := ⟨(objects.map fun object => ⟨0, some ⟨1, object⟩⟩).toArray, [], objects.length⟩
  buffers := (BufferStore.empty.allocate buffer).2
  generator := default
  entropy := default
  names := default

/-- A list of a number and a truth value, beside a row of two numbers. -/
theorem arrayForm_law_rows :
    let engine := ofObjects [.int 5, .bool true, .list [⟨0, 0⟩, ⟨1, 0⟩],
      .array ⟨⟨0⟩, .int64, [2], [1], 0⟩, .tuple [⟨2, 0⟩, ⟨3, 0⟩]]
      (.ofValues .int64 #[.int 7, .int 8])
    engine.IsNest ⟨4, 0⟩ ∧ ∃ form, engine.arrayForm ⟨4, 0⟩ = .ok form ∧ form.shape = [2, 2] := by
  intro engine
  have hNumber : engine.part? ⟨0, 0⟩ = some (.number (.int 5)) := rfl
  have hTruth : engine.part? ⟨1, 0⟩ = some (.number (.bool true)) := rfl
  have hList : engine.part? ⟨2, 0⟩ = some (.sequence [⟨0, 0⟩, ⟨1, 0⟩]) := rfl
  have hRow : engine.part? ⟨3, 0⟩ = some (.array ⟨⟨0⟩, .int64, [2], [1], 0⟩) := rfl
  have hTuple : engine.part? ⟨4, 0⟩ = some (.sequence [⟨2, 0⟩, ⟨3, 0⟩]) := rfl
  have hShape : engine.HasShape ⟨4, 0⟩ [2, 2] := by
    refine .sequence hTuple (by simp) (List.forall_mem_cons.mpr ⟨?_, ?_⟩)
    · refine .sequence hList (by simp) (List.forall_mem_cons.mpr ⟨.number hNumber, ?_⟩)
      exact List.forall_mem_singleton.mpr (.number hTruth)
    · exact List.forall_mem_singleton.mpr (.array hRow)
  have hStrides : Shape.checkStrides [2, 2] ≠ .error .wordOverflow := by decide
  exact ⟨hShape.isNest,
    ((arrayForm_law hShape.isNest).1 _ hShape).resolve_right fun hOverflow => hStrides hOverflow.1⟩

/-- A square of numbers beside one row: the row is shorter than its place, and the array
that is made has eight elements and six values. -/
theorem not_hasShape_of_short_row :
    let engine := ofObjects [.array ⟨⟨0⟩, .int64, [2, 2], [2, 1], 0⟩,
      .array ⟨⟨0⟩, .int64, [2], [1], 0⟩, .tuple [⟨0, 0⟩, ⟨1, 0⟩]]
      (.ofValues .int64 #[.int 1, .int 2, .int 3, .int 4])
    engine.IsNest ⟨2, 0⟩ ∧ (∀ shape, ¬ engine.HasShape ⟨2, 0⟩ shape) ∧
      ∃ c, engine.arrayForm ⟨2, 0⟩ = .ok (.fresh c) ∧ c.shape = [2, 2, 2] ∧ c.values.size = 6 := by
  intro engine
  have hSquare : engine.part? ⟨0, 0⟩ = some (.array ⟨⟨0⟩, .int64, [2, 2], [2, 1], 0⟩) := rfl
  have hRow : engine.part? ⟨1, 0⟩ = some (.array ⟨⟨0⟩, .int64, [2], [1], 0⟩) := rfl
  have hTuple : engine.part? ⟨2, 0⟩ = some (.sequence [⟨0, 0⟩, ⟨1, 0⟩]) := rfl
  refine ⟨.sequence hTuple ?_, fun shape hShape => ?_, ?_⟩
  · exact List.forall_mem_cons.mpr ⟨.array hSquare, List.forall_mem_singleton.mpr (.array hRow)⟩
  · cases hShape with
    | number h | array h | empty h => rw [hTuple] at h; cases h
    | sequence h _ hItems =>
        rw [hTuple] at h
        cases h
        have hFirst := (hItems ⟨0, 0⟩ (by simp)).array_eq hSquare
        have hSecond := (hItems ⟨1, 0⟩ (by simp)).array_eq hRow
        rw [hFirst] at hSecond
        cases hSecond
  · exact ⟨_, by cbv, rfl, rfl⟩

end Law

end Engine

end ArrayBridge
