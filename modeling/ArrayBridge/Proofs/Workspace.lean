import ArrayBridge.Proofs.Selection
import Mathlib.Logic.Relation

/-! Runs of array operations.

A workspace is a store together with the arrays that a program has got so far. Each
operation takes its operands from there and adds its result; assignments change
cells only. Arrays that share a buffer stay well-formed next to each other, so the
invariant of single operations carries over to runs of any length. -/

namespace ArrayBridge

open Outcome

/-- A store with the arrays that are in use. -/
structure Workspace where
  store : BufferStore
  arrays : List NdArray
  deriving Inhabited

namespace Workspace

/-- The workspace without buffers and arrays. -/
def empty : Workspace := ⟨.empty, []⟩

/-- Puts a result into the workspace. -/
def add (w : Workspace) (form : ArrayForm) : Workspace :=
  ⟨(form.realize w.store).2, (form.realize w.store).1 :: w.arrays⟩

/-- One operation on the arrays of a workspace that succeeds. -/
inductive Step (w : Workspace) : Workspace → Prop where
  /-- A new array of as many values as its shape has elements. -/
  | fromValues {dtype : DType} {values : Array Scalar} {shape : Shape}
      (hCount : values.size = shape.size) : Step w (w.add (.fresh (.ofValues dtype values shape)))
  | select {a : NdArray} {selectors : List Selector} {form : ArrayForm} (hArray : a ∈ w.arrays)
      (hExact : ∀ s ∈ selectors, s.Exact) (hForm : a.select w.store selectors = .ok form) :
      Step w (w.add form)
  | locate {a view : NdArray} {selectors : List Selector} (hArray : a ∈ w.arrays)
      (hExact : ∀ s ∈ selectors, s.Exact) (hView : a.locate selectors = .ok (.view view)) :
      Step w (w.add (.view view))
  | reshape {a : NdArray} {dimensions : List Int64} {form : ArrayForm} (hArray : a ∈ w.arrays)
      (hForm : a.reshape w.store dimensions = .ok form) : Step w (w.add form)
  | copy {a : NdArray} (hArray : a ∈ w.arrays) : Step w (w.add (.fresh (a.contents w.store)))
  | cast {a : NdArray} {dtype : DType} (hArray : a ∈ w.arrays) :
      Step w (w.add (.fresh ((a.contents w.store).cast dtype)))
  | zipWith {a b : NdArray} {dtype : DType} {op : Scalar → Scalar → Except Exception Scalar}
      {c : Contents} (hLeft : a ∈ w.arrays) (hRight : b ∈ w.arrays)
      (hContents : (a.contents w.store).zipWith (b.contents w.store) dtype op = .ok c) :
      Step w (w.add (.fresh c))
  | assign {a : NdArray} {selectors : List Selector} {value : Contents} {store : BufferStore}
      (hArray : a ∈ w.arrays) (hExact : ∀ s ∈ selectors, s.Exact)
      (hStore : a.assign w.store selectors value = .ok store) : Step w ⟨store, w.arrays⟩

/-- Any number of operations, one after the other. -/
def Runs : Workspace → Workspace → Prop := Relation.ReflTransGen Step

/-- All arrays of the workspace are well-formed. -/
def Sound (w : Workspace) : Prop := ∀ a ∈ w.arrays, a.WellFormed w.store

theorem sound_empty : empty.Sound := fun _ h => (nomatch h)

/-- A sound result joins the arrays that are there, which stay well-formed. -/
theorem Sound.add {w : Workspace} (hSound : w.Sound) {form : ArrayForm}
    (hForm : form.Sound w.store) : (w.add form).Sound := by
  intro a ha
  rcases List.mem_cons.mp ha with rfl | hOld
  · exact hForm.wellFormed_realize
  · exact (hSound a hOld).mono (form.keeps_realize w.store)

/-- Every operation keeps all arrays well-formed. -/
theorem Step.sound {w next : Workspace} (hStep : w.Step next) (hSound : w.Sound) :
    next.Sound := by
  cases hStep with
  | fromValues hCount => exact hSound.add (by simp [ArrayForm.Sound, Contents.ofValues, hCount])
  | select hArray _ hForm => exact hSound.add ((hSound _ hArray).sound_select hForm)
  | locate hArray _ hView => exact hSound.add ((hSound _ hArray).view_of_locate hView).1
  | reshape hArray hForm => exact hSound.add ((hSound _ hArray).sound_reshape hForm)
  | @copy a hArray => exact hSound.add (a.size_values w.store)
  | @cast a dtype hArray =>
      exact hSound.add ((Contents.size_values_cast _ dtype).trans (a.size_values w.store))
  | zipWith hLeft hRight hContents => exact hSound.add (Contents.size_values_zipWith hContents)
  | assign hArray hExact hStore =>
      obtain ⟨writes, -, hEq⟩ := bind_eq_ok_iff.mp hStore
      obtain rfl := pure_eq_ok_iff.mp hEq
      intro a ha
      exact (hSound a ha).mono (w.store.keeps_setAll _ writes)

theorem Runs.sound {w later : Workspace} (hRuns : w.Runs later) (hSound : w.Sound) :
    later.Sound := by
  induction hRuns with
  | refl => exact hSound
  | tail _ hStep ih => exact hStep.sound ih

/-- After every run of operations that starts with well-formed arrays, all arrays are
well-formed. Each of them lists as many cells as it has elements, no cell twice and
all in its buffer, and no selection of an array reads or writes any other cell. -/
theorem Runs.wellFormed {w later : Workspace} (hRuns : w.Runs later) (hSound : w.Sound) :
    ∀ a ∈ later.arrays, a.WellFormed later.store ∧ a.offsets.size = a.size ∧
      a.offsets.toList.Nodup ∧ (∀ o ∈ a.offsets, o < later.store.cellCount a.buffer) ∧
      ∀ selectors located, (∀ s ∈ selectors, s.Exact) → a.locate selectors = .ok located →
        located.offsets.size = located.shape.size ∧ ∀ o ∈ located.offsets, o ∈ a.offsets := by
  intro a ha
  have hFormed := hRuns.sound hSound a ha
  refine ⟨hFormed, NdArray.size_offsets a, hFormed.nodup_offsets, fun o ho => ?_,
    fun selectors located hExact hLocate => ?_⟩
  · obtain ⟨index, hIn, rfl⟩ := NdArray.mem_offsets.mp ho
    exact hFormed.offsetOf_lt hIn
  · exact ⟨NdArray.size_offsets_of_locate hLocate, hFormed.mem_offsets_of_locate hExact hLocate⟩

/-- The invariant at work on the rows of a square in reverse order. -/
theorem wellFormed_reversed_square :
    let square := empty.add (.fresh (.ofValues .int64 #[.int 1, .int 2, .int 3, .int 4] [2, 2]))
    let reversed : NdArray := ⟨⟨0⟩, .int64, [2, 2], [-2, 1], 2⟩
    empty.Runs (square.add (.view reversed)) ∧ reversed.WellFormed square.store ∧
      reversed.offsets.toList = [2, 3, 0, 1] := by
  intro square reversed
  have hFirst : empty.Step square := .fromValues rfl
  have hExact : ∀ s ∈ [Selector.slice ⟨none, none, some (-1)⟩], s.Exact := by simp [Selector.Exact]
  have hSecond : square.Step (square.add (.view reversed)) :=
    .select (a := ⟨⟨0⟩, .int64, [2, 2], [2, 1], 0⟩) (by decide) hExact rfl
  have hRuns : empty.Runs (square.add (.view reversed)) := .tail (.single hFirst) hSecond
  refine ⟨hRuns, (hRuns.wellFormed sound_empty reversed (by decide)).1, ?_⟩
  rw [NdArray.toList_offsets]
  decide

end Workspace

end ArrayBridge
