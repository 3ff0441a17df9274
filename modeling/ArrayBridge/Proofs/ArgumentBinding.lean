import ArrayBridge.Arguments
import ArrayBridge.Proofs.Outcome
import Mathlib.Data.List.Nodup
import Mathlib.Logic.Function.Basic

/-! The binding of arguments to parameters.

A call can give the argument of a parameter by position or by name. What counts is which
value each parameter gets in the end: a call whose arguments fit the parameters fills the
slots of the parameters with these values, and any other call is refused. -/

namespace ArrayBridge

open Outcome

namespace Bindings

variable {α : Type} {parameters : List String} {filled : String → Option α} {name : String}
  {value : α}

/-- The slots of parameters that get their arguments from a function. -/
def slotsOf (parameters : List String) (filled : String → Option α) : List (String × Option α) :=
  parameters.map fun name => (name, filled name)

theorem lookup_slotsOf (parameters : List String) (filled : String → Option α) (name : String) :
    (slotsOf parameters filled).lookup name
      = if name ∈ parameters then some (filled name) else none := by
  induction parameters with
  | nil => rfl
  | cons first parameters ih =>
      rw [slotsOf, List.map_cons, List.lookup_cons]
      rw [slotsOf] at ih
      by_cases hSame : name = first
      · simp [hSame]
      · rw [beq_false_of_ne hSame]
        simp [hSame, ih]

theorem slotsOf_congr {other : String → Option α}
    (h : ∀ name ∈ parameters, filled name = other name) :
    slotsOf parameters filled = slotsOf parameters other :=
  List.map_congr_left fun name hName => by rw [h name hName]

/-- The slot of one parameter is filled, and the others stay as they are. -/
theorem fill_slotsOf (hNodup : parameters.Nodup) (name : String) (value : α) :
    fill name value (slotsOf parameters filled)
      = slotsOf parameters (Function.update filled name (some value)) := by
  induction parameters with
  | nil => rfl
  | cons first parameters ih =>
      obtain ⟨hFirst, hRest⟩ := List.nodup_cons.mp hNodup
      have hTail := ih hRest
      rw [slotsOf] at hTail ⊢
      rw [List.map_cons, fill, slotsOf, List.map_cons]
      split_ifs with hSame
      · subst hSame
        rw [Function.update_self]
        congr 1
        exact slotsOf_congr fun other hOther =>
          (Function.update_of_ne (ne_of_mem_of_not_mem hOther hFirst) _ _).symm
      · rw [hTail, Function.update_of_ne hSame, slotsOf]

theorem assign_slotsOf (hNodup : parameters.Nodup) (function : String) (hKnown : name ∈ parameters)
    (hFree : filled name = none) (value : α) :
    assign ⟨function, slotsOf parameters filled⟩ name value
      = .ok ⟨function, slotsOf parameters (Function.update filled name (some value))⟩ := by
  rw [assign, lookup_slotsOf, if_pos hKnown, hFree]
  dsimp only
  rw [fill_slotsOf hNodup]

/-- Only a parameter that has no argument yet gets one. -/
theorem of_assign_slotsOf {function : String} {b : Bindings α}
    (h : assign ⟨function, slotsOf parameters filled⟩ name value = .ok b) :
    name ∈ parameters ∧ filled name = none := by
  rw [assign, lookup_slotsOf] at h
  split_ifs at h with hKnown
  · cases hFilled : filled name with
    | none => exact ⟨hKnown, rfl⟩
    | some old =>
        rw [hFilled] at h
        cases h

/-- An argument that is refused is refused as one of a wrong type. -/
theorem kind_of_assign {b : Bindings α} {e : Exception} (h : b.assign name value = .error e) :
    e.kind = .typeError := by
  rw [assign] at h
  split at h
  · cases h
    rfl
  · cases h
    rfl
  · cases h

end Bindings

namespace Arguments

open Bindings

variable {α : Type} {args : Arguments α} {parameters : List String} {function : String}
  {b : Bindings α}

/-- The positional argument of a parameter. -/
def positional? (args : Arguments α) (parameters : List String) (name : String) : Option α :=
  ((parameters.zip args.positional).lookup name).join

/-- The argument that a parameter gets in the end. -/
def argument? (args : Arguments α) (parameters : List String) (name : String) : Option α :=
  (args.positional? parameters name).or (args.keywords.lookup name)

/-- The names that arguments are given for by keyword. -/
def names (args : Arguments α) : List String := args.keywords.map Prod.fst

/-- Arguments that fit parameters: there is a parameter for each of them, and no parameter
gets two. -/
structure Fits (args : Arguments α) (parameters : List String) : Prop where
  length_le : args.positional.length ≤ parameters.length
  known : ∀ name ∈ args.names, name ∈ parameters
  once : args.names.Nodup
  free : ∀ name ∈ args.names, args.positional? parameters name = none

/-- Positional arguments fill the first slots. -/
theorem zip_eq_slotsOf (hNodup : parameters.Nodup) {positional : List (Option α)}
    (hLength : positional.length ≤ parameters.length) :
    parameters.zip (positional ++ List.replicate (parameters.length - positional.length) none)
      = slotsOf parameters fun name => ((parameters.zip positional).lookup name).join := by
  induction parameters generalizing positional with
  | nil =>
      rw [List.zip_nil_left]
      rfl
  | cons first parameters ih =>
      obtain ⟨hFirst, hRest⟩ := List.nodup_cons.mp hNodup
      cases positional with
      | nil =>
          have hTail := @ih hRest [] (Nat.zero_le _)
          simp only [List.nil_append, List.length_nil, Nat.sub_zero, List.zip_nil_right,
            List.length_cons, List.replicate_succ, List.zip_cons_cons, slotsOf, List.map_cons]
            at hTail ⊢
          rw [hTail]
          rfl
      | cons value positional =>
          have hTail := ih hRest (Nat.le_of_succ_le_succ hLength)
          simp only [List.length_cons, Nat.add_sub_add_right, List.cons_append, List.zip_cons_cons,
            slotsOf, List.map_cons, List.lookup_cons_self, Option.join_some] at hTail ⊢
          rw [hTail]
          congr 1
          refine List.map_congr_left fun name hName => ?_
          have hOther : (name == first) = false :=
            beq_false_of_ne (ne_of_mem_of_not_mem hName hFirst)
          rw [List.lookup_cons, hOther]

/-- Keyword arguments fill slots that were free. -/
theorem foldlM_assign_slotsOf (hNodup : parameters.Nodup) {keywords : List (String × α)}
    {filled : String → Option α} (hKnown : ∀ name ∈ keywords.map Prod.fst, name ∈ parameters)
    (hOnce : (keywords.map Prod.fst).Nodup)
    (hFree : ∀ name ∈ keywords.map Prod.fst, filled name = none) :
    keywords.foldlM (fun b (name, value) => assign b name value)
        ⟨function, slotsOf parameters filled⟩
      = .ok ⟨function, slotsOf parameters fun name => (filled name).or (keywords.lookup name)⟩ := by
  induction keywords generalizing filled with
  | nil => simp [pure, Except.pure]
  | cons entry keywords ih =>
      obtain ⟨name, value⟩ := entry
      rw [List.map_cons, List.forall_mem_cons] at hKnown hFree
      obtain ⟨hOther, hLater⟩ := List.nodup_cons.mp hOnce
      have hHead : assign ⟨function, slotsOf parameters filled⟩ name value = _ :=
        assign_slotsOf hNodup function hKnown.1 hFree.1 value
      rw [List.foldlM_cons]
      dsimp only
      rw [hHead]
      refine (ih hKnown.2 hLater fun other hMem => ?_).trans ?_
      · rw [Function.update_of_ne (ne_of_mem_of_not_mem hMem hOther)]
        exact hFree.2 other hMem
      · congr 2
        refine slotsOf_congr fun other _ => ?_
        by_cases hSame : other = name
        · subst hSame
          simp [hFree.1]
        · rw [Function.update_of_ne hSame, List.lookup_cons, beq_false_of_ne hSame]

theorem of_foldlM_assign_slotsOf (hNodup : parameters.Nodup) {keywords : List (String × α)}
    {filled : String → Option α}
    (h : keywords.foldlM (fun b (name, value) => assign b name value)
      ⟨function, slotsOf parameters filled⟩ = .ok b) :
    (∀ name ∈ keywords.map Prod.fst, name ∈ parameters) ∧ (keywords.map Prod.fst).Nodup ∧
      ∀ name ∈ keywords.map Prod.fst, filled name = none := by
  induction keywords generalizing filled with
  | nil => simp
  | cons entry keywords ih =>
      obtain ⟨name, value⟩ := entry
      rw [List.foldlM_cons] at h
      obtain ⟨next, hFirst, hRest⟩ := bind_eq_ok_iff.mp h
      dsimp only at hFirst
      obtain ⟨hKnown, hFree⟩ := of_assign_slotsOf hFirst
      rw [assign_slotsOf hNodup function hKnown hFree] at hFirst
      cases hFirst
      obtain ⟨hLaterKnown, hLater, hLaterFree⟩ := ih hRest
      have hOther : name ∉ keywords.map Prod.fst := fun hMem => by
        have hTaken := hLaterFree name hMem
        rw [Function.update_self] at hTaken
        cases hTaken
      rw [List.map_cons, List.forall_mem_cons, List.forall_mem_cons, List.nodup_cons]
      refine ⟨⟨hKnown, hLaterKnown⟩, ⟨hOther, hLater⟩, hFree, fun other hMem => ?_⟩
      rw [← hLaterFree other hMem, Function.update_of_ne (ne_of_mem_of_not_mem hMem hOther)]

/-- Arguments are bound to parameters if, and only if, they fit. Every parameter then has the
argument that was given for it. -/
theorem bind_eq_ok_iff_fits (hNodup : parameters.Nodup) :
    args.bind function parameters = .ok b ↔
      args.Fits parameters ∧ b = ⟨function, slotsOf parameters (args.argument? parameters)⟩ := by
  rw [Arguments.bind]
  split_ifs with hLength
  · constructor
    · intro h
      cases h
    · rintro ⟨hFits, -⟩
      exact absurd hFits.length_le (Nat.not_le.mpr hLength)
  · dsimp only
    rw [zip_eq_slotsOf hNodup (Nat.not_lt.mp hLength)]
    constructor
    · intro h
      obtain ⟨hKnown, hOnce, hFree⟩ := of_foldlM_assign_slotsOf hNodup h
      rw [foldlM_assign_slotsOf hNodup hKnown hOnce hFree] at h
      cases h
      exact ⟨⟨Nat.not_lt.mp hLength, hKnown, hOnce, hFree⟩, rfl⟩
    · rintro ⟨hFits, rfl⟩
      exact foldlM_assign_slotsOf hNodup hFits.known hFits.once hFits.free

/-- Arguments that do not fit are refused as ones of a wrong type. -/
theorem kind_of_bind {e : Exception} (h : args.bind function parameters = .error e) :
    e.kind = .typeError := by
  rw [Arguments.bind] at h
  split_ifs at h
  · cases h
    rfl
  · dsimp only at h
    generalize (⟨function, _⟩ : Bindings α) = start at h
    generalize args.keywords = keywords at h
    induction keywords generalizing start with
    | nil => cases h
    | cons entry keywords ih =>
        rw [List.foldlM_cons] at h
        rcases bind_eq_error_iff.mp h with hFirst | ⟨next, -, hRest⟩
        · exact kind_of_assign hFirst
        · exact ih next hRest

section Correspondence

variable {β : Type} {related : α → β → Prop} {other : Arguments β}

/-- Two lists of arguments supply the same slots, with arguments that are related. -/
structure Corresponds (related : α → β → Prop) (args : Arguments α) (other : Arguments β) :
    Prop where
  positional : List.Forall₂ (Option.Rel related) args.positional other.positional
  keywords : List.Forall₂ (fun entry entry' => entry.1 = entry'.1 ∧ related entry.2 entry'.2)
    args.keywords other.keywords

theorem rel_lookup {entries : List (String × α)} {entries' : List (String × β)}
    (h : List.Forall₂ (fun entry entry' => entry.1 = entry'.1 ∧ related entry.2 entry'.2)
      entries entries') (name : String) :
    Option.Rel related (entries.lookup name) (entries'.lookup name) := by
  induction h with
  | nil => exact .none
  | cons hHead _ ih =>
      obtain ⟨hName, hRelated⟩ := hHead
      rw [List.lookup_cons, List.lookup_cons, hName]
      split
      · exact .some hRelated
      · exact ih

theorem rel_join {value : Option (Option α)} {value' : Option (Option β)}
    (h : Option.Rel (Option.Rel related) value value') :
    Option.Rel related value.join value'.join := by
  cases h with
  | some hInner => exact hInner
  | none => exact .none

theorem rel_or {first second : Option α} {first' second' : Option β}
    (hFirst : Option.Rel related first first') (hSecond : Option.Rel related second second') :
    Option.Rel related (first.or second) (first'.or second') := by
  cases hFirst with
  | some hValue => exact .some hValue
  | none => exact hSecond

theorem Corresponds.positional? (h : args.Corresponds related other) (parameters : List String)
    (name : String) :
    Option.Rel related (args.positional? parameters name) (other.positional? parameters name) := by
  refine rel_join (rel_lookup ?_ name)
  have hSlots := h.positional
  generalize args.positional = slots at hSlots
  generalize other.positional = slots' at hSlots
  induction hSlots generalizing parameters with
  | nil => simp
  | cons hSlot _ ih =>
      cases parameters with
      | nil => exact .nil
      | cons parameter parameters => exact .cons ⟨rfl, hSlot⟩ (ih parameters)

/-- Each parameter gets arguments that are related, or none. -/
theorem Corresponds.argument? (h : args.Corresponds related other) (parameters : List String)
    (name : String) :
    Option.Rel related (args.argument? parameters name) (other.argument? parameters name) :=
  rel_or (h.positional? parameters name) (rel_lookup h.keywords name)

theorem Corresponds.fits_iff (h : args.Corresponds related other) (parameters : List String) :
    args.Fits parameters ↔ other.Fits parameters := by
  have hNames : args.names = other.names := by
    have hKeywords := h.keywords
    rw [names, names]
    generalize args.keywords = entries at hKeywords
    generalize other.keywords = entries' at hKeywords
    induction hKeywords with
    | nil => rfl
    | cons hHead _ ih => rw [List.map_cons, List.map_cons, hHead.1, ih]
  have hNone (name : String) : args.positional? parameters name = none ↔
      other.positional? parameters name = none := by
    have hRel := h.positional? parameters name
    generalize args.positional? parameters name = value at hRel
    generalize other.positional? parameters name = value' at hRel
    cases hRel <;> simp
  constructor
  · intro hFits
    exact ⟨h.positional.length_eq ▸ hFits.length_le, hNames ▸ hFits.known, hNames ▸ hFits.once,
      fun name hName => (hNone name).mp (hFits.free name (hNames ▸ hName))⟩
  · intro hFits
    exact ⟨h.positional.length_eq ▸ hFits.length_le, hNames ▸ hFits.known, hNames ▸ hFits.once,
      fun name hName => (hNone name).mpr (hFits.free name (hNames ▸ hName))⟩

end Correspondence

end Arguments

end ArrayBridge
