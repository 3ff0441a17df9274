import ArrayBridge.Bridge.Call
import ArrayBridge.Proofs.ArgumentBinding
import Mathlib.Data.List.DropRight

/-! The spelling of a call.

A call is written with values by position and by name, and with omissions anywhere. It says
which parameter gets which value as long as there is a parameter for each value and no
parameter gets two. Omissions say nothing: those after the last value are dropped, and those
before it only keep places. -/

namespace ArrayBridge

/-- The value of an argument slot that is not omitted. -/
def Argument.value? : Argument → Option HostValue
  | provided value => some value
  | omitted => none

namespace CallSpec

variable {spec : CallSpec} {parameters : List String} {assignment : String → Option HostValue}
  {name : String} {value : HostValue}

/-- The arguments that remain without the omissions that are dropped. -/
def arguments (spec : CallSpec) : Arguments HostValue :=
  ⟨spec.supplied.map Argument.value?, spec.suppliedKeywords⟩

/-- The values among argument slots, with the parameters at their positions. -/
def placed : List String → List Argument → List (String × HostValue)
  | name :: names, .provided value :: args => (name, value) :: placed names args
  | _ :: names, .omitted :: args => placed names args
  | _, _ => []

/-- All values that are written for parameters, by position or by name. -/
def writes (spec : CallSpec) (parameters : List String) : List (String × HostValue) :=
  placed parameters spec.args ++ spec.suppliedKeywords

/-- A call writes each assigned value once, by position or by name, and no other value. -/
structure Spells (spec : CallSpec) (parameters : List String)
    (assignment : String → Option HostValue) : Prop where
  within : ∀ (i : Nat) (value : HostValue), spec.args[i]? = some (.provided value) →
    i < parameters.length
  once : ((spec.writes parameters).map Prod.fst).Nodup
  mem_iff : ∀ name value, (name, value) ∈ spec.writes parameters ↔
    name ∈ parameters ∧ assignment name = some value

/-- A call writes a value for which there is no parameter, or two for one parameter. -/
inductive Misspells (spec : CallSpec) (parameters : List String) : Prop
  | tooMany (i : Nat) (value : HostValue) (hProvided : spec.args[i]? = some (.provided value))
      (hBeyond : parameters.length ≤ i)
  | unknown (name : String) (value : HostValue) (hKeyword : (name, value) ∈ spec.suppliedKeywords)
      (hUnknown : name ∉ parameters)
  | repeated (hTwice : ¬ ((spec.writes parameters).map Prod.fst).Nodup)

section Omissions

/-- Dropping the last omissions leaves what stands before them. -/
theorem exists_replicate (spec : CallSpec) :
    ∃ count, spec.args = spec.supplied ++ List.replicate count .omitted := by
  have hSplit := List.rdropWhile_append_rtakeWhile
    (p := fun arg : Argument => !arg.isProvided) (l := spec.args)
  refine ⟨_, hSplit.symm.trans (congrArg (spec.supplied ++ ·) (List.eq_replicate_iff.mpr
    ⟨rfl, fun argument hMem => ?_⟩))⟩
  have hOmitted := List.mem_rtakeWhile_imp hMem
  cases argument with
  | provided value => cases hOmitted
  | omitted => rfl

/-- A value stays where it was. -/
theorem supplied_of_provided {i : Nat} (h : spec.args[i]? = some (.provided value)) :
    i < spec.supplied.length := by
  obtain ⟨count, hArgs⟩ := spec.exists_replicate
  by_contra hBeyond
  rw [hArgs, List.getElem?_append_right (Nat.le_of_not_lt hBeyond), List.getElem?_replicate] at h
  split_ifs at h
  cases h

/-- All that remains has a parameter, if every value does. -/
theorem length_supplied_le_iff : spec.supplied.length ≤ parameters.length ↔
    ∀ (i : Nat) (value : HostValue), spec.args[i]? = some (.provided value) →
      i < parameters.length := by
  constructor
  · intro hLength i value hProvided
    exact Nat.lt_of_lt_of_le (supplied_of_provided hProvided) hLength
  · intro hWithin
    by_cases hNone : spec.supplied = []
    · simp [hNone]
    · -- The last one that remains is a value.
      have hLast : ¬ (!(spec.supplied.getLast hNone).isProvided) = true :=
        List.rdropWhile_last_not (fun arg : Argument => !arg.isProvided) spec.args hNone
      have hPositive := List.length_pos_of_ne_nil hNone
      obtain ⟨count, hArgs⟩ := spec.exists_replicate
      have hAt : spec.args[spec.supplied.length - 1]? = some (spec.supplied.getLast hNone) := by
        rw [hArgs, List.getElem?_append_left (by omega), ← List.getLast?_eq_getElem?,
          List.getLast?_eq_some_getLast]
      cases hProvided : spec.supplied.getLast hNone with
      | omitted => simp [hProvided, Argument.isProvided] at hLast
      | provided value =>
          have hBound := hWithin _ value (hProvided ▸ hAt)
          omega

/-- What is found behind the last value is no value. -/
theorem join_lookup_zip_append {values : List (Option HostValue)} (count : Nat) :
    ((parameters.zip (values ++ List.replicate count none)).lookup name).join
      = ((parameters.zip values).lookup name).join := by
  induction parameters generalizing values count with
  | nil => rfl
  | cons parameter parameters ih =>
      cases values with
      | nil =>
          cases count with
          | zero => rfl
          | succ count =>
              have hTail := @ih [] count
              rw [List.nil_append] at hTail
              rw [List.nil_append, List.replicate_succ, List.zip_cons_cons, List.lookup_cons]
              split
              · rfl
              · rw [hTail]
                simp
      | cons value values =>
          rw [List.cons_append, List.zip_cons_cons, List.zip_cons_cons, List.lookup_cons,
            List.lookup_cons]
          split
          · rfl
          · exact ih count

end Omissions

section Positions

theorem names_placed_sublist (parameters : List String) (args : List Argument) :
    ((placed parameters args).map Prod.fst).Sublist parameters := by
  induction parameters generalizing args with
  | nil => exact .slnil
  | cons parameter parameters ih =>
      match args with
      | [] => simp [placed]
      | .omitted :: args => exact (ih args).cons _
      | .provided value :: args => exact (ih args).cons_cons _

/-- Among values with names of their own, one is found under its name. -/
theorem lookup_eq_some_iff {entries : List (String × HostValue)}
    (hNodup : (entries.map Prod.fst).Nodup) :
    entries.lookup name = some value ↔ (name, value) ∈ entries := by
  induction entries with
  | nil => simp
  | cons entry entries ih =>
      obtain ⟨first, found⟩ := entry
      obtain ⟨hOther, hRest⟩ := List.nodup_cons.mp hNodup
      rw [List.lookup_cons, List.mem_cons, Prod.mk.injEq]
      by_cases hSame : name = first
      · subst hSame
        have hAbsent : (name, value) ∉ entries := fun hMem =>
          hOther (List.mem_map.mpr ⟨_, hMem, rfl⟩)
        simp [hAbsent, eq_comm]
      · rw [beq_false_of_ne hSame]
        simp [hSame, ih hRest]

theorem lookup_eq_none_iff {entries : List (String × HostValue)} :
    entries.lookup name = none ↔ name ∉ entries.map Prod.fst := by
  rw [List.lookup_eq_none_iff]
  simp only [bne_iff_ne, ne_eq, List.mem_map, not_exists, not_and]
  exact ⟨fun h entry hMem hName => h entry hMem hName.symm,
    fun h entry hMem hName => h entry hMem hName.symm⟩

/-- A parameter gets the value at its position. -/
theorem join_lookup_zip (hNodup : parameters.Nodup) (args : List Argument) :
    ((parameters.zip (args.map Argument.value?)).lookup name).join
      = (placed parameters args).lookup name := by
  induction parameters generalizing args with
  | nil => rfl
  | cons parameter parameters ih =>
      obtain ⟨hFirst, hRest⟩ := List.nodup_cons.mp hNodup
      match args with
      | [] => simp [placed]
      | argument :: args =>
          have hTail := ih hRest args
          rw [List.map_cons, List.zip_cons_cons, List.lookup_cons]
          by_cases hSame : name = parameter
          · subst hSame
            have hAbsent : (placed parameters args).lookup name = none :=
              lookup_eq_none_iff.mpr fun hMem =>
                hFirst ((names_placed_sublist parameters args).mem hMem)
            cases argument with
            | omitted => simp [placed, Argument.value?, hAbsent]
            | provided value => simp [placed, Argument.value?]
          · rw [beq_false_of_ne hSame]
            cases argument with
            | omitted => exact hTail
            | provided value =>
                rw [placed, List.lookup_cons, beq_false_of_ne hSame]
                exact hTail

/-- Dropping omissions does not matter to what a parameter gets by position. -/
theorem positional?_arguments (hNodup : parameters.Nodup) (spec : CallSpec) (name : String) :
    spec.arguments.positional? parameters name = (placed parameters spec.args).lookup name := by
  obtain ⟨count, hArgs⟩ := spec.exists_replicate
  rw [← join_lookup_zip hNodup, hArgs, List.map_append, List.map_replicate]
  exact (join_lookup_zip_append count).symm

theorem argument?_arguments (hNodup : parameters.Nodup) (spec : CallSpec) (name : String) :
    spec.arguments.argument? parameters name = (spec.writes parameters).lookup name := by
  rw [Arguments.argument?, positional?_arguments hNodup, writes, List.lookup_append]
  rfl

end Positions

section Binding

/-- Each parameter gets the value that is written for it, and no argument is left over. -/
theorem Spells.fits (h : spec.Spells parameters assignment) (hNodup : parameters.Nodup) :
    spec.arguments.Fits parameters ∧
      ∀ name ∈ parameters, spec.arguments.argument? parameters name = assignment name := by
  have hOnce := h.once
  rw [writes, List.map_append, List.nodup_append'] at hOnce
  obtain ⟨-, hKeywords, hDisjoint⟩ := hOnce
  refine ⟨⟨?_, fun name hName => ?_, hKeywords, fun name hName => ?_⟩, fun name hName => ?_⟩
  · rw [arguments, List.length_map]
    exact length_supplied_le_iff.mpr h.within
  · obtain ⟨⟨_, value⟩, hMem, rfl⟩ := List.mem_map.mp hName
    exact ((h.mem_iff _ value).mp (List.mem_append.mpr (.inr hMem))).1
  · rw [positional?_arguments hNodup, lookup_eq_none_iff]
    exact fun hPlaced => hDisjoint hPlaced hName
  · rw [argument?_arguments hNodup]
    refine Option.ext fun value => ?_
    rw [lookup_eq_some_iff h.once, h.mem_iff]
    exact and_iff_right hName

/-- A misspelled call has arguments that do not fit. -/
theorem Misspells.not_fits (h : spec.Misspells parameters) (hNodup : parameters.Nodup) :
    ¬ spec.arguments.Fits parameters := by
  intro hFits
  cases h with
  | tooMany i value hProvided hBeyond =>
      have hLength := hFits.length_le
      rw [arguments, List.length_map, length_supplied_le_iff] at hLength
      exact absurd (hLength i value hProvided) (Nat.not_lt.mpr hBeyond)
  | unknown name value hKeyword hUnknown =>
      exact hUnknown (hFits.known name (List.mem_map.mpr ⟨_, hKeyword, rfl⟩))
  | repeated hTwice =>
      refine hTwice ?_
      rw [writes, List.map_append, List.nodup_append']
      refine ⟨(names_placed_sublist _ _).nodup hNodup, hFits.once, fun name hPlaced hName => ?_⟩
      have hFree := hFits.free name hName
      rw [positional?_arguments hNodup, lookup_eq_none_iff] at hFree
      exact hFree hPlaced

end Binding

end CallSpec

end ArrayBridge
