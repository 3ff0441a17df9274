import ArrayBridge.Proofs.HandleLedger
import Mathlib.Algebra.Group.Nat.Defs
import Mathlib.Data.List.Nodup

/-! The history of a handle table.

A handle is a slot and a generation of the slot, and the generation of a slot is the
number of handles that were registered in it. So as long as the generations last, no
handle is registered twice, and the registered handles are those whose registration is
part of the history and whose removal is not. -/

namespace ArrayBridge

namespace Handle

/-- A handle with its halves as numbers. -/
theorem toNat_raw_make (index generation : UInt32) :
    (make index generation).raw.toNat = 2 ^ 32 * generation.toNat + index.toNat := by
  have hIndex : index.toNat < 2 ^ 32 := index.toNat_lt
  have hGeneration : generation.toNat < 2 ^ 32 := generation.toNat_lt
  have hShift : generation.toNat <<< 32 % 2 ^ 64 = 2 ^ 32 * generation.toNat := by
    rw [Nat.shiftLeft_eq, Nat.mul_comm]
    exact Nat.mod_eq_of_lt (by omega)
  have hRaw : (make index generation).raw.toNat
      = generation.toNat <<< 32 % 2 ^ 64 ||| index.toNat := by
    simp [make]
  rw [hRaw, hShift, Nat.two_pow_add_eq_or_of_lt hIndex]

theorem toNat_index (h : Handle) : h.index.toNat = h.raw.toNat % 2 ^ 32 := by
  simp [index]

theorem toNat_generation (h : Handle) : h.generation.toNat = h.raw.toNat / 2 ^ 32 := by
  have hRaw : h.raw.toNat < 2 ^ 64 := h.raw.toNat_lt
  have hShift : h.generation.toNat = h.raw.toNat >>> 32 % 2 ^ 32 := by simp [generation]
  rw [hShift, Nat.shiftRight_eq_div_pow]
  exact Nat.mod_eq_of_lt (by omega)

@[simp] theorem index_make (i generation : UInt32) : (make i generation).index = i := by
  have hIndex : i.toNat < 2 ^ 32 := i.toNat_lt
  rw [← UInt32.toNat_inj, toNat_index, toNat_raw_make]
  omega

@[simp] theorem generation_make (i generation : UInt32) :
    (make i generation).generation = generation := by
  have hIndex : i.toNat < 2 ^ 32 := i.toNat_lt
  rw [← UInt32.toNat_inj, toNat_generation, toNat_raw_make]
  omega

/-- A handle is its slot and its generation. -/
theorem eq_iff {h other : Handle} :
    h = other ↔ h.index = other.index ∧ h.generation = other.generation := by
  constructor
  · rintro rfl
    exact ⟨rfl, rfl⟩
  · rintro ⟨hIndex, hGeneration⟩
    rw [← UInt32.toNat_inj, toNat_index, toNat_index] at hIndex
    rw [← UInt32.toNat_inj, toNat_generation, toNat_generation] at hGeneration
    obtain ⟨raw⟩ := h
    obtain ⟨other⟩ := other
    rw [mk.injEq, ← UInt64.toNat_inj]
    dsimp only at hIndex hGeneration
    omega

/-- The word zero has the generation zero. -/
theorem raw_ne_zero {h : Handle} (hGeneration : 0 < h.generation.toNat) : h.raw ≠ 0 := by
  intro hZero
  rw [toNat_generation, hZero] at hGeneration
  exact Nat.lt_irrefl _ hGeneration

end Handle

namespace HandleTable

/-- What happens to a handle. -/
inductive Event where
  | registered (h : Handle) (id : ObjectId)
  | removed (h : Handle)
  deriving DecidableEq

/-- The handles that were registered. -/
def registrations (events : List Event) : List Handle := events.filterMap fun
  | .registered h _ => some h
  | .removed _ => none

/-- The handles that were removed. -/
def removals (events : List Event) : List Handle := events.filterMap fun
  | .registered _ _ => none
  | .removed h => some h

/-- A table becomes another one, and that is what happens on the way. -/
inductive Changes (first : HandleTable) : List Event → HandleTable → Prop
  | refl : Changes first [] first
  | insert {events : List Event} {middle : HandleTable} (prior : Changes first events middle)
      (id : ObjectId) (kind : HandleKind) :
      Changes first (events ++ [.registered (middle.insert id kind).1 id]) (middle.insert id kind).2
  | setKind {events : List Event} {middle : HandleTable} (prior : Changes first events middle)
      (h : Handle) (kind : HandleKind) : Changes first events (middle.setKind h kind)
  | remove {events : List Event} {middle : HandleTable} {h : Handle} {id : ObjectId}
      (prior : Changes first events middle) (hGet : middle.get? h = some id) :
      Changes first (events ++ [.removed h]) (middle.remove h).2

variable {table first last : HandleTable} {h other : Handle} {id : ObjectId} {kind : HandleKind}
  {events new : List Event}

section Map

/-- The table has another entry in one slot. -/
structure Puts (table : HandleTable) (i : UInt32) (entry : HandleEntry) (next : HandleTable) :
    Prop where
  here : next.entries[i.toNat]? = some entry
  elsewhere : ∀ j : Nat, j ≠ i.toNat → next.entries[j]? = table.entries[j]?

theorem puts_set {i : UInt32} {entry : HandleEntry} {next : HandleTable}
    (hNext : next.entries = table.entries.setIfInBounds i.toNat entry)
    (hBound : i.toNat < table.entries.size) : table.Puts i entry next where
  here := by rw [hNext, Array.getElem?_setIfInBounds, if_pos rfl, if_pos hBound]
  elsewhere j hOther := by rw [hNext, Array.getElem?_setIfInBounds, if_neg (Ne.symm hOther)]

/-- A new handle has a slot that was free or comes after all others. -/
theorem puts_insert (hTable : table.Consistent) (id : ObjectId) (kind : HandleKind)
    (hRoom : (table.insert id kind).2.entries.size ≤ Heap.slotLimit) :
    table.Puts (table.insert id kind).1.index
        ⟨(table.insert id kind).1.generation, some id, kind⟩ (table.insert id kind).2 ∧
      (table.entries[(table.insert id kind).1.index.toNat]? = none ∧
          (table.insert id kind).1.generation = 1 ∨
        ∃ generation old, table.entries[(table.insert id kind).1.index.toNat]?
            = some ⟨generation, none, old⟩ ∧
          (table.insert id kind).1.generation = nextGeneration generation) := by
  obtain ⟨entries, free, live⟩ := table
  cases free with
  | nil =>
      simp only [insert, Array.size_push] at hRoom
      have hIndex : entries.size.toUInt32.toNat = entries.size :=
        UInt32.toNat_ofNat_of_lt' (Nat.lt_of_succ_le hRoom)
      simp only [insert, Handle.index_make, Handle.generation_make, hIndex]
      refine ⟨⟨?_, fun j hOther => ?_⟩, .inl (by simp)⟩
      · simp [hIndex]
      · rw [hIndex] at hOther
        simp [Array.getElem?_push, hOther]
  | cons index free =>
      obtain ⟨generation, old, hVacant⟩ := hTable.vacant index (by simp)
      dsimp only at hVacant
      have hEntry : entries.getD index.toNat default = ⟨generation, none, old⟩ := by
        rw [Array.getD_eq_getD_getElem?, hVacant, Option.getD_some]
      simp only [insert, Handle.index_make, Handle.generation_make, hEntry]
      exact ⟨puts_set rfl (Array.getElem?_eq_some_iff.mp hVacant).1,
        .inr ⟨generation, old, hVacant, rfl⟩⟩

theorem Puts.found_of_ne {i : UInt32} {entry : HandleEntry} {next : HandleTable}
    (hPuts : table.Puts i entry next) (hOther : other.index ≠ i) :
    next.entry? other = table.entry? other := by
  unfold entry?
  rw [hPuts.elsewhere _ fun hSame => hOther (UInt32.toNat_inj.mp hSame)]

theorem Puts.found {next : HandleTable} {object : Option ObjectId}
    (hPuts : table.Puts h.index ⟨h.generation, object, kind⟩ next)
    (hVacant : ∀ other : Handle, other.index = h.index → other ≠ h → table.entry? other = none)
    (other : Handle) :
    next.entry? other = if other = h then object.map (·, kind) else table.entry? other := by
  by_cases hIndex : other.index = h.index
  · by_cases hGeneration : h.generation = other.generation
    · have hSame := Handle.eq_iff.mpr ⟨hIndex, hGeneration.symm⟩
      unfold entry?
      rw [if_pos hSame, hIndex, hPuts.here]
      cases object <;> simp [hGeneration]
    · have hOther : other ≠ h := by
        rintro rfl
        exact hGeneration rfl
      rw [if_neg hOther, hVacant other hIndex hOther]
      unfold entry?
      rw [hIndex, hPuts.here]
      cases object <;> simp [hGeneration]
  · rw [if_neg fun hSame => hIndex (congrArg Handle.index hSame), hPuts.found_of_ne hIndex]

/-- Two handles of one slot are not registered together. -/
theorem entry?_eq_none_of_index_eq {entry : ObjectId × HandleKind}
    (hEntry : table.entry? h = some entry) (hIndex : other.index = h.index) (hOther : other ≠ h) :
    table.entry? other = none := by
  obtain ⟨id, kind⟩ := entry
  rw [entry?_eq_some_iff] at hEntry
  have hGeneration : h.generation ≠ other.generation := fun hSame =>
    hOther (Handle.eq_iff.mpr ⟨hIndex, hSame.symm⟩)
  simp [hIndex, entry?, hEntry, hGeneration]

/-- A new handle names its object, and no other handle changes. -/
theorem entry?_insert (hTable : table.Consistent) (id : ObjectId) (kind : HandleKind)
    (hRoom : (table.insert id kind).2.entries.size ≤ Heap.slotLimit) (other : Handle) :
    entry? (table.insert id kind).2 other
      = if other = (table.insert id kind).1 then some (id, kind) else table.entry? other := by
  obtain ⟨hPuts, hSlot⟩ := puts_insert hTable id kind hRoom
  refine hPuts.found (fun other hIndex _ => ?_) other
  unfold entry?
  rw [hIndex]
  obtain ⟨hNone, -⟩ | ⟨generation, old, hVacant, -⟩ := hSlot
  · rw [hNone]
  · rw [hVacant]

/-- A registered handle is not registered again. -/
theorem ne_insert_of_entry (hTable : table.Consistent) (id : ObjectId) (kind : HandleKind)
    (hRoom : (table.insert id kind).2.entries.size ≤ Heap.slotLimit)
    {entry : ObjectId × HandleKind} (hEntry : table.entry? other = some entry) :
    other ≠ (table.insert id kind).1 := by
  rintro rfl
  obtain ⟨found, old⟩ := entry
  rw [entry?_eq_some_iff] at hEntry
  obtain ⟨-, ⟨hNone, -⟩ | ⟨generation, last, hVacant, -⟩⟩ := puts_insert hTable id kind hRoom
  · cases hEntry.symm.trans hNone
  · cases hEntry.symm.trans hVacant

theorem puts_setKind {old : HandleKind} (hEntry : table.entry? h = some (id, old))
    (kind : HandleKind) :
    table.Puts h.index ⟨h.generation, some id, kind⟩ (table.setKind h kind) :=
  puts_set (by rw [setKind, hEntry]) (Array.getElem?_eq_some_iff.mp (entry?_eq_some_iff.mp hEntry)).1

theorem puts_remove (hEntry : table.entry? h = some (id, kind)) :
    table.Puts h.index ⟨h.generation, none, kind⟩ (table.remove h).2 :=
  puts_set (by rw [remove, hEntry]) (Array.getElem?_eq_some_iff.mp (entry?_eq_some_iff.mp hEntry)).1

/-- What a handle stands for changes, and no other handle does. -/
theorem entry?_setKind (h : Handle) (kind : HandleKind) (other : Handle) :
    entry? (table.setKind h kind) other
      = if other = h then (table.entry? h).map fun entry => (entry.1, kind)
        else table.entry? other := by
  cases hEntry : table.entry? h with
  | none =>
      rw [setKind, hEntry]
      split_ifs with hSame
      · rw [hSame, hEntry]
        rfl
      · rfl
  | some entry =>
      exact (puts_setKind hEntry kind).found (fun _ => entry?_eq_none_of_index_eq hEntry) other

/-- A handle is removed, and no other handle changes. -/
theorem entry?_remove (h other : Handle) :
    entry? (table.remove h).2 other = if other = h then none else table.entry? other := by
  cases hEntry : table.entry? h with
  | none =>
      rw [remove, hEntry]
      split_ifs with hSame
      · rw [hSame, hEntry]
      · rfl
  | some entry => exact (puts_remove hEntry).found (fun _ => entry?_eq_none_of_index_eq hEntry) other

theorem get?_insert (hTable : table.Consistent) (id : ObjectId) (kind : HandleKind)
    (hRoom : (table.insert id kind).2.entries.size ≤ Heap.slotLimit) (other : Handle) :
    (table.insert id kind).2.get? other
      = if other = (table.insert id kind).1 then some id else table.get? other := by
  rw [get?, entry?_insert hTable id kind hRoom]
  split_ifs <;> rfl

theorem get?_setKind (h : Handle) (kind : HandleKind) (other : Handle) :
    (table.setKind h kind).get? other = table.get? other := by
  rw [get?, entry?_setKind, get?]
  split_ifs with hSame
  · rw [hSame, Option.map_map]
    rfl
  · rfl

theorem get?_remove (h other : Handle) :
    (table.remove h).2.get? other = if other = h then none else table.get? other := by
  rw [get?, entry?_remove]
  split_ifs <;> rfl

end Map

section History

/-- A table with its history. The generation of a slot counts the handles that were
registered in it, and handles that were registered before are not beyond it. -/
structure Follows (table : HandleTable) (events : List Event) : Prop extends table.Consistent where
  size_le : table.entries.size ≤ (registrations events).length
  generation_eq : ∀ (i : Nat) (entry : HandleEntry), table.entries[i]? = some entry →
    entry.generation.toNat = (registrations events).countP (·.index.toNat = i)
  earlier : ∀ h ∈ registrations events, h.index.toNat < table.entries.size ∧
    0 < h.generation.toNat ∧
    h.generation.toNat ≤ (registrations events).countP (·.index.toNat = h.index.toNat)
  nodup : (registrations events).Nodup
  removed_nodup : (removals events).Nodup
  removed_mem : ∀ h, .removed h ∈ events → h ∈ registrations events
  get?_iff : ∀ h id, table.get? h = some id ↔ .registered h id ∈ events ∧ .removed h ∉ events

@[simp] theorem registrations_append (events new : List Event) :
    registrations (events ++ new) = registrations events ++ registrations new :=
  List.filterMap_append

@[simp] theorem removals_append (events new : List Event) :
    removals (events ++ new) = removals events ++ removals new :=
  List.filterMap_append

@[simp] theorem registrations_registered (h : Handle) (id : ObjectId) :
    registrations [.registered h id] = [h] := rfl

@[simp] theorem registrations_removed (h : Handle) : registrations [.removed h] = [] := rfl

@[simp] theorem removals_registered (h : Handle) (id : ObjectId) :
    removals [.registered h id] = [] := rfl

@[simp] theorem removals_removed (h : Handle) : removals [.removed h] = [h] := rfl

theorem mem_registrations : h ∈ registrations events ↔ ∃ id, .registered h id ∈ events := by
  simp only [registrations, List.mem_filterMap]
  constructor
  · rintro ⟨_ | _, hMem, hEq⟩
    · cases hEq
      exact ⟨_, hMem⟩
    · cases hEq
  · rintro ⟨id, hMem⟩
    exact ⟨_, hMem, rfl⟩

theorem mem_removals : h ∈ removals events ↔ .removed h ∈ events := by
  simp only [removals, List.mem_filterMap]
  constructor
  · rintro ⟨_ | _, hMem, hEq⟩
    · cases hEq
    · cases hEq
      exact hMem
  · intro hMem
    exact ⟨_, hMem, rfl⟩

theorem follows_empty : Follows empty [] where
  toConsistent := consistent_empty
  size_le := Nat.le_refl _
  generation_eq i entry h := by simp [empty] at h
  earlier h hMem := absurd hMem List.not_mem_nil
  nodup := List.nodup_nil
  removed_nodup := List.nodup_nil
  removed_mem h hMem := absurd hMem List.not_mem_nil
  get?_iff h id := by simp [empty, get?, entry?]

theorem size_le_size_insert (table : HandleTable) (id : ObjectId) (kind : HandleKind) :
    table.entries.size ≤ (table.insert id kind).2.entries.size := by
  obtain ⟨entries, free, live⟩ := table
  cases free <;> simp [insert]

theorem size_insert_le (table : HandleTable) (id : ObjectId) (kind : HandleKind) :
    (table.insert id kind).2.entries.size ≤ table.entries.size + 1 := by
  obtain ⟨entries, free, live⟩ := table
  cases free <;> simp [insert]

theorem size_setKind (table : HandleTable) (h : Handle) (kind : HandleKind) :
    (table.setKind h kind).entries.size = table.entries.size := by
  unfold setKind
  split
  · exact Array.size_setIfInBounds
  · rfl

theorem size_remove (table : HandleTable) (h : Handle) :
    (table.remove h).2.entries.size = table.entries.size := by
  unfold remove
  split
  · exact Array.size_setIfInBounds
  · rfl

/-- The generation of a new handle is the number of handles of its slot, and so the
handle was not registered before. -/
theorem Follows.generation_insert (hTable : table.Follows events)
    (hRoom : (registrations events).length + 1 < Heap.slotLimit) (id : ObjectId)
    (kind : HandleKind) :
    (table.insert id kind).1.generation.toNat = (registrations events).countP
      (·.index.toNat = (table.insert id kind).1.index.toNat) + 1 := by
  have hSize := hTable.size_le
  have hLimit := size_insert_le table id kind
  obtain ⟨-, ⟨hNone, hFirst⟩ | ⟨generation, old, hVacant, hNext⟩⟩ :=
    puts_insert hTable.toConsistent id kind (by omega)
  · have hCount : (registrations events).countP
        (·.index.toNat = (table.insert id kind).1.index.toNat) = 0 := by
      refine List.countP_eq_zero.mpr fun h hMem hSame => ?_
      have hBound := (hTable.earlier h hMem).1
      rw [of_decide_eq_true hSame] at hBound
      rw [Array.getElem?_eq_getElem hBound] at hNone
      cases hNone
    rw [hFirst, hCount]
    rfl
  · have hCount := hTable.generation_eq _ _ hVacant
    have hBound := List.countP_le_length (l := registrations events)
      (p := (·.index.toNat = (table.insert id kind).1.index.toNat))
    dsimp only at hCount
    have hStep : (generation + 1).toNat = generation.toNat + 1 := by
      rw [UInt32.toNat_add, UInt32.toNat_one]
      unfold Heap.slotLimit at hRoom
      omega
    have hPositive : generation + 1 ≠ 0 := by
      rw [ne_eq, ← UInt32.toNat_inj, hStep]
      exact Nat.succ_ne_zero _
    rw [hNext, nextGeneration, if_neg hPositive, hStep, hCount]

theorem Follows.insert (hTable : table.Follows events)
    (hRoom : (registrations events).length + 1 < Heap.slotLimit) (id : ObjectId)
    (kind : HandleKind) : (table.insert id kind).2.Follows
      (events ++ [.registered (table.insert id kind).1 id]) := by
  have hSize := hTable.size_le
  have hLimit := size_insert_le table id kind
  have hGeneration := hTable.generation_insert hRoom id kind
  obtain ⟨hPuts, -⟩ := puts_insert hTable.toConsistent id kind (by omega)
  have hGet := get?_insert hTable.toConsistent id kind (by omega)
  have hGrows := size_le_size_insert table id kind
  have hConsistent := hTable.toConsistent.insert id kind
  generalize table.insert id kind = result at hGeneration hPuts hGet hGrows hLimit hConsistent ⊢
  obtain ⟨new, next⟩ := result
  dsimp only at hGeneration hPuts hGet hGrows hLimit hConsistent ⊢
  have hNew : new ∉ registrations events := fun hMem => by
    have hOld := (hTable.earlier new hMem).2.2
    omega
  refine ⟨hConsistent, ?_, ?_, ?_, ?_, ?_, ?_, ?_⟩
  · rw [registrations_append, List.length_append]
    exact Nat.le_trans hLimit (Nat.add_le_add_right hSize 1)
  · intro i entry hEntry
    rw [registrations_append, List.countP_append]
    by_cases hHere : i = new.index.toNat
    · rw [hHere, hPuts.here] at hEntry
      cases hEntry
      simp [hHere, hGeneration]
    · rw [hPuts.elsewhere i hHere] at hEntry
      simp [hTable.generation_eq i entry hEntry, Ne.symm hHere]
  · intro h hMem
    rw [registrations_append, List.countP_append]
    obtain hOld | hHere := List.mem_append.mp (registrations_append .. ▸ hMem)
    · obtain ⟨hBound, hPositive, hLast⟩ := hTable.earlier h hOld
      exact ⟨Nat.lt_of_lt_of_le hBound hGrows, hPositive, Nat.le_trans hLast (Nat.le_add_right _ _)⟩
    · obtain rfl : h = new := List.mem_singleton.mp hHere
      refine ⟨(Array.getElem?_eq_some_iff.mp hPuts.here).1, by omega, ?_⟩
      simp [hGeneration]
  · rw [registrations_append]
    exact hTable.nodup.append (List.nodup_singleton new)
      (List.disjoint_singleton.mpr hNew)
  · rw [removals_append, removals_registered, List.append_nil]
    exact hTable.removed_nodup
  · intro h hMem
    rw [registrations_append]
    refine List.mem_append.mpr (.inl (hTable.removed_mem h ?_))
    simpa using hMem
  · intro h other
    rw [hGet]
    split_ifs with hHere
    · subst hHere
      have hRegistered : ¬ .registered h other ∈ events := fun hMem =>
        hNew (mem_registrations.mpr ⟨other, hMem⟩)
      have hRemoved : ¬ .removed h ∈ events := fun hMem => hNew (hTable.removed_mem h hMem)
      simp [hRegistered, hRemoved, eq_comm]
    · rw [hTable.get?_iff]
      simp [hHere]

/-- Another entry for a registered handle has the generation of the old one. -/
theorem Follows.generation_puts {object : Option ObjectId} {new : HandleKind}
    (hTable : table.Follows events) (hEntry : table.entry? h = some (id, kind))
    (hPuts : table.Puts h.index ⟨h.generation, object, new⟩ last) (i : Nat) (entry : HandleEntry)
    (hNext : last.entries[i]? = some entry) :
    entry.generation.toNat = (registrations events).countP (·.index.toNat = i) := by
  by_cases hHere : i = h.index.toNat
  · have hOld := hTable.generation_eq _ _ (entry?_eq_some_iff.mp hEntry)
    rw [hHere, hPuts.here] at hNext
    cases hNext
    rwa [hHere]
  · rw [hPuts.elsewhere i hHere] at hNext
    exact hTable.generation_eq i entry hNext

theorem Follows.setKind (hTable : table.Follows events) (h : Handle) (kind : HandleKind) :
    (table.setKind h kind).Follows events where
  toConsistent := hTable.toConsistent.setKind h kind
  size_le := (size_setKind table h kind).symm ▸ hTable.size_le
  generation_eq i entry hEntry := by
    cases hOld : table.entry? h with
    | none =>
        rw [HandleTable.setKind, hOld] at hEntry
        exact hTable.generation_eq i entry hEntry
    | some old => exact hTable.generation_puts hOld (puts_setKind hOld kind) i entry hEntry
  earlier other hMem := by
    rw [size_setKind]
    exact hTable.earlier other hMem
  nodup := hTable.nodup
  removed_nodup := hTable.removed_nodup
  removed_mem := hTable.removed_mem
  get?_iff other id := by
    rw [get?_setKind]
    exact hTable.get?_iff other id

theorem Follows.remove (hTable : table.Follows events) (hGet : table.get? h = some id) :
    (table.remove h).2.Follows (events ++ [.removed h]) := by
  obtain ⟨hRegistered, hRemoved⟩ := (hTable.get?_iff h id).mp hGet
  obtain ⟨kind, hEntry⟩ := get?_eq_some_iff.mp hGet
  refine ⟨hTable.toConsistent.remove hGet, ?_, ?_, ?_, ?_, ?_, ?_, ?_⟩
  · rw [size_remove, registrations_append, registrations_removed, List.append_nil]
    exact hTable.size_le
  · intro i entry hNext
    rw [registrations_append, registrations_removed, List.append_nil]
    exact hTable.generation_puts hEntry (puts_remove hEntry) i entry hNext
  · rw [size_remove, registrations_append, registrations_removed, List.append_nil]
    exact hTable.earlier
  · rw [registrations_append, registrations_removed, List.append_nil]
    exact hTable.nodup
  · rw [removals_append]
    exact hTable.removed_nodup.append (List.nodup_singleton h)
      (List.disjoint_singleton.mpr fun hMem => hRemoved (mem_removals.mp hMem))
  · intro other hMem
    rw [registrations_append, registrations_removed, List.append_nil]
    obtain hOld | hHere := List.mem_append.mp hMem
    · exact hTable.removed_mem other hOld
    · cases List.mem_singleton.mp hHere
      exact mem_registrations.mpr ⟨id, hRegistered⟩
  · intro other object
    rw [get?_remove]
    split_ifs with hHere
    · simp [hHere]
    · rw [hTable.get?_iff]
      simp [hHere]

/-- Removing a handle that is not registered changes nothing. -/
theorem Changes.exists_remove (hChanges : first.Changes events last) (h : Handle) :
    ∃ events, first.Changes events (last.remove h).2 := by
  cases hGet : last.get? h with
  | none =>
      rw [remove_of_get?_eq_none hGet]
      exact ⟨events, hChanges⟩
  | some id => exact ⟨_, hChanges.remove hGet⟩

/-- A table never loses a slot. -/
theorem Changes.size_le (h : Changes first events last) :
    first.entries.size ≤ last.entries.size := by
  induction h with
  | refl => exact Nat.le_refl _
  | insert _ id kind ih => exact Nat.le_trans ih (size_le_size_insert _ id kind)
  | setKind _ h kind ih => rwa [size_setKind]
  | @remove _ _ h _ _ _ ih => rwa [size_remove]

/-- The history goes on as the table changes. -/
theorem Changes.follows (hChanges : first.Changes new last) (hFirst : first.Follows events)
    (hRoom : (registrations (events ++ new)).length < Heap.slotLimit) :
    last.Follows (events ++ new) := by
  induction hChanges with
  | refl => simpa using hFirst
  | @insert new middle prior id kind ih =>
      rw [← List.append_assoc, registrations_append, List.length_append] at hRoom
      have hMiddle := ih (Nat.lt_of_le_of_lt (Nat.le_add_right _ _) hRoom)
      rw [← List.append_assoc]
      exact hMiddle.insert hRoom id kind
  | setKind prior h kind ih => exact (ih hRoom).setKind h kind
  | @remove new middle h id prior hGet ih =>
      rw [← List.append_assoc, registrations_append, registrations_removed,
        List.append_nil] at hRoom
      rw [← List.append_assoc]
      exact (ih hRoom).remove hGet

end History

end HandleTable

end ArrayBridge
