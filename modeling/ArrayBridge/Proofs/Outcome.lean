import Mathlib.Data.List.Forall2

/-! Computations that can fail, opened from their result.

A sequence of steps succeeds exactly if every step does, on the result of those
before it. -/

namespace ArrayBridge.Outcome

variable {ε α β : Type}

theorem ok_bind (a : α) (f : α → Except ε β) : (Except.ok a >>= f) = f a := rfl

theorem bind_eq_ok_iff {x : Except ε α} {f : α → Except ε β} {b : β} :
    (x >>= f) = .ok b ↔ ∃ a, x = .ok a ∧ f a = .ok b := by
  cases x with
  | error e => exact ⟨fun h => (nomatch h), fun ⟨_, h, _⟩ => (nomatch h)⟩
  | ok a => exact ⟨fun h => ⟨a, rfl, h⟩, fun ⟨_, h, hb⟩ => by cases h; exact hb⟩

theorem pure_eq_ok_iff {a b : α} : (pure a : Except ε α) = .ok b ↔ a = b := Except.ok.injEq a b ▸ Iff.rfl

/-- A step on each item succeeds if it does on all of them. -/
theorem mapM_eq_ok_iff {f : α → Except ε β} {xs : List α} {ys : List β} :
    xs.mapM f = .ok ys ↔ List.Forall₂ (fun x y => f x = .ok y) xs ys := by
  induction xs generalizing ys with
  | nil =>
      rw [List.mapM_nil, pure_eq_ok_iff, List.forall₂_nil_left_iff]
      exact eq_comm
  | cons x xs ih =>
      rw [List.mapM_cons, bind_eq_ok_iff]
      simp only [bind_eq_ok_iff, pure_eq_ok_iff, ih]
      constructor
      · rintro ⟨y, hHead, rest, hTail, rfl⟩
        exact .cons hHead hTail
      · rintro (_ | ⟨hHead, hTail⟩)
        exact ⟨_, hHead, _, hTail, rfl⟩

theorem mapM_array_eq_ok_iff {f : α → Except ε β} {xs : Array α} {ys : Array β} :
    xs.mapM f = .ok ys ↔ List.Forall₂ (fun x y => f x = .ok y) xs.toList ys.toList := by
  rw [← mapM_eq_ok_iff, Array.mapM_eq_mapM_toList]
  cases hMap : xs.toList.mapM f with
  | error e => simp
  | ok zs =>
      change Except.ok zs.toArray = Except.ok ys ↔ _
      rw [Except.ok.injEq, Except.ok.injEq, ← Array.toList_inj]

/-- Items have partners together if each of them has one. -/
theorem exists_forall₂_iff {related : α → β → Prop} {items : List α} :
    (∃ partners, List.Forall₂ related items partners) ↔ ∀ x ∈ items, ∃ y, related x y := by
  induction items with
  | nil => simp
  | cons item items ih =>
      rw [List.forall_mem_cons, ← ih]
      constructor
      · rintro ⟨_, _ | ⟨hHead, hTail⟩⟩
        exact ⟨⟨_, hHead⟩, _, hTail⟩
      · rintro ⟨⟨y, hHead⟩, ys, hTail⟩
        exact ⟨y :: ys, .cons hHead hTail⟩

/-- All steps succeed together if each of them succeeds. -/
theorem exists_mapM_array_eq_ok_iff {f : α → Except ε β} {xs : Array α} :
    (∃ ys, xs.mapM f = .ok ys) ↔ ∀ x ∈ xs, ∃ y, f x = .ok y := by
  simp only [mapM_array_eq_ok_iff, ← Array.mem_toList_iff, ← exists_forall₂_iff]
  exact ⟨fun ⟨ys, h⟩ => ⟨ys.toList, h⟩, fun ⟨ys, h⟩ => ⟨ys.toArray, h⟩⟩

theorem bind_eq_error_iff {x : Except ε α} {f : α → Except ε β} {e : ε} :
    (x >>= f) = .error e ↔ x = .error e ∨ ∃ a, x = .ok a ∧ f a = .error e := by
  cases x with
  | error first => exact ⟨fun h => .inl (by cases h; rfl), fun h => by
      rcases h with h | ⟨_, h, _⟩
      · cases h
        rfl
      · cases h⟩
  | ok a => exact ⟨fun h => .inr ⟨a, rfl, h⟩, fun h => by
      rcases h with h | ⟨_, h, hRest⟩
      · cases h
      · cases h
        exact hRest⟩

/-- A failure is that of one item. -/
theorem exists_of_mapM_array_eq_error {f : α → Except ε β} {xs : Array α} {e : ε}
    (h : xs.mapM f = .error e) : ∃ x ∈ xs, f x = .error e := by
  have hList (items : List α) (hItems : items.mapM f = .error e) : ∃ x ∈ items, f x = .error e := by
    induction items with
    | nil => cases hItems
    | cons item items ih =>
        rw [List.mapM_cons] at hItems
        rcases bind_eq_error_iff.mp hItems with hHead | ⟨first, -, hRest⟩
        · exact ⟨item, List.mem_cons_self, hHead⟩
        · rcases bind_eq_error_iff.mp hRest with hTail | ⟨rest, -, hPure⟩
          · obtain ⟨x, hMem, hFails⟩ := ih hTail
            exact ⟨x, List.mem_cons_of_mem _ hMem, hFails⟩
          · cases hPure
  rw [Array.mapM_eq_mapM_toList] at h
  cases hMap : xs.toList.mapM f with
  | ok ys => rw [hMap] at h; cases h
  | error first =>
      rw [hMap] at h
      cases h
      obtain ⟨x, hMem, hFails⟩ := hList _ hMap
      exact ⟨x, Array.mem_toList_iff.mp hMem, hFails⟩

/-- Every result that a computation can have is one of a kind. -/
def Returns (kind : α → Prop) (x : Except ε α) : Prop := ∀ a, x = .ok a → kind a

section Returns

variable {kind : β → Prop}

theorem returns_pure {b : β} (h : kind b) : Returns kind (pure b : Except ε β) := by
  intro a hEq
  obtain rfl := pure_eq_ok_iff.mp hEq
  exact h

theorem returns_error (e : ε) : Returns kind (.error e) := fun _ hEq => (nomatch hEq)

theorem returns_bind {x : Except ε α} {f : α → Except ε β}
    (h : ∀ a, x = .ok a → Returns kind (f a)) : Returns kind (x >>= f) := by
  intro b hEq
  obtain ⟨a, hFirst, hRest⟩ := bind_eq_ok_iff.mp hEq
  exact h a hFirst b hRest

end Returns

/-- Two computations have results that are related, or fail in the same way. -/
inductive Agree (related : α → β → Prop) : Except ε α → Except ε β → Prop
  | ok {a : α} {b : β} (h : related a b) : Agree related (.ok a) (.ok b)
  | error (e : ε) : Agree related (.error e) (.error e)

theorem Agree.bind {α' β' : Type} {related : α → β → Prop} {wider : α' → β' → Prop}
    {x : Except ε α} {y : Except ε β} {f : α → Except ε α'} {g : β → Except ε β'}
    (h : Agree related x y) (hNext : ∀ a b, related a b → Agree wider (f a) (g b)) :
    Agree wider (x >>= f) (y >>= g) := by
  cases h with
  | ok hResult => exact hNext _ _ hResult
  | error e => exact .error e

end ArrayBridge.Outcome
