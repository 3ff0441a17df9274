import ArrayBridge.Proofs.Broadcasting

/-! The laws of broadcasting.

The common shape of operands is the least one that all of them stretch to. So it depends on which
operands there are, and neither on their order nor on how they are grouped; and where one grouping
has no common shape, no other one has. -/

namespace ArrayBridge.Shape

variable {left right common : Shape} {shapes others : List Shape}

/-- What shapes have in common depends on which shapes there are. -/
theorem isCommon_congr (h : ∀ shape, shape ∈ shapes ↔ shape ∈ others) :
    IsCommon shapes common ↔ IsCommon others common := by
  have hTargets (target : Shape) : (∀ shape ∈ shapes, Stretches shape target) ↔
      ∀ shape ∈ others, Stretches shape target :=
    forall_congr' fun shape => imp_congr_left (h shape)
  exact ⟨fun hCommon => ⟨(hTargets common).mp hCommon.upper,
      fun target hAll => hCommon.least target ((hTargets target).mpr hAll)⟩,
    fun hCommon => ⟨(hTargets common).mpr hCommon.upper,
      fun target hAll => hCommon.least target ((hTargets target).mp hAll)⟩⟩

/-- Joining shapes from left to right does not depend on their order, nor on how often each of them
occurs. -/
theorem joinAll?_congr (h : ∀ shape, shape ∈ shapes ↔ shape ∈ others) :
    joinAll? shapes = joinAll? others := by
  refine Option.ext fun common => ?_
  rw [joinAll?_eq_some_iff, joinAll?_eq_some_iff]
  exact isCommon_congr h

theorem join?_eq_joinAll? (left right : Shape) : join? left right = joinAll? [left, right] := by
  refine Option.ext fun common => ?_
  rw [join?_eq_some_iff, joinAll?_eq_some_iff]

/-- A shape joined to the join of two others is joined to both. -/
theorem join?_bind_join? (first second third : Shape) :
    ((join? first second).bind fun joined => join? joined third)
      = joinAll? [first, second, third] := by
  refine Option.ext fun common => ?_
  rw [joinAll?_eq_some_iff, ← foldlM_join?_eq_some_iff]
  simp [List.foldlM_cons]

theorem join?_comm (left right : Shape) : join? left right = join? right left := by
  rw [join?_eq_joinAll?, join?_eq_joinAll?]
  exact joinAll?_congr fun shape => by simp [or_comm]

theorem join?_assoc (first second third : Shape) :
    ((join? first second).bind fun joined => join? joined third)
      = (join? second third).bind fun joined => join? first joined := by
  have hTurned : ((join? second third).bind fun joined => join? first joined)
      = (join? second third).bind fun joined => join? joined first :=
    Option.bind_congr fun joined _ => join?_comm first joined
  rw [hTurned, join?_bind_join?, join?_bind_join?]
  exact joinAll?_congr fun shape => by simp only [List.mem_cons]; tauto

theorem stretches_refl (shape : Shape) : shape.Stretches shape := stretchesReversed_refl _

theorem isCommon_pair : IsCommon [left, right] common ↔
    left.Stretches common ∧ right.Stretches common ∧
      ∀ target, left.Stretches target → right.Stretches target → common.Stretches target := by
  constructor
  · intro h
    exact ⟨h.upper left (by simp), h.upper right (by simp),
      fun target hLeft hRight => h.least target (by simp [hLeft, hRight])⟩
  · rintro ⟨hLeft, hRight, hLeast⟩
    refine ⟨by simp [hLeft, hRight], fun target hAll => ?_⟩
    exact hLeast target (hAll left (by simp)) (hAll right (by simp))

/-- Two shapes that stretch to some shape have a join. -/
theorem exists_join? {target : Shape} (hLeft : left.Stretches target)
    (hRight : right.Stretches target) : ∃ joined, join? left right = some joined := by
  obtain ⟨reversed, hJoin, -⟩ := joinReversed_least hLeft hRight
  exact ⟨reversed.reverse, by rw [join?, hJoin, Option.map_some]⟩

theorem broadcast_eq_ok_iff :
    left.broadcast right = .ok common ↔ join? left right = some common := by
  rw [broadcast]
  cases join? left right <;> simp

theorem toOption_broadcast (left right : Shape) :
    (left.broadcast right).toOption = join? left right := by
  rw [broadcast]
  cases join? left right <;> rfl

theorem toOption_bind {ε α β : Type} (x : Except ε α) (f : α → Except ε β) :
    (x >>= f).toOption = x.toOption.bind fun a => (f a).toOption := by
  cases x <;> rfl

/-- Broadcasting is a join. It is commutative, idempotent and associative, where a grouping fails
exactly if the other one does; the shape without axes is neutral; and operands have a common shape
exactly if there is a shape that all of them stretch to, which then is the least of these. So the
common shape of index arrays, and whether there is one, does not depend on their order. -/
theorem broadcast_least (a b c : Shape) :
    (a.broadcast b).toOption = (b.broadcast a).toOption ∧
    a.broadcast a = .ok a ∧
    broadcast [] a = .ok a ∧ a.broadcast [] = .ok a ∧
    (a.broadcast b >>= fun joined => joined.broadcast c).toOption
      = (b.broadcast c >>= fun joined => a.broadcast joined).toOption ∧
    (∀ s, a.broadcast b = .ok s ↔ a.Stretches s ∧ b.Stretches s ∧
      ∀ target, a.Stretches target → b.Stretches target → s.Stretches target) ∧
    ((∃ s, a.broadcast b = .ok s) ↔ ∃ target, a.Stretches target ∧ b.Stretches target) ∧
    ∀ shapes others : List Shape, shapes.Perm others → joinAll? shapes = joinAll? others := by
  have hLeast (left right s : Shape) : left.broadcast right = .ok s ↔
      left.Stretches s ∧ right.Stretches s ∧
        ∀ target, left.Stretches target → right.Stretches target → s.Stretches target := by
    rw [broadcast_eq_ok_iff, join?_eq_some_iff, isCommon_pair]
  refine ⟨?commutative, ?idempotent, ?leftNeutral, ?rightNeutral, ?associative, hLeast a b,
    ?exists_iff, ?order⟩
  case commutative => rw [toOption_broadcast, toOption_broadcast, join?_comm]
  case idempotent =>
    exact (hLeast a a a).mpr ⟨stretches_refl a, stretches_refl a, fun _ h _ => h⟩
  case leftNeutral =>
    exact (hLeast [] a a).mpr ⟨nil_stretches a, stretches_refl a, fun _ _ h => h⟩
  case rightNeutral =>
    exact (hLeast a [] a).mpr ⟨stretches_refl a, nil_stretches a, fun _ h _ => h⟩
  case associative =>
    simp only [toOption_bind, toOption_broadcast]
    exact join?_assoc a b c
  case exists_iff =>
    constructor
    · rintro ⟨s, hJoin⟩
      obtain ⟨hLeft, hRight, -⟩ := (hLeast a b s).mp hJoin
      exact ⟨s, hLeft, hRight⟩
    · rintro ⟨target, hLeft, hRight⟩
      obtain ⟨joined, hJoin⟩ := exists_join? hLeft hRight
      exact ⟨joined, broadcast_eq_ok_iff.mpr hJoin⟩
  case order => exact fun shapes others hPerm => joinAll?_congr fun shape => hPerm.mem_iff

/-- A column, a row and an empty stack of squares, whatever comes first. -/
theorem broadcast_least_of_column :
    [[2, 1], [3], [0, 1, 1]].Perm [[0, 1, 1], [2, 1], [3]] ∧
      joinAll? [[2, 1], [3], [0, 1, 1]] = some [0, 2, 3] ∧
      joinAll? [[0, 1, 1], [2, 1], [3]] = some [0, 2, 3] := by
  have hPerm : [[2, 1], [3], [0, 1, 1]].Perm [[0, 1, 1], [2, 1], [3]] := by decide
  have hOrder := (broadcast_least [2, 1] [3] [0, 1, 1]).2.2.2.2.2.2.2 _ _ hPerm
  have hFound : joinAll? [[2, 1], [3], [0, 1, 1]] = some [0, 2, 3] := by decide
  exact ⟨hPerm, hFound, hOrder.symm.trans hFound⟩

end ArrayBridge.Shape
