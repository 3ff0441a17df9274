import ArrayBridge.ForeignRuntime

/-! Operations that commit.

An operation of a runtime reads and checks first. It commits once nothing can fail any
more: from there on it is an action. So what it does in a state is either a refusal,
which changes nothing, or all of an action. A proof that an operation commits follows
its steps: each check may refuse, and the last step acts. -/

namespace ArrayBridge.Operation

variable {ε σ α β : Type} {kind : StateM σ α → Prop} {state : σ}

theorem perform_bind (op : Operation ε σ α) (f : α → Operation ε σ β) (state : σ) :
    (op >>= f).perform state = match op.perform state with
      | (.ok a, next) => (f a).perform next
      | (.error e, next) => (.error e, next) := by
  simp only [perform, ExceptT.run_bind, StateT.run_bind]
  change (match (op.run.run state).1 with | _ => _) = _
  cases hRun : op.run.run state with
  | mk outcome next => cases outcome <;> rfl

theorem perform_always (action : StateM σ α) (state : σ) :
    (always action : Operation ε σ α).perform state
      = (.ok (action.run state).1, (action.run state).2) := rfl

theorem perform_get (f : σ → Operation ε σ α) (state : σ) :
    (get >>= f).perform state = (f state).perform state := rfl

theorem perform_check (x : Except ε β) (f : β → Operation ε σ α) (state : σ) :
    (liftM x >>= f).perform state = match x with
      | .ok b => (f b).perform state
      | .error e => (.error e, state) := by
  cases x <;> rfl

/-- A check that an operation gets past has a result. -/
theorem perform_check_eq_ok_iff {x : Except ε β} {f : β → Operation ε σ α} {state next : σ} {a : α} :
    (liftM x >>= f).perform state = (.ok a, next) ↔
      ∃ b, x = .ok b ∧ (f b).perform state = (.ok a, next) := by
  rw [perform_check]
  cases x with
  | error e => simp
  | ok b => simp

/-- In a state an operation either fails and leaves the state as it is, or acts. What
it does then is an action of a kind. -/
inductive Commits (kind : StateM σ α → Prop) (op : Operation ε σ α) (state : σ) : Prop where
  | refuses (e : ε) (hRun : op.perform state = (.error e, state))
  | acts (action : StateM σ α) (hKind : kind action)
      (hRun : op.perform state = (always action : Operation ε σ α).perform state)

/-- Only what an operation does in the state matters. -/
theorem Commits.of_perform_eq {op other : Operation ε σ α} (h : Commits kind other state)
    (hRun : op.perform state = other.perform state) : Commits kind op state := by
  cases h with
  | refuses e hOther => exact .refuses e (hRun.trans hOther)
  | acts action hKind hOther => exact .acts action hKind (hRun.trans hOther)

theorem Commits.mono {wider : StateM σ α → Prop} {op : Operation ε σ α}
    (h : Commits kind op state) (hWider : ∀ action, kind action → wider action) :
    Commits wider op state := by
  cases h with
  | refuses e hRun => exact .refuses e hRun
  | acts action hKind hRun => exact .acts action (hWider action hKind) hRun

section Steps

theorem commits_always {action : StateM σ α} (h : kind action) :
    Commits kind (always action : Operation ε σ α) state := .acts action h rfl

theorem commits_pure {a : α} (h : kind (pure a)) :
    Commits kind (pure a : Operation ε σ α) state := .acts (pure a) h rfl

theorem commits_throw (e : ε) : Commits kind (throw e : Operation ε σ α) state := .refuses e rfl

/-- An operation starts by reading its state. -/
theorem commits_get {f : σ → Operation ε σ α} (h : Commits kind (f state) state) :
    Commits kind (get >>= f) state := h.of_perform_eq rfl

/-- A check changes nothing, and refuses if it fails. -/
theorem commits_check {x : Except ε β} {rest : β → Operation ε σ α}
    (h : ∀ b, x = .ok b → Commits kind (rest b) state) :
    Commits kind (liftM x >>= rest) state := by
  cases x with
  | error e => exact .refuses e rfl
  | ok b => exact (h b rfl).of_perform_eq rfl

/-- An operation that is a check does nothing in the state. -/
theorem commits_lift {x : Except ε α} (h : ∀ a, kind (pure a)) :
    Commits kind (liftM x : Operation ε σ α) state := by
  cases x with
  | error e => exact .refuses e rfl
  | ok a => exact .acts (pure a) (h a) rfl

/-- What is done after an operation has acted belongs to its action. -/
theorem Commits.andThen {wider : StateM σ β → Prop} {op : Operation ε σ α}
    {after : α → StateM σ β} (h : Commits kind op state)
    (hWider : ∀ action, kind action → wider (action >>= after)) :
    Commits wider (op >>= fun a => always (after a)) state := by
  cases h with
  | refuses e hRun =>
      refine .refuses e ?_
      rw [perform_bind, hRun]
  | acts action hKind hRun =>
      refine .acts (action >>= after) (hWider action hKind) ?_
      rw [perform_bind, hRun]
      rfl

end Steps

section Plans

/-- An operation that does not look at the state to decide: it always refuses in the same way,
or always performs the same action, which is one of a kind. -/
inductive Plans (kind : StateM σ α → Prop) (op : Operation ε σ α) : Prop where
  | refuses (e : ε) (hOp : op = throw e)
  | acts (action : StateM σ α) (hKind : kind action) (hOp : op = always action)

theorem plans_always {action : StateM σ α} (h : kind action) :
    Plans kind (always action : Operation ε σ α) := .acts action h rfl

theorem plans_throw (e : ε) : Plans kind (throw e : Operation ε σ α) := .refuses e rfl

/-- What would follow a failure does not matter. -/
theorem plans_throw_bind (e : ε) (rest : β → Operation ε σ α) :
    Plans kind ((throw e : Operation ε σ β) >>= rest) := .refuses e rfl

theorem bind_error (e : ε) (rest : β → Operation ε σ α) :
    (liftM (.error e : Except ε β) >>= rest) = throw e := rfl

theorem bind_ok (b : β) (rest : β → Operation ε σ α) :
    (liftM (.ok b : Except ε β) >>= rest) = rest b := rfl

/-- A check is made of what was read before, and refuses if it fails. -/
theorem plans_check {x : Except ε β} {rest : β → Operation ε σ α}
    (h : ∀ b, x = .ok b → Plans kind (rest b)) : Plans kind (liftM x >>= rest) := by
  cases x with
  | error e => exact .refuses e (bind_error e rest)
  | ok b => exact h b rfl

theorem Plans.mono {wider : StateM σ α → Prop} {op : Operation ε σ α} (h : Plans kind op)
    (hWider : ∀ action, kind action → wider action) : Plans wider op := by
  cases h with
  | refuses e hOp => exact .refuses e hOp
  | acts action hKind hOp => exact .acts action (hWider action hKind) hOp

/-- An operation with a plan commits in every state. -/
theorem Plans.commits {op : Operation ε σ α} (h : Plans kind op) (state : σ) :
    Commits kind op state := by
  cases h with
  | refuses e hOp => exact .refuses e (by rw [hOp]; rfl)
  | acts action hKind hOp => exact .acts action hKind (by rw [hOp])

end Plans

/-- A failure leaves the state as it was. -/
theorem Commits.state_eq_of_error {op : Operation ε σ α} {e : ε} (h : Commits kind op state)
    (hError : (op.perform state).1 = .error e) : (op.perform state).2 = state := by
  cases h with
  | refuses _ hRun => rw [hRun]
  | acts action _ hRun =>
      rw [hRun] at hError
      exact nomatch hError

end ArrayBridge.Operation
