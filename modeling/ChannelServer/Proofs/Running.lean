import ChannelServer.Session

/-!
# Running actions

An action is a function from the state before to an answer or a fault and the state after.  Not
every answer and not every state can be compared by computing, but what they are can be read off a
part of them that can.  The equations of the second section run an action one statement at a time;
with them `simp` turns an operation into the conditions it looks at and the state it leaves.

A statement about the state that is left is a relation between two states.  `Settles` says that an
action either succeeds and leaves a state that is related to the one before it, or fails and leaves
the one before it.  An action that takes what fails in its stride always succeeds, and then, if the
relation is reflexive and transitive, it is enough to look at its statements one by one.  That is
`Succeeds`.
-/

namespace ChannelServer

variable {ε σ α β : Type}

/-! ## Checks of results -/

/-- What a check of a result says of the result. -/
theorem exists_ok_of_any {x : Except ε α} {p : α → Bool} (h : x.toOption.any p = true) :
    ∃ a, x = .ok a ∧ p a = true := by
  cases x with
  | ok a => exact ⟨a, rfl, h⟩
  | error e => cases h

/-- What would have been answered does not matter for a fault. -/
theorem eq_error_of_map {f : α → β} {x : Except ε α} {e : ε} (h : x.map f = .error e) :
    x = .error e := by
  cases x with
  | ok a => cases h
  | error e' => exact congrArg Except.error (Except.error.inj h)

/-- An action that answers also leaves a state. -/
theorem exists_ok_of_run {x : EStateM ε σ α} {s : σ} {a : α} (h : x.run' s = some a) :
    ∃ s', x s = .ok a s' := by
  delta EStateM.run' at h
  split at h
  · cases h
    exact ⟨_, ‹_›⟩
  · cases h

/-! ## One statement at a time -/

/-- One computation after another gives a result if both do. -/
theorem bind_eq_ok {x : Except ε α} {f : α → Except ε β} {b : β} :
    (x >>= f) = .ok b ↔ ∃ a, x = .ok a ∧ f a = .ok b := by
  cases x <;> simp [bind, Except.bind]

theorem bind_of_ok {x : Except ε α} {a : α} (h : x = .ok a) (f : α → Except ε β) :
    x >>= f = f a := by
  rw [h]
  rfl

/-- What comes after a fault does not matter. -/
theorem bind_of_error {x : Except ε α} {e : ε} (h : x = .error e) (f : α → Except ε β) :
    x >>= f = .error e := by
  rw [h]
  rfl

@[simp] theorem pure_apply (a : α) (s : σ) : (pure a : EStateM ε σ α) s = .ok a s := rfl

@[simp] theorem bind_apply (x : EStateM ε σ α) (f : α → EStateM ε σ β) (s : σ) :
    (x >>= f) s =
      match x s with
      | .ok a s' => f a s'
      | .error e s' => .error e s' := by
  simp only [bind, EStateM.bind]
  cases x s <;> rfl

@[simp] theorem get_apply (s : σ) : (get : EStateM ε σ σ) s = .ok s s := rfl

@[simp] theorem set_apply (s s' : σ) : (set s' : EStateM ε σ PUnit) s = .ok ⟨⟩ s' := rfl

@[simp] theorem modify_apply (f : σ → σ) (s : σ) :
    (modify f : EStateM ε σ PUnit) s = .ok ⟨⟩ (f s) := rfl

@[simp] theorem throw_apply (e : ε) (s : σ) : (throw e : EStateM ε σ α) s = .error e s := rfl

@[simp] theorem map_apply (f : α → β) (x : EStateM ε σ α) (s : σ) :
    (f <$> x) s =
      match x s with
      | .ok a s' => .ok (f a) s'
      | .error e s' => .error e s' := by
  simp only [Functor.map, EStateM.map]
  cases x s <;> rfl

namespace Registry

@[simp] theorem ask_apply (question : Registry → Except Fault α) (registry : Registry) :
    ask question registry =
      match question registry with
      | .ok answer => .ok answer registry
      | .error fault => .error fault registry := rfl

@[simp] theorem require_apply (condition : Bool) (fault : Fault) (registry : Registry) :
    require condition fault registry =
      if condition then .ok () registry else .error fault registry := rfl

@[simp] theorem attempt_apply (action : Action α) (registry : Registry) :
    attempt action registry =
      match action registry with
      | .ok answer registry => .ok (.ok answer) registry
      | .error fault registry => .ok (.error fault) registry := rfl

end Registry

/-! ## What an action leaves behind -/

/-- The state after an action, whether it failed or not. -/
def leaves (action : EStateM ε σ α) (s : σ) : σ :=
  match action s with
  | .ok _ s' => s'
  | .error _ s' => s'

theorem leaves_of_ok {action : EStateM ε σ α} {s s' : σ} {a : α} (h : action s = .ok a s') :
    leaves action s = s' := by
  rw [leaves, h]

theorem leaves_of_error {action : EStateM ε σ α} {s s' : σ} {e : ε} (h : action s = .error e s') :
    leaves action s = s' := by
  rw [leaves, h]

/-- What an operation answers does not matter to what it leaves. -/
theorem leaves_bind_pure (action : EStateM ε σ α) (f : α → β) (s : σ) :
    leaves (action >>= fun a => pure (f a)) s = leaves action s := by
  simp only [leaves, bind_apply]
  cases action s <;> rfl

/-! ## Success with a trace, failure without one -/

/-- The action succeeds and leaves a state that is related to the one before, or it fails and leaves
the one before. -/
def Settles (R : σ → σ → Prop) (action : EStateM ε σ α) (s : σ) : Prop :=
  (∃ a s', action s = .ok a s' ∧ R s s') ∨ ∃ e, action s = .error e s

/-- The action succeeds from every state and leaves one that is related to it. -/
def Succeeds (R : σ → σ → Prop) (action : EStateM ε σ α) : Prop :=
  ∀ s, ∃ a s', action s = .ok a s' ∧ R s s'

namespace Settles

variable {R : σ → σ → Prop} {action : EStateM ε σ α} {s : σ}

/-- The state before and the state that is left are related, whether the action fails or not. -/
theorem relates (h : Settles R action s) (hrefl : ∀ s, R s s) : R s (leaves action s) := by
  obtain ⟨a, s', hok, hrelated⟩ | ⟨e, herror⟩ := h
  · rw [leaves_of_ok hok]
    exact hrelated
  · rw [leaves_of_error herror]
    exact hrefl s

/-- A failure leaves no trace. -/
theorem eq_of_error (h : Settles R action s) {e : ε} {s' : σ} (herror : action s = .error e s') :
    s' = s := by
  obtain ⟨a, s'', hok, -⟩ | ⟨e', herror'⟩ := h
  · rw [hok] at herror
    cases herror
  · rw [herror'] at herror
    cases herror
    rfl

theorem imp {R' : σ → σ → Prop} (h : Settles R action s) (himp : ∀ s', R s s' → R' s s') :
    Settles R' action s := by
  obtain ⟨a, s', hok, hrelated⟩ | herror := h
  · exact .inl ⟨a, s', hok, himp s' hrelated⟩
  · exact .inr herror

/-- What the action answers does not matter. -/
theorem bind_pure (h : Settles R action s) (f : α → β) :
    Settles R (action >>= fun a => pure (f a)) s := by
  obtain ⟨a, s', hok, hrelated⟩ | ⟨e, herror⟩ := h
  · exact .inl ⟨f a, s', by rw [bind_apply, hok]; rfl, hrelated⟩
  · exact .inr ⟨e, by rw [bind_apply, herror]⟩

end Settles

namespace Succeeds

variable {R : σ → σ → Prop}

theorem settles {action : EStateM ε σ α} (h : Succeeds R action) (s : σ) : Settles R action s :=
  .inl (h s)

theorem pure (hrefl : ∀ s, R s s) (a : α) : Succeeds R (Pure.pure a : EStateM ε σ α) :=
  fun s => ⟨a, s, rfl, hrefl s⟩

theorem bind (htrans : ∀ s s' s'', R s s' → R s' s'' → R s s'') {x : EStateM ε σ α}
    {f : α → EStateM ε σ β} (hx : Succeeds R x) (hf : ∀ a, Succeeds R (f a)) :
    Succeeds R (x >>= f) := by
  intro s
  obtain ⟨a, s', hok, hrelated⟩ := hx s
  obtain ⟨b, s'', hok', hrelated'⟩ := hf a s'
  exact ⟨b, s'', by rw [bind_apply, hok]; exact hok', htrans s s' s'' hrelated hrelated'⟩

theorem get (hrefl : ∀ s, R s s) : Succeeds R (MonadState.get : EStateM ε σ σ) :=
  fun s => ⟨s, s, rfl, hrefl s⟩

/-- An attempt succeeds with the answer that the action failed. -/
theorem attempt {R : Registry → Registry → Prop} (hrefl : ∀ r, R r r) {action : Registry.Action α}
    (h : ∀ registry, Settles R action registry) : Succeeds R (Registry.attempt action) := by
  intro registry
  rw [Registry.attempt_apply]
  obtain ⟨a, registry', hok, hrelated⟩ | ⟨fault, herror⟩ := h registry
  · exact ⟨.ok a, registry', by rw [hok], hrelated⟩
  · exact ⟨.error fault, registry, by rw [herror], hrefl registry⟩

end Succeeds

end ChannelServer
