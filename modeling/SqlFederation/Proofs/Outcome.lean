import SqlFederation.Link.World

/-!
# The outcome of calls

A call is known by its outcome in every state. The lemmas here give the outcome of a call from the
outcomes of its parts, so that proofs about links never open the monad that calls live in.
-/

namespace SqlFederation

namespace Call

variable {σ τ α β : Type}

/-- Calls with the same outcomes are the same. -/
theorem ext {call other : Call σ α} (h : ∀ s, call.outcome s = other.outcome s) : call = other :=
  funext h

@[simp]
theorem outcome_pure (a : α) (s : σ) : outcome (pure a : Call σ α) s = (.ok a, s) := rfl

@[simp]
theorem outcome_of (f : σ → Except Error α × σ) (s : σ) : (of f).outcome s = f s := rfl

@[simp]
theorem outcome_fail (e : Error) (s : σ) : (fail e : Call σ α).outcome s = (.error e, s) := rfl

@[simp]
theorem outcome_done (result : Except Error α) (s : σ) :
    (done result : Call σ α).outcome s = (result, s) := rfl

@[simp]
theorem outcome_reading (f : σ → α) (s : σ) : (reading f).outcome s = (.ok (f s), s) := rfl

@[simp]
theorem outcome_changing (f : σ → σ) (s : σ) : (changing f).outcome s = (.ok (), f s) := rfl

@[simp]
theorem outcome_inPart (get : σ → τ) (put : τ → σ → σ) (call : Call τ α) (s : σ) :
    (inPart get put call).outcome s =
      ((call.outcome (get s)).1, put (call.outcome (get s)).2 s) := rfl

@[simp]
theorem outcome_andThenAlways (call : Call σ α) (cleanup : Call σ Unit) (s : σ) :
    (call.andThenAlways cleanup).outcome s =
      ((call.outcome s).1, (cleanup.outcome (call.outcome s).2).2) := rfl

/-- After a call that succeeds, the rest of the calls goes on in the state behind it. -/
theorem outcome_bind_of_ok {call : Call σ α} {f : α → Call σ β} {s s' : σ} {a : α}
    (h : call.outcome s = (.ok a, s')) : (call >>= f).outcome s = (f a).outcome s' := by
  unfold outcome at h ⊢
  simp only [ExceptT.run_bind, StateT.run_bind, h]
  rfl

/-- A call that fails ends the calls behind it. -/
theorem outcome_bind_of_error {call : Call σ α} {f : α → Call σ β} {s s' : σ} {e : Error}
    (h : call.outcome s = (.error e, s')) : (call >>= f).outcome s = (.error e, s') := by
  unfold outcome at h ⊢
  simp only [ExceptT.run_bind, StateT.run_bind, h]
  rfl

/-- What is made of the value of a call is made of its outcome. -/
theorem outcome_map (f : α → β) (call : Call σ α) (s : σ) :
    (f <$> call).outcome s = ((call.outcome s).1.map f, (call.outcome s).2) := by
  cases hcall : call.outcome s with
  | mk result s' =>
    rw [map_eq_pure_bind]
    cases result with
    | ok a => exact outcome_bind_of_ok hcall
    | error e => exact outcome_bind_of_error hcall

/-- What is made of the value of a call is made if the call succeeds. -/
theorem exists_of_map_ok {f : α → β} {call : Call σ α} {s s' : σ} {b : β}
    (h : (f <$> call).outcome s = (.ok b, s')) : ∃ a, call.outcome s = (.ok a, s') ∧ f a = b := by
  rw [outcome_map] at h
  cases hcall : call.outcome s with
  | mk result between =>
    rw [hcall] at h
    cases result with
    | error e => cases h
    | ok a =>
      cases h
      exact ⟨a, rfl, rfl⟩

/-- If nothing can be made of the value of a call, the call fails. -/
theorem error_of_map {f : α → β} {call : Call σ α} {s s' : σ} {e : Error}
    (h : (f <$> call).outcome s = (.error e, s')) : call.outcome s = (.error e, s') := by
  rw [outcome_map] at h
  cases hcall : call.outcome s with
  | mk result between =>
    rw [hcall] at h
    cases result with
    | error e =>
      cases h
      rfl
    | ok a => cases h

/-- Calls one after the other succeed if each of them does. -/
theorem exists_of_bind_ok {call : Call σ α} {f : α → Call σ β} {s s' : σ} {b : β}
    (h : (call >>= f).outcome s = (.ok b, s')) :
    ∃ a between, call.outcome s = (.ok a, between) ∧ (f a).outcome between = (.ok b, s') := by
  cases hcall : call.outcome s with
  | mk result between =>
    cases result with
    | ok a => exact ⟨a, between, rfl, (outcome_bind_of_ok hcall).symm.trans h⟩
    | error e =>
      rw [outcome_bind_of_error hcall] at h
      cases h

/-- Calls one after the other fail if the first one does, or if the rest does behind it. -/
theorem error_of_bind {call : Call σ α} {f : α → Call σ β} {s s' : σ} {e : Error}
    (h : (call >>= f).outcome s = (.error e, s')) :
    call.outcome s = (.error e, s') ∨
      ∃ a between, call.outcome s = (.ok a, between) ∧ (f a).outcome between = (.error e, s') := by
  cases hcall : call.outcome s with
  | mk result between =>
    cases result with
    | ok a => exact Or.inr ⟨a, between, rfl, (outcome_bind_of_ok hcall).symm.trans h⟩
    | error e' =>
      rw [outcome_bind_of_error hcall] at h
      cases h
      exact Or.inl rfl

/-- Does a property of the state hold behind a call, however it ended, if it held before? -/
def Preserves (property : σ → Prop) (call : Call σ α) : Prop :=
  ∀ s, property s → property (call.outcome s).2

/-- Calls one after the other preserve what each of them preserves, where it is reached. -/
theorem Preserves.bind_of_ok {property : σ → Prop} {call : Call σ α} {f : α → Call σ β}
    (h : call.Preserves property)
    (hrest : ∀ a s s', call.outcome s = (.ok a, s') → (f a).Preserves property) :
    (call >>= f).Preserves property := by
  intro s hs
  have hs' := h s hs
  cases hcall : call.outcome s with
  | mk result s' =>
    rw [hcall] at hs'
    cases result with
    | ok a =>
      rw [outcome_bind_of_ok hcall]
      exact hrest a s s' hcall s' hs'
    | error e =>
      rw [outcome_bind_of_error hcall]
      exact hs'

/-- Calls one after the other preserve what each of them preserves. -/
theorem Preserves.bind {property : σ → Prop} {call : Call σ α} {f : α → Call σ β}
    (h : call.Preserves property) (hrest : ∀ a, (f a).Preserves property) :
    (call >>= f).Preserves property :=
  h.bind_of_ok fun a _ _ _ => hrest a

theorem preserves_pure (property : σ → Prop) (a : α) :
    (pure a : Call σ α).Preserves property :=
  fun _ hs => hs

theorem done_ok_bind (a : α) (f : α → Call σ β) : (done (.ok a) >>= f) = f a := rfl

theorem done_error_bind (e : Error) (f : α → Call σ β) : (done (.error e) >>= f) = fail e := rfl

end Call

end SqlFederation
