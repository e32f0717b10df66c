import Anonymization.Failure
/-!
# Steps that leave a trace

A step of a run does things that can be seen from outside, its events, and either answers a value or
fails. `Traced` is both: what was seen, in order, and how the step ended. A step that follows another
adds its events behind; after a failure nothing follows, except what `finallyDo` puts there.
-/

namespace Anonymization

/-- How a step ended and what was seen of it. -/
structure Traced (ε α : Type) where
  events : List ε
  outcome : Except Failure α

namespace Traced

variable {ε α β : Type}

/-- A step that does nothing and answers a value. -/
def value (a : α) : Traced ε α := ⟨[], .ok a⟩

/-- A step that does nothing and ends like this. -/
def ofExcept (r : Except Failure α) : Traced ε α := ⟨[], r⟩

/-- A step that fails. -/
def fail (e : Failure) : Traced ε α := ⟨[], .error e⟩

/-- A step that is one event. -/
def emit (e : ε) : Traced ε Unit := ⟨[e], .ok ()⟩

/-- A step that is some events. -/
def emitAll (es : List ε) : Traced ε Unit := ⟨es, .ok ()⟩

/-- A step and the one that follows it. -/
def andThen (x : Traced ε α) (f : α → Traced ε β) : Traced ε β :=
  match x.outcome with
  | .error e => ⟨x.events, .error e⟩
  | .ok a => ⟨x.events ++ (f a).events, (f a).outcome⟩

instance : Monad (Traced ε) where
  pure := value
  bind := andThen

/-- A step and one that follows it however it ended. If the second fails, its failure counts. -/
def finallyDo (x : Traced ε α) (last : Traced ε Unit) : Traced ε α :=
  ⟨x.events ++ last.events,
    match last.outcome with
    | .error e => .error e
    | .ok _ => x.outcome⟩

/-- The step with its failure told differently. -/
def mapFailure (f : Failure → Failure) (x : Traced ε α) : Traced ε α :=
  ⟨x.events, x.outcome.mapError f⟩

/-- The step among events of a wider kind. -/
def mapEvents {δ : Type} (f : ε → δ) (x : Traced ε α) : Traced δ α :=
  ⟨x.events.map f, x.outcome⟩

/-- The step with several events of a wider kind, or none, in the place of each. -/
def flatMapEvents {δ : Type} (f : ε → List δ) (x : Traced ε α) : Traced δ α :=
  ⟨x.events.flatMap f, x.outcome⟩

@[simp] theorem pure_eq (a : α) : (pure a : Traced ε α) = ⟨[], .ok a⟩ := rfl

@[simp] theorem events_ofExcept (r : Except Failure α) : (ofExcept r : Traced ε α).events = [] := rfl

/-- After a failure the following step is not run. -/
theorem bind_error (es : List ε) (e : Failure) (f : α → Traced ε β) :
    ((⟨es, .error e⟩ : Traced ε α) >>= f) = ⟨es, .error e⟩ := rfl

/-- After an answer the following step adds its events. -/
theorem bind_ok (es : List ε) (a : α) (f : α → Traced ε β) :
    ((⟨es, .ok a⟩ : Traced ε α) >>= f) = ⟨es ++ (f a).events, (f a).outcome⟩ := rfl

/-- A step that does nothing hands its value on. -/
theorem pure_bind (a : α) (f : α → Traced ε β) : (pure a >>= f) = f a := rfl

/-- Some events and then an ending. -/
theorem emitAll_ofExcept (es : List ε) (r : Except Failure α) :
    (emitAll es >>= fun _ => ofExcept r) = ⟨es, r⟩ :=
  congrArg (Traced.mk · r) (List.append_nil es)

/-- A step whose answer is changed. -/
theorem bind_pure_eq (x : Traced ε α) (f : α → β) :
    (x >>= fun a => pure (f a)) = ⟨x.events, x.outcome.map f⟩ := by
  obtain ⟨es, outcome⟩ := x
  cases outcome with
  | error e => rfl
  | ok a => exact congrArg (Traced.mk · (.ok (f a))) (List.append_nil es)

/-- Three steps one after the other, whichever two are taken together. -/
theorem bind_assoc {γ : Type} (x : Traced ε α) (f : α → Traced ε β) (g : β → Traced ε γ) :
    (x >>= f) >>= g = x >>= fun a => f a >>= g := by
  obtain ⟨es, outcome⟩ := x
  cases outcome with
  | error e => rfl
  | ok a =>
    rw [bind_ok, bind_ok]
    generalize f a = y
    obtain ⟨es', outcome'⟩ := y
    cases outcome' with
    | error e => rfl
    | ok b => simp only [bind_ok, List.append_assoc]

/-- After an answer the events of the following step lie behind those of the first. -/
theorem events_bind {x : Traced ε α} {a : α} (h : x.outcome = .ok a) (f : α → Traced ε β) :
    (x >>= f).events = x.events ++ (f a).events := by
  obtain ⟨es, outcome⟩ := x
  obtain rfl : outcome = .ok a := h
  rfl

/-- After a failure there are no further events. -/
theorem events_bind_of_error {x : Traced ε α} {e : Failure} (h : x.outcome = .error e)
    (f : α → Traced ε β) : (x >>= f).events = x.events := by
  obtain ⟨es, outcome⟩ := x
  obtain rfl : outcome = .error e := h
  rfl

/-- What is seen first of two steps is what is seen of the first. -/
theorem events_prefix_bind (x : Traced ε α) (f : α → Traced ε β) :
    x.events <+: (x >>= f).events := by
  obtain ⟨es, outcome⟩ := x
  cases outcome with
  | error e => exact List.prefix_refl es
  | ok a => exact List.prefix_append es (f a).events

/-- Two steps answer when the first does and then the second. -/
theorem outcome_bind_ok_iff (x : Traced ε α) (f : α → Traced ε β) (b : β) :
    (x >>= f).outcome = .ok b ↔ ∃ a, x.outcome = .ok a ∧ (f a).outcome = .ok b := by
  obtain ⟨es, outcome⟩ := x
  cases outcome with
  | error failure => simp [bind_error]
  | ok a => simp [bind_ok]

/-- What is seen of two steps is seen of the first, or of the second after an answer of the first. -/
theorem mem_events_bind (x : Traced ε α) (f : α → Traced ε β) (e : ε) :
    e ∈ (x >>= f).events ↔ e ∈ x.events ∨ ∃ a, x.outcome = .ok a ∧ e ∈ (f a).events := by
  obtain ⟨es, outcome⟩ := x
  cases outcome with
  | error failure => simp [bind_error]
  | ok a => simp [bind_ok]

/-- Two steps among events of a wider kind. -/
theorem mapEvents_bind {δ : Type} (f : ε → δ) (x : Traced ε α) (g : α → Traced ε β) :
    mapEvents f (x >>= g) = mapEvents f x >>= fun a => mapEvents f (g a) := by
  obtain ⟨es, outcome⟩ := x
  cases outcome with
  | error e => rfl
  | ok a => exact congrArg (Traced.mk · (g a).outcome) List.map_append

/-- A step with another behind it answers when both do. -/
theorem outcome_finallyDo_ok_iff (x : Traced ε α) (last : Traced ε Unit) (a : α) :
    (x.finallyDo last).outcome = .ok a ↔ x.outcome = .ok a ∧ last.outcome = .ok () := by
  unfold finallyDo
  cases last.outcome <;> simp

end Traced

end Anonymization
