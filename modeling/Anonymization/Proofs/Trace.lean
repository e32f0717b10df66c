import Anonymization.Trace
import Mathlib
/-!
# Steps seen in part

Of a step one may see only some of its events, or see them as something else (`Traced.seenAs`). What is
seen of two steps is what is seen of each; a step that is dressed with further events is seen as it was
before, by whoever does not see these.

* `seenAs_bind`, `seenAs_finallyDo` -- one equation for each way of putting steps together;
* `seenAs_flatMapEvents` -- a step that is dressed;
* `seenAs_bind_unseen` -- a step that says something at its end.
-/

namespace Anonymization.Traced

variable {ε δ α β : Type}

/-- A step as it is seen by whoever sees these of its events. -/
def seenAs (f : ε → Option δ) (x : Traced ε α) : Traced δ α :=
  ⟨x.events.filterMap f, x.outcome⟩

@[simp] theorem outcome_seenAs (f : ε → Option δ) (x : Traced ε α) :
    (x.seenAs f).outcome = x.outcome := rfl

theorem events_seenAs (f : ε → Option δ) (x : Traced ε α) :
    (x.seenAs f).events = x.events.filterMap f := rfl

theorem seenAs_bind (f : ε → Option δ) (x : Traced ε α) (g : α → Traced ε β) :
    (x >>= g).seenAs f = x.seenAs f >>= fun a => (g a).seenAs f := by
  obtain ⟨es, outcome⟩ := x
  cases outcome with
  | error e => rfl
  | ok a => exact congrArg (Traced.mk · (g a).outcome) List.filterMap_append

theorem seenAs_finallyDo (f : ε → Option δ) (x : Traced ε α) (last : Traced ε Unit) :
    (x.finallyDo last).seenAs f = (x.seenAs f).finallyDo (last.seenAs f) :=
  congrArg (Traced.mk · (x.finallyDo last).outcome) List.filterMap_append

theorem seenAs_mapEvents {γ : Type} (f : ε → Option δ) (g : γ → ε) (x : Traced γ α) :
    (x.mapEvents g).seenAs f = x.seenAs (f ∘ g) :=
  congrArg (Traced.mk · x.outcome) List.filterMap_map

/-- **A step that is dressed** with events that are not seen is seen as it was. -/
theorem seenAs_flatMapEvents {f : ε → Option δ} {g : δ → List ε} (h : ∀ d, (g d).filterMap f = [d])
    (x : Traced δ α) : (x.flatMapEvents g).seenAs f = x := by
  have hevents : ∀ ds : List δ, (ds.flatMap g).filterMap f = ds := by
    intro ds
    induction ds with
    | nil => rfl
    | cons d ds ih => rw [List.flatMap_cons, List.filterMap_append, h, ih, List.singleton_append]
  exact congrArg (Traced.mk · x.outcome) (hevents x.events)

/-- A step with events behind it that are not seen is seen without them. -/
theorem seenAs_bind_unseen {f : ε → Option δ} {es : α → List ε} (h : ∀ a, (es a).filterMap f = [])
    (x : Traced ε α) : (x >>= fun a => (⟨es a, .ok a⟩ : Traced ε α)).seenAs f = x.seenAs f := by
  obtain ⟨before, outcome⟩ := x
  cases outcome with
  | error e => rfl
  | ok a =>
    rw [bind_ok]
    refine congrArg (Traced.mk · (.ok a)) ?_
    rw [List.filterMap_append, h, List.append_nil]

end Anonymization.Traced
