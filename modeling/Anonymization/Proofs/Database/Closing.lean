import Anonymization.Proofs.Database.Fetching
/-!
# A connection is closed

* `isBoundary_of_mem_fetch` -- while a table is fetched no connection is opened or closed;
* `ClosedOnce` -- what can be seen of a connection: nothing, an attempt that is refused, or **a connection
  that is closed once, at the very end**;
* `closedOnce_readTable` -- this is so whenever a table is read, however the fetching ends.
-/

namespace Anonymization

/-- The event opens or closes a connection. -/
def DatabaseEvent.isBoundary : DatabaseEvent → Bool
  | .connected _ | .disconnected => true
  | .cursorOpened | .statement _ | .fetched _ _ | .cursorClosed => false

namespace Database

variable {server : Server}

theorem isBoundary_of_mem_cursorEvents {sql : Text} {inside : List DatabaseEvent} {e : DatabaseEvent}
    (h : ∀ e ∈ inside, e.isBoundary = false) (he : e ∈ cursorEvents sql inside) :
    e.isBoundary = false := by
  simp only [cursorEvents, List.mem_cons, List.mem_append, List.not_mem_nil, or_false] at he
  rcases he with rfl | rfl | he | rfl
  · rfl
  · rfl
  · exact h e he
  · rfl

/-- A cursor is no connection. -/
theorem isBoundary_of_mem_withCursor {α : Type} {sql : Text} {result : Step α} {e : DatabaseEvent}
    (h : ∀ e ∈ result.events, e.isBoundary = false) (he : e ∈ (withCursor server sql result).events) :
    e.isBoundary = false := by
  cases hs : server.statementFault sql with
  | some reason =>
    rw [withCursor_of_refused hs] at he
    exact isBoundary_of_mem_cursorEvents (List.forall_mem_nil _) he
  | none =>
    rw [withCursor_of_accepted hs] at he
    exact isBoundary_of_mem_cursorEvents h he

/-- The loop over the batches does nothing but ask for records. -/
theorem isBoundary_of_mem_fetchBatches {batches : List Batch} :
    ∀ e ∈ (fetchBatches batches).events, e.isBoundary = false := by
  induction batches with
  | nil => simp [fetchBatches, Traced.emit, Traced.bind_ok, DatabaseEvent.isBoundary]
  | cons batch batches ih =>
    cases batch with
    | error reason => exact List.forall_mem_nil _
    | ok records =>
      cases records with
      | nil => simp [fetchBatches, Traced.emit, Traced.bind_ok, DatabaseEvent.isBoundary]
      | cons r rs =>
        rw [fetchBatches_cons (List.cons_ne_nil r rs)]
        exact List.forall_mem_cons.mpr ⟨rfl, ih⟩

/-- **While a table is fetched no connection is opened or closed.** -/
theorem isBoundary_of_mem_fetch {table : Text} {e : DatabaseEvent}
    (he : e ∈ (fetch server table).events) : e.isBoundary = false := by
  rw [fetch_eq] at he
  rcases (Traced.mem_events_bind _ _ _).mp he with he | ⟨_, -, he⟩
  · exact isBoundary_of_mem_withCursor (List.forall_mem_nil _) he
  · refine isBoundary_of_mem_withCursor (fun e he => ?_) he
    rcases (Traced.mem_events_bind _ _ _).mp he with he | ⟨_, -, he⟩
    · exact isBoundary_of_mem_fetchBatches e he
    · cases he

/-- What can be seen of a connection to a server, from the beginning to the end. -/
inductive ClosedOnce (server : Server) : List DatabaseEvent → Prop where
  | unopened : ClosedOnce server []
  | refused (h : server.refusal ≠ none) (c : Credentials) : ClosedOnce server [.connected c]
  /-- In between the connection is neither opened nor closed, and all cursors are closed. -/
  | closed (h : server.refusal = none) (c : Credentials) {inside : List DatabaseEvent}
      (hinside : ∀ e ∈ inside, e.isBoundary = false)
      (hcursors : inside.foldlM afterEvent false = some false) :
      ClosedOnce server (.connected c :: (inside ++ [.disconnected]))

theorem events_close (server : Server) : (close server).events = [.disconnected] := by
  unfold close
  cases server.closingFault <;> rfl

/-- How a connection is made. -/
theorem connect_eq (server : Server) (environment : Assoc Text Text) (spec : DatabaseSpec) :
    connect server environment spec =
      if spec.type = .mysql then
        ⟨[.connected (credentials environment spec)],
          match server.refusal with
          | some reason => .error (.connectionFailed spec.text reason)
          | none => .ok ()⟩
      else Traced.fail (.unsupportedDatabase spec.type) := by
  unfold connect
  by_cases hm : spec.type = .mysql
  · rw [if_neg (not_not_intro hm), if_pos hm]
    cases server.refusal <;> rfl
  · rw [if_pos hm, if_neg hm]
    rfl

/-- **A connection that was made is closed once**, whether the table is fetched or not. -/
theorem closedOnce_readTable (server : Server) (environment : Assoc Text Text) (spec : DatabaseSpec) :
    ClosedOnce server (readTable server environment spec).events := by
  unfold readTable
  rw [connect_eq]
  by_cases hm : spec.type = .mysql
  · rw [if_pos hm]
    cases hr : server.refusal with
    | some reason => exact .refused (by simp [hr]) (credentials environment spec)
    | none =>
      have hevents : (Traced.finallyDo (fetch server spec.table) (close server)).events =
          (fetch server spec.table).events ++ [.disconnected] :=
        congrArg _ (events_close server)
      have hclosed := ClosedOnce.closed hr (credentials environment spec)
        (fun e he => isBoundary_of_mem_fetch he) (fetch_leaves server spec.table)
      rw [← hevents] at hclosed
      exact hclosed
  · rw [if_neg hm]
    exact .unopened

end Database

end Anonymization
