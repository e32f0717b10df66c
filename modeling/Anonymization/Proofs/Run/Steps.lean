import Anonymization.Proofs.Trace
import Anonymization.Run
/-!
# The steps of a run

* `run_eq` -- a run up to its input table (`prepared`), and from there on (`continued`);
* `onDatabase_databaseTable` -- **of the database, a table with its log shows what the table shows**;
* `databaseEvents_run` -- so a run shows of it what the reading of its input table does, and nothing else;
* `isLate_of_split` -- **behind the first event of the engine or the output there are only such events**.
-/

namespace Anonymization

/-- The event of the database that an event is. -/
def Event.database? : Event → Option DatabaseEvent
  | .database e => some e
  | _ => none

/-- The event is one of the engine or of the output. -/
def Event.isLate : Event → Bool
  | .engine _ | .printed _ | .wrote _ _ => true
  | .warned _ | .logged _ | .database _ | .progressed _ => false

namespace Run

/-! ## 1. Up to the input table, and from there on -/

/-- A run up to its input table: the separator and the configuration, whose criteria are bound. -/
def prepared (h : Host) (o : Options) : Step (Text × Config) := do
  let separator ← findSeparator h o
  let config ← configure h o separator
  let _ ← bindCriteria config
  return (separator, config)

/-- The summary, which is printed when the outcome goes to a file. -/
def announcement (o : Options) (config : Config) (data : Table) : List Event :=
  if (o.value "output").isFalsy then [] else [.printed (summary o config data.size)]

/-- A run behind its summary. -/
def finished (h : Host) (o : Options) (separator : Text) (config : Config) (data : Table) :
    Step Config := do
  let outcome ← Traced.mapEvents .engine
    (Runner.anonymize ⟨o.value "runner", o.value "java"⟩ h.files h.programs h.directory data config)
  deliver h o separator outcome
  return config

/-- A run from its summary on. -/
def concluded (h : Host) (o : Options) (separator : Text) (config : Config) (data : Table) :
    Step Config := do
  Traced.emitAll (announcement o config data)
  finished h o separator config data

/-- A run from its input table on. -/
def continued (h : Host) (o : Options) (separator : Text) (config : Config) : Step Config := do
  concluded h o separator config (← inputTable h o separator)

/-- **A run up to its input table, and from there on.** -/
theorem run_eq (h : Host) (o : Options) :
    run h o = prepared h o >>= fun p => continued h o p.1 p.2 := by
  unfold run prepared
  simp only [Traced.bind_assoc, Traced.pure_bind]
  refine congrArg (_ >>= ·) (funext fun separator => ?_)
  refine congrArg (_ >>= ·) (funext fun config => ?_)
  refine congrArg (_ >>= ·) (funext fun _ => ?_)
  refine congrArg (_ >>= ·) (funext fun data => ?_)
  unfold concluded announcement
  by_cases ho : (o.value "output").isFalsy = true
  · simp only [ho]
    rfl
  · simp only [ho]
    rfl

theorem findSeparator_eq (h : Host) (o : Options) :
    findSeparator h o = ⟨(separatorLog h o).map .logged, separator h o⟩ :=
  Traced.emitAll_ofExcept _ _

theorem configure_eq (h : Host) (o : Options) (separator : Text) :
    configure h o separator =
      ⟨(Config.remarks h.files o separator).map .ofRemark, Config.parse h.files o separator⟩ :=
  Traced.emitAll_ofExcept _ _

/-! ## 2. The database -/

/-- An event of the database is seen among what accompanies it, and no other is. -/
theorem database_accompanied (h : Host) (spec : DatabaseSpec) (e : DatabaseEvent) :
    (accompanied h spec e).filterMap Event.database? = [e] := by
  cases e with
  | statement sql =>
    simp only [accompanied]
    split <;> rfl
  | fetched asked came =>
    simp only [accompanied]
    split <;> rfl
  | connected c => rfl
  | cursorOpened => rfl
  | cursorClosed => rfl
  | disconnected => rfl

/-- **Of the database, a table with its log shows what the table shows.** -/
theorem onDatabase_databaseTable (h : Host) (spec : DatabaseSpec) :
    (databaseTable h spec).seenAs Event.database? =
      Database.readTable h.server h.environment spec := by
  have hdressed : ∀ {α : Type} (x : Traced DatabaseEvent α),
      (x.flatMapEvents (accompanied h spec)).seenAs Event.database? = x :=
    Traced.seenAs_flatMapEvents (database_accompanied h spec)
  unfold databaseTable Database.readTable
  rw [Traced.seenAs_bind, hdressed]
  refine congrArg (_ >>= ·) (funext fun _ => ?_)
  rw [Traced.seenAs_finallyDo, hdressed]
  refine congrArg (Traced.finallyDo · _) ?_
  exact (Traced.seenAs_bind_unseen (fun _ => rfl) _).trans (hdressed _)

/-! ## 3. Early and late events -/

variable {h : Host} {o : Options}

/-- Up to the input table there are remarks only. -/
theorem exists_remark_of_mem_prepared {e : Event} (he : e ∈ (prepared h o).events) :
    ∃ r, e = .ofRemark r := by
  unfold prepared at he
  rcases (Traced.mem_events_bind _ _ _).mp he with he | ⟨separator, -, he⟩
  · obtain ⟨l, -, rfl⟩ : ∃ l ∈ separatorLog h o, .logged l = e := by
      simpa [findSeparator, Traced.mem_events_bind, Traced.emitAll] using he
    exact ⟨.logged l, rfl⟩
  rcases (Traced.mem_events_bind _ _ _).mp he with he | ⟨config, -, he⟩
  · obtain ⟨r, -, rfl⟩ : ∃ r ∈ Config.remarks h.files o separator, .ofRemark r = e := by
      simpa [configure, Traced.mem_events_bind, Traced.emitAll] using he
    exact ⟨r, rfl⟩
  rcases (Traced.mem_events_bind _ _ _).mp he with he | ⟨bound, -, he⟩
  · obtain ⟨-, rfl⟩ : (∃ bound, config.boundCriteria = .ok bound) ∧ e = .logged config.boundLine := by
      simpa [bindCriteria, Traced.mem_events_bind, Traced.emit, Traced.ofExcept] using he
    exact ⟨.logged config.boundLine, rfl⟩
  · cases he

theorem isLate_ofRemark (r : Remark) : (Event.ofRemark r).isLate = false := by
  cases r <;> rfl

theorem database?_ofRemark (r : Remark) : (Event.ofRemark r).database? = none := by
  cases r <;> rfl

theorem isLate_of_mem_accompanied {spec : DatabaseSpec} {d : DatabaseEvent} {e : Event}
    (he : e ∈ accompanied h spec d) : e.isLate = false := by
  cases d <;> simp only [accompanied] at he <;> grind [Event.isLate]

/-- What is seen of a step that is dressed is early. -/
theorem isLate_of_mem_flatMapEvents {α : Type} {spec : DatabaseSpec} {x : Traced DatabaseEvent α}
    {e : Event} (he : e ∈ (x.flatMapEvents (accompanied h spec)).events) : e.isLate = false := by
  obtain ⟨d, -, hd⟩ := List.mem_flatMap.mp he
  exact isLate_of_mem_accompanied hd

/-- **Whatever the input table is read from, nothing late happens.** -/
theorem isLate_of_mem_inputTable {separator : Text} {e : Event}
    (he : e ∈ (inputTable h o separator).events) : e.isLate = false := by
  obtain ⟨source, -, he⟩ := ((Traced.mem_events_bind _ _ _).mp he).resolve_left List.not_mem_nil
  cases source with
  | file path => cases he
  | standardInput =>
    rcases (Traced.mem_events_bind _ _ _).mp he with he | ⟨_, -, he⟩
    · rw [List.mem_singleton.mp he]
      rfl
    · cases he
  | database spec =>
    rcases (Traced.mem_events_bind _ _ _).mp he with he | ⟨_, -, he⟩
    · exact isLate_of_mem_flatMapEvents he
    · rcases List.mem_append.mp he with he | he
      · rcases (Traced.mem_events_bind _ _ _).mp he with he | ⟨data, -, he⟩
        · exact isLate_of_mem_flatMapEvents he
        · rw [List.mem_singleton.mp he]
          rfl
      · exact isLate_of_mem_flatMapEvents he

theorem isLate_of_mem_announcement {config : Config} {data : Table} {e : Event}
    (he : e ∈ announcement o config data) : e.isLate = true := by
  unfold announcement at he
  split at he
  · cases he
  · rw [List.mem_singleton.mp he]
    rfl

/-- What the outcome is put out with: a file is written, or something is printed. -/
theorem put_of_mem_deliver {separator : Text} {outcome : Table} {e : Event}
    (he : e ∈ (deliver h o separator outcome).events) :
    (∃ parts t, e = .wrote parts t) ∨ ∃ t, e = .printed t := by
  unfold deliver at he
  split at he
  · simp only [Traced.mem_events_bind, Traced.events_ofExcept, Traced.emit, List.mem_singleton] at he
    grind
  · simp only [Traced.mem_events_bind, Traced.events_ofExcept, Traced.emit, List.mem_singleton] at he
    grind

/-- Behind the summary everything is late. -/
theorem isLate_of_mem_finished {separator : Text} {config : Config} {data : Table} {e : Event}
    (he : e ∈ (finished h o separator config data).events) : e.isLate = true := by
  rcases (Traced.mem_events_bind _ _ _).mp he with he | ⟨outcome, -, he⟩
  · obtain ⟨e', -, rfl⟩ := List.mem_map.mp he
    rfl
  · rcases (Traced.mem_events_bind _ _ _).mp he with he | ⟨_, -, he⟩
    · rcases put_of_mem_deliver he with ⟨parts, t, rfl⟩ | ⟨t, rfl⟩
      · rfl
      · rfl
    · cases he

/-- Where the table is there, the run goes on with late events only. -/
theorem isLate_of_mem_concluded {separator : Text} {config : Config} {data : Table} {e : Event}
    (he : e ∈ (concluded h o separator config data).events) : e.isLate = true := by
  rcases (Traced.mem_events_bind _ _ _).mp he with he | ⟨_, -, he⟩
  · exact isLate_of_mem_announcement he
  · exact isLate_of_mem_finished he

/-- **First the early events of a run, then the late ones.** -/
theorem events_run_splits (h : Host) (o : Options) : ∃ early late, (run h o).events = early ++ late ∧
    (∀ e ∈ early, e.isLate = false) ∧ ∀ e ∈ late, e.isLate = true := by
  have hprepared : ∀ e ∈ (prepared h o).events, e.isLate = false := by
    intro e he
    obtain ⟨r, rfl⟩ := exists_remark_of_mem_prepared he
    exact isLate_ofRemark r
  rw [run_eq]
  cases hp : (prepared h o).outcome with
  | error e =>
    refine ⟨(prepared h o).events, [], ?_, hprepared, List.forall_mem_nil _⟩
    rw [Traced.events_bind_of_error hp, List.append_nil]
  | ok p =>
    have hearly : ∀ e ∈ (prepared h o).events ++ (inputTable h o p.1).events, e.isLate = false := by
      intro e he
      rcases List.mem_append.mp he with he | he
      · exact hprepared e he
      · exact isLate_of_mem_inputTable he
    rw [Traced.events_bind hp, continued]
    cases ht : (inputTable h o p.1).outcome with
    | error e =>
      refine ⟨_, [], ?_, hearly, List.forall_mem_nil _⟩
      rw [Traced.events_bind_of_error ht, List.append_nil]
    | ok data =>
      rw [Traced.events_bind ht, ← List.append_assoc]
      exact ⟨_, _, rfl, hearly, fun e he => isLate_of_mem_concluded he⟩

/-- **Behind the first late event there are only late ones.** -/
theorem isLate_of_split {before after : List Event} {e e' : Event}
    (hsplit : (run h o).events = before ++ e :: after) (he : e.isLate = true) (he' : e' ∈ after) :
    e'.isLate = true := by
  obtain ⟨early, late, hrun, hearly, hlate⟩ := events_run_splits h o
  rw [hrun, List.append_eq_append_iff] at hsplit
  rcases hsplit with ⟨l, rfl, hl⟩ | ⟨l, rfl, hl⟩
  · refine hlate e' ?_
    rw [hl]
    exact List.mem_append_right _ (List.mem_cons_of_mem _ he')
  · cases l with
    | nil =>
      refine hlate e' ?_
      rw [List.nil_append] at hl
      rw [← hl]
      exact List.mem_cons_of_mem _ he'
    | cons x l =>
      -- the event would be an early one
      obtain ⟨rfl, -⟩ := List.cons.inj hl
      rw [hearly e (List.mem_append_right _ List.mem_cons_self)] at he
      cases he

theorem database?_of_isLate {e : Event} (he : e.isLate = true) : e.database? = none := by
  cases e <;> first | rfl | cases he

/-- What the reading of the input table shows of the database. -/
theorem databaseEvents_inputTable (h : Host) (o : Options) (separator : Text) :
    (inputTable h o separator).events.filterMap Event.database? =
      match source o with
      | .ok (.database spec) => (Database.readTable h.server h.environment spec).events
      | _ => [] := by
  unfold inputTable
  cases source o with
  | error e => rfl
  | ok source =>
    cases source with
    | file path => rfl
    | standardInput => rfl
    | database spec => exact congrArg Traced.events (onDatabase_databaseTable h spec)

/-- **Of the database a run shows what the reading of its input table does**, and nothing else. -/
theorem databaseEvents_run (h : Host) (o : Options) :
    (run h o).events.filterMap Event.database? =
      match (prepared h o).outcome, source o with
      | .ok _, .ok (.database spec) => (Database.readTable h.server h.environment spec).events
      | _, _ => [] := by
  have hprepared : (prepared h o).events.filterMap Event.database? = [] := by
    refine List.filterMap_eq_nil_iff.mpr fun e he => ?_
    obtain ⟨r, rfl⟩ := exists_remark_of_mem_prepared he
    exact database?_ofRemark r
  rw [run_eq]
  cases hp : (prepared h o).outcome with
  | error e =>
    rw [Traced.events_bind_of_error hp]
    exact hprepared
  | ok p =>
    have htable : (continued h o p.1 p.2).events.filterMap Event.database? =
        (inputTable h o p.1).events.filterMap Event.database? := by
      unfold continued
      cases ht : (inputTable h o p.1).outcome with
      | error e => rw [Traced.events_bind_of_error ht]
      | ok data =>
        rw [Traced.events_bind ht, List.filterMap_append, List.append_right_eq_self]
        exact List.filterMap_eq_nil_iff.mpr fun e he => database?_of_isLate (isLate_of_mem_concluded he)
    rw [Traced.events_bind hp, List.filterMap_append, hprepared, List.nil_append, htable,
      databaseEvents_inputTable]
    cases source o with
    | error e => rfl
    | ok source => cases source <;> rfl

end Run

end Anonymization
