import Anonymization.Proofs.Database.Closing
import Anonymization.Proofs.Run.Steps
/-!
# The course of a run

A run is a line of stages, each of which may fail. Its course is what happens in it with the beginning
and the end of each stage marked; what the stages call may do and answer anything (`Parts`).

* `Allowed` -- what has to lie behind each moment of a course: **the engine comes behind configuration,
  adaptation and input table, the output behind the engine, and a connection is closed in between**;
* `Kept`, `Kept.bind`, `Kept.bind_staged` -- that everything is allowed is told step by step;
* `kept_course` -- and so it is in every course;
* `Orderly.spared` -- so **where a stage fails before the output, no file is changed and no table
  printed**;
* `closedOnce_run`, `database_notMem_of_isLate` -- in the events of the run itself **a connection that was
  made is closed once**, also where the fetching fails, and before the engine;
* `course_orderly` -- and the run is its course without the marks.
-/

namespace Anonymization

/-! ## 1. Stages -/

namespace Run

/-- The stages of a run. -/
inductive Stage where
  | separator
  | configuration
  | adaptation
  | loading
  /-- Part of the loading, like the next two, where the table comes from a database. -/
  | connection
  | fetching
  | closing
  | engine
  | output
  deriving DecidableEq

/-- What happens in the course of a run. -/
inductive Moment where
  | started (s : Stage)
  /-- The stage ended, and not with a failure. -/
  | finished (s : Stage)
  | seen (e : Event)

/-- The event of a moment. -/
def Moment.event? : Moment → Option Event
  | .seen e => some e
  | _ => none

variable {α β : Type}

/-- A step with its events as moments. -/
def watched (x : Step α) : Traced Moment α :=
  Traced.mapEvents .seen x

/-- A step as a stage. -/
def staged (s : Stage) (x : Traced Moment α) : Traced Moment α := do
  Traced.emit (.started s)
  let a ← x
  Traced.emit (.finished s)
  return a

/-- What a run calls, whatever each part does and answers. -/
structure Parts where
  separator : Traced LogLine Text
  configuration : (separator : Text) → Traced Remark Config
  adaptation : Config → Traced LogLine (List Json)
  file : (separator path : Text) → Except Failure Table
  standardInput : (separator : Text) → Except Failure Table
  connection : DatabaseSpec → Traced DatabaseEvent Unit
  /-- The counting of the records and the fetching of all of them. -/
  fetching : DatabaseSpec → Traced DatabaseEvent Table
  closing : Traced DatabaseEvent Unit
  engine : Table → Config → Traced Runner.EngineEvent Table

/-- The parts of a run with the given options. -/
def Parts.of (h : Host) (o : Options) : Parts where
  separator := ⟨separatorLog h o, Run.separator h o⟩
  configuration separator := ⟨Config.remarks h.files o separator, Config.parse h.files o separator⟩
  adaptation config := do
    let bound ← Traced.ofExcept config.boundCriteria
    Traced.emit config.boundLine
    return bound
  file separator path := h.files.readTable separator path
  standardInput separator := Table.read separator .unified h.input
  connection spec := Database.connect h.server h.environment spec
  fetching spec := Database.fetch h.server spec.table
  closing := Database.close h.server
  engine data config :=
    Runner.anonymize ⟨o.value "runner", o.value "java"⟩ h.files h.programs h.directory data config

/-- The fetching of a table with its log. -/
def Parts.fetched (p : Parts) (h : Host) (spec : DatabaseSpec) : Step Table := do
  let data ← Traced.flatMapEvents (accompanied h spec) (p.fetching spec)
  Traced.emit (.logged (Database.fetchedLine data.size h.server.count spec.table))
  return data

/-- The course of reading the input table. -/
def Parts.load (p : Parts) (h : Host) (separator : Text) : Except Failure Source → Traced Moment Table
  | .error e => Traced.fail e
  | .ok (.file path) => Traced.ofExcept (p.file separator path)
  | .ok (.database spec) => do
    staged .connection (watched (Traced.flatMapEvents (accompanied h spec) (p.connection spec)))
    Traced.finallyDo (staged .fetching (watched (p.fetched h spec)))
      (staged .closing (watched (Traced.flatMapEvents (accompanied h spec) p.closing)))
  | .ok .standardInput => do
    watched (Traced.emit (.logged standardInputLine))
    Traced.ofExcept (p.standardInput separator)

/-- The course of a run from its input table on. -/
def Parts.conclude (p : Parts) (h : Host) (o : Options) (separator : Text) (config : Config)
    (data : Table) : Traced Moment Config := do
  watched (Traced.emitAll (announcement o config data))
  let outcome ← staged .engine (watched (Traced.mapEvents .engine (p.engine data config)))
  staged .output (watched (deliver h o separator outcome))
  return config

/-- The course of a run of these parts. -/
def course (h : Host) (o : Options) (p : Parts) : Traced Moment Config := do
  let separator ← staged .separator (watched (Traced.mapEvents .logged p.separator))
  let config ← staged .configuration
    (watched (Traced.mapEvents .ofRemark (p.configuration separator)))
  let _ ← staged .adaptation (watched (Traced.mapEvents .logged (p.adaptation config)))
  let data ← staged .loading (p.load h separator (source o))
  p.conclude h o separator config data

/-! ## 2. What has to lie behind a moment -/

/-- No stage is left unfinished. -/
def Complete (past : List Moment) : Prop :=
  ∀ s, .started s ∈ past → .finished s ∈ past

/-- A connection that was made is closed. -/
def Closed (past : List Moment) : Prop :=
  .finished .connection ∈ past → .started .closing ∈ past

/-- What has to have happened before a stage. Before the engine nothing is left unfinished, and a
connection is closed. -/
def Stage.Awaits (past : List Moment) : Stage → Prop
  | .separator => True
  | .configuration => .finished .separator ∈ past
  | .adaptation => .finished .configuration ∈ past
  | .loading => .finished .adaptation ∈ past
  | .connection => .started .loading ∈ past
  | .fetching => .finished .connection ∈ past
  | .closing => .finished .connection ∈ past ∧ .started .closing ∉ past
  | .engine =>
    .finished .configuration ∈ past ∧ .finished .adaptation ∈ past ∧ .finished .loading ∈ past ∧
      Closed past ∧ Complete past
  | .output => .finished .engine ∈ past

/-- The text is the summary of a run whose outcome goes to a file. -/
def IsSummary (o : Options) (t : Text) : Prop :=
  (o.value "output").isFalsy = false ∧ ∃ config records, t = summary o config records

/-- What has to have happened before a moment of a run with these options. Behind the engine there is
nothing but the output, and before its end nothing is put out but a summary. -/
def Allowed (o : Options) (past : List Moment) : Moment → Prop
  | .started s => s.Awaits past ∧ (s ≠ .output → .started .engine ∉ past)
  | .finished s => .started s ∈ past
  | .seen (.warned _) => .started .configuration ∈ past
  | .seen (.logged _) => True
  | .seen (.database _) => .started .connection ∈ past
  | .seen (.progressed _) => .started .connection ∈ past
  | .seen (.engine _) => .started .engine ∈ past
  | .seen (.wrote _ _) => .finished .engine ∈ past
  | .seen (.printed t) => .finished .engine ∈ past ∨ IsSummary o t

/-- Everything that happens after what is past is allowed. -/
def Kept (o : Options) (past : List Moment) : List Moment → Prop
  | [] => True
  | m :: rest => Allowed o past m ∧ Kept o (past ++ [m]) rest

variable {o : Options} {past : List Moment}

theorem kept_append (l l' : List Moment) :
    Kept o past (l ++ l') ↔ Kept o past l ∧ Kept o (past ++ l) l' := by
  induction l generalizing past with
  | nil => simp [Kept]
  | cons m l ih => simp [Kept, ih, and_assoc]

/-- What is allowed whatever else happened after what is past. -/
theorem kept_of_forall {l : List Moment} (h : ∀ m ∈ l, ∀ later, Allowed o (past ++ later) m) :
    Kept o past l := by
  induction l generalizing past with
  | nil => exact trivial
  | cons m l ih =>
    obtain ⟨hm, hl⟩ := List.forall_mem_cons.mp h
    refine ⟨by simpa using hm [], ih fun m' hm' later => ?_⟩
    rw [List.append_assoc]
    exact hl m' hm' _

/-- **A step and the one that follows it.** -/
theorem Kept.bind {x : Traced Moment α} {f : α → Traced Moment β} (hx : Kept o past x.events)
    (hf : ∀ a, x.outcome = .ok a → Kept o (past ++ x.events) (f a).events) :
    Kept o past (x >>= f).events := by
  obtain ⟨es, outcome⟩ := x
  cases outcome with
  | error e => exact hx
  | ok a => exact (kept_append _ _).mpr ⟨hx, hf a rfl⟩

theorem kept_watched (x : Step α)
    (h : ∀ e ∈ x.events, ∀ later, Allowed o (past ++ later) (.seen e)) :
    Kept o past (watched x).events := by
  refine kept_of_forall fun m hm => ?_
  obtain ⟨e, he, rfl⟩ := List.mem_map.mp hm
  exact h e he

/-! ## 3. Stages and their marks -/

theorem events_staged (s : Stage) (x : Traced Moment α) :
    (staged s x).events = .started s :: x.events ++
      (match x.outcome with | .ok _ => [.finished s] | .error _ => []) := by
  obtain ⟨es, outcome⟩ := x
  cases outcome with
  | error e => simp [staged, Traced.emit, Traced.bind_ok, Traced.bind_error]
  | ok a => simp [staged, Traced.emit, Traced.bind_ok]

@[simp] theorem outcome_staged (s : Stage) (x : Traced Moment α) : (staged s x).outcome = x.outcome := by
  obtain ⟨es, outcome⟩ := x
  cases outcome <;> rfl

@[simp] theorem mem_staged {s : Stage} {x : Traced Moment α} {m : Moment} :
    m ∈ (staged s x).events ↔
      m = .started s ∨ m ∈ x.events ∨ m = .finished s ∧ ∃ a, x.outcome = .ok a := by
  rw [events_staged]
  cases x.outcome <;> simp

/-- The end of a stage lies behind it, if what happened in it did not fail. -/
theorem finished_mem_staged {s : Stage} {x : Traced Moment α} {a : α} (h : x.outcome = .ok a) :
    .finished s ∈ (staged s x).events :=
  mem_staged.mpr (.inr (.inr ⟨rfl, a, h⟩))

/-- **A stage is kept when it may start** and what happens in it is kept. -/
theorem Kept.staged {s : Stage} {x : Traced Moment α} (hs : Allowed o past (.started s))
    (hx : Kept o (past ++ [.started s]) x.events) : Kept o past (staged s x).events := by
  rw [events_staged, List.cons_append]
  refine ⟨hs, (kept_append _ _).mpr ⟨hx, ?_⟩⟩
  cases x.outcome with
  | error e => exact trivial
  | ok a => exact ⟨by simp [Allowed], trivial⟩

/-- **A stage and the step that follows it.** -/
theorem Kept.bind_staged {s : Stage} {x : Traced Moment α} {f : α → Traced Moment β}
    (hs : Allowed o past (.started s)) (hx : Kept o (past ++ [.started s]) x.events)
    (hf : ∀ a, x.outcome = .ok a → Kept o (past ++ (Run.staged s x).events) (f a).events) :
    Kept o past (Run.staged s x >>= f).events :=
  (Kept.staged hs hx).bind fun a ha => hf a ((outcome_staged s x).symm.trans ha)

@[simp] theorem mem_watched {x : Step α} {m : Moment} :
    m ∈ (watched x).events ↔ ∃ e ∈ x.events, .seen e = m :=
  List.mem_map

@[simp] theorem outcome_watched (x : Step α) : (watched x).outcome = x.outcome := rfl

theorem Complete.append {l l' : List Moment} (h : Complete l) (h' : Complete l') :
    Complete (l ++ l') := by
  intro s hs
  rcases List.mem_append.mp hs with hs | hs
  · exact List.mem_append_left _ (h s hs)
  · exact List.mem_append_right _ (h' s hs)

theorem complete_watched (x : Step α) : Complete (watched x).events := by
  intro s hs
  simp at hs

/-- A stage that ended leaves nothing unfinished, if what happened in it does not. -/
theorem Complete.staged {s : Stage} {x : Traced Moment α} {a : α} (hx : x.outcome = .ok a)
    (h : Complete x.events) : Complete (staged s x).events := by
  intro t ht
  rw [mem_staged] at ht ⊢
  rcases ht with ht | ht | ⟨ht, -⟩
  · cases ht
    exact .inr (.inr ⟨rfl, a, hx⟩)
  · exact .inr (.inl (h t ht))
  · cases ht

theorem Closed.bind {x : Traced Moment α} {f : α → Traced Moment β} (hx : Closed x.events)
    (hf : ∀ a, Closed (f a).events) : Closed (x >>= f).events := by
  intro hmem
  rcases (Traced.mem_events_bind _ _ _).mp hmem with hmem | ⟨a, ha, hmem⟩
  · exact (Traced.mem_events_bind _ _ _).mpr (.inl (hx hmem))
  · exact (Traced.mem_events_bind _ _ _).mpr (.inr ⟨a, ha, hf a hmem⟩)

theorem closed_watched (x : Step α) : Closed (watched x).events := by
  intro hs
  simp at hs

theorem Closed.staged {s : Stage} {x : Traced Moment α} (hs : s ≠ .connection) (h : Closed x.events) :
    Closed (staged s x).events := by
  intro hmem
  rw [mem_staged] at hmem ⊢
  rcases hmem with hmem | hmem | ⟨hmem, -⟩
  · cases hmem
  · exact .inr (.inl (h hmem))
  · cases hmem
    exact absurd rfl hs

/-! ## 4. The input table -/

variable {h : Host} {p : Parts} {separator : Text} {input : Except Failure Source}

/-- What accompanies an event of the database can be seen once a connection is being made. -/
theorem allowed_of_accompanied {spec : DatabaseSpec} {d : DatabaseEvent} {e : Event}
    (he : e ∈ accompanied h spec d) (hconnection : .started .connection ∈ past) :
    Allowed o past (.seen e) := by
  have hkind : (∃ l, e = .logged l) ∨ (∃ d, e = .database d) ∨ ∃ p, e = .progressed p := by
    cases d <;> simp only [accompanied] at he <;> grind
  rcases hkind with ⟨l, rfl⟩ | ⟨d, rfl⟩ | ⟨p, rfl⟩
  · exact trivial
  · exact hconnection
  · exact hconnection

theorem kept_dressed {spec : DatabaseSpec} (x : Traced DatabaseEvent α)
    (hconnection : .started .connection ∈ past) :
    Kept o past (watched (Traced.flatMapEvents (accompanied h spec) x)).events := by
  refine kept_watched _ fun e he later => ?_
  obtain ⟨d, -, hd⟩ := List.mem_flatMap.mp he
  exact allowed_of_accompanied hd (List.mem_append_left _ hconnection)

theorem kept_fetched {spec : DatabaseSpec} (hconnection : .started .connection ∈ past) :
    Kept o past (watched (p.fetched h spec)).events := by
  refine kept_watched _ fun e he later => ?_
  rcases (Traced.mem_events_bind _ _ _).mp he with he | ⟨data, -, he⟩
  · obtain ⟨d, -, hd⟩ := List.mem_flatMap.mp he
    exact allowed_of_accompanied hd (List.mem_append_left _ hconnection)
  · rw [List.mem_singleton.mp he]
    exact trivial

/-- **Reading the input table is kept**: a connection is closed once, however the fetching ends. -/
theorem kept_load (hloading : .started .loading ∈ past) (hclosing : .started .closing ∉ past)
    (hengine : .started .engine ∉ past) : Kept o past (p.load h separator input).events := by
  match input with
  | .error _ | .ok (.file _) => exact trivial
  | .ok .standardInput =>
    exact Kept.bind (kept_watched _ fun e he later => List.mem_singleton.mp he ▸ trivial)
      fun _ _ => trivial
  | .ok (.database spec) =>
    refine Kept.bind_staged ⟨hloading, fun _ => hengine⟩ (kept_dressed _ (by simp))
      fun _ hconnected => (kept_append _ _).mpr ⟨?_, ?_⟩
    · refine Kept.staged ⟨List.mem_append_right _ (finished_mem_staged hconnected), fun _ => ?_⟩
        (kept_fetched (by simp))
      simpa using hengine
    · refine Kept.staged ⟨⟨?_, ?_⟩, fun _ => ?_⟩ (kept_dressed _ (by simp))
      · exact List.mem_append_left _ (List.mem_append_right _ (finished_mem_staged hconnected))
      · simpa using hclosing
      · simpa using hengine

/-- The stages of the loading. -/
theorem stage_of_mem_load {s : Stage} (hs : .started s ∈ (p.load h separator input).events) :
    s = .connection ∨ s = .fetching ∨ s = .closing := by
  match input with
  | .error _ | .ok (.file _) => cases hs
  | .ok .standardInput =>
    simp [Parts.load, Traced.mem_events_bind] at hs
  | .ok (.database spec) =>
    simp only [Parts.load, Traced.mem_events_bind, Traced.finallyDo, List.mem_append, mem_staged,
      mem_watched] at hs
    grind

theorem closed_load : Closed (p.load h separator input).events := by
  match input with
  | .error _ | .ok (.file _) => exact fun hs => (nomatch hs)
  | .ok .standardInput =>
    intro hs
    simp [Parts.load, Traced.mem_events_bind] at hs
  | .ok (.database spec) =>
    intro hs
    have hconnected : ∃ u, (staged .connection
        (watched (Traced.flatMapEvents (accompanied h spec) (p.connection spec)))).outcome = .ok u := by
      rcases (Traced.mem_events_bind _ _ _).mp hs with hs | ⟨u, hu, -⟩
      · simpa using hs
      · exact ⟨u, hu⟩
    obtain ⟨u, hu⟩ := hconnected
    -- whatever comes of the fetching, the closing starts
    refine (Traced.mem_events_bind _ _ _).mpr (.inr ⟨u, hu, ?_⟩)
    simp [Traced.finallyDo]

/-- The fetching fails, and the connection is closed. -/
example (h : Host) (p : Parts) (separator : Text) (spec : DatabaseSpec) (e : Failure) :
    (Parts.load { p with
        connection := fun _ => .value ()
        fetching := fun _ => .fail e
        closing := .emit .disconnected } h separator (.ok (.database spec))).events =
      [.started .connection, .finished .connection, .started .fetching, .started .closing,
        .seen (.database .disconnected), .finished .closing] := rfl

/-- Where a table was loaded no stage is left unfinished. -/
theorem complete_load {data : Table} (hdata : (p.load h separator input).outcome = .ok data) :
    Complete (p.load h separator input).events := by
  match input with
  | .error _ | .ok (.file _) => exact fun _ hs => (nomatch hs)
  | .ok .standardInput =>
    intro s hs
    simp [Parts.load, Traced.mem_events_bind] at hs
  | .ok (.database spec) =>
    obtain ⟨u, hconnected, hdata⟩ := (Traced.outcome_bind_ok_iff _ _ _).mp hdata
    obtain ⟨hfetched, hclosed⟩ := (Traced.outcome_finallyDo_ok_iff _ _ _).mp hdata
    rw [Parts.load, Traced.events_bind hconnected]
    rw [outcome_staged] at hconnected hfetched hclosed
    refine Complete.append (.staged hconnected (complete_watched _)) (.append ?_ ?_)
    · exact .staged hfetched (complete_watched _)
    · exact .staged hclosed (complete_watched _)

/-! ## 5. The whole course -/

/-- Behind the engine the outcome can be put out. -/
theorem allowed_of_deliver {outcome : Table} {e : Event}
    (he : e ∈ (deliver h o separator outcome).events) (hengine : .finished .engine ∈ past) :
    Allowed o past (.seen e) := by
  rcases put_of_mem_deliver he with ⟨parts, t, rfl⟩ | ⟨t, rfl⟩
  · exact hengine
  · exact .inl hengine

/-- The summary can be seen at any time. -/
theorem allowed_of_announcement {config : Config} {data : Table} {e : Event}
    (he : e ∈ announcement o config data) : Allowed o past (.seen e) := by
  unfold announcement at he
  split at he
  · cases he
  · next houtput =>
    rw [List.mem_singleton.mp he]
    exact .inr ⟨Bool.eq_false_iff.mpr houtput, config, data.size, rfl⟩

/-- Lines of the log can be seen at any time. -/
theorem kept_logged (x : Traced LogLine α) :
    Kept o past (watched (Traced.mapEvents .logged x)).events := by
  refine kept_watched _ fun e he later => ?_
  obtain ⟨l, -, rfl⟩ := List.mem_map.mp he
  exact trivial

/-- **Engine and output are kept** when the engine may start. -/
theorem kept_conclude (h : Host) {config : Config} {data : Table}
    (hawaits : Stage.engine.Awaits past) (hengine : .started .engine ∉ past) :
    Kept o past (p.conclude h o separator config data).events := by
  refine Kept.bind (kept_watched _ fun e he later => allowed_of_announcement he) fun _ _ => ?_
  refine Kept.bind_staged ⟨?_, fun _ => ?_⟩ (kept_watched _ fun e he later => ?_)
    fun outcome houtcome => ?_
  · obtain ⟨hconfiguration, hadaptation, hloading, hclosed, hcomplete⟩ := hawaits
    refine ⟨?_, ?_, ?_, ?_, hcomplete.append (complete_watched _)⟩
    · exact List.mem_append_left _ hconfiguration
    · exact List.mem_append_left _ hadaptation
    · exact List.mem_append_left _ hloading
    · simpa [Closed] using hclosed
  · simpa using hengine
  · obtain ⟨e, -, rfl⟩ := List.mem_map.mp he
    simp [Allowed]
  have hfinished : .finished .engine ∈
      (staged .engine (watched (Traced.mapEvents .engine (p.engine data config)))).events :=
    finished_mem_staged houtcome
  refine Kept.bind_staged ⟨List.mem_append_right _ hfinished, fun hs => absurd rfl hs⟩ ?_
    fun _ _ => trivial
  exact kept_watched _ fun e he later => allowed_of_deliver he <|
    List.mem_append_left _ (List.mem_append_left _ (List.mem_append_right _ hfinished))

/-- **Everything in a course is allowed.** -/
theorem kept_course (h : Host) : Kept o [] (course h o p).events := by
  refine Kept.bind_staged ⟨trivial, fun _ => List.not_mem_nil⟩ (kept_logged _)
    fun separator hseparator => ?_
  have hseparated := finished_mem_staged (s := .separator) hseparator
  refine Kept.bind_staged ⟨hseparated, fun _ => by simp⟩ (kept_watched _ fun e he later => ?_)
    fun config hconfig => ?_
  · obtain ⟨r, -, rfl⟩ := List.mem_map.mp he
    cases r with
    | ignored i => simp [Event.ofRemark, Allowed]
    | logged l => exact trivial
  have hconfigured := finished_mem_staged (s := .configuration) hconfig
  refine Kept.bind_staged ⟨List.mem_append_right _ hconfigured, fun _ => by simp⟩ (kept_logged _)
    fun bound hbound => ?_
  have hadapted := finished_mem_staged (s := .adaptation) hbound
  refine Kept.bind_staged ⟨List.mem_append_right _ hadapted, fun _ => by simp⟩
    (kept_load (by simp) (by simp) (by simp)) fun data hdata => ?_
  have hloaded := finished_mem_staged (s := .loading) hdata
  have hclosed : Closed (p.load h separator (source o)).events := closed_load
  have hengine : .started .engine ∉ (p.load h separator (source o)).events := fun hmem => by
    simpa using stage_of_mem_load hmem
  refine kept_conclude h ⟨?_, ?_, ?_, ?_, ?_⟩ ?_
  · exact List.mem_append_left _ (List.mem_append_left _ (List.mem_append_right _ hconfigured))
  · exact List.mem_append_left _ (List.mem_append_right _ hadapted)
  · exact List.mem_append_right _ hloaded
  · simpa [Closed] using hclosed
  · refine .append (.append (.append ?_ ?_) ?_) (.staged hdata (complete_load hdata))
    · exact .staged hseparator (complete_watched _)
    · exact .staged hconfig (complete_watched _)
    · exact .staged hbound (complete_watched _)
  · simpa using hengine

/-- **A connection that was made is closed**, however the run ends. -/
theorem closed_course (h : Host) : Closed (course h o p).events := by
  have hnone : ∀ {α : Type} (x : Step α), Closed (watched x).events := fun x => closed_watched x
  refine (Closed.staged (by decide) (hnone _)).bind fun separator => ?_
  refine (Closed.staged (by decide) (hnone _)).bind fun config => ?_
  refine (Closed.staged (by decide) (hnone _)).bind fun bound => ?_
  refine (Closed.staged (by decide) closed_load).bind fun data => ?_
  refine (hnone _).bind fun _ => ?_
  refine (Closed.staged (by decide) (hnone _)).bind fun outcome => ?_
  exact (Closed.staged (by decide) (hnone _)).bind fun _ => fun hs => (nomatch hs)

/-! ## 6. A run that fails -/

end Run

/-- The files after some events. -/
def FileSystem.after (fs : FileSystem) (es : List Event) : FileSystem :=
  es.foldl (fun fs e => match e with
    | .wrote parts t => { fs with files := fs.files.set parts (Text.encode t) }
    | _ => fs) fs

/-- Files change where one is written. -/
theorem FileSystem.after_eq_self (fs : FileSystem) {es : List Event}
    (h : ∀ parts t, .wrote parts t ∉ es) : fs.after es = fs := by
  induction es with
  | nil => rfl
  | cons e es ih =>
    have hes := ih fun parts t hmem => h parts t (List.mem_cons_of_mem _ hmem)
    cases e with
    | wrote parts t => exact absurd List.mem_cons_self (h parts t)
    | warned i => exact hes
    | logged l => exact hes
    | database e => exact hes
    | progressed p => exact hes
    | engine e => exact hes
    | printed t => exact hes

namespace Run

/-- No file is changed, and nothing is printed but a summary. -/
structure LeavesNothing (o : Options) (es : List Event) : Prop where
  files : ∀ fs : FileSystem, fs.after es = fs
  printed : ∀ t, .printed t ∈ es → IsSummary o t

/-- What can be said of the moments of a run with these options: each is allowed, a connection that was
made is closed, and where a stage before the output fails, no file is changed and no table printed. -/
structure Orderly (o : Options) (moments : List Moment) : Prop where
  allowed : ∀ before m after, moments = before ++ m :: after → Allowed o before m
  closed : Closed moments
  spared : ∀ s, s ≠ .output → .started s ∈ moments → .finished s ∉ moments →
    LeavesNothing o (moments.filterMap Moment.event?)

theorem Kept.allowed {moments : List Moment} (h : Kept o [] moments) (before : List Moment) (m : Moment)
    (after : List Moment) (hsplit : moments = before ++ m :: after) : Allowed o before m := by
  rw [hsplit, kept_append] at h
  exact h.2.1

/-- **Where a stage before the output did not finish, neither did the engine.** -/
theorem Kept.engine_unfinished {moments : List Moment} (h : Kept o [] moments) {s : Stage}
    (hs : s ≠ .output) (hstarted : .started s ∈ moments) (hfinished : .finished s ∉ moments) :
    .finished .engine ∉ moments := by
  intro hengine
  have hcalled : .started .engine ∈ moments := by
    obtain ⟨before, after, hsplit⟩ := List.append_of_mem hengine
    have hmem : .started .engine ∈ before := h.allowed _ _ _ hsplit
    rw [hsplit]
    exact List.mem_append_left _ hmem
  obtain ⟨past, later, hsplit⟩ := List.append_of_mem hcalled
  obtain ⟨⟨-, -, -, -, hcomplete⟩, -⟩ := h.allowed _ _ _ hsplit
  rw [hsplit, List.mem_append, List.mem_cons] at hstarted
  rcases hstarted with hbefore | hself | hbehind
  · refine hfinished ?_
    rw [hsplit]
    exact List.mem_append_left _ (hcomplete s hbefore)
  · cases hself
    exact hfinished hengine
  · -- behind the engine only the output starts
    obtain ⟨between, after, rfl⟩ := List.append_of_mem hbehind
    have hsplit' : moments = (past ++ .started .engine :: between) ++ .started s :: after := by
      rw [hsplit, List.append_assoc, List.cons_append]
    exact (h.allowed _ _ _ hsplit').2 hs (by simp)

/-- **Where the engine did not finish, no file is changed and no table printed.** -/
theorem Kept.spared {moments : List Moment} (h : Kept o [] moments)
    (hengine : .finished .engine ∉ moments) :
    LeavesNothing o (moments.filterMap Moment.event?) := by
  have hallowed : ∀ e ∈ moments.filterMap Moment.event?,
      ∃ past, .finished .engine ∉ past ∧ Allowed o past (.seen e) := by
    intro e he
    obtain ⟨m, hm, hevent⟩ := List.mem_filterMap.mp he
    obtain rfl : m = .seen e := by
      cases m with
      | started s => cases hevent
      | finished s => cases hevent
      | seen e' => exact congrArg Moment.seen (Option.some.inj hevent)
    obtain ⟨past, later, hsplit⟩ := List.append_of_mem hm
    refine ⟨past, fun hmem => hengine ?_, h.allowed _ _ _ hsplit⟩
    rw [hsplit]
    exact List.mem_append_left _ hmem
  constructor
  · intro fs
    refine fs.after_eq_self fun parts t hmem => ?_
    obtain ⟨past, hnone, hwrote⟩ := hallowed _ hmem
    exact hnone hwrote
  · intro t hmem
    obtain ⟨past, hnone, hprinted⟩ := hallowed _ hmem
    exact hprinted.resolve_left hnone

theorem orderly_course (h : Host) : Orderly o (course h o p).events where
  allowed := (kept_course h).allowed
  closed := closed_course h
  spared _ hs hstarted hfinished :=
    (kept_course h).spared ((kept_course h).engine_unfinished hs hstarted hfinished)

/-! ## 7. The run -/

/-- The course without its marks. -/
def unmarked (x : Traced Moment α) : Step α :=
  x.seenAs Moment.event?

theorem unmarked_bind (x : Traced Moment α) (f : α → Traced Moment β) :
    unmarked (x >>= f) = unmarked x >>= fun a => unmarked (f a) :=
  Traced.seenAs_bind _ x f

theorem unmarked_staged (s : Stage) (x : Traced Moment α) : unmarked (staged s x) = unmarked x := by
  unfold unmarked Traced.seenAs
  rw [events_staged, outcome_staged]
  cases x.outcome <;> simp [List.filterMap_cons, Moment.event?]

theorem unmarked_watched (x : Step α) : unmarked (watched x) = x := by
  unfold unmarked watched
  rw [Traced.seenAs_mapEvents]
  exact congrArg (Traced.mk · x.outcome) List.filterMap_some

theorem unmarked_finallyDo (x : Traced Moment α) (last : Traced Moment Unit) :
    unmarked (x.finallyDo last) = (unmarked x).finallyDo (unmarked last) :=
  Traced.seenAs_finallyDo _ x last

theorem unmarked_load (h : Host) (o : Options) (separator : Text) :
    unmarked ((Parts.of h o).load h separator (source o)) = inputTable h o separator := by
  unfold inputTable
  cases source o with
  | error e => rfl
  | ok source =>
    cases source with
    | file path => rfl
    | standardInput => rfl
    | database spec =>
      have hload : (Parts.of h o).load h separator (.ok (.database spec)) =
          staged .connection (watched (Traced.flatMapEvents (accompanied h spec)
            (Database.connect h.server h.environment spec))) >>= fun _ =>
          Traced.finallyDo (staged .fetching (watched ((Parts.of h o).fetched h spec)))
            (staged .closing (watched
              (Traced.flatMapEvents (accompanied h spec) (Database.close h.server)))) := rfl
      rw [hload, unmarked_bind, unmarked_staged, unmarked_watched]
      simp only [unmarked_finallyDo, unmarked_staged, unmarked_watched]
      rfl

/-- **A run is the course of its parts** without the marks. -/
theorem unmarked_course (h : Host) (o : Options) : unmarked (course h o (Parts.of h o)) = run h o := by
  have hadaptation : ∀ config : Config,
      Traced.mapEvents .logged ((Parts.of h o).adaptation config) = bindCriteria config := by
    intro config
    simp only [Parts.of, bindCriteria, Traced.mapEvents_bind]
    rfl
  rw [run_eq]
  unfold course prepared continued Parts.conclude
  simp only [unmarked_bind, unmarked_staged, unmarked_watched, unmarked_load, hadaptation,
    findSeparator_eq, configure_eq, Traced.bind_assoc, Traced.pure_bind]
  rfl

/-! ## 8. The connection of a run -/

/-- **A connection that was made is closed once**, however the run ends. -/
theorem closedOnce_run (h : Host) (o : Options) :
    Database.ClosedOnce h.server ((run h o).events.filterMap Event.database?) := by
  rw [databaseEvents_run]
  split
  · exact Database.closedOnce_readTable _ _ _
  · exact .unopened

/-- Behind the first event of the engine or the output nothing is asked of the database, so that the
connection is closed by then. -/
theorem database_notMem_of_isLate {before after : List Event} {e : Event}
    (hsplit : (run h o).events = before ++ e :: after) (he : e.isLate = true) (d : DatabaseEvent) :
    .database d ∉ after := by
  intro hmem
  have hlate := isLate_of_split hsplit he hmem
  cases hlate

/-- **A failed run leaves nothing behind.** Whatever the parts of a run do and answer, its course is
orderly, and the run of the program is the course of its own parts. In the events of this run a
connection that was made is closed once, whether the fetching failed or not, and before the engine. -/
theorem course_orderly (h : Host) (o : Options) :
    (∀ p : Parts, Orderly o (course h o p).events) ∧
    unmarked (course h o (Parts.of h o)) = run h o ∧
    Database.ClosedOnce h.server ((run h o).events.filterMap Event.database?) ∧
    ∀ before e after, (run h o).events = before ++ e :: after → e.isLate = true →
      ∀ d, .database d ∉ after :=
  ⟨fun _ => orderly_course h, unmarked_course h o, closedOnce_run h o,
    fun _ _ _ hsplit he d => database_notMem_of_isLate hsplit he d⟩

end Run

end Anonymization
