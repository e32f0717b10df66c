import Anonymization.CommandLine.Program
import Anonymization.Proofs.Database.Closing
import Anonymization.Proofs.Database.Password
import Anonymization.Proofs.Run.Steps
/-!
# What is told of a run

What is told of a run depends on what is heard of it, and the questions to a database are not heard, only
the lines of the log and the progress that come with them. So the password can be told only where the text
of the database option is shown.

* `AlikeButDatabase` -- options that differ in the text of the database only;
* `Disclosure` -- what a run shows of this text: nothing, a part of it in a message, or all of it in the
  summary;
* `told_seenAs` -- **what is told depends on what is heard**;
* `heard_databaseTable` -- and what is heard of the reading of a table does not depend on the password;
* `told_run_iff` -- **of two runs with different passwords the same is told exactly when they show the same
  of their texts**;
* `gather_alike`, `told_start_iff` -- **so it is from the command line on**.
-/

namespace Anonymization

open Anonymization.Field

/-! ## 1. Options that differ in one -/

/-- Options with these texts for the database, and the same values otherwise. -/
structure AlikeButDatabase (d₁ d₂ : Text) (o₁ o₂ : Options) : Prop where
  same : ∀ name, name ≠ "database" → o₁.value name = o₂.value name
  first : o₁.value "database" = .text d₁
  second : o₂.value "database" = .text d₂

namespace Run

variable {d₁ d₂ : Text} {o₁ o₂ : Options}

theorem prepared_alike (h : Host) (ho : AlikeButDatabase d₁ d₂ o₁ o₂) :
    prepared h o₁ = prepared h o₂ := by
  unfold prepared findSeparator separatorLog separator configure Config.remarks Config.loadLog Config.parse
    Plan.criteriaLog Plan.warnings Plan.parse Plan.names Plan.criteriaOf Plan.dataTypePieces
  simp only [ho.same "separator" (by decide), ho.same "file" (by decide),
    ho.same "quasiidentifying" (by decide), ho.same "criteria" (by decide),
    ho.same "datatype" (by decide), ho.same "researchsubset" (by decide),
    ho.same "metric" (by decide), ho.same "suppression" (by decide),
    ho.same "hierarchies" (by decide), ho.same "sensitive" (by decide),
    ho.same "insensitive" (by decide), ho.same "identifying" (by decide),
    ho.same "practicalmonotonicity" (by decide)]

theorem finished_alike (h : Host) (ho : AlikeButDatabase d₁ d₂ o₁ o₂) :
    finished h o₁ = finished h o₂ := by
  funext separator config data
  unfold finished deliver
  simp only [ho.same "runner" (by decide), ho.same "java" (by decide), ho.same "output" (by decide)]

theorem source_database {o : Options} (hfile : (o.value "file").isFalsy = true) {d : Text}
    (hd : o.value "database" = .text d) :
    source o = DatabaseSpec.parseOption listSeparator (some d) >>= fun spec? => match spec? with
      | some spec => .ok (.database spec)
      | none => .ok .standardInput := by
  unfold source
  rw [hfile, hd]
  rfl

/-- A run that reads its table from the database, from there on. -/
theorem continued_database (h : Host) {o : Options} (hfile : (o.value "file").isFalsy = true) {d : Text}
    (hd : o.value "database" = .text d) (separator : Text) (config : Config) :
    continued h o separator config =
      match DatabaseSpec.parseOption listSeparator (some d) with
      | .error e => Traced.fail e
      | .ok none => Source.standardInput.table h separator >>= concluded h o separator config
      | .ok (some spec) => databaseTable h spec >>= concluded h o separator config := by
  unfold continued inputTable
  rw [source_database hfile hd]
  cases DatabaseSpec.parseOption listSeparator (some d) with
  | error e => rfl
  | ok spec? => cases spec? <;> rfl

/-- The summary of a run that reads its table from the database. -/
theorem inputName_database {o : Options} (hfile : (o.value "file").isFalsy = true) {d : Text}
    (hd : o.value "database" = .text d) (hne : d ≠ []) : inputName o = d := by
  have hdatabase : (Json.text d).isFalsy = false := by
    cases d with
    | nil => exact absurd rfl hne
    | cons c d => rfl
  unfold inputName
  rw [hfile, hd, hdatabase]
  rfl

/-- A run that reads a file has no use for the text of its database. -/
theorem continued_of_file (h : Host) (ho : AlikeButDatabase d₁ d₂ o₁ o₂)
    (hfile : (o₁.value "file").isFalsy = false) : continued h o₁ = continued h o₂ := by
  have hfile₂ : (o₂.value "file").isFalsy = false := by rw [← ho.same "file" (by decide), hfile]
  have hsource : source o₁ = source o₂ := by
    unfold source
    rw [hfile, hfile₂, ho.same "file" (by decide)]
    rfl
  have hname : inputName o₁ = inputName o₂ := by
    unfold inputName
    rw [hfile, hfile₂, ho.same "file" (by decide)]
    rfl
  funext separator config
  unfold continued inputTable concluded announcement summary
  rw [hsource, hname, ho.same "output" (by decide), finished_alike h ho]

/-- A summary tells the name of the input. -/
theorem summary_eq_iff (config : Config) (records : Nat) (o₁ o₂ : Options) :
    summary o₁ config records = summary o₂ config records ↔ inputName o₁ = inputName o₂ := by
  unfold summary summaryLine
  simp [List.append_assoc]

end Run

/-! ## 2. What is shown of the option -/

namespace CommandLine

/-- What a run shows of the text of its database option. -/
inductive Disclosure where
  | nothing
  /-- The message of a failure says what is wrong with the text or a token of it, which it repeats. -/
  | message (t : Text) (fault : DatabaseFault)
  /-- The summary repeats the text. -/
  | summary (d : Text)
  deriving DecidableEq

namespace Disclosure

/-- What a failure of the option shows. -/
def ofFailure : Failure → Disclosure
  | .malformedDatabaseSpec t fault => message t fault
  | _ => nothing

/-- What is shown of the text when the input table is read from the database. -/
def ofTable (h : Host) (o : Options) (d : Text) : Disclosure :=
  match DatabaseSpec.parseOption listSeparator (some d) with
  | .error e => ofFailure e
  | .ok none => nothing
  | .ok (some spec) =>
    match (Database.readTable h.server h.environment spec).outcome with
    | .ok _ => if (o.value "output").isFalsy then nothing else summary d
    | .error _ => nothing

/-- What a run shows of the text: something only where its configuration is complete and no input file is
named. -/
def ofRun (h : Host) (o : Options) (d : Text) : Disclosure :=
  match (Run.prepared h o).outcome with
  | .ok _ => if (o.value "file").isFalsy then ofTable h o d else nothing
  | .error _ => nothing

/-- What is shown contains the password: it is the token of the password, which is no key with a value, the
whole text in a message, or the whole text in the summary. -/
inductive ShowsPassword (d : Text) : Disclosure → Prop where
  | token {t : Text} (ht : t ∈ DatabaseSpec.tokens listSeparator d)
      (hp : DatabaseSpec.IsPasswordToken t) : ShowsPassword d (message t .notKeyValue)
  | option (fault : DatabaseFault) : ShowsPassword d (message d fault)
  | summary : ShowsPassword d (summary d)

theorem ofTable_of_read {h : Host} {o : Options} {d : Text} {spec : DatabaseSpec}
    (hd : DatabaseSpec.parseOption listSeparator (some d) = .ok (some spec)) :
    ofTable h o d =
      match (Database.readTable h.server h.environment spec).outcome with
      | .ok _ => if (o.value "output").isFalsy then nothing else summary d
      | .error _ => nothing := by
  unfold ofTable
  rw [hd]

theorem ofTable_of_failed (h : Host) (o : Options) {d : Text} {e : Failure}
    (hd : DatabaseSpec.parseOption listSeparator (some d) = .error e) :
    ofTable h o d = ofFailure e := by
  unfold ofTable
  rw [hd]

end Disclosure

/-! ## 3. What is heard -/

/-- What is heard of an event: all of it, unless it is a question to the database or its answer. -/
def heard? : Event → Option Event
  | .database _ => none
  | e => some e

theorem told_ended (verbose : Bool) (x : Run.Step Config) :
    (ended verbose x).told =
      ⟨(endingAfter x.outcome).status, x.events.flatMap outputOf,
        x.events.flatMap (errorOutputOf verbose) ++ (endingAfter x.outcome).errorText,
        x.events.flatMap progressOf⟩ := rfl

/-- Where nothing is put for the database, what is put for some events is put for those that are heard. -/
theorem flatMap_heard {α : Type} {f : Event → List α} (hf : ∀ e, f (.database e) = [])
    (es : List Event) : (es.filterMap heard?).flatMap f = es.flatMap f := by
  induction es with
  | nil => rfl
  | cons e es ih =>
    rw [List.flatMap_cons, ← ih]
    cases e with
    | database e => rw [hf, List.nil_append, List.filterMap_cons_none rfl]
    | warned i => rfl
    | logged l => rfl
    | progressed p => rfl
    | engine e => rfl
    | printed t => rfl
    | wrote parts t => rfl

/-- **What is told of a run depends on what is heard of it.** -/
theorem told_seenAs (verbose : Bool) (x : Run.Step Config) :
    (ended verbose (x.seenAs heard?)).told = (ended verbose x).told := by
  rw [told_ended, told_ended, Traced.events_seenAs, Traced.outcome_seenAs,
    flatMap_heard (f := outputOf) fun _ => rfl, flatMap_heard (f := errorOutputOf verbose) fun _ => rfl,
    flatMap_heard (f := progressOf) fun _ => rfl]

/-- What two runs did alike before does not matter. -/
theorem told_append_iff (verbose : Bool) (es fs₁ fs₂ : List Event) (r₁ r₂ : Except Failure Config) :
    (ended verbose ⟨es ++ fs₁, r₁⟩).told = (ended verbose ⟨es ++ fs₂, r₂⟩).told ↔
      (ended verbose ⟨fs₁, r₁⟩).told = (ended verbose ⟨fs₂, r₂⟩).told := by
  simp only [told_ended, Told.mk.injEq, List.flatMap_append, List.append_assoc,
    List.append_cancel_left_eq]

theorem errorText_failed (message : Text) :
    (Ending.finished (.failed message)).errorText = message ++ ('\n' :: usage) :=
  List.append_assoc message ['\n'] usage

/-- A run that fails at once with something to report. -/
theorem told_failed (verbose : Bool) {e : Failure} (he : e.isReported = true) :
    (ended verbose (Traced.fail e)).told = ⟨1, [], e.message ++ ('\n' :: usage), []⟩ := by
  have hend : endingAfter (.error e) = .finished (.failed e.message) := by
    cases e <;> first | rfl | cases he
  rw [told_ended]
  simp only [Traced.fail, hend, errorText_failed, List.flatMap_nil, List.nil_append, Ending.status,
    Complaint.status]

/-- **Of two steps it matters what is heard of them**, and what they go on to do where they answer. -/
theorem told_bind_iff {α : Type} (verbose : Bool) {x₁ x₂ : Run.Step α}
    (hx : x₁.seenAs heard? = x₂.seenAs heard?) (k₁ k₂ : α → Run.Step Config) :
    (ended verbose (x₁ >>= k₁)).told = (ended verbose (x₂ >>= k₂)).told ↔
      ∀ a, x₁.outcome = .ok a → (ended verbose (k₁ a)).told = (ended verbose (k₂ a)).told := by
  rw [← told_seenAs, ← told_seenAs verbose (x₂ >>= k₂), Traced.seenAs_bind, Traced.seenAs_bind, ← hx,
    ← Traced.outcome_seenAs heard? x₁]
  generalize x₁.seenAs heard? = x
  obtain ⟨es, outcome⟩ := x
  cases outcome with
  | error e => simp [Traced.bind_error]
  | ok a =>
    simp only [Traced.bind_ok, told_append_iff, Except.ok.injEq, forall_eq']
    exact Eq.congr (told_seenAs verbose (k₁ a)) (told_seenAs verbose (k₂ a))

/-! ## 4. The table of a database -/

/-- **What is heard of the reading of a table does not depend on the password.** -/
theorem heard_databaseTable (h : Host) {s₁ s₂ : DatabaseSpec}
    (hs : DatabaseSpec.SameButPassword s₁ s₂) :
    (Run.databaseTable h s₁).seenAs heard? = (Run.databaseTable h s₂).seenAs heard? := by
  obtain ⟨password, rfl⟩ := hs
  have hlog : Run.accompanied h { s₁ with password := password } = Run.accompanied h s₁ := by
    funext e
    cases e <;> rfl
  have hconnect : ((Database.connect h.server h.environment s₁).flatMapEvents
        (Run.accompanied h s₁)).seenAs heard? =
      ((Database.connect h.server h.environment { s₁ with password := password }).flatMapEvents
        (Run.accompanied h s₁)).seenAs heard? := by
    rw [Database.connect_eq, Database.connect_eq]
    by_cases hm : s₁.type = .mysql
    · rw [if_pos hm, if_pos hm]
      rfl
    · rw [if_neg hm, if_neg hm]
  unfold Run.databaseTable
  rw [hlog, Traced.seenAs_bind, Traced.seenAs_bind, hconnect]

theorem outcome_databaseTable (h : Host) (spec : DatabaseSpec) :
    (Run.databaseTable h spec).outcome = (Database.readTable h.server h.environment spec).outcome :=
  congrArg Traced.outcome (Run.onDatabase_databaseTable h spec)

/-- So the same table is read, or the reading fails alike. -/
theorem outcome_readTable (h : Host) {s₁ s₂ : DatabaseSpec} (hs : DatabaseSpec.SameButPassword s₁ s₂) :
    (Database.readTable h.server h.environment s₁).outcome =
      (Database.readTable h.server h.environment s₂).outcome := by
  rw [← outcome_databaseTable, ← outcome_databaseTable, ← Traced.outcome_seenAs heard?,
    heard_databaseTable h hs, Traced.outcome_seenAs]

/-- What is told of a step that begins with a line of the log begins with it, whatever follows. -/
theorem head?_errorOutput_bind {α : Type} (verbose : Bool) {x : Run.Step α} {es : List Event}
    {origin message : Text} (hx : x.events = .logged ⟨.info, origin, message⟩ :: es)
    (k : α → Run.Step Config) : (ended verbose (x >>= k)).told.errorOutput.head? = some 'I' := by
  obtain ⟨rest, hrest⟩ := Traced.events_prefix_bind x k
  rw [told_ended]
  dsimp only
  rw [← hrest, hx]
  rfl

/-- Whatever becomes of a table of a database, the first thing that is told is where it lies, or that its
system cannot be reached. -/
theorem head?_errorOutput_databaseTable (h : Host) (verbose : Bool) (spec : DatabaseSpec)
    (k : Table → Run.Step Config) :
    (ended verbose (Run.databaseTable h spec >>= k)).told.errorOutput.head? = some 'I' := by
  unfold Run.databaseTable
  rw [Database.connect_eq, Traced.bind_assoc]
  by_cases hm : spec.type = .mysql
  · rw [if_pos hm]
    exact head?_errorOutput_bind verbose rfl _
  · rw [if_neg hm]
    rfl

/-! ## 5. Two runs -/

variable {d₁ d₂ : Text} {o₁ o₂ : Options}

/-- A text with a password is not empty. -/
theorem ne_nil_of_not_blank {d : Text} (h : ¬Text.allBlank d = true) : d ≠ [] := by
  intro hd
  rw [hd] at h
  exact h rfl

/-- **Two runs that go on from the same table** are told alike unless their summaries are printed and
differ. -/
theorem told_concluded_iff (h : Host) (verbose : Bool) (ho : AlikeButDatabase d₁ d₂ o₁ o₂)
    (hd : DatabaseSpec.AlikeButPassword d₁ d₂) (hfile : (o₁.value "file").isFalsy = true)
    (separator : Text) (config : Config) (data : Table) :
    (ended verbose (Run.concluded h o₁ separator config data)).told =
        (ended verbose (Run.concluded h o₂ separator config data)).told ↔
      (o₁.value "output").isFalsy = true ∨ d₁ = d₂ := by
  have hfile₂ : (o₂.value "file").isFalsy = true := by rw [← ho.same "file" (by decide), hfile]
  obtain ⟨hb₁, hb₂⟩ := hd.not_blank
  unfold Run.concluded Run.announcement
  rw [← ho.same "output" (by decide), ← Run.finished_alike h ho]
  by_cases houtput : (o₁.value "output").isFalsy = true
  · rw [if_pos houtput, if_pos houtput]
    exact iff_of_true rfl (.inl houtput)
  · rw [if_neg houtput, if_neg houtput, or_iff_right houtput]
    simp only [Traced.emitAll, Traced.bind_ok, told_ended, Told.mk.injEq, List.flatMap_append,
      List.flatMap_singleton, outputOf, errorOutputOf, progressOf, List.append_cancel_right_eq, and_true,
      true_and]
    rw [Run.summary_eq_iff, Run.inputName_database hfile ho.first (ne_nil_of_not_blank hb₁),
      Run.inputName_database hfile₂ ho.second (ne_nil_of_not_blank hb₂)]

theorem message_malformedDatabaseSpec (d : Text) (f : DatabaseFault) :
    (Failure.malformedDatabaseSpec d f).message =
      "Database specification is malformed (".toList ++
        (Failure.databaseReason f ++ ("): ".toList ++ ('[' :: (d ++ [']'])))) := by
  unfold Failure.message Failure.bracketed
  simp only [List.append_assoc, List.cons_append]

/-- Two messages with the same fault tell their texts. -/
theorem told_fault_iff (verbose : Bool) (t₁ t₂ : Text) (f : DatabaseFault) :
    (ended verbose (Traced.fail (.malformedDatabaseSpec t₁ f))).told =
        (ended verbose (Traced.fail (.malformedDatabaseSpec t₂ f))).told ↔ t₁ = t₂ := by
  rw [told_failed verbose rfl, told_failed verbose rfl]
  simp only [message_malformedDatabaseSpec, Told.mk.injEq, List.append_assoc,
    List.append_cancel_left_eq, List.cons_append, List.cons.injEq, List.append_cancel_right_eq, true_and,
    and_true]

/-- A token that is no key with a value is told from any other fault. -/
theorem told_ne_of_reason (verbose : Bool) (t₁ t₂ : Text) {f : DatabaseFault}
    (hf : (Failure.databaseReason f).head? ≠ some 'e') :
    (ended verbose (Traced.fail (.malformedDatabaseSpec t₁ .notKeyValue))).told ≠
      (ended verbose (Traced.fail (.malformedDatabaseSpec t₂ f))).told := by
  rw [told_failed verbose rfl, told_failed verbose rfl]
  simp only [message_malformedDatabaseSpec, ne_eq, Told.mk.injEq, List.append_assoc,
    List.append_cancel_left_eq, true_and, and_true]
  intro hsame
  cases hreason : Failure.databaseReason f with
  | nil =>
    rw [hreason] at hsame
    cases hsame
  | cons c rest =>
    rw [hreason] at hsame hf
    have hhead := congrArg List.head? hsame
    exact hf hhead.symm

/-- **A run that fails at a token that is no key with a value** is told as one that shows the same token of
its option with the same fault, and as no other. -/
theorem told_cut_iff (h : Host) (verbose : Bool) {o : Options} (hfile : (o.value "file").isFalsy = true)
    {d : Text} (hd : o.value "database" = .text d) (hb : ¬Text.allBlank d = true) (t separator : Text)
    (config : Config) :
    (ended verbose (Traced.fail (.malformedDatabaseSpec t .notKeyValue))).told =
        (ended verbose (Run.continued h o separator config)).told ↔
      Disclosure.message t .notKeyValue = Disclosure.ofTable h o d := by
  have hhead : (ended verbose (Traced.fail (.malformedDatabaseSpec t .notKeyValue))).told.errorOutput.head? =
      some 'D' := rfl
  rw [Run.continued_database h hfile hd]
  cases hr : DatabaseSpec.parseOption listSeparator (some d) with
  | error e =>
    cases DatabaseSpec.parseOption_failure hr with
    | defect x =>
      rw [Disclosure.ofTable_of_failed h o hr]
      refine iff_of_false (fun hsame => ?_) (fun hsame => by cases hsame)
      rw [hsame] at hhead
      cases hhead
    | notKeyValue t' =>
      rw [Disclosure.ofTable_of_failed h o hr]
      refine (told_fault_iff verbose t t' _).trans ?_
      simp [Disclosure.ofFailure]
    | other t' hf =>
      rw [Disclosure.ofTable_of_failed h o hr]
      refine iff_of_false (told_ne_of_reason verbose t t' hf) fun hsame => ?_
      obtain ⟨-, rfl⟩ := Disclosure.message.inj hsame
      exact hf rfl
  | ok spec? =>
    cases spec? with
    | none =>
      rw [DatabaseSpec.parseOption_eq listSeparator hb] at hr
      obtain ⟨values, -, hvalues⟩ := (Outcome.bind_ok_iff _ _ _).mp hr
      obtain ⟨spec, -, hspec⟩ := (Outcome.map_ok_iff _ _ _).mp hvalues
      cases hspec
    | some spec =>
      rw [Disclosure.ofTable_of_read hr]
      refine iff_of_false (fun hsame => ?_) ?_
      · rw [hsame] at hhead
        have hdatabase := head?_errorOutput_databaseTable h verbose spec
          (Run.concluded h o separator config)
        rw [hdatabase] at hhead
        cases hhead
      · split
        · split
          · exact fun hsame => by cases hsame
          · exact fun hsame => by cases hsame
        · exact fun hsame => by cases hsame

/-- **Two runs that are about to read their table from the database** are told alike exactly when they
show the same of their texts. -/
theorem told_continued_iff (h : Host) (verbose : Bool) (ho : AlikeButDatabase d₁ d₂ o₁ o₂)
    (hd : DatabaseSpec.AlikeButPassword d₁ d₂) (hfile : (o₁.value "file").isFalsy = true)
    (separator : Text) (config : Config) :
    (ended verbose (Run.continued h o₁ separator config)).told =
        (ended verbose (Run.continued h o₂ separator config)).told ↔
      Disclosure.ofTable h o₁ d₁ = Disclosure.ofTable h o₂ d₂ := by
  have hfile₂ : (o₂.value "file").isFalsy = true := by rw [← ho.same "file" (by decide), hfile]
  obtain ⟨hb₁, hb₂⟩ := hd.not_blank
  cases DatabaseSpec.parseOption_alike hd with
  | fail e h₁ h₂ =>
    rw [Run.continued_database h hfile ho.first, Run.continued_database h hfile₂ ho.second, h₁, h₂,
      Disclosure.ofTable_of_failed h o₁ h₁, Disclosure.ofTable_of_failed h o₂ h₂]
    exact iff_of_true rfl rfl
  | refuse f h₁ h₂ =>
    rw [Run.continued_database h hfile ho.first, Run.continued_database h hfile₂ ho.second, h₁, h₂,
      Disclosure.ofTable_of_failed h o₁ h₁, Disclosure.ofTable_of_failed h o₂ h₂]
    refine (told_fault_iff verbose d₁ d₂ f).trans ?_
    simp [Disclosure.ofFailure]
  | cut hcut =>
    rcases hcut with ⟨t, -, -, hr⟩ | ⟨t, -, -, hr⟩
    · rw [Run.continued_database h hfile ho.first, hr, Disclosure.ofTable_of_failed h o₁ hr]
      exact told_cut_iff h verbose hfile₂ ho.second hb₂ t separator config
    · rw [Run.continued_database h hfile₂ ho.second, hr, Disclosure.ofTable_of_failed h o₂ hr, eq_comm,
        eq_comm (a := Disclosure.ofTable h o₁ d₁)]
      exact told_cut_iff h verbose hfile ho.first hb₁ t separator config
  | read s₁ s₂ h₁ h₂ hs =>
    rw [Run.continued_database h hfile ho.first, Run.continued_database h hfile₂ ho.second, h₁, h₂,
      Disclosure.ofTable_of_read h₁, Disclosure.ofTable_of_read h₂, outcome_readTable h hs,
      ← ho.same "output" (by decide)]
    refine (told_bind_iff verbose (heard_databaseTable h hs) _ _).trans ?_
    rw [outcome_databaseTable, outcome_readTable h hs]
    cases (Database.readTable h.server h.environment s₂).outcome with
    | error e => simp
    | ok data =>
      simp only [Except.ok.injEq, forall_eq', told_concluded_iff h verbose ho hd hfile]
      split
      · next houtput => simp [houtput]
      · next houtput => simp [houtput]

/-- **Two runs that differ in the password only are told alike exactly when they show the same of their
texts.** -/
theorem told_run_iff (h : Host) (verbose : Bool) (ho : AlikeButDatabase d₁ d₂ o₁ o₂)
    (hd : DatabaseSpec.AlikeButPassword d₁ d₂) :
    (ended verbose (Run.run h o₁)).told = (ended verbose (Run.run h o₂)).told ↔
      Disclosure.ofRun h o₁ d₁ = Disclosure.ofRun h o₂ d₂ := by
  unfold Disclosure.ofRun
  rw [Run.run_eq, Run.run_eq, ← Run.prepared_alike h ho, ← ho.same "file" (by decide),
    told_bind_iff verbose rfl]
  cases (Run.prepared h o₁).outcome with
  | error e => simp
  | ok p =>
    simp only [Except.ok.injEq, forall_eq']
    by_cases hfile : (o₁.value "file").isFalsy = true
    · rw [if_pos hfile, if_pos hfile]
      exact told_continued_iff h verbose ho hd hfile p.1 p.2
    · rw [if_neg hfile, if_neg hfile, Run.continued_of_file h ho (Bool.eq_false_iff.mpr hfile)]
      exact iff_of_true rfl rfl

/-- **Where two runs show different things, one of them shows its password.** -/
theorem showsPassword_of_ofTable_ne (h : Host) (ho : AlikeButDatabase d₁ d₂ o₁ o₂)
    (hd : DatabaseSpec.AlikeButPassword d₁ d₂)
    (hne : Disclosure.ofTable h o₁ d₁ ≠ Disclosure.ofTable h o₂ d₂) :
    Disclosure.ShowsPassword d₁ (Disclosure.ofTable h o₁ d₁) ∨
      Disclosure.ShowsPassword d₂ (Disclosure.ofTable h o₂ d₂) := by
  cases DatabaseSpec.parseOption_alike hd with
  | fail e h₁ h₂ =>
    rw [Disclosure.ofTable_of_failed h o₁ h₁, Disclosure.ofTable_of_failed h o₂ h₂] at hne
    exact absurd rfl hne
  | refuse f h₁ h₂ =>
    rw [Disclosure.ofTable_of_failed h o₁ h₁]
    exact .inl (.option f)
  | cut hcut =>
    rcases hcut with ⟨t, ht, hp, hr⟩ | ⟨t, ht, hp, hr⟩
    · rw [Disclosure.ofTable_of_failed h o₁ hr]
      exact .inl (.token ht hp)
    · rw [Disclosure.ofTable_of_failed h o₂ hr]
      exact .inr (.token ht hp)
  | read s₁ s₂ h₁ h₂ hs =>
    rw [Disclosure.ofTable_of_read h₁, Disclosure.ofTable_of_read h₂, outcome_readTable h hs,
      ← ho.same "output" (by decide)] at hne
    rw [Disclosure.ofTable_of_read h₁, outcome_readTable h hs]
    generalize (Database.readTable h.server h.environment s₂).outcome = outcome at hne ⊢
    cases outcome with
    | error e => exact absurd rfl hne
    | ok data =>
      by_cases houtput : (o₁.value "output").isFalsy = true
      · simp only [if_pos houtput] at hne
        exact absurd rfl hne
      · simp only [if_neg houtput]
        exact .inl .summary

theorem showsPassword_of_ofRun_ne (h : Host) (ho : AlikeButDatabase d₁ d₂ o₁ o₂)
    (hd : DatabaseSpec.AlikeButPassword d₁ d₂)
    (hne : Disclosure.ofRun h o₁ d₁ ≠ Disclosure.ofRun h o₂ d₂) :
    Disclosure.ShowsPassword d₁ (Disclosure.ofRun h o₁ d₁) ∨
      Disclosure.ShowsPassword d₂ (Disclosure.ofRun h o₂ d₂) := by
  unfold Disclosure.ofRun at hne ⊢
  rw [← Run.prepared_alike h ho, ← ho.same "file" (by decide)] at hne ⊢
  generalize (Run.prepared h o₁).outcome = outcome at hne ⊢
  cases outcome with
  | error e => exact absurd rfl hne
  | ok p =>
    by_cases hfile : (o₁.value "file").isFalsy = true
    · simp only [if_pos hfile] at hne ⊢
      exact showsPassword_of_ofTable_ne h ho hd hne
    · simp only [if_neg hfile] at hne
      exact absurd rfl hne

/-! ## 6. From the command line on -/

/-- The options with this text for the database. -/
def withDatabase (given : Options) (d : Text) : Options := given.set "database".toList (.text d)

theorem fromCommandLine_withDatabase {given : Options} (hgiven : (Assoc.keys given).Nodup) :
    ∃ before after, "database".toList ∉ Assoc.keys after ∧
      ∀ d, fromCommandLine (withDatabase given d) =
        before ++ ("database".toList, .text d) :: after := by
  obtain ⟨before, after, hafter, hset⟩ := Assoc.set_eq_append hgiven "database".toList
  have hhas : ∀ d : Text, Assoc.has (before ++ ("database".toList, Json.text d) :: after)
      "verbose".toList = Assoc.has (before ++ after) "verbose".toList := by
    intro d
    have hne : ¬"database".toList = "verbose".toList := by decide
    unfold Assoc.has
    rw [Assoc.get?_append, Assoc.get?_append, Assoc.get?, if_neg hne]
  -- `verbose` comes behind if it is new, and `config` is left out
  obtain ⟨more, hmore, hnew⟩ : ∃ more : Options, "database".toList ∉ Assoc.keys more ∧
      ∀ d : Text, Assoc.setIfNew (before ++ ("database".toList, .text d) :: after) "verbose".toList
        (.bool false) = before ++ ("database".toList, .text d) :: (after ++ more) := by
    unfold Assoc.setIfNew
    simp only [hhas]
    split
    · exact ⟨[], List.not_mem_nil, fun _ => by rw [List.append_nil]⟩
    · exact ⟨[("verbose".toList, .bool false)], by decide, fun _ => by simp⟩
  refine ⟨before.filter fun p => p.1 != "config".toList,
    (after ++ more).filter fun p => p.1 != "config".toList, fun hmem => ?_, fun d => ?_⟩
  · obtain ⟨v, hv⟩ := Assoc.mem_keys.mp hmem
    rcases List.mem_append.mp (List.mem_of_mem_filter hv) with hv | hv
    · exact hafter (Assoc.mem_keys.mpr ⟨v, hv⟩)
    · exact hmore (Assoc.mem_keys.mpr ⟨v, hv⟩)
  · unfold fromCommandLine withDatabase
    rw [hset, hnew, List.filter_append, List.filter_cons_of_pos (by rfl)]

/-- **The options of two runs whose command lines differ in the text for the database** differ in it
only. -/
theorem gather_alike (environment : Assoc Text Text) (fs : FileSystem) {given : Options}
    (hgiven : (Assoc.keys given).Nodup) (d₁ d₂ : Text) :
    (∃ e, ∀ d, gather environment fs (withDatabase given d) = .error e) ∨
      ∃ o₁ o₂, gather environment fs (withDatabase given d₁) = .ok o₁ ∧
        gather environment fs (withDatabase given d₂) = .ok o₂ ∧ AlikeButDatabase d₁ d₂ o₁ o₂ := by
  obtain ⟨before, after, hafter, hline⟩ := fromCommandLine_withDatabase hgiven
  have hfile : ∀ d, fromNamedFile fs (withDatabase given d) = fromNamedFile fs given := by
    intro d
    have hne : ¬"database".toList = "config".toList := by decide
    unfold fromNamedFile withDatabase
    rw [Assoc.get?_set, if_neg hne]
  unfold gather
  simp only [hfile, hline]
  cases fromNamedFile fs given with
  | error e => exact .inl ⟨e, fun _ => rfl⟩
  | ok file =>
    refine .inr ⟨_, _, rfl, rfl, fun name hname => ?_, ?_, ?_⟩
    · have hne : ¬name.toList = "database".toList := fun h => hname (String.toList_inj.mp h)
      unfold Options.value
      rw [Assoc.get?_update_around _ _ _ hafter, Assoc.get?_update_around _ _ _ hafter, if_neg hne,
        if_neg hne]
    · unfold Options.value
      rw [Assoc.get?_update_around _ _ _ hafter, if_pos rfl]
      rfl
    · unfold Options.value
      rw [Assoc.get?_update_around _ _ _ hafter, if_pos rfl]
      rfl

theorem isVerbose_withDatabase (given : Options) (d : Text) :
    isVerbose (withDatabase given d) = isVerbose given := by
  have hne : ¬"database".toList = "verbose".toList := by decide
  unfold isVerbose withDatabase Options.value
  rw [Assoc.get?_set, if_neg hne]

/-- What the program shows of the text of its database option, these being its other options. -/
def Disclosure.ofProgram (h : Host) (given : Options) (d : Text) : Disclosure :=
  match gather h.environment h.files (withDatabase given d) with
  | .ok o => ofRun h o d
  | .error _ => nothing

/-- **What a password changes in what is told.** Two programs whose options differ in the password of the
database only, with the same surroundings, tell the same (the exit status, standard output, the log and
all else on standard error, the progress bar) exactly when they show the same of the text of the option.
Where they do not, one of them shows its password, and there are three places for this: the message about
the token of the password, that about the whole option, and the summary. -/
theorem told_start_iff (h : Host) {given : Options} (hgiven : (Assoc.keys given).Nodup) {d₁ d₂ : Text}
    (hd : DatabaseSpec.AlikeButPassword d₁ d₂) :
    ((start h (withDatabase given d₁)).told = (start h (withDatabase given d₂)).told ↔
      Disclosure.ofProgram h given d₁ = Disclosure.ofProgram h given d₂) ∧
    (Disclosure.ofProgram h given d₁ ≠ Disclosure.ofProgram h given d₂ →
      Disclosure.ShowsPassword d₁ (Disclosure.ofProgram h given d₁) ∨
        Disclosure.ShowsPassword d₂ (Disclosure.ofProgram h given d₂)) := by
  unfold start Disclosure.ofProgram
  simp only [isVerbose_withDatabase]
  rcases gather_alike h.environment h.files hgiven d₁ d₂ with ⟨e, he⟩ | ⟨o₁, o₂, h₁, h₂, ho⟩
  · simp only [he]
    exact ⟨trivial, fun hne => absurd rfl hne⟩
  · simp only [h₁, h₂]
    exact ⟨told_run_iff h _ ho hd, showsPassword_of_ofRun_ne h ho hd⟩

/-- A host with one table in its database and no engine. -/
def oneTable : Host where
  files := ⟨[], [], []⟩
  input := []
  environment := []
  server := ⟨none, fun _ => none, 1, ["age".toList], [.ok [[.int 30]]], none⟩
  programs := []
  directory := []

/-- A table in a database, to be read with this password. -/
def withPassword (password : Text) : Text :=
  "TYPE=MYSQL,PASSWORD=".toList ++ password ++ ",DATABASE=d,TABLE=t".toList

theorem withPassword_alike :
    DatabaseSpec.AlikeButPassword (withPassword "open".toList) (withPassword "sesame".toList) :=
  ⟨["TYPE=MYSQL".toList], ["DATABASE=d".toList, "TABLE=t".toList], "PASSWORD=open".toList,
    "PASSWORD=sesame".toList, by decide, by decide, ⟨"PASSWORD".toList, ["open".toList], by decide⟩,
    ⟨"PASSWORD".toList, ["sesame".toList], by decide⟩⟩

/-- Where the outcome goes to standard output, neither of two passwords is told. -/
theorem told_without_summary :
    DatabaseSpec.AlikeButPassword (withPassword "open".toList) (withPassword "sesame".toList) ∧
      (start oneTable (withDatabase [("criteria".toList, .text "2-ANONYMITY".toList)]
          (withPassword "open".toList))).told =
        (start oneTable (withDatabase [("criteria".toList, .text "2-ANONYMITY".toList)]
          (withPassword "sesame".toList))).told :=
  ⟨withPassword_alike,
    (told_start_iff oneTable (by decide) withPassword_alike).1.mpr (by decide +kernel)⟩

/-- Where it goes to a file, the summary tells the password. -/
theorem password_is_told :
    DatabaseSpec.AlikeButPassword (withPassword "open".toList) (withPassword "sesame".toList) ∧
      (start oneTable (withDatabase [("criteria".toList, .text "2-ANONYMITY".toList),
          ("output".toList, .text "out.csv".toList)] (withPassword "open".toList))).told ≠
        (start oneTable (withDatabase [("criteria".toList, .text "2-ANONYMITY".toList),
          ("output".toList, .text "out.csv".toList)] (withPassword "sesame".toList))).told := by
  refine ⟨withPassword_alike, fun h => ?_⟩
  have houtput := congrArg Told.output h
  revert houtput
  decide +kernel

/-- A password with an equals sign is shown by the message about its token. -/
example : Disclosure.ofProgram oneTable [("criteria".toList, .text "2-ANONYMITY".toList)]
    (withPassword "se=same".toList) = .message "PASSWORD=se=same".toList .notKeyValue := by
  decide +kernel

end CommandLine

end Anonymization
