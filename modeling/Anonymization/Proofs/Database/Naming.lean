import Anonymization.Proofs.Database.Fetching
import Anonymization.Proofs.Settings.Defects
/-!
# The table that a statement names

A server takes a name between backticks up to the first backtick that is not doubled, and a doubled one for
a backtick of the name. The statements put the name between backticks as it stands.

* `nameBetween?_eq_some_iff` -- what a server takes for a name: **its backticks doubled, between backticks**;
* `statements_count`, `statements_fetch` -- all that is sent to it;
* `statements_name_table_iff` -- **every statement ends with the name of its table exactly if there is no
  backtick in that name**;
* `statement_cut_short` -- a name that is taken for another, with something behind it.
-/

namespace Anonymization.Database

/-! ## 1. A name between backticks -/

/-- A name with each of its backticks twice. -/
def doubledTicks (name : Text) : Text :=
  name.flatMap fun c => if c = backtick then [backtick, backtick] else [c]

theorem doubledTicks_cons (c : Char) (name : Text) :
    doubledTicks (c :: name) =
      (if c = backtick then [backtick, backtick] else [c]) ++ doubledTicks name := rfl

/-- Each backtick makes the text one character longer. -/
theorem length_doubledTicks (name : Text) :
    (doubledTicks name).length = name.length + name.count backtick := by
  induction name with
  | nil => rfl
  | cons c name ih =>
    rw [doubledTicks_cons, List.length_append, ih, List.length_cons, List.count_cons]
    by_cases hc : c = backtick
    · simp [hc]
      omega
    · simp [hc]
      omega

/-- **Doubling changes nothing but a name with a backtick.** -/
theorem doubledTicks_eq_self_iff (name : Text) : doubledTicks name = name ↔ backtick ∉ name := by
  constructor
  · intro h
    have hlength := length_doubledTicks name
    rw [h] at hlength
    exact List.count_eq_zero.mp (by omega)
  · intro h
    induction name with
    | nil => rfl
    | cons c name ih =>
      have hc : c ≠ backtick := fun hc => h (hc ▸ List.mem_cons_self)
      rw [doubledTicks_cons, if_neg hc, ih fun hmem => h (List.mem_cons_of_mem c hmem),
        List.singleton_append]

/-- Behind the opening backtick a name is taken whose backticks are doubled. -/
theorem untilBacktick?_doubledTicks (name : Text) {rest : Text} (h : rest.head? ≠ some backtick) :
    untilBacktick? (doubledTicks name ++ backtick :: rest) = some (name, rest) := by
  induction name with
  | nil =>
    cases rest with
    | nil => rfl
    | cons c rest =>
      have hc : c ≠ backtick := fun hc => h (congrArg some hc)
      simp [doubledTicks, untilBacktick?, hc]
  | cons c name ih =>
    rw [doubledTicks_cons, List.append_assoc]
    by_cases hc : c = backtick
    · simp [hc, untilBacktick?, ih]
    · rw [if_neg hc, List.singleton_append]
      -- the function looks two characters ahead, and there is one more at least
      obtain ⟨d, more, hmore⟩ := List.exists_cons_of_ne_nil
        (List.append_ne_nil_of_right_ne_nil (doubledTicks name) (List.cons_ne_nil backtick rest))
      rw [hmore] at ih ⊢
      simp [untilBacktick?, hc, ih]

/-- What is taken behind the opening backtick, and what is left. -/
theorem of_untilBacktick? {t name rest : Text} (h : untilBacktick? t = some (name, rest)) :
    t = doubledTicks name ++ backtick :: rest ∧ rest.head? ≠ some backtick := by
  fun_induction untilBacktick? t generalizing name rest with
  | case1 => cases h
  | case2 => cases h; exact ⟨rfl, by simp⟩
  | case3 => cases h
  | case4 more ih =>
    obtain ⟨⟨name, rest⟩, hmore, heq⟩ := Option.map_eq_some_iff.mp h
    cases heq
    obtain ⟨rfl, hrest⟩ := ih hmore
    exact ⟨rfl, hrest⟩
  | case5 d more hd => cases h; exact ⟨rfl, fun e => hd (Option.some.inj e)⟩
  | case6 c d more hc ih =>
    obtain ⟨⟨name, rest⟩, hmore, heq⟩ := Option.map_eq_some_iff.mp h
    cases heq
    obtain ⟨hmore, hrest⟩ := ih hmore
    refine ⟨?_, hrest⟩
    rw [doubledTicks_cons, if_neg hc, hmore]
    rfl

/-- **What a server takes for a name**: a backtick, the name with its own backticks doubled, and a backtick
that is not doubled. -/
theorem nameBetween?_eq_some_iff (t name rest : Text) :
    nameBetween? t = some (name, rest) ↔
      t = backtick :: (doubledTicks name ++ backtick :: rest) ∧ rest.head? ≠ some backtick := by
  constructor
  · intro h
    cases t with
    | nil => cases h
    | cons c t =>
      by_cases hc : c = backtick
      · rw [nameBetween?, if_pos hc] at h
        obtain ⟨rfl, hrest⟩ := of_untilBacktick? h
        exact ⟨by rw [hc], hrest⟩
      · rw [nameBetween?, if_neg hc] at h
        cases h
  · rintro ⟨rfl, hrest⟩
    rw [nameBetween?, if_pos rfl, untilBacktick?_doubledTicks name hrest]

/-- **A name between backticks is taken for itself exactly if it has no backtick.** -/
theorem nameBetween?_quotedName_iff (name : Text) :
    nameBetween? (quotedName name) = some (name, []) ↔ backtick ∉ name := by
  have hquoted : quotedName name = backtick :: (name ++ [backtick]) := rfl
  rw [nameBetween?_eq_some_iff, ← doubledTicks_eq_self_iff, hquoted, List.cons.injEq,
    List.append_cancel_right_eq]
  exact ⟨fun ⟨⟨_, h⟩, _⟩ => h.symm, fun h => ⟨⟨rfl, h.symm⟩, by simp⟩⟩

/-! ## 2. The statements of a step -/

/-- The statement that an event is. -/
def statementOf? : DatabaseEvent → Option Text
  | .statement sql => some sql
  | _ => none

/-- The statements that are sent in a step, in order. -/
def statements {α : Type} (step : Step α) : List Text :=
  step.events.filterMap statementOf?

variable {α : Type}

/-- No statement is sent while records are fetched. -/
theorem statements_fetchBatches (batches : List Batch) : statements (fetchBatches batches) = [] := by
  induction batches with
  | nil => rfl
  | cons batch rest ih =>
    match batch with
    | .error reason => rfl
    | .ok [] => rfl
    | .ok (r :: rs) =>
      rw [statements, fetchBatches_cons (List.cons_ne_nil r rs), List.filterMap_cons]
      exact ih

/-- A cursor is for one statement, before those that are sent while it is open. -/
theorem filterMap_cursorEvents (sql : Text) (inside : List DatabaseEvent) :
    (cursorEvents sql inside).filterMap statementOf? = sql :: inside.filterMap statementOf? := by
  simp [cursorEvents, statementOf?, List.filterMap_cons]

theorem statements_withCursor (server : Server) (sql : Text) {result : Step α}
    (h : statements result = []) : statements (withCursor server sql result) = [sql] := by
  unfold statements at h ⊢
  cases hfault : server.statementFault sql with
  | some reason => rw [withCursor_of_refused hfault, filterMap_cursorEvents, List.filterMap_nil]
  | none => rw [withCursor_of_accepted hfault, filterMap_cursorEvents, h]

/-- To count the records one statement is sent. -/
theorem statements_count (server : Server) (table : Text) :
    statements (count server table) = [countStatement table] :=
  statements_withCursor server _ rfl

/-- To fetch a table two statements are sent, the second unless the first is refused. -/
theorem statements_fetch (server : Server) (table : Text) :
    statements (fetch server table) = [countStatement table] ∨
      statements (fetch server table) = [countStatement table, selectStatement table] := by
  have hrows : statements (fetchBatches server.batches >>= fun records =>
      pure (⟨server.columns, records.map row⟩ : Table)) = [] := by
    rw [Traced.bind_pure_eq]
    exact statements_fetchBatches server.batches
  have hselect := statements_withCursor server (selectStatement table) hrows
  rw [fetch_eq]
  cases hfault : server.statementFault (countStatement table) with
  | some reason =>
    rw [withCursor_of_refused hfault]
    exact .inl rfl
  | none =>
    rw [withCursor_of_accepted hfault]
    exact .inr (congrArg (countStatement table :: ·) hselect)

/-- A connection sends only what fetching the table sends. -/
theorem statements_readTable {server : Server} (hserver : server.refusal = none)
    (environment : Assoc Text Text) {spec : DatabaseSpec} (htype : spec.type = .mysql) :
    statements (readTable server environment spec) = statements (fetch server spec.table) := by
  have hconnect : connect server environment spec =
      ⟨[.connected (credentials environment spec)], .ok ()⟩ := by
    unfold connect
    rw [hserver, htype]
    rfl
  have hclose : statements (close server) = [] := by
    unfold close
    cases server.closingFault <;> rfl
  have hevents : (readTable server environment spec).events =
      .connected (credentials environment spec) :: ((fetch server spec.table).events ++ (close server).events) := by
    rw [readTable, hconnect]
    rfl
  unfold statements at hclose ⊢
  rw [hevents, List.filterMap_cons, List.filterMap_append, hclose, List.append_nil]
  rfl

/-! ## 3. The name of the table -/

/-- The statement begins like this, and then the name of the table stands between backticks for the server,
with nothing behind it. -/
def Names (lead table sql : Text) : Prop :=
  ∃ name, sql = lead ++ name ∧ nameBetween? name = some (table, [])

theorem names_iff (lead table : Text) :
    Names lead table (lead ++ quotedName table) ↔ backtick ∉ table := by
  rw [← nameBetween?_quotedName_iff]
  constructor
  · rintro ⟨name, hsql, hname⟩
    rw [List.append_cancel_left hsql]
    exact hname
  · exact fun h => ⟨_, rfl, h⟩

/-- In place of a name with a backtick a server takes a shorter one, if it takes any. -/
theorem length_lt_of_backtick_mem {table name rest : Text} (htick : backtick ∈ table)
    (h : nameBetween? (quotedName table) = some (name, rest)) : name.length < table.length := by
  obtain ⟨hquoted, -⟩ := (nameBetween?_eq_some_iff _ _ _).mp h
  have hinside : table ++ [backtick] = doubledTicks name ++ backtick :: rest := (List.cons.inj hquoted).2
  have hlength := congrArg List.length hinside
  simp only [List.length_append, length_doubledTicks, List.length_cons, List.length_nil] at hlength
  -- a name as long as that of the table would be the name of the table, and without a backtick
  by_contra hle
  obtain ⟨hcount, hrest⟩ : name.count backtick = 0 ∧ rest.length = 0 := by omega
  have hplain : doubledTicks name = name :=
    (doubledTicks_eq_self_iff name).mpr (List.count_eq_zero.mp hcount)
  rw [hplain, List.length_eq_zero_iff.mp hrest] at hinside
  exact List.count_eq_zero.mp hcount (List.append_cancel_right hinside ▸ htick)

/-- The table of a specification is the value of its key. -/
theorem get?_table_of_ofValues {option : Text} {values : Assoc DatabaseSpec.Key Text} {spec : DatabaseSpec}
    (h : DatabaseSpec.ofValues option values = .ok spec) : values.get? .table = some spec.table := by
  unfold DatabaseSpec.ofValues at h
  obtain ⟨type, -, h⟩ := (Outcome.bind_ok_iff _ _ _).mp h
  obtain ⟨database, -, h⟩ := (Outcome.bind_ok_iff _ _ _).mp h
  obtain ⟨table, htable, h⟩ := (Outcome.bind_ok_iff _ _ _).mp h
  split at h
  · cases h
  · obtain ⟨port, -, h⟩ := (Outcome.bind_ok_iff _ _ _).mp h
    cases h
    exact (DatabaseSpec.required_ok_iff _ _ _ _).mp htable

/-- **A statement names its table exactly if there is no backtick in the name.** The table of a database
option is what the last token with this key says. To count its records one statement is sent, to read them
the same and then, unless it is refused, another. Behind its fixed beginning a server takes the rest of the
statement for the name of the table if and only if no backtick is in it; where there is one, a server takes
a shorter name, if any. -/
theorem statements_name_table_iff {option : Text} {spec : DatabaseSpec}
    (hoption : DatabaseSpec.parseOption Field.listSeparator (some option) = .ok (some spec))
    (htype : spec.type = .mysql) (server : Server) :
    (∃ entries, List.Forall₂ DatabaseSays (DatabaseSpec.tokens Field.listSeparator option) entries ∧
      Assoc.IsLast entries .table spec.table) ∧
    statements (count server spec.table) = [countStatement spec.table] ∧
    (statements (fetch server spec.table) = [countStatement spec.table] ∨
      statements (fetch server spec.table) = [countStatement spec.table, selectStatement spec.table]) ∧
    (server.refusal = none → ∀ environment,
      statements (readTable server environment spec) = statements (fetch server spec.table)) ∧
    (Names countLead spec.table (countStatement spec.table) ↔ backtick ∉ spec.table) ∧
    (Names selectLead spec.table (selectStatement spec.table) ↔ backtick ∉ spec.table) ∧
    (backtick ∈ spec.table → ∀ name rest,
      nameBetween? (quotedName spec.table) = some (name, rest) → name.length < spec.table.length) := by
  obtain ⟨entries, hentries, hvalues⟩ :=
    (DatabaseSpec.parseOption_ok_iff Field.listSeparator option spec).mp hoption
  have hlast : Assoc.IsLast entries .table spec.table :=
    (Assoc.get?_ofList_iff entries _ _).mp (get?_table_of_ofValues hvalues)
  exact ⟨⟨entries, hentries, hlast⟩, statements_count server spec.table,
    statements_fetch server spec.table,
    fun hserver environment => statements_readTable hserver environment htype,
    names_iff countLead spec.table, names_iff selectLead spec.table,
    fun htick _ _ => length_lt_of_backtick_mem htick⟩

/-- A server that refuses nothing and has nothing to hand out. -/
def patient : Server where
  refusal := none
  statementFault _ := none
  count := 0
  columns := ["id".toList]
  batches := []
  closingFault := none

/-- The option of a table with this name, as it is written in the option. -/
def optionOf (table : String) : Text :=
  "TYPE=MYSQL,DATABASE=d,TABLE=".toList ++ table.toList

/-- The specification of a table with this name. -/
def specOf (table : String) : DatabaseSpec where
  type := .mysql
  database := "d".toList
  table := table.toList
  host := DatabaseSpec.defaultHost
  port := none
  user := none
  password := none

/-- A table with a comma, quotes and a dash in its name is named. -/
theorem statements_name_odd_table :
    DatabaseSpec.parseOption Field.listSeparator (some (optionOf "a\\,'b' -- \"")) =
        .ok (some (specOf "a,'b' -- \"")) ∧
      (specOf "a,'b' -- \"").type = .mysql ∧
      Names selectLead "a,'b' -- \"".toList "SELECT * FROM `a,'b' -- \"`".toList := by
  have hoption : DatabaseSpec.parseOption Field.listSeparator (some (optionOf "a\\,'b' -- \"")) =
      .ok (some (specOf "a,'b' -- \"")) := by decide
  obtain ⟨-, -, -, -, -, hselect, -⟩ := statements_name_table_iff hoption rfl patient
  exact ⟨hoption, rfl, hselect.mpr (by decide)⟩

/-- **A table name is cut short.** The option gives the name ``a`b``, and the statements that are sent for it
name the table `a` and go on behind it. -/
theorem statement_cut_short :
    DatabaseSpec.parseOption Field.listSeparator (some (optionOf "a`b")) = .ok (some (specOf "a`b")) ∧
      (specOf "a`b").type = .mysql ∧
      statements (fetch patient (specOf "a`b").table) =
        ["SELECT COUNT(*) FROM `a`b`".toList, "SELECT * FROM `a`b`".toList] ∧
      ¬Names countLead (specOf "a`b").table "SELECT COUNT(*) FROM `a`b`".toList ∧
      nameBetween? "`a`b`".toList = some ("a".toList, "b`".toList) := by
  refine ⟨by decide, rfl, by decide, fun h => ?_, by decide⟩
  exact absurd ((names_iff countLead "a`b".toList).mp h) (by decide)

end Anonymization.Database
