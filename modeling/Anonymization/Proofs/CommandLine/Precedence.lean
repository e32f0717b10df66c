import Anonymization.CommandLine.Sources
import Anonymization.Proofs.Json.Members
import Anonymization.Proofs.Outcome
import Anonymization.Proofs.Table.RoundTrip
/-!
# The source that counts

* `sets_of_consume`, `get?_parse_ne_none_iff` -- **a command line sets the options that its words mean**;
* `FileGives`, `Origins.supplies?` -- what a configuration file gives, and what each origin has;
* `Origins.Decide` -- the strongest origin that has a value decides;
* `get?_gather` -- **what is gathered, origin after origin**;
* `gather_decided_iff` -- the strongest origin decides, but for a switch that only the file sets:
  on a command line it is false where no word means it, and this counts more than the file.
-/

namespace Anonymization.CommandLine

/-! ## 1. The options on a command line -/

/-- The options that a word stands for: switches, and one behind them. -/
def optionsOf : Word → List Declared
  | .option (some m) =>
    match unfoldWord m with
    | .ok (switches, last, _) => switches ++ [last]
    | .error _ => []
  | _ => []

/-- The options that some words stand for, in order. -/
def mentioned (words : List (Text × Word)) : List Declared :=
  words.flatMap fun w => optionsOf w.2

/-- From the one state to the other the values of these options were set, one after the other. -/
def Sets (ds : List Declared) (t t' : Taken) : Prop :=
  ∃ taken : List (Text × Json), t'.values = Assoc.update t.values taken ∧
    Assoc.keys taken = ds.map Declared.key

theorem Sets.refl (t : Taken) : Sets [] t t := ⟨[], rfl, rfl⟩

theorem Sets.trans {ds ds' : List Declared} {t₁ t₂ t₃ : Taken} (h : Sets ds t₁ t₂) (h' : Sets ds' t₂ t₃) :
    Sets (ds ++ ds') t₁ t₃ := by
  obtain ⟨taken, hvalues, hkeys⟩ := h
  obtain ⟨taken', hvalues', hkeys'⟩ := h'
  refine ⟨taken ++ taken', ?_, ?_⟩
  · rw [Assoc.update_append, ← hvalues, hvalues']
  · rw [Assoc.keys, List.map_append, List.map_append]
    exact congrArg₂ (· ++ ·) hkeys hkeys'

theorem sets_of_take {t t' : Taken} {d : Declared} {argument : Option Text}
    (h : t.take d argument = .ok t') : Sets [d] t t' := by
  obtain ⟨v, -, rfl⟩ := (Outcome.map_ok_iff _ _ _).mp h
  exact ⟨[(d.key, v)], rfl, rfl⟩

theorem sets_of_takeSwitches {t t' : Taken} {ds : List Declared} (h : t.takeSwitches ds = .ok t') :
    Sets ds t t' := by
  induction ds generalizing t with
  | nil =>
    cases h
    exact .refl _
  | cons d ds ih =>
    obtain ⟨t₁, h₁, hrest⟩ := (Outcome.bind_ok_iff _ _ _).mp h
    exact (sets_of_take h₁).trans (ih hrest)

/-- What a word stands for is set, and then what the words behind it stand for. -/
theorem sets_of_use {t t' : Taken} {switches : List Declared} {last : Declared} {argument : Option Text}
    {rest : List (Text × Word)} (hrest : ∀ t₁, consume t₁ rest = .ok t' → Sets (mentioned rest) t₁ t')
    (h : (do consume (← (← t.takeSwitches switches).take last argument) rest) = .ok t') :
    Sets (switches ++ [last] ++ mentioned rest) t t' := by
  obtain ⟨t₁, h₁, h⟩ := (Outcome.bind_ok_iff _ _ _).mp h
  obtain ⟨t₂, h₂, h⟩ := (Outcome.bind_ok_iff _ _ _).mp h
  exact ((sets_of_takeSwitches h₁).trans (sets_of_take h₂)).trans (hrest t₂ h)

/-- **What some words say is set for the options that they stand for**, and for no other. -/
theorem sets_of_consume {t t' : Taken} {words : List (Text × Word)} (h : consume t words = .ok t') :
    Sets (mentioned words) t t' := by
  -- an option may take the next word as its argument, so the words may be fewer by two
  induction hn : words.length using Nat.strong_induction_on generalizing t words with
  | _ n ih =>
    subst hn
    unfold consume at h
    split at h
    · cases h
      exact .refl _
    · next word m rest =>
      obtain ⟨⟨switches, last, argument⟩, hunfold, h⟩ := (Outcome.bind_ok_iff _ _ _).mp h
      have hmentioned : mentioned ((word, .option (some m)) :: rest) =
          switches ++ [last] ++ mentioned rest := by
        simp [mentioned, optionsOf, hunfold]
      have hrest : ∀ t₁, consume t₁ rest = .ok t' → Sets (mentioned rest) t₁ t' :=
        fun t₁ h₁ => ih rest.length (Nat.lt_succ_self _) h₁ rfl
      rw [hmentioned]
      dsimp only at h
      split at h
      · exact sets_of_use hrest h
      · split at h
        · next argument rest _ =>
          have hargument : mentioned ((argument, .argument) :: rest) = mentioned rest := rfl
          rw [hargument]
          exact sets_of_use (fun t₁ h₁ => ih rest.length (by simp) h₁ rfl) h
        · split at h
          · exact sets_of_use hrest h
          · cases h
    · next word w rest hno =>
      have hmentioned : mentioned ((word, w) :: rest) = mentioned rest := by
        cases w with
        | option m =>
          cases m with
          | some m => exact absurd rfl (hno m)
          | none => rfl
        | argument => rfl
        | terminator => rfl
      -- a word of no use is kept aside and changes no value
      obtain ⟨taken, hvalues, hkeys⟩ := ih rest.length (Nat.lt_succ_self _) h rfl
      rw [hmentioned]
      exact ⟨taken, hvalues, hkeys⟩

/-- A word of the command line means the option with this key. -/
def Mentions (words : List Text) (name : Text) : Prop :=
  ∃ ws, classifyAll words = .ok ws ∧ name ∈ (mentioned ws).map Declared.key

/-- The values on a command line are set one after the other, each for an option that a word means. -/
theorem exists_of_parse {words : List Text} {given : Options} (h : parse words = .ok given) :
    ∃ ws taken, classifyAll words = .ok ws ∧ given = Assoc.ofList taken ∧
      Assoc.keys taken = (mentioned ws).map Declared.key := by
  obtain ⟨ws, hws, h⟩ := (Outcome.bind_ok_iff _ _ _).mp h
  obtain ⟨t, ht, h⟩ := (Outcome.bind_ok_iff _ _ _).mp h
  obtain ⟨taken, hvalues, hkeys⟩ := sets_of_consume ht
  split at h
  · cases h
    exact ⟨ws, taken, hws, hvalues, hkeys⟩
  · cases h

/-- **An option has a value on the command line exactly if a word means it.** -/
theorem get?_parse_ne_none_iff {words : List Text} {given : Options} (h : parse words = .ok given)
    (name : Text) : given.get? name ≠ none ↔ Mentions words name := by
  obtain ⟨ws, taken, hws, rfl, hkeys⟩ := exists_of_parse h
  rw [Ne, Assoc.get?_eq_none_iff, Assoc.mem_keys_ofList, not_not, hkeys]
  refine ⟨fun hmem => ⟨ws, hws, hmem⟩, fun ⟨ws', hws', hmem⟩ => ?_⟩
  obtain rfl := Except.ok.inj (hws.symm.trans hws')
  exact hmem

theorem nodup_keys_of_parse {words : List Text} {given : Options} (h : parse words = .ok given) :
    (Assoc.keys given).Nodup := by
  obtain ⟨ws, taken, -, rfl, -⟩ := exists_of_parse h
  exact Assoc.nodup_keys_ofList taken

/-! ## 2. What each source supplies -/

/-- The configuration file of a command line gives these options: none where it is not named, else the
members of the object that it holds. -/
inductive FileGives (fs : FileSystem) (given : Options) : Options → Prop where
  | unnamed (h : ∀ path, given.get? "config".toList = some (.text path) → path = []) : FileGives fs given []
  | named {path text : Text} {members : Options} (hpath : given.get? "config".toList = some (.text path))
      (hne : path ≠ []) (htext : fs.readText path = .ok text)
      (hobject : Json.read text = .ok (.object members)) : FileGives fs given members

/-- Where the values of options come from. -/
inductive Origin where
  | commandLine
  | file
  | environment
  | builtIn

/-- All origins, the strongest first. -/
def Origin.all : List Origin := [commandLine, file, environment, builtIn]

/-- What there is at each origin. -/
structure Origins where
  given : Options
  file : Options
  environment : Assoc Text Text

/-- What an option gets of its variable: nothing where that is not set or empty. -/
def ofVariable? (environment : Assoc Text Text) (source : Text) : Option Json :=
  ((environment.get? source).filter fun value => !value.isEmpty).map .text

/-- The value that an origin has for an option. -/
def Origins.supplies? (s : Origins) (name : Text) : Origin → Option Json
  | .commandLine => s.given.get? name
  | .file => s.file.get? name
  | .environment => (Assoc.get? variableNames name).bind (ofVariable? s.environment)
  | .builtIn => builtIn.get? name

/-- The value of the strongest origin that has one. -/
def Origins.Prevails (s : Origins) (name : Text) (v : Json) : Prop :=
  ∃ stronger origin weaker, Origin.all = stronger ++ origin :: weaker ∧
    s.supplies? name origin = some v ∧ ∀ o ∈ stronger, s.supplies? name o = none

/-- An option has the value of the strongest origin that has one; where none has, it is absent or
false. -/
structure Origins.Decide (s : Origins) (name : Text) (value : Option Json) : Prop where
  prevailing : ∀ v, s.Prevails name v → value = some v
  absent : (∀ origin, s.supplies? name origin = none) → value = none ∨ value = some (.bool false)

theorem fromEnvironment_eq (environment : Assoc Text Text) :
    fromEnvironment environment = Assoc.mapValues (ofVariable? environment) variableNames := by
  unfold fromEnvironment Assoc.mapValues ofVariable?
  refine congrArg (variableNames.filterMap ·) (funext fun ⟨option, source⟩ => ?_)
  dsimp only
  match environment.get? source with
  | none => rfl
  | some [] => rfl
  | some (c :: t) => rfl

/-- **The file gives what its object holds.** -/
theorem FileGives.fromNamedFile_eq {fs : FileSystem} {given file : Options} (h : FileGives fs given file) :
    fromNamedFile fs given = .ok file := by
  unfold fromNamedFile
  cases h with
  | unnamed h =>
    split
    · next hpath => cases h _ hpath
    · rfl
  | @named path text _ hpath hne htext hobject =>
    obtain ⟨c, rest, rfl⟩ := List.exists_cons_of_ne_nil hne
    have hfile : fromFile fs (c :: rest) = .ok file :=
      (Outcome.bind_ok_iff _ _ _).mpr ⟨text, htext, by rw [hobject]; rfl⟩
    rw [hpath]
    exact hfile

/-- What is gathered with the file. -/
theorem FileGives.gather_eq {fs : FileSystem} {given file : Options} (h : FileGives fs given file)
    (environment : Assoc Text Text) : gather environment fs given =
      .ok (((builtIn.update (fromEnvironment environment)).update file).update (fromCommandLine given)) := by
  unfold gather
  rw [h.fromNamedFile_eq]
  rfl

theorem FileGives.nodup_keys {fs : FileSystem} {given file : Options} (h : FileGives fs given file) :
    (Assoc.keys file).Nodup := by
  cases h with
  | unnamed _ => exact List.nodup_nil
  | named _ _ _ hobject => exact Json.nodup_keys_of_read hobject

/-! ## 3. What counts -/

/-- The value that counts, found from the strongest origin on. -/
theorem Origins.prevails_iff (s : Origins) (name : Text) (v : Json) :
    s.Prevails name v ↔ Origin.all.findSome? (s.supplies? name) = some v := by
  rw [List.findSome?_eq_some_iff]
  rfl

/-- The value that is found from the strongest origin on is the one that counts. -/
theorem Origins.decide_findSome? (s : Origins) (name : Text) :
    s.Decide name (Origin.all.findSome? (s.supplies? name)) where
  prevailing v h := (s.prevails_iff name v).mp h
  absent h := .inl (List.findSome?_eq_none_iff.mpr fun origin _ => h origin)

/-- What the command line gives: what its words say, and the switch also where no word means it. -/
theorem get?_fromCommandLine (given : Options) {name : Text} (hname : name ≠ "config".toList) :
    (fromCommandLine given).get? name =
      (given.get? name).or (if "verbose".toList = name then some (.bool false) else none) := by
  have hkept : (name != "config".toList) = true := bne_iff_ne.mpr hname
  have hfilter : fromCommandLine given =
      (given.setIfNew "verbose".toList (.bool false)).filter fun p => p.1 != "config".toList := rfl
  rw [hfilter, Assoc.get?_filter _ (· != "config".toList) hkept, Assoc.get?_setIfNew]

theorem nodup_keys_fromCommandLine {given : Options} (h : (Assoc.keys given).Nodup) :
    (Assoc.keys (fromCommandLine given)).Nodup :=
  (Assoc.nodup_keys_setIfNew h "verbose".toList (.bool false)).sublist (List.filter_sublist.map _)

/-- **What an option has from all origins.** The switch is the one option that has a value on every command
line. -/
theorem get?_gather {s : Origins} (hgiven : (Assoc.keys s.given).Nodup) (hfile : (Assoc.keys s.file).Nodup)
    {name : Text} (hname : name ≠ "config".toList) :
    Assoc.get? (((builtIn.update (fromEnvironment s.environment)).update s.file).update
        (fromCommandLine s.given)) name =
      if "verbose".toList = name then some ((s.given.get? name).getD (.bool false))
      else Origin.all.findSome? (s.supplies? name) := by
  have hvariables : (Assoc.keys variableNames).Nodup := by decide
  have henvironment : (Assoc.keys (fromEnvironment s.environment)).Nodup :=
    hvariables.sublist (fromEnvironment_eq s.environment ▸ Assoc.keys_mapValues_sublist _ _)
  rw [Assoc.get?_update_of_nodup _ (nodup_keys_fromCommandLine hgiven),
    Assoc.get?_update_of_nodup _ hfile, Assoc.get?_update_of_nodup _ henvironment,
    fromEnvironment_eq, Assoc.get?_mapValues _ hvariables, get?_fromCommandLine _ hname]
  by_cases hverbose : "verbose".toList = name
  · rw [if_pos hverbose, if_pos hverbose]
    cases s.given.get? name <;> rfl
  · rw [if_neg hverbose, if_neg hverbose, Option.or_none]
    simp only [Origin.all, List.findSome?_cons, List.findSome?_nil, Origins.supplies?]
    cases s.given.get? name with
    | some v => rfl
    | none =>
      cases s.file.get? name with
      | some v => rfl
      | none =>
        cases (Assoc.get? variableNames name).bind (ofVariable? s.environment) with
        | some v => rfl
        | none => cases builtIn.get? name <;> rfl

/-- The switches are the options that are set without a word of the command line. -/
theorem kind_eq_switch_iff {d : Declared} (hd : d ∈ declared) : d.kind = .switch ↔ "verbose".toList = d.key := by
  revert d
  decide

/-- A configuration file has the switch set that no word of the command line means. -/
structure IsOverridden (s : Origins) (d : Declared) : Prop where
  switch : d.kind = .switch
  notGiven : s.given.get? d.key = none
  set : ∃ v, s.file.get? d.key = some v ∧ v ≠ .bool false

/-- The switch has no variable and no built-in value. -/
theorem Origins.findSome?_switch (s : Origins) :
    Origin.all.findSome? (s.supplies? "verbose".toList) =
      (s.given.get? "verbose".toList).or (s.file.get? "verbose".toList) := by
  simp only [Origin.all, List.findSome?_cons, List.findSome?_nil, Origins.supplies?]
  cases s.given.get? "verbose".toList with
  | some v => rfl
  | none => cases s.file.get? "verbose".toList <;> rfl

/-- **What a command line has for the switch is what counts**, unless the file sets it and no word means it. -/
theorem Origins.decide_switch_iff (s : Origins) {d : Declared} (hd : d ∈ declared)
    (hkey : "verbose".toList = d.key) :
    s.Decide d.key (some ((s.given.get? d.key).getD (.bool false))) ↔ ¬IsOverridden s d := by
  have hfound := s.findSome?_switch
  rw [hkey] at hfound
  cases hgiven : s.given.get? d.key with
  | some v =>
    have hdecide := s.decide_findSome? d.key
    rw [hfound, hgiven] at hdecide
    refine iff_of_true hdecide fun h => ?_
    rw [h.notGiven] at hgiven
    cases hgiven
  | none =>
    cases hfile : s.file.get? d.key with
    | none =>
      -- no origin has a value
      have hnone : Origin.all.findSome? (s.supplies? d.key) = none := by rw [hfound, hgiven, hfile]; rfl
      refine iff_of_true ⟨fun v hv => ?_, fun _ => .inr rfl⟩ fun ⟨_, _, v, hv, _⟩ => ?_
      · rw [s.prevails_iff, hnone] at hv
        cases hv
      · rw [hfile] at hv
        cases hv
    | some v =>
      have hprevails : s.Prevails d.key v := by
        rw [s.prevails_iff, hfound, hgiven, hfile]
        rfl
      constructor
      · intro h hover
        obtain ⟨w, hw, hne⟩ := hover.set
        obtain rfl := Option.some.inj (hfile.symm.trans hw)
        exact hne (Option.some.inj (h.prevailing v hprevails)).symm
      · intro hno
        have hfalse : v = .bool false := by
          by_contra hne
          exact hno ⟨(kind_eq_switch_iff hd).mpr hkey, hgiven, v, hfile, hne⟩
        have hdecide := s.decide_findSome? d.key
        rw [hfound, hgiven, hfile, hfalse] at hdecide
        exact hdecide

/-- **The strongest origin decides, but for a switch in the configuration file.** From a command line, a
configuration file that holds an object (or is not named) and an environment options are gathered. Each of
them but the name of the file has the value of the strongest origin that has one, and is absent or false where
none has, except for a switch that the file sets and no word means: it is false. An option has a value on the
command line exactly if a word means it. -/
theorem gather_decided_iff {words : List Text} {given file : Options} {fs : FileSystem}
    (hwords : parse words = .ok given) (hfile : FileGives fs given file) (environment : Assoc Text Text) :
    ∃ o, gather environment fs given = .ok o ∧ ∀ d ∈ declared, d.key ≠ "config".toList →
      (given.get? d.key ≠ none ↔ Mentions words d.key) ∧
      (Origins.Decide ⟨given, file, environment⟩ d.key (o.get? d.key) ↔
        ¬IsOverridden ⟨given, file, environment⟩ d) ∧
      (IsOverridden ⟨given, file, environment⟩ d → o.get? d.key = some (.bool false)) := by
  refine ⟨_, hfile.gather_eq environment, fun d hd hconfig => ⟨get?_parse_ne_none_iff hwords d.key, ?_⟩⟩
  rw [get?_gather (s := ⟨given, file, environment⟩) (nodup_keys_of_parse hwords) hfile.nodup_keys hconfig]
  by_cases hswitch : "verbose".toList = d.key
  · rw [if_pos hswitch]
    refine ⟨Origins.decide_switch_iff ⟨given, file, environment⟩ hd hswitch, fun h => ?_⟩
    have hnone : given.get? d.key = none := h.notGiven
    rw [hnone]
    rfl
  · have hno : ¬IsOverridden ⟨given, file, environment⟩ d :=
      fun h => hswitch ((kind_eq_switch_iff hd).mp h.switch)
    rw [if_neg hswitch]
    exact ⟨iff_of_true (Origins.decide_findSome? _ _) hno, fun h => absurd h hno⟩

/-- A metric, and the switch set. -/
def configuredOptions : Options := [("metric".toList, .string "DM"), ("verbose".toList, .bool true)]

/-- These options as a configuration file has them. -/
def configText : Text := "\x7b\"metric\": \"DM\", \"verbose\": true\x7d".toList

/-- The file. -/
def configured : FileSystem where
  files := [(["c.json".toList], Text.encode configText)]
  directories := []
  here := []

theorem configured_gives (given : Options) (h : given.get? "config".toList = some (.string "c.json")) :
    FileGives configured given configuredOptions :=
  have hbytes : configured.read "c.json".toList = .ok (Text.encode configText) := rfl
  have hobject : Json.read configText = .ok (.object configuredOptions) := by cbv
  .named h (by decide) (FileSystem.readText_of_read hbytes (Text.decode?_encode _)) hobject

/-- Where a word means the switch, the strongest origin decides about each option. -/
theorem gather_decided_with_switch : ∃ given o,
    parse ["--config".toList, "c.json".toList, "-v".toList] = .ok given ∧
      FileGives configured given configuredOptions ∧
      gather [("ARX_JAVA".toList, "jvm".toList)] configured given = .ok o ∧
      ∀ d ∈ declared, d.key ≠ "config".toList →
        Origins.Decide ⟨given, configuredOptions, [("ARX_JAVA".toList, "jvm".toList)]⟩ d.key (o.get? d.key) := by
  have hparse : parse ["--config".toList, "c.json".toList, "-v".toList] =
      .ok [("config".toList, .string "c.json"), ("verbose".toList, .bool true)] := by rfl
  have hfile := configured_gives [("config".toList, .string "c.json"), ("verbose".toList, .bool true)] rfl
  obtain ⟨o, hgather, hdecided⟩ := gather_decided_iff hparse hfile [("ARX_JAVA".toList, "jvm".toList)]
  refine ⟨_, o, hparse, hfile, hgather, fun d hd hconfig => (hdecided d hd hconfig).2.1.mpr fun h => ?_⟩
  have hnone := h.notGiven
  rw [← (kind_eq_switch_iff hd).mp h.switch] at hnone
  cases hnone

/-- A switch that the file sets is false where no word means it. -/
theorem switch_overridden : ∃ given o, parse ["--config".toList, "c.json".toList] = .ok given ∧
    FileGives configured given configuredOptions ∧ gather [] configured given = .ok o ∧
    ¬Mentions ["--config".toList, "c.json".toList] "verbose".toList ∧
    o.get? "verbose".toList = some (.bool false) ∧
    ¬Origins.Decide ⟨given, configuredOptions, []⟩ "verbose".toList (o.get? "verbose".toList) := by
  have hparse : parse ["--config".toList, "c.json".toList] =
      .ok [("config".toList, .string "c.json")] := by rfl
  have hfile := configured_gives [("config".toList, .string "c.json")] rfl
  refine ⟨_, _, hparse, hfile, hfile.gather_eq [], ?_, ?_, fun h => ?_⟩
  · rw [← get?_parse_ne_none_iff hparse, not_not]
    rfl
  · rfl
  · have hprevails : Origins.Prevails ⟨[("config".toList, .string "c.json")], configuredOptions, []⟩
        "verbose".toList (.bool true) := (Origins.prevails_iff _ _ _).mpr rfl
    cases h.prevailing _ hprevails

end Anonymization.CommandLine
