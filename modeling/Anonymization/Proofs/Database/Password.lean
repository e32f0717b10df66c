import Anonymization.Proofs.Assoc
import Anonymization.Proofs.Settings.Tokens
/-!
# Another password in the database option

* `AlikeButPassword` -- two texts of the option that differ in the token of the password only;
* `parseValues_alike`, `ofValues_alike` -- their tokens give the same values for all other keys, unless one
  of the two is cut into more than a key and a value;
* `ReadAlike`, `parseOption_alike` -- **how they are read**: both fail alike, both fail with a message that
  shows them, one fails with a message that shows its token, or their specifications differ in the
  password only;
* `parseOption_failure` -- and what the option can fail with at all.
-/

namespace Anonymization

open Anonymization.Field

namespace DatabaseSpec

/-- The token gives a password, whatever stands behind the key: nothing, a value, or a value that is cut by
an equals sign. -/
def IsPasswordToken (token : Text) : Prop :=
  ∃ word rest, split pairSeparator false token = word :: rest ∧
    Key.ofWord? (Text.trim word) = some .password

/-- Two texts of the option whose tokens are the same but for one, which gives a password in both. -/
def AlikeButPassword (d₁ d₂ : Text) : Prop :=
  ∃ before after token₁ token₂,
    tokens listSeparator d₁ = before ++ token₁ :: after ∧
    tokens listSeparator d₂ = before ++ token₂ :: after ∧
    IsPasswordToken token₁ ∧ IsPasswordToken token₂

/-- The same values for all keys but the password. -/
def AgreeButPassword (values₁ values₂ : Assoc Key Text) : Prop :=
  ∀ key, key ≠ .password → values₁.get? key = values₂.get? key

/-- The option fails at the token of its password, which is no key with a value. -/
def IsCut (d : Text) : Prop :=
  ∃ token ∈ tokens listSeparator d, IsPasswordToken token ∧
    parseOption listSeparator (some d) = .error (.malformedDatabaseSpec token .notKeyValue)

variable {d₁ d₂ : Text}

/-- A text with a password is not blank. -/
theorem AlikeButPassword.not_blank (h : AlikeButPassword d₁ d₂) :
    ¬Text.allBlank d₁ = true ∧ ¬Text.allBlank d₂ = true := by
  obtain ⟨before, after, token₁, token₂, h₁, h₂, -, -⟩ := h
  refine ⟨fun hb => ?_, fun hb => ?_⟩
  · rw [tokens_of_allBlank hb] at h₁
    simp at h₁
  · rw [tokens_of_allBlank hb] at h₂
    simp at h₂

/-! ## 1. The values -/

theorem parseValues_eq (separator option : Text) :
    parseValues separator option =
      ((tokens separator option).mapM parseToken).map Assoc.ofList := rfl

/-- A token of a password says one, unless it is no key with a value. -/
theorem IsPasswordToken.parseToken {token : Text} (h : IsPasswordToken token) :
    parseToken token = .error (.malformedDatabaseSpec token .notKeyValue) ∨
      ∃ password, parseToken token = .ok (.password, password) := by
  obtain ⟨word, rest, hsplit, hkey⟩ := h
  unfold DatabaseSpec.parseToken pair?
  rw [hsplit]
  match rest with
  | [] => exact .inl rfl
  | [value] =>
    refine .inr ⟨Text.trim value, ?_⟩
    simp only [hkey]
  | _ :: _ :: _ => exact .inl rfl

/-- The pairs around a password say what the other keys are. -/
theorem agree_ofList (before after : List (Key × Text)) (p₁ p₂ : Text) :
    AgreeButPassword (Assoc.ofList (before ++ (.password, p₁) :: after))
      (Assoc.ofList (before ++ (.password, p₂) :: after)) := by
  intro key hkey
  have hne : ¬Key.password = key := fun h => hkey h.symm
  simp [Assoc.get?_ofList, Assoc.get?_append, Assoc.get?, hne]

/-- A token that fails is the end, where those before it are read. -/
theorem parseValues_of_error {d token : Text} {e : Failure} {before after : List Text}
    {values : List (Key × Text)} (h : tokens listSeparator d = before ++ token :: after)
    (hbefore : before.mapM parseToken = .ok values) (htoken : DatabaseSpec.parseToken token = .error e) :
    parseValues listSeparator d = .error e := by
  rw [parseValues_eq, h, List.mapM_append, hbefore, List.mapM_cons, htoken]
  rfl

/-- **Another password changes no other value**, and no failure of a token but its own. -/
theorem parseValues_alike (h : AlikeButPassword d₁ d₂) :
    (∃ e, parseValues listSeparator d₁ = .error e ∧ parseValues listSeparator d₂ = .error e) ∨
      (IsCut d₁ ∨ IsCut d₂) ∨
      ∃ values₁ values₂, parseValues listSeparator d₁ = .ok values₁ ∧
        parseValues listSeparator d₂ = .ok values₂ ∧ AgreeButPassword values₁ values₂ := by
  have hcut : ∀ {d token : Text} {before after : List Text} {values : List (Key × Text)},
      ¬Text.allBlank d = true → tokens listSeparator d = before ++ token :: after →
      before.mapM DatabaseSpec.parseToken = .ok values → IsPasswordToken token →
      DatabaseSpec.parseToken token = .error (.malformedDatabaseSpec token .notKeyValue) →
      IsCut d := by
    intro d token before after values hb ht hbefore hp he
    refine ⟨token, by simp [ht], hp, ?_⟩
    rw [parseOption_eq listSeparator hb, parseValues_of_error ht hbefore he]
    rfl
  obtain ⟨hb₁, hb₂⟩ := h.not_blank
  obtain ⟨before, after, token₁, token₂, h₁, h₂, hp₁, hp₂⟩ := h
  cases hbefore : before.mapM DatabaseSpec.parseToken with
  | error e =>
    refine .inl ⟨e, ?_, ?_⟩
    · rw [parseValues_eq, h₁, List.mapM_append, hbefore]
      rfl
    · rw [parseValues_eq, h₂, List.mapM_append, hbefore]
      rfl
  | ok ys =>
    rcases hp₁.parseToken with he | ⟨p₁, hs₁⟩
    · exact .inr (.inl (.inl (hcut hb₁ h₁ hbefore hp₁ he)))
    rcases hp₂.parseToken with he | ⟨p₂, hs₂⟩
    · exact .inr (.inl (.inr (hcut hb₂ h₂ hbefore hp₂ he)))
    rw [parseValues_eq, parseValues_eq, h₁, h₂, Outcome.mapM_around hs₁, Outcome.mapM_around hs₂,
      hbefore]
    cases after.mapM DatabaseSpec.parseToken with
    | error e => exact .inl ⟨e, rfl, rfl⟩
    | ok zs => exact .inr (.inr ⟨_, _, rfl, rfl, agree_ofList ys zs p₁ p₂⟩)

/-! ## 2. The specification -/

/-- Two steps, each with its own text of the option, end alike: with related answers, with the same
defect, or with the same fault of their texts. -/
inductive EndAlike (d₁ d₂ : Text) {α β : Type} (R : α → β → Prop) :
    Except Failure α → Except Failure β → Prop where
  | answer {a : α} {b : β} (h : R a b) : EndAlike d₁ d₂ R (.ok a) (.ok b)
  | defect (d : Defect) : EndAlike d₁ d₂ R (.error (.defect d)) (.error (.defect d))
  | fault (f : DatabaseFault) : EndAlike d₁ d₂ R (.error (.malformedDatabaseSpec d₁ f))
      (.error (.malformedDatabaseSpec d₂ f))

theorem EndAlike.bind {α β γ δ : Type} {R : α → β → Prop} {S : γ → δ → Prop} {x : Except Failure α}
    {y : Except Failure β} {f : α → Except Failure γ} {g : β → Except Failure δ}
    (h : EndAlike d₁ d₂ R x y) (hf : ∀ a b, R a b → EndAlike d₁ d₂ S (f a) (g b)) :
    EndAlike d₁ d₂ S (x >>= f) (y >>= g) := by
  cases h with
  | answer hr => exact hf _ _ hr
  | defect d => exact .defect d
  | fault f => exact .fault f

theorem required_alike {values₁ values₂ : Assoc Key Text} (h : AgreeButPassword values₁ values₂)
    {key : Key} (hkey : key ≠ .password) :
    EndAlike d₁ d₂ Eq (required d₁ values₁ key) (required d₂ values₂ key) := by
  unfold required
  rw [h key hkey]
  cases values₂.get? key with
  | some v => exact .answer rfl
  | none => exact .fault _

theorem parsePort_alike (port : Option Text) :
    EndAlike d₁ d₂ Eq (parsePort d₁ port) (parsePort d₂ port) := by
  cases port with
  | none => exact .answer rfl
  | some t =>
    by_cases hdigits : (t.isEmpty || !t.all Text.isDigit) = true
    · simp only [parsePort, hdigits, if_true]
      exact .fault _
    · by_cases hdecimal : (!t.all Text.isDecimal) = true
      · simp only [parsePort, hdigits, hdecimal, if_true]
        exact .defect _
      · simp only [parsePort, hdigits, hdecimal]
        cases Numeral.digitsNumber? t with
        | some n => exact .answer rfl
        | none => exact .defect _

/-- The same specification but for the password. -/
def SameButPassword (s₁ s₂ : DatabaseSpec) : Prop :=
  ∃ password, s₂ = { s₁ with password := password }

/-- **Values that agree but for the password** give specifications that do so, or the same fault. -/
theorem ofValues_alike {values₁ values₂ : Assoc Key Text} (h : AgreeButPassword values₁ values₂) :
    EndAlike d₁ d₂ SameButPassword (ofValues d₁ values₁) (ofValues d₂ values₂) := by
  unfold ofValues
  refine (required_alike h (by decide)).bind fun type _ htype => ?_
  refine (required_alike h (by decide)).bind fun database _ hdatabase => ?_
  refine (required_alike h (by decide)).bind fun table _ htable => ?_
  subst htype hdatabase htable
  cases typeOfWord? type with
  | none => exact .fault _
  | some system =>
    rw [h .port (by decide), h .url (by decide), h .user (by decide)]
    refine (parsePort_alike _).bind fun port _ hport => ?_
    subst hport
    exact .answer ⟨values₂.get? .password, rfl⟩

/-- How two texts are read: both fail in the same way, both are refused as a whole, one is cut at its
password, or they give specifications that differ in the password only. -/
inductive ReadAlike (d₁ d₂ : Text) : Prop where
  | fail (e : Failure) (h₁ : parseOption listSeparator (some d₁) = .error e)
      (h₂ : parseOption listSeparator (some d₂) = .error e)
  | refuse (f : DatabaseFault)
      (h₁ : parseOption listSeparator (some d₁) = .error (.malformedDatabaseSpec d₁ f))
      (h₂ : parseOption listSeparator (some d₂) = .error (.malformedDatabaseSpec d₂ f))
  | cut (h : IsCut d₁ ∨ IsCut d₂)
  | read (s₁ s₂ : DatabaseSpec) (h₁ : parseOption listSeparator (some d₁) = .ok (some s₁))
      (h₂ : parseOption listSeparator (some d₂) = .ok (some s₂)) (h : SameButPassword s₁ s₂)

/-- **Two texts that differ in their password only are read alike.** -/
theorem parseOption_alike (h : AlikeButPassword d₁ d₂) : ReadAlike d₁ d₂ := by
  obtain ⟨hb₁, hb₂⟩ := h.not_blank
  rcases parseValues_alike h with ⟨e, hv₁, hv₂⟩ | hcut | ⟨values₁, values₂, hv₁, hv₂, hagree⟩
  · refine .fail e ?_ ?_
    · rw [parseOption_eq listSeparator hb₁, hv₁]
      rfl
    · rw [parseOption_eq listSeparator hb₂, hv₂]
      rfl
  · exact .cut hcut
  · have h₁ : parseOption listSeparator (some d₁) = (ofValues d₁ values₁).map some := by
      rw [parseOption_eq listSeparator hb₁, hv₁]
      rfl
    have h₂ : parseOption listSeparator (some d₂) = (ofValues d₂ values₂).map some := by
      rw [parseOption_eq listSeparator hb₂, hv₂]
      rfl
    have hend : EndAlike d₁ d₂ SameButPassword (ofValues d₁ values₁) (ofValues d₂ values₂) :=
      ofValues_alike hagree
    generalize ofValues d₁ values₁ = x₁ at h₁ hend
    generalize ofValues d₂ values₂ = x₂ at h₂ hend
    cases hend with
    | answer hs => exact .read _ _ h₁ h₂ hs
    | defect d => exact .fail _ h₁ h₂
    | fault f => exact .refuse f h₁ h₂

/-! ## 3. What the option can fail with -/

/-- What the database option can fail with: a defect, or a fault of a text. Where the fault is not that a
token is no key with a value, it is put in words that begin differently. -/
inductive OptionFailure : Failure → Prop where
  | defect (d : Defect) : OptionFailure (.defect d)
  | notKeyValue (t : Text) : OptionFailure (.malformedDatabaseSpec t .notKeyValue)
  | other (t : Text) {f : DatabaseFault} (h : (Failure.databaseReason f).head? ≠ some 'e') :
      OptionFailure (.malformedDatabaseSpec t f)

/-- Words that begin with these begin with their first letter. -/
theorem head?_append_ne {words : Text} (hne : words ≠ []) (h : words.head? ≠ some 'e') (t : Text) :
    (words ++ t).head? ≠ some 'e' := by
  rwa [List.head?_append_of_ne_nil _ hne]

/-- A step fails with nothing else. -/
def FailsWell {α : Type} (x : Except Failure α) : Prop := ∀ e, x = .error e → OptionFailure e

section

variable {α β : Type}

theorem failsWell_ok (a : α) : FailsWell (.ok a : Except Failure α) := by
  intro e he
  cases he

theorem failsWell_error {e : Failure} (h : OptionFailure e) :
    FailsWell (.error e : Except Failure α) := by
  intro e' he
  exact Except.error.inj he ▸ h

theorem failsWell_ite {p : Prop} [Decidable p] {x y : Except Failure α} (hx : FailsWell x)
    (hy : FailsWell y) : FailsWell (if p then x else y) := by
  split
  · exact hx
  · exact hy

theorem FailsWell.bind {x : Except Failure α} {f : α → Except Failure β} (hx : FailsWell x)
    (hf : ∀ a, FailsWell (f a)) : FailsWell (x >>= f) := by
  cases x with
  | error e => exact failsWell_error (hx e rfl)
  | ok a => exact hf a

end

theorem failsWell_parseToken (token : Text) : FailsWell (parseToken token) := by
  unfold parseToken
  split
  · exact failsWell_error (.notKeyValue token)
  · split
    · exact failsWell_error (.other token (head?_append_ne (by decide) (by decide) _))
    · exact failsWell_ok _

theorem failsWell_required (option : Text) (values : Assoc Key Text) (key : Key) :
    FailsWell (required option values key) := by
  unfold required
  split
  · exact failsWell_ok _
  · refine failsWell_error (.other option ?_)
    cases key <;> decide

theorem failsWell_parsePort (option : Text) (port : Option Text) :
    FailsWell (parsePort option port) := by
  cases port with
  | none => exact failsWell_ok none
  | some t =>
    unfold parsePort
    refine failsWell_ite (failsWell_error (.other option ?_)) (failsWell_ite ?_ ?_)
    · exact head?_append_ne (List.append_ne_nil_of_left_ne_nil (by decide) t)
        (head?_append_ne (by decide) (by decide) t) _
    · exact failsWell_error (.defect _)
    · cases Numeral.digitsNumber? t with
      | some n => exact failsWell_ok (some n)
      | none => exact failsWell_error (.defect _)

theorem failsWell_ofValues (option : Text) (values : Assoc Key Text) :
    FailsWell (ofValues option values) := by
  unfold ofValues
  refine (failsWell_required option values _).bind fun type => ?_
  refine (failsWell_required option values _).bind fun database => ?_
  refine (failsWell_required option values _).bind fun table => ?_
  cases typeOfWord? type with
  | none => exact failsWell_error (.other option (head?_append_ne (by decide) (by decide) _))
  | some system => exact (failsWell_parsePort option _).bind fun port => failsWell_ok _

/-- **What the database option can fail with.** -/
theorem parseOption_failure {separator option : Text} {e : Failure}
    (h : parseOption separator (some option) = .error e) : OptionFailure e := by
  by_cases hb : Text.allBlank option = true
  · rw [parseOption, if_pos hb] at h
    cases h
  · have hvalues : FailsWell (parseValues separator option) := by
      intro e he
      rw [parseValues_eq, Outcome.map_error_iff] at he
      obtain ⟨token, -, htoken⟩ := Outcome.mapM_error he
      exact failsWell_parseToken token e htoken
    rw [parseOption_eq separator hb] at h
    refine hvalues.bind (fun values e' he' => ?_) e h
    exact failsWell_ofValues option values e' ((Outcome.map_error_iff _ _ _).mp he')

end DatabaseSpec

end Anonymization
