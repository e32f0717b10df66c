import Anonymization.Proofs.Criterion.RoundTrip
import Anonymization.Proofs.Criterion.Unambiguity
/-!
# Criteria, one list behind another

Two criteria options with a comma between them are one option, which lists the criteria of both. The
brackets that may enclose an option, and the blanks around it, have to stand at its outer ends.

* `unbracketed_append` -- what is taken away at the ends of the whole is what is taken away at the
  outer ends of its two parts;
* `parse_furtherOn`, `parseTokens_furtherOn` -- a token reads the same further on in a list, and is
  refused with its place there;
* `parseTokens_append`, `parseOption_behind` -- so a list behind another one is read as if it stood
  alone;
* `parseOption_append` -- **two options, one behind the other, give the criteria of both**, or the
  failure of the one that fails.
-/

namespace Anonymization

open Anonymization.Field Anonymization.Grammar

/-- The failure of a token that stands so many places further on. -/
def Failure.furtherOn (places : Int) : Failure → Failure
  | .unparseableCriterion index token => .unparseableCriterion (index + places) token
  | .ambiguousCriterion index token readings => .ambiguousCriterion (index + places) token readings
  | e => e

namespace Criterion

/-! ## 1. Brackets -/

theorem withoutOpening_append {c : Char} (hc : c ≠ '[') (s t : Text) :
    withoutOpening (s ++ c :: t) = withoutOpening s ++ c :: t := by
  cases s with
  | nil => simp [withoutOpening, hc]
  | cons y s => by_cases hy : y = '[' <;> simp [withoutOpening, hy]

theorem withoutClosing_append {c : Char} (hc : c ≠ ']') (s t : Text) :
    withoutClosing (s ++ c :: t) = s ++ c :: withoutClosing t := by
  cases t with
  | nil => simp [withoutClosing, hc]
  | cons y t =>
    unfold withoutClosing
    rw [List.getLast?_append_of_ne_nil _ (List.cons_ne_nil c _), List.getLast?_cons_cons]
    split
    · rw [List.dropLast_append_of_ne_nil (List.cons_ne_nil c _), List.dropLast_cons_cons]
    · rfl

/-- No blank comes to stand in front when a bracket at the end is taken away. -/
theorem startsBare_withoutClosing {t : Text} (h : Text.StartsBare t) :
    Text.StartsBare (withoutClosing t) := by
  intro c hc
  refine h c ?_
  unfold withoutClosing at hc
  split at hc
  · cases t with
    | nil => exact hc
    | cons y rest =>
      cases rest with
      | nil => cases hc
      | cons z rest => exact hc
  · exact hc

/-- **Of two texts with a comma between them brackets and blanks are taken away at the outer ends.** -/
theorem unbracketed_append {s t : Text} (hs : Text.trim s = s) (hclosing : s.getLast? ≠ some ']')
    (ht : Text.trim t = t) (hopening : t.head? ≠ some '[') :
    unbracketed (s ++ ',' :: t) = unbracketed s ++ ',' :: unbracketed t := by
  obtain ⟨hstart, hend⟩ := (Text.trim_eq_self_iff s).mp hs
  obtain ⟨hstart', hend'⟩ := (Text.trim_eq_self_iff t).mp ht
  have hwhole : Text.trim (s ++ ',' :: t) = s ++ ',' :: t := by
    rw [Text.trim_around (by decide), Text.trimStart_of_startsBare hstart,
      Text.trimEnd_of_endsBare hend']
  have hleft : unbracketed s = Text.trimStart (withoutOpening s) := by
    rw [unbracketed_of_trim hs hclosing]
    exact Text.trim_of_endsBare fun x hx => hend x (getLast?_withoutOpening hx)
  have hright : unbracketed t = Text.trimEnd (withoutClosing t) := by
    rw [unbracketed_eq, ht, withoutOpening, if_neg hopening]
    exact Text.trim_of_startsBare (startsBare_withoutClosing hstart')
  rw [unbracketed_eq, hwhole, withoutOpening_append (by decide), withoutClosing_append (by decide),
    Text.trim_around (by decide), hleft, hright]

/-! ## 2. Places -/

/-- **A token reads the same further on**, and is refused with its place there. -/
theorem parse_furtherOn (index places : Int) (t : Text) :
    parse Grammar.all (index + places) t =
      (parse Grammar.all index t).mapError (Failure.furtherOn places) := by
  by_cases hmute : ∀ g a cs, ¬Captures g (Text.trim t) a cs
  · rw [parse_of_mute _ hmute, parse_of_mute _ hmute]
    rfl
  · simp only [not_forall, not_not] at hmute
    obtain ⟨g, a, cs, hcap⟩ := hmute
    obtain ⟨c, hc⟩ := makes_of_captures hcap
    obtain ⟨hok, herror⟩ := parse_of_captures mem_all nodup_all index hcap hc
    obtain ⟨hok', herror'⟩ := parse_of_captures mem_all nodup_all (index + places) hcap hc
    by_cases hl : KeepsLimit cs
    · rw [hok hl, hok' hl]
      rfl
    · rw [herror hl, herror' hl]
      rfl

/-- So does a list of tokens. -/
theorem parseTokens_furtherOn (index places : Int) (tokens : List Text) :
    parseTokens Grammar.all (index + places) tokens =
      (parseTokens Grammar.all index tokens).mapError (Failure.furtherOn places) := by
  induction tokens generalizing index with
  | nil => rfl
  | cons token rest ih =>
    have hrest := ih (index + 1)
    rw [Int.add_right_comm] at hrest
    rw [parseTokens, parseTokens, parse_furtherOn, hrest]
    cases parse Grammar.all index token with
    | error e => rfl
    | ok c => cases parseTokens Grammar.all (index + 1) rest <;> rfl

/-- **Tokens behind others are read once these are.** -/
theorem parseTokens_append (gs : List Grammar) (index : Int) (ts us : List Text) :
    parseTokens gs index (ts ++ us) = do
      let cs ← parseTokens gs index ts
      let ds ← parseTokens gs (index + ts.length) us
      return cs ++ ds := by
  induction ts generalizing index with
  | nil =>
    rw [List.nil_append, List.length_nil, Int.natCast_zero, Int.add_zero]
    cases parseTokens gs index us <;> rfl
  | cons t ts ih =>
    have hplace : index + 1 + (ts.length : Int) = index + ((t :: ts).length : Int) := by
      rw [List.length_cons]
      omega
    rw [List.cons_append, parseTokens, parseTokens, ih, hplace]
    cases parse gs index t with
    | error e => rfl
    | ok c =>
      cases parseTokens gs (index + 1) ts with
      | error e => rfl
      | ok cs => cases parseTokens gs (index + ((t :: ts).length : Int)) us <;> rfl

/-! ## 3. Options -/

/-- The tokens of an option, which its brackets enclose. -/
theorem parseOption_eq (t : Text) :
    parseOption (some t) = parseTokens Grammar.all 0 (split listSeparator true (unbracketed t)) := by
  rw [parseOption, parseList]

/-- There are as many criteria as tokens. -/
theorem length_of_parseTokens {index : Int} {ts : List Text} {cs : List Criterion}
    (h : parseTokens Grammar.all index ts = .ok cs) : ts.length = cs.length :=
  ((parseTokens_ok_iff index ts cs).mp h).length_eq

section

variable {s t : Text} (hs : Text.trim s = s) (hclosing : s.getLast? ≠ some ']')
  (hend : EndsInField listSeparator true (unbracketed s)) (ht : Text.trim t = t)
  (hopening : t.head? ≠ some '[')

include hs hclosing hend ht hopening

/-- **An option behind another one is read as if it stood alone**, only further on. -/
theorem parseOption_behind :
    parseOption (some (s ++ ',' :: t)) = do
      let cs ← parseOption (some s)
      let ds ← (parseOption (some t)).mapError (Failure.furtherOn cs.length)
      return cs ++ ds := by
  have hsplit : split listSeparator true (unbracketed (s ++ ',' :: t)) =
      split listSeparator true (unbracketed s) ++ split listSeparator true (unbracketed t) := by
    rw [unbracketed_append hs hclosing ht hopening]
    exact split_append listSeparator_plain hend _
  rw [parseOption_eq, parseOption_eq, parseOption_eq, hsplit, parseTokens_append,
    parseTokens_furtherOn]
  refine Outcome.bind_eq_of_ok fun cs hcs => ?_
  rw [length_of_parseTokens hcs]

/-- **Two options, one behind the other, give the criteria of both.** The first may have a bracket in
front and the second one at its end. If the first fails, the whole fails in the same way; if only the
second fails, so does the whole, and a token that is no criterion has its place behind all criteria of
the first. -/
theorem parseOption_append :
    (∀ cs ds, parseOption (some s) = .ok cs → parseOption (some t) = .ok ds →
      parseOption (some (s ++ ',' :: t)) = .ok (cs ++ ds)) ∧
    (∀ e, parseOption (some s) = .error e → parseOption (some (s ++ ',' :: t)) = .error e) ∧
    (∀ cs index token, parseOption (some s) = .ok cs →
      parseOption (some t) = .error (.unparseableCriterion index token) →
      parseOption (some (s ++ ',' :: t)) =
        .error (.unparseableCriterion (cs.length + index) token)) ∧
    (∀ cs d, parseOption (some s) = .ok cs → parseOption (some t) = .error (.defect d) →
      parseOption (some (s ++ ',' :: t)) = .error (.defect d)) := by
  have hwhole := parseOption_behind hs hclosing hend ht hopening
  refine ⟨fun cs ds hcs hds => ?_, fun e he => ?_, fun cs index token hcs htoken => ?_,
    fun cs d hcs hd => ?_⟩
  · rw [hwhole, hcs, hds]
    rfl
  · rw [hwhole, he]
    rfl
  · rw [hwhole, hcs, htoken, Int.add_comm]
    rfl
  · rw [hwhole, hcs, hd]
    rfl

end

/-- A bracket in front of the first option and a group with a comma in it; behind it an option with a
bracket at its end, and one with a token that is no criterion. -/
theorem parseOption_append_two :
    (EndsInField listSeparator true (unbracketed "[5-anonymity,(a,b)=Distinct-(2)-diversity".toList) ∧
      parseOption (some "[5-anonymity,(a,b)=Distinct-(2)-diversity".toList) =
        .ok [.kAnonymity 5, .distinctLDiversity "(a,b)".toList 2]) ∧
    (parseOption (some "inclusion ]".toList) = .ok [.inclusion] ∧
      parseOption (some
          ("[5-anonymity,(a,b)=Distinct-(2)-diversity".toList ++ ',' :: "inclusion ]".toList)) =
        .ok [.kAnonymity 5, .distinctLDiversity "(a,b)".toList 2, .inclusion]) ∧
    (parseOption (some "inclusion, twice,,".toList) =
        .error (.unparseableCriterion 1 "twice".toList) ∧
      parseOption (some
          ("[5-anonymity,(a,b)=Distinct-(2)-diversity".toList ++ ',' :: "inclusion, twice,,".toList)) =
        .error (.unparseableCriterion 3 "twice".toList)) := by
  have hend : EndsInField listSeparator true
      (unbracketed "[5-anonymity,(a,b)=Distinct-(2)-diversity".toList) :=
    ⟨by decide, by decide, by decide⟩
  have hfirst : parseOption (some "[5-anonymity,(a,b)=Distinct-(2)-diversity".toList) =
      .ok [.kAnonymity 5, .distinctLDiversity "(a,b)".toList 2] := by decide +kernel
  have hsecond : parseOption (some "inclusion ]".toList) = .ok [.inclusion] := by decide +kernel
  have hfails : parseOption (some "inclusion, twice,,".toList) =
      .error (.unparseableCriterion 1 "twice".toList) := by decide +kernel
  obtain ⟨hok, -⟩ := parseOption_append (t := "inclusion ]".toList) (by decide) (by decide) hend
    (by decide) (by decide)
  obtain ⟨-, -, herror, -⟩ := parseOption_append (t := "inclusion, twice,,".toList) (by decide)
    (by decide) hend (by decide) (by decide)
  exact ⟨⟨hend, hfirst⟩, ⟨hsecond, hok _ _ hfirst hsecond⟩, hfails, herror _ _ _ hfirst hfails⟩

end Criterion

end Anonymization
