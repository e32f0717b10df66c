import Anonymization.Proofs.Criterion.Recognition
/-!
# The grammars leave no choice

* `eq_of_recognises` -- **at most one grammar recognises a token**, whatever the token is;
* `parse_order`, `parseTokens_order` -- so it does not matter in which order the grammars are tried;
* `parse_error_cases` -- why a token can be refused; never because two grammars recognise it;
* `parse_any_order` -- all of this for the list of all grammars, for a single token and for a list.
-/

namespace Anonymization

namespace Grammar

/-! ## 1. A token and its grammar -/

/-- What is not passed over has something that the grammar finds. -/
theorem captures_of_recognises {g : Grammar} {token : Text} (h : g.recognise token ≠ .ok none) :
    ∃ a cs, g.Captures token a cs := by
  by_contra hno
  simp only [not_exists] at hno
  exact h ((recognise_none_iff g token).mpr hno)

/-- **At most one grammar recognises a token.** One that recognises it and then refuses a number with
too many digits counts as well. -/
theorem eq_of_recognises {g g' : Grammar} {token : Text} (h : g.recognise token ≠ .ok none)
    (h' : g'.recognise token ≠ .ok none) : g = g' := by
  obtain ⟨a, cs, hcap⟩ := captures_of_recognises h
  obtain ⟨a', cs', hcap'⟩ := captures_of_recognises h'
  exact (captures_unique hcap hcap').1

end Grammar

namespace Criterion

open Grammar

/-! ## 2. Any order of the grammars -/

section

variable {gs gs' : List Grammar} (hall : ∀ g, g ∈ gs) (hnd : gs.Nodup) (hall' : ∀ g, g ∈ gs')
  (hnd' : gs'.Nodup)

include hall hnd

/-- A token is refused because no grammar finds anything in it, or because the one that does finds a
number with too many digits. -/
theorem parse_error_cases {index : Int} {t : Text} {e : Failure} (h : parse gs index t = .error e) :
    e = .unparseableCriterion index (Text.trim t) ∨ e = .defect .unreadableValue := by
  by_cases hmute : ∀ g a cs, ¬Captures g (Text.trim t) a cs
  · rw [parse_of_mute index hmute, Except.error.injEq] at h
    exact .inl h.symm
  · simp only [not_forall, not_not] at hmute
    obtain ⟨g, a, cs, hcap⟩ := hmute
    obtain ⟨c, hc⟩ := makes_of_captures hcap
    obtain ⟨hok, herror⟩ := parse_of_captures hall hnd index hcap hc
    by_cases hl : KeepsLimit cs
    · rw [hok hl] at h
      cases h
    · rw [herror hl, Except.error.injEq] at h
      exact .inr h.symm

include hall' hnd'

/-- **Two orders of the grammars read a token alike**, and refuse it alike. -/
theorem parse_order (index : Int) (t : Text) : parse gs index t = parse gs' index t := by
  by_cases hmute : ∀ g a cs, ¬Captures g (Text.trim t) a cs
  · rw [parse_of_mute index hmute, parse_of_mute index hmute]
  · simp only [not_forall, not_not] at hmute
    obtain ⟨g, a, cs, hcap⟩ := hmute
    obtain ⟨c, hc⟩ := makes_of_captures hcap
    obtain ⟨hok, herror⟩ := parse_of_captures hall hnd index hcap hc
    obtain ⟨hok', herror'⟩ := parse_of_captures hall' hnd' index hcap hc
    by_cases hl : KeepsLimit cs
    · rw [hok hl, hok' hl]
    · rw [herror hl, herror' hl]

/-- Two orders of the grammars read a list of tokens alike. -/
theorem parseTokens_order (index : Int) (tokens : List Text) :
    parseTokens gs index tokens = parseTokens gs' index tokens := by
  induction tokens generalizing index with
  | nil => rfl
  | cons token rest ih =>
    rw [parseTokens, parseTokens, parse_order hall hnd hall' hnd' index token, ih (index + 1)]

end

/-- **The grammars are unambiguous.** At most one of them recognises a token; so no token is ever
refused as ambiguous, wherever it stands, and the grammars may be tried in any order: a token and a
list of tokens are the same criteria, or are refused with the same failure. -/
theorem parse_any_order :
    (∀ (token : Text) (g g' : Grammar), g.recognise token ≠ .ok none →
      g'.recognise token ≠ .ok none → g = g') ∧
    (∀ (index place : Int) (token shown : Text) (cs : List Criterion),
      parseAt Grammar.all index token ≠ .error (.ambiguousCriterion place shown cs)) ∧
    ∀ gs : List Grammar, gs.Perm Grammar.all →
      (∀ index token, parseAt gs index token = parseAt Grammar.all index token) ∧
      ∀ separator t, parseList gs separator t = parseList Grammar.all separator t := by
  refine ⟨fun token g g' h h' => eq_of_recognises h h', fun index place token shown cs h => ?_,
    fun gs hperm => ?_⟩
  · unfold parseAt at h
    split at h
    · cases h
    · next e he =>
      rw [Except.error.injEq] at h
      rcases parse_error_cases mem_all nodup_all he with rfl | rfl
      · split at h <;> cases h
      · cases h
  · have hall : ∀ g, g ∈ gs := fun g => hperm.mem_iff.mpr (mem_all g)
    have hnd : gs.Nodup := hperm.nodup_iff.mpr nodup_all
    refine ⟨fun index token => ?_, fun separator t => ?_⟩
    · unfold parseAt
      rw [parse_order hall hnd mem_all nodup_all index token]
    · exact parseTokens_order hall hnd mem_all nodup_all 0 _

/-- A token of the fourth grammar, which the fifth does not recognise, with the grammars tried from the
last to the first. -/
theorem parse_backwards :
    Grammar.distinctLDiversity.recognise "age=distinct-( 2 )-Diversity".toList ≠ .ok none ∧
      Grammar.entropyLDiversity.recognise "age=distinct-( 2 )-Diversity".toList = .ok none ∧
      Grammar.all.reverse.Perm Grammar.all ∧
      parseAt Grammar.all.reverse 3 "age=distinct-( 2 )-Diversity".toList =
        .ok (.distinctLDiversity "age".toList 2) := by
  obtain ⟨hone, -, horder⟩ := parse_any_order
  have hfourth : Grammar.distinctLDiversity.recognise "age=distinct-( 2 )-Diversity".toList =
      .ok (some (.distinctLDiversity "age".toList 2)) := rfl
  have hrecognises :
      Grammar.distinctLDiversity.recognise "age=distinct-( 2 )-Diversity".toList ≠ .ok none := by
    rw [hfourth]
    exact fun h => nomatch h
  have hperm : Grammar.all.reverse.Perm Grammar.all := List.reverse_perm _
  refine ⟨hrecognises, ?_, hperm, ((horder _ hperm).1 3 _).trans rfl⟩
  by_contra hfifth
  exact absurd (hone _ _ _ hrecognises hfifth) (by decide)

end Criterion

end Anonymization
