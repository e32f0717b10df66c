import Anonymization.Criterion.Parser
import Anonymization.Proofs.Criterion.Matching
import Anonymization.Proofs.Field.Surplus
import Anonymization.Proofs.Outcome
/-!
# Which criterion a token is

* `Captures` -- what a grammar finds in a token; `captures_unique` -- **no two grammars find something**;
* `build_of_makes` -- the criterion of what is found, refused when a whole number has too many digits;
* `recognise_some_iff`, `recognise_none_iff` -- **what a grammar recognises in any token**;
* `parse_of_captures`, `parse_of_mute` -- **what becomes of any token**;
* `captures_iff_reads`, `parse_iff_derives` -- a token with at most one bare equal sign is **a
  criterion exactly when a grammar derives it**.
-/

namespace Anonymization

open Anonymization.Field

namespace Grammar

/-! ## 1. What a grammar finds -/

/-- A grammar finds an attribute and what stands for its numbers in a token. -/
def Captures (g : Grammar) (token a : Text) (cs : List Captured) : Prop :=
  ∃ body, g.parts? token = some (a, body) ∧ matchPieces? g.pieces body = some cs

theorem keyedParts?_iff (token a body : Text) :
    keyedParts? token = some (a, body) ↔ ∃ left right surplus, Says token left right surplus ∧
      Text.allBlank left = false ∧ a = unescapeParentheses (Text.trim left) ∧
        body = Text.trim right := by
  unfold keyedParts?
  constructor
  · intro h
    split at h
    · next left right hp =>
      split at h
      · cases h
      · next hb =>
        obtain ⟨surplus, hs⟩ := (pair?_iff token left right).mp hp
        simp only [Option.some.injEq, Prod.mk.injEq] at h
        exact ⟨left, right, surplus, hs, by simpa using hb, h.1.symm, h.2.symm⟩
    · cases h
  · rintro ⟨left, right, surplus, hs, hb, rfl, rfl⟩
    rw [(pair?_iff token left right).mpr ⟨surplus, hs⟩]
    simp [hb]

theorem parts?_keyed {g : Grammar} (hg : g.keyed = true) (token : Text) :
    g.parts? token = keyedParts? token :=
  if_pos hg

theorem parts?_plain {g : Grammar} (hg : g.keyed = false) (token : Text) :
    g.parts? token = some ([], token) :=
  if_neg (by simp [hg])

/-- **No two grammars find something in a token**, and one finds one thing only. -/
theorem captures_unique {g g' : Grammar} {token a a' : Text} {cs cs' : List Captured}
    (h : g.Captures token a cs) (h' : g'.Captures token a' cs') : g = g' ∧ a = a' ∧ cs = cs' := by
  obtain ⟨body, hp, hm⟩ := h
  obtain ⟨body', hp', hm'⟩ := h'
  have hspells := matchPieces?_sound hm
  have hspells' := matchPieces?_sound hm'
  -- a keyed token holds an equal sign, the form of another grammar none
  have hmixed : ∀ {k k' : Grammar} {b b' x x' : Text} {ys : List Captured}, k.keyed = true →
      k'.keyed = false → k.parts? token = some (x, b) → k'.parts? token = some (x', b') →
      Spells k'.pieces ys b' → False := by
    intro k k' b b' x x' ys hk hk' hx hx' hys
    rw [parts?_keyed hk] at hx
    rw [parts?_plain hk', Option.some.injEq, Prod.mk.injEq] at hx'
    obtain ⟨left, right, surplus, hs, -⟩ := (keyedParts?_iff token x b).mp hx
    exact not_mem_of_spells (lacksEqualSign_pieces k') hys (hx'.2 ▸ hs.equalSign_mem)
  cases hk : g.keyed with
  | true =>
    cases hk' : g'.keyed with
    | false => exact (hmixed hk hk' hp hp' hspells').elim
    | true =>
      rw [parts?_keyed hk] at hp
      rw [parts?_keyed hk', hp, Option.some.injEq, Prod.mk.injEq] at hp'
      obtain ⟨rfl, rfl⟩ := hp'
      obtain ⟨hg, hcs⟩ := spells_unique hspells hspells'
      exact ⟨hg, rfl, hcs⟩
  | false =>
    cases hk' : g'.keyed with
    | true => exact (hmixed hk' hk hp' hp hspells).elim
    | false =>
      rw [parts?_plain hk] at hp
      rw [parts?_plain hk', hp, Option.some.injEq, Prod.mk.injEq] at hp'
      obtain ⟨rfl, rfl⟩ := hp'
      obtain ⟨hg, hcs⟩ := spells_unique hspells hspells'
      exact ⟨hg, rfl, hcs⟩

/-! ## 2. The criterion of what is found -/

/-- These stand for the numbers of a form. -/
def Fits : List Piece → List Captured → Prop
  | [], cs => cs = []
  | .literal _ :: ps, cs => Fits ps cs
  | .whole :: ps, cs => ∃ digits cs', cs = .whole digits :: cs' ∧ Fits ps cs'
  | .number :: ps, cs => ∃ w cs', cs = .number w :: cs' ∧ Fits ps cs'

theorem fits_of_spells {ps : List Piece} {cs : List Captured} {t : Text} (h : Spells ps cs t) :
    Fits ps cs := by
  induction h with
  | nil => rfl
  | literal _ _ ih => exact ih
  | whole _ _ _ _ ih => exact ⟨_, _, rfl, ih⟩
  | number _ _ _ _ ih => exact ⟨_, _, rfl, ih⟩

/-- **What stands for the numbers of a form makes a criterion.** -/
theorem makes_of_fits {g : Grammar} {cs : List Captured} (h : Fits g.pieces cs) (a : Text) :
    ∃ c, Makes g a cs c := by
  cases g with
  | kAnonymity =>
    obtain ⟨k, cs', rfl, rfl⟩ := h
    exact ⟨_, .kAnonymity⟩
  | dPresence =>
    obtain ⟨x, cs', rfl, y, cs'', rfl, rfl⟩ := h
    exact ⟨_, .dPresence⟩
  | inclusion =>
    obtain rfl := h
    exact ⟨_, .inclusion⟩
  | distinctLDiversity =>
    obtain ⟨l, cs', rfl, rfl⟩ := h
    exact ⟨_, .distinctLDiversity⟩
  | entropyLDiversity =>
    obtain ⟨l, cs', rfl, rfl⟩ := h
    exact ⟨_, .entropyLDiversity⟩
  | recursiveLDiversity =>
    obtain ⟨x, cs', rfl, l, cs'', rfl, rfl⟩ := h
    exact ⟨_, .recursiveLDiversity⟩
  | hierarchicalTCloseness =>
    obtain ⟨t, cs', rfl, rfl⟩ := h
    exact ⟨_, .hierarchicalTCloseness⟩
  | equalTCloseness =>
    obtain ⟨t, cs', rfl, rfl⟩ := h
    exact ⟨_, .equalTCloseness⟩

theorem makes_unique {g : Grammar} {a : Text} {cs : List Captured} {c c' : Criterion}
    (h : Makes g a cs c) (h' : Makes g a cs c') : c = c' := by
  cases h <;> cases h' <;> rfl

theorem wholeNumber_eq (digits : Text) :
    wholeNumber digits =
      if digits.length ≤ Numeral.digitLimit then .ok (Text.digitsValue digits : Int)
      else .error (.defect .unreadableValue) := by
  unfold wholeNumber Numeral.digitsNumber?
  by_cases h : digits.length ≤ Numeral.digitLimit
  · rw [if_pos h, if_pos h]
  · rw [if_neg h, if_neg h]

theorem keepsLimit_cons_whole (digits : Text) (cs : List Captured) :
    KeepsLimit (.whole digits :: cs) ↔ digits.length ≤ Numeral.digitLimit ∧ KeepsLimit cs := by
  simp [KeepsLimit]

theorem keepsLimit_cons_number (w : Numeral.Written) (cs : List Captured) :
    KeepsLimit (.number w :: cs) ↔ KeepsLimit cs := by
  simp [KeepsLimit]

theorem keepsLimit_nil : KeepsLimit [] := by
  simp [KeepsLimit]

/-- **The criterion is built, or refused** when a whole number has too many digits. -/
theorem build_of_makes {g : Grammar} {a : Text} {cs : List Captured} {c : Criterion}
    (h : Makes g a cs c) :
    (KeepsLimit cs → g.build a cs = .ok (some c)) ∧
      (¬KeepsLimit cs → g.build a cs = .error (.defect .unreadableValue)) := by
  cases h with
  | @kAnonymity _ digits | @distinctLDiversity _ digits | @recursiveLDiversity _ _ digits =>
    simp only [keepsLimit_cons_number, keepsLimit_cons_whole, keepsLimit_nil, and_true, build,
      wholeNumber_eq]
    constructor
    · intro hl
      rw [if_pos hl]
      rfl
    · intro hl
      rw [if_neg hl]
      rfl
  | dPresence | inclusion | entropyLDiversity | hierarchicalTCloseness | equalTCloseness =>
    simp only [keepsLimit_cons_number, keepsLimit_nil]
    exact ⟨fun _ => rfl, fun hl => absurd trivial hl⟩

theorem recognise_of_captures {g : Grammar} {token a : Text} {cs : List Captured}
    (h : g.Captures token a cs) :
    g.recognise token = g.build a cs := by
  obtain ⟨body, hp, hm⟩ := h
  unfold recognise
  simp only [hp, hm]

theorem recognise_of_mute {g : Grammar} {token : Text} (h : ∀ a cs, ¬g.Captures token a cs) :
    g.recognise token = .ok none := by
  unfold recognise
  split
  · rfl
  · next a body hp =>
    split
    · rfl
    · next cs hm => exact absurd ⟨body, hp, hm⟩ (h a cs)

/-- What a grammar finds makes a criterion. -/
theorem makes_of_captures {g : Grammar} {token a : Text} {cs : List Captured}
    (h : g.Captures token a cs) :
    ∃ c, Makes g a cs c := by
  obtain ⟨body, -, hm⟩ := h
  exact makes_of_fits (fits_of_spells (matchPieces?_sound hm)) a

/-- **Which criterion a grammar recognises in a token.** -/
theorem recognise_some_iff (g : Grammar) (token : Text) (c : Criterion) :
    g.recognise token = .ok (some c) ↔
      ∃ a cs, g.Captures token a cs ∧ Makes g a cs c ∧ KeepsLimit cs := by
  constructor
  · intro h
    by_cases hmute : ∀ a cs, ¬g.Captures token a cs
    · rw [recognise_of_mute hmute] at h
      cases h
    · push Not at hmute
      obtain ⟨a, cs, hcap⟩ := hmute
      obtain ⟨c', hc'⟩ := makes_of_captures hcap
      rw [recognise_of_captures hcap] at h
      by_cases hl : KeepsLimit cs
      · rw [(build_of_makes hc').1 hl, Except.ok.injEq, Option.some.injEq] at h
        exact ⟨a, cs, hcap, h ▸ hc', hl⟩
      · rw [(build_of_makes hc').2 hl] at h
        cases h
  · intro ⟨a, cs, hcap, hc, hl⟩
    rw [recognise_of_captures hcap]
    exact (build_of_makes hc).1 hl

theorem recognise_none_iff (g : Grammar) (token : Text) :
    g.recognise token = .ok none ↔ ∀ a cs, ¬g.Captures token a cs := by
  constructor
  · intro h a cs hcap
    obtain ⟨c, hc⟩ := makes_of_captures hcap
    rw [recognise_of_captures hcap] at h
    by_cases hl : KeepsLimit cs
    · rw [(build_of_makes hc).1 hl] at h
      cases h
    · rw [(build_of_makes hc).2 hl] at h
      cases h
  · exact recognise_of_mute

end Grammar

/-! ## 3. What becomes of a token -/

namespace Criterion

open Grammar

section

variable {gs : List Grammar}

theorem readings_of_mute {token : Text} (h : ∀ g ∈ gs, g.recognise token = .ok none) :
    readings gs token = .ok [] := by
  induction gs with
  | nil => rfl
  | cons g gs ih =>
    rw [readings, h g List.mem_cons_self, ih fun g' hg' => h g' (List.mem_cons_of_mem _ hg')]
    rfl

/-- Where at most one grammar can recognise a token, the others do not matter. -/
theorem readings_of_single {token : Text} {g : Grammar} (hnd : gs.Nodup) (hg : g ∈ gs)
    (h : ∀ g' ∈ gs, g' ≠ g → g'.recognise token = .ok none) :
    readings gs token = (g.recognise token).map Option.toList := by
  induction gs with
  | nil => cases hg
  | cons g' gs ih =>
    obtain ⟨hnot, hnd'⟩ := List.nodup_cons.mp hnd
    rw [readings]
    by_cases he : g' = g
    · subst he
      have hrest :=
        readings_of_mute fun k hk => h k (List.mem_cons_of_mem _ hk) fun hkg => hnot (hkg ▸ hk)
      rw [hrest]
      cases g'.recognise token with
      | error e => rfl
      | ok first? =>
        show Except.ok (first?.toList ++ []) = Except.ok first?.toList
        rw [List.append_nil]
    · have hmem : g ∈ gs := (List.mem_cons.mp hg).resolve_left fun hgg => he hgg.symm
      rw [h g' List.mem_cons_self he, ih hnd' hmem fun k hk => h k (List.mem_cons_of_mem _ hk)]
      cases g.recognise token with
      | error e => rfl
      | ok first? => rfl

variable (hall : ∀ g, g ∈ gs) (hnd : gs.Nodup)

include hall hnd

/-- **A token in which a grammar finds something** is its criterion, or has too many digits. -/
theorem parse_of_captures (index : Int) {t a : Text} {g : Grammar} {cs : List Captured}
    {c : Criterion} (h : g.Captures (Text.trim t) a cs) (hc : Makes g a cs c) :
    (KeepsLimit cs → parse gs index t = .ok c) ∧
      (¬KeepsLimit cs → parse gs index t = .error (.defect .unreadableValue)) := by
  have hothers : ∀ g' ∈ gs, g' ≠ g → g'.recognise (Text.trim t) = .ok none :=
    fun g' _ hne => recognise_of_mute fun a' cs' h' => hne (captures_unique h' h).1
  have hread := readings_of_single hnd (hall g) hothers
  rw [recognise_of_captures h] at hread
  obtain ⟨hok, herror⟩ := build_of_makes hc
  unfold parse
  simp only
  rw [hread]
  constructor
  · intro hl
    rw [hok hl]
    rfl
  · intro hl
    rw [herror hl]
    rfl

omit hall hnd in
/-- **A token in which no grammar finds anything** is refused. -/
theorem parse_of_mute (index : Int) {t : Text} (h : ∀ g a cs, ¬Captures g (Text.trim t) a cs) :
    parse gs index t = .error (.unparseableCriterion index (Text.trim t)) := by
  unfold parse
  simp only
  rw [readings_of_mute fun g _ => recognise_of_mute (h g)]
  rfl

/-- **Which criterion a token is.** -/
theorem parse_ok_iff (index : Int) (t : Text) (c : Criterion) :
    parse gs index t = .ok c ↔
      ∃ g a cs, Captures g (Text.trim t) a cs ∧ Makes g a cs c ∧ KeepsLimit cs := by
  constructor
  · intro h
    by_cases hmute : ∀ g a cs, ¬Captures g (Text.trim t) a cs
    · rw [parse_of_mute index hmute] at h
      cases h
    · simp only [not_forall, not_not] at hmute
      obtain ⟨g, a, cs, hcap⟩ := hmute
      obtain ⟨c', hc'⟩ := makes_of_captures hcap
      obtain ⟨hok, herror⟩ := parse_of_captures hall hnd index hcap hc'
      by_cases hl : KeepsLimit cs
      · rw [hok hl, Except.ok.injEq] at h
        exact ⟨g, a, cs, hcap, h ▸ hc', hl⟩
      · rw [herror hl] at h
        cases h
  · intro ⟨g, a, cs, hcap, hc, hl⟩
    exact (parse_of_captures hall hnd index hcap hc).1 hl

end

end Criterion

namespace Grammar

theorem mem_all (g : Grammar) : g ∈ all := by
  cases g <;> decide

theorem nodup_all : all.Nodup := by
  decide

/-! ## 4. Derivations -/

/-- **What a grammar finds in a token with at most one bare equal sign is what it derives there.** -/
theorem captures_iff_reads {g : Grammar} {token : Text} (hone : equalSigns token ≤ 1) (a : Text)
    (cs : List Captured) : g.Captures token a cs ↔ g.Reads token a cs := by
  cases hk : g.keyed with
  | false =>
    unfold Captures
    rw [parts?_plain hk]
    constructor
    · intro ⟨body, hp, hm⟩
      obtain ⟨rfl, rfl⟩ := Prod.mk.inj (Option.some.inj hp)
      exact .plain hk ((matchPieces?_iff g _ cs).mp hm)
    · intro h
      cases h with
      | plain _ hs => exact ⟨token, rfl, (matchPieces?_iff g _ cs).mpr hs⟩
      | keyed hk' => rw [hk] at hk'; cases hk'
  | true =>
    unfold Captures
    rw [parts?_keyed hk]
    constructor
    · intro ⟨body, hp, hm⟩
      obtain ⟨left, right, surplus, hs, hb, rfl, rfl⟩ := (keyedParts?_iff token a body).mp hp
      have hsigns := hs.equalSigns_eq
      obtain ⟨core, hcore, -, hd, -⟩ := hs
      have hsurplus : surplus = 0 := by omega
      rw [hsurplus, List.replicate_zero, List.append_nil] at hcore
      exact .keyed hk (hcore ▸ hd) hb ((matchPieces?_iff g _ cs).mp hm)
    · intro h
      cases h with
      | plain hk' => rw [hk] at hk'; cases hk'
      | @keyed left right _ _ hd hb hs =>
        have hright : right ≠ [] := by
          -- nothing at all has the form of a grammar with an attribute
          rintro rfl
          rw [← opener_of_spells hs] at hk
          cases hk
        refine ⟨Text.trim right, (keyedParts?_iff token _ _).mpr ⟨left, right, 0, ?_, hb, rfl, rfl⟩,
          (matchPieces?_iff g _ cs).mpr hs⟩
        exact ⟨token, by simp, fun h => absurd rfl h, hd, hright⟩

end Grammar

namespace Criterion

open Grammar

/-- **A token is a criterion exactly when a grammar derives it**, and is this criterion. Which grammar
it is, which attribute and which numbers, is settled. Any other token is refused as none. -/
theorem parse_iff_derives (index : Int) {t : Text} (htrim : Text.trim t = t)
    (hone : equalSigns t ≤ 1) (hlimit : ∀ g a cs, Reads g t a cs → KeepsLimit cs) :
    (∀ c, parse Grammar.all index t = .ok c ↔ ∃ g, Derives g t c) ∧
      (∀ g a cs g' a' cs', Reads g t a cs → Reads g' t a' cs' → g = g' ∧ a = a' ∧ cs = cs') ∧
      ((∀ g c, ¬Derives g t c) →
        parse Grammar.all index t = .error (.unparseableCriterion index t)) := by
  have hreads : ∀ g a cs, Captures g (Text.trim t) a cs ↔ Reads g t a cs := by
    intro g a cs
    rw [htrim]
    exact captures_iff_reads hone a cs
  refine ⟨fun c => ?_, fun g a cs g' a' cs' h h' => ?_, fun hno => ?_⟩
  · rw [parse_ok_iff mem_all nodup_all]
    constructor
    · rintro ⟨g, a, cs, hcap, hc, -⟩
      exact ⟨g, a, cs, (hreads g a cs).mp hcap, hc⟩
    · intro ⟨g, a, cs, hread, hc⟩
      exact ⟨g, a, cs, (hreads g a cs).mpr hread, hc, hlimit g a cs hread⟩
  · exact captures_unique ((hreads g a cs).mpr h) ((hreads g' a' cs').mpr h')
  · have hmute : ∀ g a cs, ¬Captures g (Text.trim t) a cs := by
      intro g a cs hcap
      obtain ⟨c, hc⟩ := makes_of_captures hcap
      exact hno g c ⟨a, cs, (hreads g a cs).mp hcap, hc⟩
    rw [parse_of_mute index hmute, htrim]

/-- A token that its grammar derives is a criterion. -/
theorem parse_distinct_diversity :
    parse Grammar.all 0 "age=distinct-( 2 )-Diversity".toList =
      .ok (.distinctLDiversity "age".toList 2) := by
  have hone : equalSigns "age=distinct-( 2 )-Diversity".toList ≤ 1 := by decide
  have hcap : Captures .distinctLDiversity "age=distinct-( 2 )-Diversity".toList "age".toList [.whole ['2']] :=
    ⟨"distinct-( 2 )-Diversity".toList, by decide, rfl⟩
  have hread := (captures_iff_reads hone _ _).mp hcap
  have hlimit : ∀ g a cs, Reads g "age=distinct-( 2 )-Diversity".toList a cs → KeepsLimit cs := by
    intro g a cs h
    obtain ⟨-, -, rfl⟩ := captures_unique ((captures_iff_reads hone a cs).mpr h) hcap
    rw [keepsLimit_cons_whole]
    exact ⟨by decide, keepsLimit_nil⟩
  exact ((parse_iff_derives 0 (by decide) hone hlimit).1 _).mpr
    ⟨_, _, _, hread, .distinctLDiversity⟩

end Criterion

end Anonymization
