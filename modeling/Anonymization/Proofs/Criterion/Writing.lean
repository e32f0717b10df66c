import Anonymization.Proofs.Criterion.Recognition
import Anonymization.Proofs.Numeral.Printing
/-!
# What a criterion demands, written

A body is the form of a grammar with numbers filled in.

* `fill`, `spells_fill`, `isPlain_of_matchPieces?` -- **a form is read again exactly when the numbers
  filled in are plain**;
* `not_mem_fill`, `passed_fill` -- no equal sign and no backslash stands in it, and what opens is closed;
* `mapAttribute` -- a criterion with another attribute;
* `body_eq_fill` -- bodies are such forms; `captured_of_hasPlainNumbers`, `hasPlainNumbers_of_matchPieces?`,
  `not_mem_body`, `isShut_body` -- the same of them.
-/

namespace Anonymization

open Anonymization.Field Anonymization.Grammar

/-! ## 1. Quiet characters -/

/-- A text without equal signs, backslashes and parentheses. -/
def Text.Quiet (t : Text) : Prop := ∀ c ∈ t, c ∉ ['=', '\\', '(', ')']

theorem Text.quiet_of_all {t : Text}
    (h : (t.all fun c => decide (c ∉ ['=', '\\', '(', ')'])) = true) : t.Quiet :=
  fun c hc => of_decide_eq_true (List.all_eq_true.mp h c hc)

theorem Numeral.InNumeral.quiet {t : Text} (h : ∀ c ∈ t, Numeral.InNumeral c) : t.Quiet := by
  intro c hc hmem
  simp only [List.mem_cons, List.not_mem_nil, or_false] at hmem
  rcases h c hc with hd | hd
  · rcases hmem with rfl | rfl | rfl | rfl <;> exact absurd hd (by decide)
  · rcases hmem with rfl | rfl | rfl | rfl <;> exact absurd hd (by decide)

theorem Numeral.quiet_signedText (n : Int) : Text.Quiet (Numeral.signedText n) :=
  Numeral.InNumeral.quiet (Numeral.inNumeral_signedText n)

theorem Binary64.quiet_text (x : Binary64) : Text.Quiet x.text := by
  cases x with
  | finite negative rank =>
    obtain ⟨w, hw, -⟩ := Binary64.text_spells (x := .finite negative rank) rfl
    exact Numeral.InNumeral.quiet (Numeral.inNumeral_of_spells hw)
  | infinite negative => cases negative <;> exact Text.quiet_of_all (by decide)
  | nan => exact Text.quiet_of_all (by decide)

/-- Nothing opens, closes or waits in a quiet text. -/
theorem passed_quiet {t : Text} (ht : t.Quiet) (grouped : Bool) (depth : Nat) :
    passed grouped (false, depth) t = (false, depth) := by
  induction t with
  | nil => rfl
  | cons c t ih =>
    have hc := ht c List.mem_cons_self
    simp only [List.mem_cons, List.not_mem_nil, or_false, not_or] at hc
    obtain ⟨-, h2, h3, h4⟩ := hc
    have hescape : (c == escapeChar) = false := by simpa [escapeChar] using h2
    have hdepth : nextDepth grouped false depth c = depth := by simp [nextDepth, h3, h4]
    rw [passed_cons, hescape, hdepth]
    exact ih fun x hx => ht x (List.mem_cons_of_mem _ hx)

/-! ## 2. Forms filled in -/

/-- A number of a criterion. -/
inductive Quantity where
  | whole (n : Int)
  | number (x : Binary64)

namespace Quantity

/-- How a number is written. -/
def text : Quantity → Text
  | whole n => Numeral.signedText n
  | number x => x.text

/-- The number can be written and read again. -/
def isPlain : Quantity → Bool
  | whole n => Criterion.isPlainWhole n
  | number x => x.isFinite

/-- What stands for a number in a form denotes this number. -/
inductive Denotes : Quantity → Captured → Prop where
  | whole (digits : Text) : Denotes (.whole (Text.digitsValue digits)) (.whole digits)
  | number (w : Numeral.Written) : Denotes (.number w.value) (.number w)

theorem quiet_text (q : Quantity) : q.text.Quiet := by
  cases q with
  | whole n => exact Numeral.quiet_signedText n
  | number x => exact Binary64.quiet_text x

end Quantity

/-- A form with numbers of the right kinds in it. -/
def Suits : List Piece → List Quantity → Prop
  | [], qs => qs = []
  | .literal _ :: ps, qs => Suits ps qs
  | .whole :: ps, qs => ∃ n qs', qs = .whole n :: qs' ∧ Suits ps qs'
  | .number :: ps, qs => ∃ x qs', qs = .number x :: qs' ∧ Suits ps qs'

/-- A form with the numbers filled in. -/
def fill : List Piece → List Quantity → Text
  | [], _ => []
  | .literal keyword :: ps, qs => keyword ++ fill ps qs
  | .whole :: ps, q :: qs | .number :: ps, q :: qs => q.text ++ fill ps qs
  | .whole :: _, [] | .number :: _, [] => []

/-- **Plain numbers, filled in, are spelled.** -/
theorem spells_fill {ps : List Piece} {qs : List Quantity} (hs : Suits ps qs)
    (hq : ∀ q ∈ qs, q.isPlain = true) :
    ∃ cs, Spells ps cs (fill ps qs) ∧ KeepsLimit cs ∧ List.Forall₂ Quantity.Denotes qs cs := by
  induction ps generalizing qs with
  | nil =>
    obtain rfl := hs
    exact ⟨[], .nil, keepsLimit_nil, .nil⟩
  | cons p ps ih =>
    cases p with
    | literal keyword =>
      obtain ⟨cs, hspells, hl, hd⟩ := ih hs hq
      exact ⟨cs, .literal rfl hspells, hl, hd⟩
    | whole =>
      obtain ⟨n, qs, rfl, hs⟩ := hs
      obtain ⟨cs, hspells, hl, hd⟩ := ih hs fun q h => hq q (List.mem_cons_of_mem _ h)
      have hplain : Criterion.isPlainWhole n = true := hq (.whole n) List.mem_cons_self
      simp only [Criterion.isPlainWhole, Bool.and_eq_true, decide_eq_true_eq] at hplain
      obtain ⟨k, rfl⟩ := Int.eq_ofNat_of_zero_le hplain.1
      have hdigits := Numeral.digits_decimalText k
      refine ⟨.whole (Numeral.decimalText k) :: cs, ?_,
        (keepsLimit_cons_whole _ _).mpr ⟨hplain.2, hl⟩, .cons ?_ hd⟩
      · have hw := Spells.whole Text.blanks_nil hdigits Text.blanks_nil hspells
        rw [List.nil_append, List.append_nil] at hw
        exact hw
      · have hv := Quantity.Denotes.whole (Numeral.decimalText k)
        rw [Numeral.digitsValue_decimalText] at hv
        exact hv
    | number =>
      obtain ⟨x, qs, rfl, hs⟩ := hs
      obtain ⟨cs, hspells, hl, hd⟩ := ih hs fun q h => hq q (List.mem_cons_of_mem _ h)
      have hfinite : x.isFinite = true := hq (.number x) List.mem_cons_self
      obtain ⟨w, hw, rfl⟩ := Binary64.text_spells hfinite
      refine ⟨.number w :: cs, ?_, (keepsLimit_cons_number _ _).mpr hl, .cons (.number w) hd⟩
      have hn := Spells.number Text.blanks_nil hw Text.blanks_nil hspells
      rw [List.nil_append, List.append_nil] at hn
      exact hn

/-- Nothing is read where a minus sign or a word stands for a number. -/
theorem takeWhole?_minus (t : Text) : takeWhole? ('-' :: t) = none := rfl

theorem takeNumber?_of_not_isFinite {x : Binary64} (h : x.isFinite = false) (rest : Text) :
    takeNumber? (x.text ++ rest) = none := by
  cases x with
  | finite negative rank => cases h
  | infinite negative => cases negative <;> rfl
  | nan => rfl

/-- A form that is filled in goes on with its keyword behind a number. -/
theorem endsPiece_fill {ps : List Piece} (hp : opensWithEnd ps = true) (qs : List Quantity) :
    EndsPiece (fill ps qs) := by
  match ps, hp with
  | .literal (k :: keyword) :: ps, hp =>
    obtain ⟨-, hblank, hnum⟩ := endMarks_spec (c := k) (by simpa [opensWithEnd] using hp) rfl
    exact ⟨Text.startsBare_cons.mpr hblank, fun x hx => Option.some.inj hx ▸ hnum⟩

/-- A whole number that is read has no sign, and its digits are read. -/
theorem takeWhole?_text {n : Int} {rest digits rest' : Text} (hr : EndsPiece rest)
    (h : takeWhole? ((Quantity.whole n).text ++ rest) = some (digits, rest')) :
    ∃ k : Nat, n = k ∧ digits = Numeral.decimalText k ∧ rest' = rest := by
  cases n with
  | negSucc k =>
    rw [show (Quantity.whole (.negSucc k)).text = '-' :: Numeral.decimalText (k + 1) from rfl,
      List.cons_append, takeWhole?_minus] at h
    cases h
  | ofNat k =>
    have htake :=
      takeWhole?_complete Text.blanks_nil (Numeral.digits_decimalText k) Text.blanks_nil hr
    rw [List.nil_append, List.append_nil] at htake
    rw [show (Quantity.whole (.ofNat k)).text = Numeral.decimalText k from rfl, htake,
      Option.some.injEq, Prod.mk.injEq] at h
    exact ⟨k, rfl, h.1.symm, h.2.symm⟩

/-- A number that is read is finite. -/
theorem takeNumber?_text {x : Binary64} {rest rest' : Text} {w : Numeral.Written}
    (hr : EndsPiece rest) (h : takeNumber? ((Quantity.number x).text ++ rest) = some (w, rest')) :
    x.isFinite = true ∧ rest' = rest := by
  rw [show (Quantity.number x).text = x.text from rfl] at h
  cases hx : x.isFinite with
  | false =>
    rw [takeNumber?_of_not_isFinite hx] at h
    cases h
  | true =>
    obtain ⟨w', hw', -⟩ := Binary64.text_spells hx
    have htake := takeNumber?_complete Text.blanks_nil hw' Text.blanks_nil hr
    rw [List.nil_append, List.append_nil] at htake
    rw [htake, Option.some.injEq, Prod.mk.injEq] at h
    exact ⟨rfl, h.2.symm⟩

/-- **Numbers that are read again are plain.** -/
theorem isPlain_of_matchPieces? {ps : List Piece} {qs : List Quantity} {cs : List Captured}
    (hp : isDelimited ps = true) (hs : Suits ps qs) (h : matchPieces? ps (fill ps qs) = some cs)
    (hl : KeepsLimit cs) : ∀ q ∈ qs, q.isPlain = true := by
  induction ps generalizing qs cs with
  | nil =>
    obtain rfl := hs
    simp
  | cons p ps ih =>
    cases p with
    | literal keyword =>
      rw [fill, matchPieces?, (Text.afterKeyword?_iff keyword _ _).mpr ⟨keyword, rfl, rfl⟩] at h
      exact ih hp hs h hl
    | whole =>
      obtain ⟨n, qs, rfl, hs⟩ := hs
      simp only [isDelimited, Bool.and_eq_true] at hp
      rw [fill, matchPieces?, Option.bind_eq_some_iff] at h
      obtain ⟨⟨digits, rest⟩, htake, hrest⟩ := h
      obtain ⟨k, rfl, rfl, rfl⟩ := takeWhole?_text (endsPiece_fill hp.1 qs) htake
      obtain ⟨cs', hcs', rfl⟩ := Option.map_eq_some_iff.mp hrest
      obtain ⟨hlen, hl'⟩ := (keepsLimit_cons_whole _ _).mp hl
      intro q hq
      rcases List.mem_cons.mp hq with rfl | hq
      · simp only [Quantity.isPlain, Criterion.isPlainWhole, Bool.and_eq_true, decide_eq_true_eq]
        exact ⟨Int.natCast_nonneg k, hlen⟩
      · exact ih hp.2 hs hcs' hl' q hq
    | number =>
      obtain ⟨x, qs, rfl, hs⟩ := hs
      simp only [isDelimited, Bool.and_eq_true] at hp
      rw [fill, matchPieces?, Option.bind_eq_some_iff] at h
      obtain ⟨⟨w, rest⟩, htake, hrest⟩ := h
      obtain ⟨hx, rfl⟩ := takeNumber?_text (endsPiece_fill hp.1 qs) htake
      obtain ⟨cs', hcs', rfl⟩ := Option.map_eq_some_iff.mp hrest
      intro q hq
      rcases List.mem_cons.mp hq with rfl | hq
      · exact hx
      · exact ih hp.2 hs hcs' ((keepsLimit_cons_number _ _).mp hl) q hq

/-! ## 3. The characters of a form -/

/-- No keyword of the form holds an equal sign or a backslash. -/
def isQuietForm : List Piece → Bool
  | [] => true
  | .literal keyword :: ps => (keyword.all fun c => c != '=' && c != '\\') && isQuietForm ps
  | _ :: ps => isQuietForm ps

/-- **No equal sign and no backslash stands in a form that is filled in.** -/
theorem not_mem_fill {ps : List Piece} (hp : isQuietForm ps = true) (qs : List Quantity) :
    ∀ c ∈ fill ps qs, c ≠ '=' ∧ c ≠ '\\' := by
  induction ps generalizing qs with
  | nil => simp [fill]
  | cons p ps ih =>
    cases p with
    | literal keyword =>
      simp only [isQuietForm, Bool.and_eq_true, List.all_eq_true, bne_iff_ne] at hp
      intro c hc
      rcases List.mem_append.mp hc with hc | hc
      · exact hp.1 c hc
      · exact ih hp.2 qs c hc
    | whole | number =>
      cases qs with
      | nil => simp [fill]
      | cons q qs =>
        intro c hc
        rcases List.mem_append.mp hc with hc | hc
        · have hquiet := q.quiet_text c hc
          simp only [List.mem_cons, List.not_mem_nil, or_false, not_or] at hquiet
          exact ⟨hquiet.1, hquiet.2.1⟩
        · exact ih hp qs c hc

/-- How many groups are open behind a form. -/
def depthBehind (ps : List Piece) (depth : Nat) : Nat :=
  match ps with
  | [] => depth
  | .literal keyword :: ps => depthBehind ps (passed true (false, depth) keyword).2
  | _ :: ps => depthBehind ps depth

/-- The numbers open and close nothing. -/
theorem passed_fill {ps : List Piece} {qs : List Quantity} (hp : isQuietForm ps = true)
    (hs : Suits ps qs)
    (depth : Nat) : passed true (false, depth) (fill ps qs) = (false, depthBehind ps depth) := by
  induction ps generalizing qs depth with
  | nil => rfl
  | cons p ps ih =>
    cases p with
    | literal keyword =>
      simp only [isQuietForm, Bool.and_eq_true, List.all_eq_true, bne_iff_ne] at hp
      have hfst : (passed true (false, depth) keyword).1 = false := by
        rw [passed_fst]
        split
        · rfl
        · cases hlast : keyword.getLast? with
          | none => rfl
          | some c => simpa [escapeChar] using (hp.1 c (List.mem_of_getLast? hlast)).2
      rw [fill, passed_append]
      have hstate : passed true (false, depth) keyword =
          (false, (passed true (false, depth) keyword).2) :=
        Prod.ext hfst rfl
      rw [hstate]
      exact ih hp.2 hs _
    | whole | number =>
      obtain ⟨q, qs, rfl, hs⟩ := hs
      rw [fill, passed_append, passed_quiet (Quantity.quiet_text _)]
      exact ih hp hs depth

namespace Criterion

/-! ## 4. Bodies -/

/-- The grammar that a criterion is written in. -/
def grammar : Criterion → Grammar
  | kAnonymity _ => .kAnonymity
  | dPresence _ _ => .dPresence
  | inclusion => .inclusion
  | distinctLDiversity _ _ => .distinctLDiversity
  | entropyLDiversity _ _ => .entropyLDiversity
  | recursiveLDiversity _ _ _ => .recursiveLDiversity
  | hierarchicalTCloseness _ _ => .hierarchicalTCloseness
  | equalTCloseness _ _ => .equalTCloseness

/-- The numbers of a criterion. -/
def quantities : Criterion → List Quantity
  | kAnonymity n | distinctLDiversity _ n => [.whole n]
  | dPresence x y => [.number x, .number y]
  | inclusion => []
  | entropyLDiversity _ x | hierarchicalTCloseness _ x | equalTCloseness _ x => [.number x]
  | recursiveLDiversity _ x n => [.number x, .whole n]

/-- The criterion with another attribute, if it is about one. -/
def mapAttribute (f : Text → Text) : Criterion → Criterion
  | kAnonymity n => kAnonymity n
  | dPresence x y => dPresence x y
  | inclusion => inclusion
  | distinctLDiversity a n => distinctLDiversity (f a) n
  | entropyLDiversity a x => entropyLDiversity (f a) x
  | recursiveLDiversity a x n => recursiveLDiversity (f a) x n
  | hierarchicalTCloseness a x => hierarchicalTCloseness (f a) x
  | equalTCloseness a x => equalTCloseness (f a) x

@[simp] theorem attribute?_mapAttribute (f : Text → Text) (c : Criterion) :
    (c.mapAttribute f).attribute? = c.attribute?.map f := by
  cases c <;> rfl

@[simp] theorem body_mapAttribute (f : Text → Text) (c : Criterion) :
    (c.mapAttribute f).body = c.body := by
  cases c <;> rfl

@[simp] theorem grammar_mapAttribute (f : Text → Text) (c : Criterion) :
    (c.mapAttribute f).grammar = c.grammar := by
  cases c <;> rfl

/-- A criterion stays the same exactly when its attribute does. -/
theorem mapAttribute_eq_self_iff (f : Text → Text) (c : Criterion) :
    c.mapAttribute f = c ↔ ∀ a, c.attribute? = some a → f a = a := by
  cases c <;> simp [mapAttribute, attribute?]

theorem mapAttribute_mapAttribute (f g : Text → Text) (c : Criterion) :
    (c.mapAttribute f).mapAttribute g = c.mapAttribute fun a => g (f a) := by
  cases c <;> rfl

theorem mapAttribute_congr {f g : Text → Text} {c : Criterion}
    (h : ∀ a, c.attribute? = some a → f a = g a) :
    c.mapAttribute f = c.mapAttribute g := by
  cases c <;> simp_all [mapAttribute, attribute?]

theorem keyed_grammar (c : Criterion) : c.grammar.keyed = c.attribute?.isSome := by
  cases c <;> rfl

theorem suits (c : Criterion) : Suits c.grammar.pieces c.quantities := by
  cases c with
  | kAnonymity n | distinctLDiversity _ n => exact ⟨n, [], rfl, rfl⟩
  | dPresence x y => exact ⟨x, _, rfl, y, [], rfl, rfl⟩
  | inclusion => exact rfl
  | entropyLDiversity _ x | hierarchicalTCloseness _ x | equalTCloseness _ x =>
    exact ⟨x, [], rfl, rfl⟩
  | recursiveLDiversity _ x n => exact ⟨x, _, rfl, n, [], rfl, rfl⟩

/-- One number between two keywords. -/
theorem fill_one (keyword keyword' : Text) (t : Text) :
    keyword ++ t ++ keyword' = keyword ++ (t ++ (keyword' ++ [])) := by
  simp

/-- Two numbers with a mark between them, between two keywords. -/
theorem fill_two (keyword keyword' : Text) (mark : Char) (s t : Text) :
    keyword ++ s ++ mark :: t ++ keyword' =
      keyword ++ (s ++ ([mark] ++ (t ++ (keyword' ++ [])))) := by
  simp

/-- **A body is the form of the grammar with the numbers filled in.** -/
theorem body_eq_fill (c : Criterion) : c.body = fill c.grammar.pieces c.quantities := by
  cases c with
  | kAnonymity n => exact fill_one [] _ (Numeral.signedText n)
  | dPresence x y => exact fill_two ['('] _ ',' x.text y.text
  | inclusion => rfl
  | distinctLDiversity _ n => exact fill_one _ _ (Numeral.signedText n)
  | entropyLDiversity _ x | hierarchicalTCloseness _ x | equalTCloseness _ x =>
    exact fill_one _ _ x.text
  | recursiveLDiversity _ x n => exact fill_two _ _ ',' x.text (Numeral.signedText n)

theorem hasPlainNumbers_iff (c : Criterion) :
    c.hasPlainNumbers = true ↔ ∀ q ∈ c.quantities, q.isPlain = true := by
  cases c <;> simp [hasPlainNumbers, quantities, Quantity.isPlain]

/-- What denotes the numbers makes the criterion, with whatever attribute. -/
theorem makes_of_denotes {c : Criterion} {cs : List Captured}
    (h : List.Forall₂ Quantity.Denotes c.quantities cs)
    (a : Text) : Makes c.grammar a cs (c.mapAttribute fun _ => a) := by
  cases c with
  | inclusion =>
    cases h
    exact .inclusion
  | kAnonymity | distinctLDiversity | entropyLDiversity | hierarchicalTCloseness | equalTCloseness =>
    obtain _ | ⟨⟨⟩, ⟨⟩⟩ := h
    constructor
  | dPresence | recursiveLDiversity =>
    obtain _ | ⟨⟨⟩, _ | ⟨⟨⟩, ⟨⟩⟩⟩ := h
    constructor

/-- **The body is read as the criterion** when its numbers are plain. -/
theorem captured_of_hasPlainNumbers {c : Criterion} (h : c.hasPlainNumbers = true) :
    ∃ cs, matchPieces? c.grammar.pieces c.body = some cs ∧ KeepsLimit cs ∧
      ∀ a, Makes c.grammar a cs (c.mapAttribute fun _ => a) := by
  obtain ⟨cs, hs, hl, hd⟩ := spells_fill (suits c) ((hasPlainNumbers_iff c).mp h)
  rw [← body_eq_fill] at hs
  exact ⟨cs, (matchPieces?_iff _ _ _).mpr hs, hl, makes_of_denotes hd⟩

/-- **The body is read as none** when a number is not plain. -/
theorem hasPlainNumbers_of_matchPieces? {c : Criterion} {cs : List Captured}
    (h : matchPieces? c.grammar.pieces c.body = some cs) (hl : KeepsLimit cs) :
    c.hasPlainNumbers = true := by
  rw [body_eq_fill] at h
  exact (hasPlainNumbers_iff c).mpr (isPlain_of_matchPieces? (isDelimited_pieces _) (suits c) h hl)

/-- The first letters of a body are those of its grammar. -/
theorem opener_body (c : Criterion) : opener c.body = c.grammar := by
  cases c with
  | kAnonymity n =>
    cases n with
    | negSucc k => rfl
    | ofNat k =>
      have hd := Numeral.digits_decimalText k
      show opener (Numeral.decimalText k ++ "-ANONYMITY".toList) = .kAnonymity
      obtain ⟨x, d, hx⟩ := List.exists_cons_of_ne_nil hd.1
      rw [hx] at hd ⊢
      exact opener_of_isBlank_or_isDecimal (.inr (hd.2 x List.mem_cons_self))
  | _ => rfl

theorem isQuietForm_pieces (g : Grammar) : isQuietForm g.pieces = true := by
  cases g <;> decide

theorem depthBehind_pieces (g : Grammar) : depthBehind g.pieces 0 = 0 := by
  cases g <;> decide

theorem not_mem_body (c : Criterion) : '=' ∉ c.body ∧ '\\' ∉ c.body := by
  rw [body_eq_fill]
  have h := not_mem_fill (isQuietForm_pieces c.grammar) c.quantities
  exact ⟨fun hm => (h _ hm).1 rfl, fun hm => (h _ hm).2 rfl⟩

/-- What a body opens, it closes. -/
theorem isShut_body (c : Criterion) : IsShut true c.body := by
  unfold IsShut
  rw [body_eq_fill, passed_fill (isQuietForm_pieces c.grammar) (suits c), depthBehind_pieces]

/-- The last letters of the keywords. -/
def lastLetters : List Char := ['Y', 'E', 'N', 'S']

theorem getLast?_body (c : Criterion) : ∃ x, c.body.getLast? = some x ∧ x ∈ lastLetters := by
  have hlast : ∀ (t keyword : Text) (x : Char), keyword.getLast? = some x → x ∈ lastLetters →
      ∃ x, (t ++ keyword).getLast? = some x ∧ x ∈ lastLetters := by
    intro t keyword x hk hx
    exact ⟨x, by rw [List.getLast?_append, hk]; rfl, hx⟩
  cases c with
  | inclusion => exact ⟨'N', rfl, by decide⟩
  | _ => exact hlast _ _ _ rfl (by decide)

/-- A body begins neither with a blank nor with a bracket. -/
theorem head?_body (c : Criterion) :
    ∃ x, c.body.head? = some x ∧ Text.isBlank x = false ∧ x ≠ '[' := by
  cases c with
  | kAnonymity n =>
    cases n with
    | negSucc k => exact ⟨'-', rfl, by decide, by decide⟩
    | ofNat k =>
      have hd := Numeral.digits_decimalText k
      obtain ⟨x, d, hx⟩ := List.exists_cons_of_ne_nil hd.1
      have hx' : Text.isDecimal x = true := by
        rw [hx] at hd
        exact hd.2 x List.mem_cons_self
      refine ⟨x, ?_, Text.isBlank_of_isDecimal hx', ?_⟩
      · show (Numeral.decimalText k ++ "-ANONYMITY".toList).head? = some x
        rw [hx]
        rfl
      · rintro rfl
        exact absurd hx' (by decide)
  | _ => exact ⟨_, rfl, by decide, by decide⟩

end Criterion

end Anonymization
