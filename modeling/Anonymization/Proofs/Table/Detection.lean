import Anonymization.Proofs.Text.Lines
import Anonymization.Table.Separator
/-!
# The separator that is detected

* `IsFirstMost`, `firstBest_isFirstMost` -- the first of the characters that occur most often, and the
  search that finds it;
* `sampleCount`, `occurrences_eq` -- how often a character occurs in the first lines of a text, counted
  without line ends;
* `detect_eq_iff` -- **the separator is the candidate that occurs most often there, the earliest of
  several**;
* `detect_congr` -- so it depends on these lines only, and not on their order;
* `detect_most_frequent` -- what follows for texts that go on, and for other line ends.
-/

namespace Anonymization.Separator

/-! ## 1. The first of the best -/

/-- The first of some characters that no other beats: those in front of it have a lower score, those
behind it no higher one. -/
def IsFirstMost (score : Char → Nat) (cs : List Char) (c : Char) : Prop :=
  ∃ before after, cs = before ++ c :: after ∧ (∀ x ∈ before, score x < score c) ∧
    ∀ x ∈ after, score x ≤ score c

variable {score : Char → Nat} {cs : List Char} {c d : Char}

theorem IsFirstMost.le (h : IsFirstMost score cs c) {x : Char} (hx : x ∈ cs) : score x ≤ score c := by
  obtain ⟨before, after, rfl, hbefore, hafter⟩ := h
  rcases List.mem_append.mp hx with hx | hx
  · exact Nat.le_of_lt (hbefore x hx)
  · rcases List.mem_cons.mp hx with rfl | hx
    · exact Nat.le_refl _
    · exact hafter x hx

/-- A character that is beaten may stand in front. -/
theorem IsFirstMost.cons (h : IsFirstMost score cs c) (hd : score d < score c) :
    IsFirstMost score (d :: cs) c := by
  obtain ⟨before, after, rfl, hbefore, hafter⟩ := h
  exact ⟨d :: before, after, rfl, List.forall_mem_cons.mpr ⟨hd, hbefore⟩, hafter⟩

/-- One that beats nothing may stand behind the first. -/
theorem IsFirstMost.insert {x : Char} (h : IsFirstMost score (d :: cs) c) (hx : score x ≤ score d) :
    IsFirstMost score (d :: x :: cs) c := by
  obtain ⟨before, after, hsplit, hbefore, hafter⟩ := h
  rcases List.cons_eq_append_iff.mp hsplit with ⟨rfl, hd⟩ | ⟨before', rfl, hcs⟩
  · obtain ⟨rfl, rfl⟩ := List.cons.inj hd
    exact ⟨[], x :: after, rfl, by simp, List.forall_mem_cons.mpr ⟨hx, hafter⟩⟩
  · obtain ⟨hd, hrest⟩ := List.forall_mem_cons.mp hbefore
    refine ⟨d :: x :: before', after, by rw [hcs]; rfl, ?_, hafter⟩
    exact List.forall_mem_cons.mpr ⟨hd, List.forall_mem_cons.mpr ⟨Nat.lt_of_le_of_lt hx hd, hrest⟩⟩

/-- **No two characters are the first of the best.** -/
theorem IsFirstMost.unique (hc : IsFirstMost score cs c) (hd : IsFirstMost score cs d) : c = d := by
  have hle := hc.le (x := d) (by obtain ⟨_, _, rfl, -⟩ := hd; simp)
  have hge := hd.le (x := c) (by obtain ⟨_, _, rfl, -⟩ := hc; simp)
  obtain ⟨before, after, hsplit, hbefore, -⟩ := hc
  obtain ⟨before', after', hsplit', hbefore', -⟩ := hd
  rcases List.append_eq_append_iff.mp (hsplit.symm.trans hsplit') with ⟨a, rfl, ha⟩ | ⟨a, rfl, ha⟩
  · cases a with
    | nil => exact (List.cons.inj ha).1
    | cons x a =>
      obtain ⟨rfl, -⟩ := List.cons.inj ha
      exact absurd (hbefore' c (by simp)) (by omega)
  · cases a with
    | nil => exact (List.cons.inj ha).1.symm
    | cons x a =>
      obtain ⟨rfl, -⟩ := List.cons.inj ha
      exact absurd (hbefore d (by simp)) (by omega)

/-- Other scores that are the same for these characters. -/
theorem IsFirstMost.congr {score' : Char → Nat} (h : IsFirstMost score cs c)
    (heq : ∀ x ∈ cs, score x = score' x) : IsFirstMost score' cs c := by
  obtain ⟨before, after, rfl, hbefore, hafter⟩ := h
  refine ⟨before, after, rfl, fun x hx => ?_, fun x hx => ?_⟩
  · rw [← heq x (by simp [hx]), ← heq c (by simp)]
    exact hbefore x hx
  · rw [← heq x (by simp [hx]), ← heq c (by simp)]
    exact hafter x hx

/-- **The search finds the first of the best.** -/
theorem firstBest_isFirstMost (score : Char → Nat) (best : Char) (cs : List Char) :
    IsFirstMost score (best :: cs) (firstBest score best cs) := by
  induction cs generalizing best with
  | nil => exact ⟨[], [], rfl, by simp, by simp⟩
  | cons c cs ih =>
    rw [firstBest]
    split
    · next hlt => exact (ih c).cons (Nat.lt_of_lt_of_le hlt ((ih c).le List.mem_cons_self))
    · next hge => exact (ih best).insert (Nat.le_of_not_lt hge)

/-! ## 2. The sample -/

/-- How often a character occurs in the first lines. -/
def sampleCount (ls : List Text) (c : Char) : Nat :=
  (ls.take sampleLines).flatten.count c

theorem foldl_count (lines : List Text) (c : Char) (n : Nat) :
    lines.foldl (fun n line => n + line.count c) n = n + lines.flatten.count c := by
  induction lines generalizing n with
  | nil => rfl
  | cons line lines ih =>
    rw [List.foldl_cons, ih, List.flatten_cons, List.count_append, Nat.add_assoc]

/-- The line feeds at the ends are no other characters. -/
theorem count_withoutFeed (hc : c ≠ '\n') (lines : List Text) :
    (lines.map Text.withoutFeed).flatten.count c = lines.flatten.count c := by
  induction lines with
  | nil => rfl
  | cons line lines ih =>
    rw [List.map_cons, List.flatten_cons, List.flatten_cons, List.count_append, List.count_append, ih,
      Text.withoutFeed, List.count_filter (by simpa using hc)]

/-- **The characters of the sample are those of the first lines.** -/
theorem occurrences_eq {t : Text} {ls : List Text} (h : Text.HasLines t ls) (hc : c ≠ '\n') :
    occurrences t c = sampleCount ls c := by
  unfold occurrences sampleCount
  rw [foldl_count, Nat.zero_add, ← h.map_lines, ← List.map_take, count_withoutFeed hc]

theorem ne_lineFeed_of_mem_candidates (h : c ∈ candidates) : c ≠ '\n' := by
  rintro rfl
  revert h
  decide

/-! ## 3. The separator -/

/-- The first candidate stands in front of itself when the search begins. -/
theorem detect_isFirstMost (t : Text) : IsFirstMost (occurrences t) candidates (detect t) := by
  obtain ⟨before, after, hsplit, hbefore, hafter⟩ :=
    firstBest_isFirstMost (occurrences t) ';' candidates
  rcases List.cons_eq_append_iff.mp hsplit with ⟨-, hd⟩ | ⟨before', rfl, hcs⟩
  · obtain ⟨hfirst, rfl⟩ := List.cons.inj hd
    have hdetect : detect t = ';' := hfirst
    exact ⟨[], [',', '|', '\t'], by rw [hdetect]; rfl, by simp, fun x hx =>
      hafter x (List.mem_cons_of_mem _ hx)⟩
  · exact ⟨before', after, hcs, (List.forall_mem_cons.mp hbefore).2, hafter⟩

/-- **The separator of a text is the candidate that occurs most often in its first lines**, the earliest
of several. -/
theorem detect_eq_iff {t : Text} {ls : List Text} (h : Text.HasLines t ls) (c : Char) :
    detect t = c ↔ IsFirstMost (sampleCount ls) candidates c := by
  have hdetect : IsFirstMost (sampleCount ls) candidates (detect t) :=
    (detect_isFirstMost t).congr fun x hx => occurrences_eq h (ne_lineFeed_of_mem_candidates hx)
  constructor
  · rintro rfl
    exact hdetect
  · exact hdetect.unique

/-- **It depends on the first lines only**, and not on their order. -/
theorem detect_congr {t t' : Text} {ls ls' : List Text} (h : Text.HasLines t ls)
    (h' : Text.HasLines t' ls') (hperm : (ls'.take sampleLines).Perm (ls.take sampleLines)) :
    detect t' = detect t := by
  have hcount : sampleCount ls' = sampleCount ls :=
    funext fun c => hperm.flatten.count_eq c
  rw [detect_eq_iff h', hcount, ← detect_eq_iff h]

/-- **Which separator is detected.** Every text has its lines, and the separator is the candidate with the
most occurrences in the first hundred of them, the earliest of several; the semicolon if none occurs. So
it does not change with what stands behind the hundredth line, with the ends that the lines have, or
with the order of the first hundred of them. -/
theorem detect_most_frequent (t : Text) :
    (∀ (fs : FileSystem) path bytes, fs.read path = .ok bytes → Text.decodeLossy bytes = t →
      detectInFile fs path = .ok (detect t)) ∧
    ∃ ls, (∀ ls', Text.HasLines t ls' ↔ ls' = ls) ∧
      (∀ c, detect t = c ↔ IsFirstMost (sampleCount ls) candidates c) ∧
      ((∀ c ∈ candidates, sampleCount ls c = 0) → detect t = ';') ∧
      (Text.EndsLine t → sampleLines ≤ ls.length → ∀ rest, detect (t ++ rest) = detect t) ∧
      (∀ e, Text.IsEnd [] e → detect (Text.rewriteEnds e t) = detect t) ∧
      ∀ t' ls', Text.HasLines t' ls' → (ls'.take sampleLines).Perm (ls.take sampleLines) →
        detect t' = detect t := by
  obtain ⟨ls, h⟩ := Text.exists_lines t
  refine ⟨fun fs path bytes hfile ht => ?_, ls, fun ls' => ⟨fun h' => ?_, fun e => e ▸ h⟩,
    detect_eq_iff h, fun hnone => ?_, fun hend hlen rest => ?_, fun e he => ?_,
    fun t' ls' h' hperm => detect_congr h h' hperm⟩
  · rw [detectInFile, hfile, ← ht]
    rfl
  · rw [← h'.map_lines, h.map_lines]
  · refine (detect_eq_iff h ';').mpr ⟨[], [',', '|', '\t'], rfl, by simp, fun x hx => ?_⟩
    rw [hnone x (List.mem_cons_of_mem _ hx)]
    exact Nat.zero_le _
  · obtain ⟨more, hmore⟩ := h.append hend rest
    refine detect_congr h hmore ?_
    rw [List.take_append_of_le_length hlen]
  · exact detect_congr h (h.rewriteEnds he) (.refl _)

/-- A hundred lines, most of them empty, with two bars and a semicolon. -/
def hundredLines : List Text :=
  ["a|b".toList, "c;d".toList, "|".toList] ++ List.replicate 97 []

/-- A text with these lines, which end in all three ways. -/
def hundredText : Text :=
  "a|b\r\nc;d\n|\r".toList ++ List.replicate 97 '\r'

/-- A file that holds this text. -/
def hundredFile : FileSystem where
  files := [(["t.csv".toList], Text.encode hundredText)]
  directories := []
  here := []

/-- A text with the same lines in another order and with more lines behind them, the last one without an
end. -/
def turnedText : Text :=
  (hundredLines.reverse.map (· ++ ['\n'])).flatten ++ ";;;;;;".toList

/-- The line feed that comes first in what is added belongs to the end of the hundredth line. -/
theorem detect_hundred_lines :
    hundredFile.read "t.csv".toList = .ok (Text.encode hundredText) ∧
      Text.decodeLossy (Text.encode hundredText) = hundredText ∧
      detectInFile hundredFile "t.csv".toList = .ok '|' ∧
      Text.EndsLine hundredText ∧ Text.HasLines hundredText hundredLines ∧
      sampleLines ≤ hundredLines.length ∧ detect (hundredText ++ "\n,;;;;;".toList) = '|' ∧
      Text.IsEnd [] ['\n'] ∧ detect (Text.rewriteEnds ['\n'] hundredText) = '|' ∧
      Text.HasLines turnedText (hundredLines.reverse ++ [";;;;;;".toList]) ∧
      ((hundredLines.reverse ++ [";;;;;;".toList]).take sampleLines).Perm
        (hundredLines.take sampleLines) ∧
      detect turnedText = '|' := by
  have hdecoded : Text.decodeLossy (Text.encode hundredText) = hundredText := by decide +kernel
  have hlines : Text.HasLines hundredText hundredLines :=
    (Text.hasLines_iff _ _).mpr (by decide +kernel)
  have hturned : Text.HasLines turnedText (hundredLines.reverse ++ [";;;;;;".toList]) :=
    (Text.hasLines_iff _ _).mpr (by decide +kernel)
  have hlength : sampleLines ≤ hundredLines.length := Nat.le_of_eq rfl
  have hends : Text.EndsLine hundredText := by
    intro c hc
    have hlast : hundredText.getLast? = some '\r' := by decide +kernel
    exact .inr (Option.some.inj (hc.symm.trans hlast))
  have hperm : ((hundredLines.reverse ++ [";;;;;;".toList]).take sampleLines).Perm
      (hundredLines.take sampleLines) :=
    List.reverse_perm hundredLines
  obtain ⟨hfile, ls, hls, -, -, hbehind, hrewritten, hsame⟩ := detect_most_frequent hundredText
  obtain rfl : hundredLines = ls := (hls _).mp hlines
  have hbar : detect hundredText = '|' := by decide +kernel
  refine ⟨rfl, hdecoded, ?_, hends, hlines, hlength, ?_, .lineFeed, ?_, hturned, hperm, ?_⟩
  · rw [hfile hundredFile _ _ rfl hdecoded, hbar]
  · rw [hbehind hends hlength, hbar]
  · rw [hrewritten _ .lineFeed, hbar]
  · rw [hsame _ _ hturned hperm, hbar]

end Anonymization.Separator
