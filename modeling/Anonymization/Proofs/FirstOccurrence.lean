import Mathlib
/-!
# Lists of which only first occurrences are kept

Each result is read off what one more element at the end does.

* `eraseDups_concat` -- one element more is kept unless it was there;
* `eraseDups_append_of_mem`, `eraseDups_eraseDups_append` -- what does not matter in front of others;
* `find?_eraseDups`, `filter_eraseDups` -- searching and selecting do not depend on repetitions;
* `eraseDups_flatMap_blocks` -- blocks of repetitions come down to one element each.
-/

namespace Anonymization.FirstOccurrence

variable {α : Type} [BEq α] [LawfulBEq α]

/-- **One element more is kept unless it was there.** -/
theorem eraseDups_concat (l : List α) (x : α) :
    (l ++ [x]).eraseDups = if x ∈ l then l.eraseDups else l.eraseDups ++ [x] := by
  rw [List.eraseDups_append]
  by_cases hx : x ∈ l <;> simp [List.removeAll, hx, List.eraseDups_cons]

theorem nodup_eraseDups (l : List α) : l.eraseDups.Nodup := by
  induction l using List.reverseRecOn with
  | nil => exact List.nodup_nil
  | append_singleton l x ih =>
    rw [eraseDups_concat]
    split
    · exact ih
    · next hx =>
      have hnew : x ∉ l.eraseDups := mt List.mem_eraseDups.mp hx
      exact List.nodup_append.mpr ⟨ih, List.nodup_singleton x, by grind⟩

theorem eraseDups_of_nodup {l : List α} (h : l.Nodup) : l.eraseDups = l := by
  induction l using List.reverseRecOn with
  | nil => rfl
  | append_singleton l x ih =>
    obtain ⟨hl, -, hne⟩ := List.nodup_append.mp h
    have hx : x ∉ l := fun hx => hne x hx x List.mem_cons_self rfl
    rw [eraseDups_concat, if_neg hx, ih hl]

/-- What was there before does not matter. -/
theorem eraseDups_append_of_mem {l : List α} {x : α} (hx : x ∈ l) (r : List α) :
    (l ++ x :: r).eraseDups = (l ++ r).eraseDups := by
  have hdrop : (x :: r).removeAll l = r.removeAll l := by simp [List.removeAll, hx]
  rw [List.eraseDups_append, List.eraseDups_append, hdrop]

theorem eraseDups_of_forall_eq {x : α} {l : List α} (h : ∀ y ∈ l, y = x) : (x :: l).eraseDups = [x] := by
  have hnone : l.filter (fun y => !y == x) = [] := by
    refine List.filter_eq_nil_iff.mpr fun y hy => ?_
    simp [h y hy]
  rw [List.eraseDups_cons, hnone, List.eraseDups_nil]

/-- Repetitions in front of others do not matter. -/
theorem eraseDups_eraseDups_append (l r : List α) :
    (l.eraseDups ++ r).eraseDups = (l ++ r).eraseDups := by
  have hdrop : r.removeAll l.eraseDups = r.removeAll l :=
    List.filter_congr fun x _ => by simp [List.mem_eraseDups]
  rw [List.eraseDups_append, List.eraseDups_append, hdrop, eraseDups_of_nodup (nodup_eraseDups l)]

/-- **The first element with a property is a first occurrence.** -/
theorem find?_eraseDups (p : α → Bool) (l : List α) : l.eraseDups.find? p = l.find? p := by
  induction l using List.reverseRecOn with
  | nil => rfl
  | append_singleton l x ih =>
    rw [eraseDups_concat, List.find?_append, ← ih]
    split
    · next hx =>
      cases hp : l.eraseDups.find? p with
      | some y => rfl
      | none =>
        have hno := List.find?_eq_none.mp hp x (List.mem_eraseDups.mpr hx)
        simp [hno]
    · exact List.find?_append

/-- **The first occurrences among selected elements are the selected first occurrences.** -/
theorem filter_eraseDups (p : α → Bool) (l : List α) :
    l.eraseDups.filter p = (l.filter p).eraseDups := by
  induction l using List.reverseRecOn with
  | nil => rfl
  | append_singleton l x ih =>
    rw [eraseDups_concat, List.filter_append, apply_ite (List.filter p), List.filter_append, ih]
    by_cases hp : p x = true
    · rw [List.filter_singleton, hp, cond_true, eraseDups_concat]
      simp [hp]
    · simp [hp]

/-- **Blocks of repetitions**: where the elements made from one element are all the same one, and there is
one, each block comes down to it. -/
theorem eraseDups_flatMap_blocks {β : Type} {k : β → α} {g : β → List α} {l : List β}
    (hne : ∀ c ∈ l, g c ≠ []) (hblock : ∀ c ∈ l, ∀ y ∈ g c, y = k c) (hnodup : (l.map k).Nodup) :
    (l.flatMap g).eraseDups = l.map k := by
  induction l with
  | nil => rfl
  | cons c l ih =>
    rw [List.map_cons, List.nodup_cons] at hnodup
    rw [List.forall_mem_cons] at hne hblock
    obtain ⟨y, rest, hg⟩ := List.exists_cons_of_ne_nil hne.1
    rw [hg, List.forall_mem_cons] at hblock
    obtain ⟨⟨rfl, hrest⟩, hblocks⟩ := hblock
    have hsame : rest.filter (fun z => !z == k c) = [] := by
      refine List.filter_eq_nil_iff.mpr fun z hz => ?_
      simp [hrest z hz]
    have hother : (l.flatMap g).filter (fun z => !z == k c) = l.flatMap g := by
      refine List.filter_eq_self.mpr fun z hz => ?_
      obtain ⟨b, hb, hzb⟩ := List.mem_flatMap.mp hz
      have hz' : z ∈ l.map k := hblocks b hb z hzb ▸ List.mem_map_of_mem hb
      simpa using fun he : z = k c => hnodup.1 (he ▸ hz')
    rw [List.flatMap_cons, hg, List.cons_append, List.eraseDups_cons, List.filter_append, hsame, hother,
      List.nil_append, ih hne.2 hblocks hnodup.2, List.map_cons]

end Anonymization.FirstOccurrence
