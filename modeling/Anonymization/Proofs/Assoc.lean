import Anonymization.Assoc
import Anonymization.Proofs.FirstOccurrence
/-!
# Maps and the pairs they are made of

* `get?_eq_none_iff`, `get?_of_mem` -- what is found under a key;
* `keys_ofList`, `nodup_keys_ofList` -- **the keys of a map stand as they first came, each once**;
* `get?_ofList_iff` -- **its value for a key is that of the last pair with this key**;
* `IsMapOf`, `isMapOf_ofList` -- both together say all about it;
* `get?_setIfNew`, `keys_setIfNew` -- where the first value of a key counts, a new one is looked up last;
* `get?_update_of_nodup` -- **a map over another**; `get?_mapValues` -- a map with other values.
-/

namespace Anonymization.Assoc

variable {κ α : Type} [DecidableEq κ]

/-! ## 1. Keys -/

omit [DecidableEq κ] in
/-- The keys, in order. -/
def keys (m : Assoc κ α) : List κ := m.map Prod.fst

omit [DecidableEq κ] in
theorem mem_keys {m : Assoc κ α} {x : κ} : x ∈ keys m ↔ ∃ v, (x, v) ∈ m := by
  simp [keys]

theorem get?_eq_none_iff (m : Assoc κ α) (x : κ) : get? m x = none ↔ x ∉ keys m := by
  induction m with
  | nil => simp [get?, keys]
  | cons p rest ih =>
    obtain ⟨k, a⟩ := p
    by_cases hk : k = x
    · simp [get?, keys, hk]
    · have hx : ¬x = k := fun h => hk h.symm
      simpa [get?, keys, hk, hx] using ih

theorem mem_of_get? {m : Assoc κ α} {x : κ} {v : α} (h : get? m x = some v) : (x, v) ∈ m := by
  induction m with
  | nil => cases h
  | cons p rest ih =>
    obtain ⟨k, a⟩ := p
    by_cases hk : k = x
    · simp only [get?, hk, if_true, Option.some.injEq] at h
      simp [hk, h]
    · simp only [get?, hk, if_false] at h
      exact List.mem_cons_of_mem _ (ih h)

/-- Where each key stands once, every pair is found. -/
theorem get?_of_mem {m : Assoc κ α} (hnd : (keys m).Nodup) {x : κ} {v : α} (h : (x, v) ∈ m) :
    get? m x = some v := by
  induction m with
  | nil => cases h
  | cons p rest ih =>
    obtain ⟨k, a⟩ := p
    obtain ⟨hnot, hnd'⟩ := List.nodup_cons.mp hnd
    rcases List.mem_cons.mp h with h | h
    · cases h
      simp [get?]
    · have hk : k ≠ x := by
        intro hkx
        exact hnot (mem_keys.mpr ⟨v, hkx ▸ h⟩)
      simp only [get?, hk, if_false]
      exact ih hnd' h

/-- Two maps with the same keys and related values. -/
theorem get?_of_forall₂ {β : Type} {R : α → β → Prop} {m : Assoc κ α} {m' : Assoc κ β}
    (h : List.Forall₂ (fun p q => q.1 = p.1 ∧ R p.2 q.2) m m') {x : κ} {v : α}
    (hv : get? m x = some v) : ∃ v', get? m' x = some v' ∧ R v v' := by
  induction h with
  | nil => cases hv
  | @cons p q _ _ hpq _ ih =>
    obtain ⟨k, a⟩ := p
    obtain ⟨k', b⟩ := q
    obtain ⟨rfl, hr⟩ := hpq
    by_cases hk : k' = x
    · simp only [get?, hk, if_true, Option.some.injEq] at hv ⊢
      exact ⟨b, rfl, hv ▸ hr⟩
    · simp only [get?, hk, if_false] at hv ⊢
      exact ih hv

/-- The map in which all keys of a list have one value. -/
theorem get?_map_pair (xs : List κ) (v : α) (x : κ) :
    get? (xs.map (·, v)) x = if x ∈ xs then some v else none := by
  induction xs with
  | nil => rfl
  | cons k xs ih =>
    by_cases hk : k = x
    · simp [get?, hk]
    · have hx : ¬x = k := fun h => hk h.symm
      simp [get?, hk, hx, ih]

/-! ## 2. The map of some pairs -/

/-- A key that is set stays where it is, and a new one comes last. -/
theorem keys_set (m : Assoc κ α) (x : κ) (v : α) :
    keys (set m x v) = if x ∈ keys m then keys m else keys m ++ [x] := by
  induction m with
  | nil => rfl
  | cons p rest ih =>
    obtain ⟨k, a⟩ := p
    by_cases hk : k = x
    · simp [set, keys, hk]
    · have hx : ¬x = k := fun h => hk h.symm
      have hset : keys (set ((k, a) :: rest) x v) = k :: keys (set rest x v) := by
        simp [set, keys, hk]
      have hmem : x ∈ keys ((k, a) :: rest) ↔ x ∈ keys rest := by
        simp [keys, hx]
      rw [hset, ih, if_congr hmem rfl rfl]
      split <;> rfl

/-- Where each key stands once, a key is set in its place, whatever the value. -/
theorem set_eq_append {m : Assoc κ α} (hnd : (keys m).Nodup) (x : κ) :
    ∃ before after, x ∉ keys after ∧ ∀ v, set m x v = before ++ (x, v) :: after := by
  induction m with
  | nil => exact ⟨[], [], List.not_mem_nil, fun _ => rfl⟩
  | cons p rest ih =>
    obtain ⟨k, a⟩ := p
    obtain ⟨hnot, hnd'⟩ := List.nodup_cons.mp hnd
    by_cases hk : k = x
    · subst hk
      exact ⟨[], rest, hnot, fun _ => by simp [set]⟩
    · obtain ⟨before, after, hafter, hset⟩ := ih hnd'
      refine ⟨(k, a) :: before, after, hafter, fun v => ?_⟩
      simp [set, hk, hset v]

/-- Of a map with two parts around a key only the value of this key depends on what stands there. -/
theorem get?_update_around (m before after : Assoc κ α) {x : κ} (hafter : x ∉ keys after) (v : α)
    (y : κ) :
    get? (update m (before ++ (x, v) :: after)) y =
      if y = x then some v else get? (update m (before ++ after)) y := by
  have hnone : get? after.reverse x = none := by
    rw [get?_eq_none_iff]
    simpa [keys] using hafter
  simp only [get?_update, List.reverse_append, List.reverse_cons, List.append_assoc, get?_append]
  by_cases hy : y = x
  · simp [hy, hnone, get?]
  · have hx : ¬x = y := fun h => hy h.symm
    simp [get?, hx, hy]

theorem ofList_concat (pairs : List (κ × α)) (x : κ) (v : α) :
    ofList (pairs ++ [(x, v)]) = set (ofList pairs) x v := by
  unfold ofList update
  rw [List.foldl_append]
  rfl

/-- **The keys of a map stand in the order in which they first came.** -/
theorem keys_ofList (pairs : List (κ × α)) : keys (ofList pairs) = (keys pairs).eraseDups := by
  induction pairs using List.reverseRecOn with
  | nil => rfl
  | append_singleton pairs p ih =>
    obtain ⟨x, v⟩ := p
    have hsnoc : keys (pairs ++ [(x, v)]) = keys pairs ++ [x] := by simp [keys]
    have hmem : x ∈ keys (ofList pairs) ↔ x ∈ keys pairs := by rw [ih, List.mem_eraseDups]
    rw [ofList_concat, keys_set, hsnoc, FirstOccurrence.eraseDups_concat, if_congr hmem rfl rfl, ih]

theorem mem_keys_ofList (pairs : List (κ × α)) (x : κ) : x ∈ keys (ofList pairs) ↔ x ∈ keys pairs := by
  rw [keys_ofList, List.mem_eraseDups]

/-- **Each key of a map stands once.** -/
theorem nodup_keys_ofList (pairs : List (κ × α)) : (keys (ofList pairs)).Nodup := by
  rw [keys_ofList]
  exact FirstOccurrence.nodup_eraseDups _

/-- The last of the pairs with this key has this value. -/
def IsLast (pairs : List (κ × α)) (x : κ) (v : α) : Prop :=
  ∃ before after, pairs = before ++ (x, v) :: after ∧ x ∉ keys after

/-- What is found under a key stands behind pairs with other keys. -/
theorem get?_eq_some_iff (m : Assoc κ α) (x : κ) (v : α) :
    get? m x = some v ↔ ∃ before after, m = before ++ (x, v) :: after ∧ x ∉ keys before := by
  constructor
  · intro h
    induction m with
    | nil => cases h
    | cons p rest ih =>
      obtain ⟨k, a⟩ := p
      by_cases hk : k = x
      · simp only [get?, hk, if_true, Option.some.injEq] at h
        exact ⟨[], rest, by rw [hk, h]; rfl, List.not_mem_nil⟩
      · simp only [get?, hk, if_false] at h
        obtain ⟨before, after, rfl, hnot⟩ := ih h
        have hx : ¬x = k := fun h => hk h.symm
        refine ⟨(k, a) :: before, after, rfl, fun hmem => hnot ?_⟩
        simpa [keys, hx] using hmem
  · intro h
    obtain ⟨before, after, hsplit, hnot⟩ := h
    rw [hsplit, get?_append, (get?_eq_none_iff before x).mpr hnot]
    simp [get?]

/-- **A map has for a key the value of the last pair with this key.** -/
theorem get?_ofList_iff (pairs : List (κ × α)) (x : κ) (v : α) :
    get? (ofList pairs) x = some v ↔ IsLast pairs x v := by
  have hkeys : ∀ m : List (κ × α), x ∈ keys m.reverse ↔ x ∈ keys m := by simp [keys]
  rw [get?_ofList, get?_eq_some_iff]
  constructor
  · intro ⟨before, after, hsplit, hnot⟩
    refine ⟨after.reverse, before.reverse, ?_, mt (hkeys before).mp hnot⟩
    rw [← List.reverse_reverse pairs, hsplit]
    simp
  · intro ⟨before, after, hsplit, hnot⟩
    refine ⟨after.reverse, before.reverse, ?_, mt (hkeys after).mp hnot⟩
    rw [hsplit]
    simp

/-- Where each key stands once, their order makes no difference. -/
theorem get?_ofList_iff_mem {pairs : List (κ × α)} (hnd : (keys pairs).Nodup) (x : κ) (v : α) :
    get? (ofList pairs) x = some v ↔ (x, v) ∈ pairs := by
  have hkeys : (keys pairs.reverse).Nodup := by
    simpa [keys] using hnd
  rw [get?_ofList, ← List.mem_reverse]
  exact ⟨mem_of_get?, get?_of_mem hkeys⟩

/-- The map is made of these pairs: its keys stand as they first came, each once, and a key has the
value of the last pair with it. -/
structure IsMapOf (m : Assoc κ α) (pairs : List (κ × α)) : Prop where
  order : keys m = (keys pairs).eraseDups
  last : ∀ x v, get? m x = some v ↔ IsLast pairs x v

theorem isMapOf_ofList (pairs : List (κ × α)) : IsMapOf (ofList pairs) pairs :=
  ⟨keys_ofList pairs, get?_ofList_iff pairs⟩

/-! ## 3. The first value of a key -/

/-- A value that is set only once is found where there was none before. -/
theorem get?_setIfNew (m : Assoc κ α) (x y : κ) (v : α) :
    get? (setIfNew m x v) y = (get? m y).or (if x = y then some v else none) := by
  unfold setIfNew has
  by_cases hx : (get? m x).isSome = true
  · obtain ⟨a, ha⟩ := Option.isSome_iff_exists.mp hx
    rw [if_pos hx]
    by_cases hy : x = y
    · rw [← hy, ha]
      rfl
    · rw [if_neg hy, Option.or_none]
  · rw [if_neg hx, get?_append]
    rfl

theorem keys_setIfNew (m : Assoc κ α) (x : κ) (v : α) :
    keys (setIfNew m x v) = if x ∈ keys m then keys m else keys m ++ [x] := by
  have hmem : has m x = true ↔ x ∈ keys m := by
    rw [has, Option.isSome_iff_ne_none, ne_eq, get?_eq_none_iff, not_not]
  unfold setIfNew
  rw [apply_ite keys, if_congr hmem rfl rfl]
  simp [keys]

/-- A key that is added where it is missing stands once. -/
theorem nodup_insert {ks : List κ} (h : ks.Nodup) (x : κ) :
    (if x ∈ ks then ks else ks ++ [x]).Nodup := by
  split
  · exact h
  · next hx => exact List.nodup_append.mpr ⟨h, List.nodup_singleton _, by grind⟩

theorem nodup_keys_setIfNew {m : Assoc κ α} (hm : (keys m).Nodup) (x : κ) (v : α) :
    (keys (setIfNew m x v)).Nodup := by
  rw [keys_setIfNew]
  exact nodup_insert hm x

theorem nodup_keys_set {m : Assoc κ α} (hm : (keys m).Nodup) (x : κ) (v : α) :
    (keys (set m x v)).Nodup := by
  rw [keys_set]
  exact nodup_insert hm x

/-! ## 4. One map over another -/

/-- Where each key stands once, a map is read the same from its end. -/
theorem get?_reverse {m : Assoc κ α} (hm : (keys m).Nodup) (x : κ) : get? m.reverse x = get? m x := by
  rw [← get?_ofList]
  refine Option.ext fun v => ?_
  rw [get?_ofList_iff_mem hm]
  exact ⟨get?_of_mem hm, mem_of_get?⟩

/-- **A map over another**: where the upper one has no value, that of the lower one counts. -/
theorem get?_update_of_nodup (m : Assoc κ α) {new : Assoc κ α} (hnew : (keys new).Nodup) (x : κ) :
    get? (update m new) x = (get? new x).or (get? m x) := by
  rw [get?_update, get?_reverse hnew]

theorem update_append (m new more : Assoc κ α) : update m (new ++ more) = update (update m new) more :=
  List.foldl_append

/-- Of the pairs with some of the keys those with one of these are all there. -/
theorem get?_filter (m : Assoc κ α) (f : κ → Bool) {x : κ} (h : f x = true) :
    get? (m.filter fun p => f p.1) x = get? m x := by
  induction m with
  | nil => rfl
  | cons p rest ih =>
    obtain ⟨k, a⟩ := p
    by_cases hk : k = x
    · simp [get?, hk, h]
    · cases hf : f k <;> simp [get?, hk, hf, ih]

/-! ## 5. Other values, or none, for the same keys -/

/-- The map with what is made of each value, where anything is. -/
def mapValues {β : Type} (f : α → Option β) (m : Assoc κ α) : Assoc κ β :=
  m.filterMap fun p => (f p.2).map (p.1, ·)

omit [DecidableEq κ] in
theorem keys_mapValues_sublist {β : Type} (f : α → Option β) (m : Assoc κ α) :
    (keys (mapValues f m)).Sublist (keys m) := by
  induction m with
  | nil => exact .slnil
  | cons p rest ih =>
    cases hf : f p.2 with
    | none => simpa [mapValues, keys, hf] using ih.cons p.1
    | some b => simpa [mapValues, keys, hf] using ih

/-- Where each key stands once, a key has what is made of its value. -/
theorem get?_mapValues {β : Type} (f : α → Option β) {m : Assoc κ α} (hm : (keys m).Nodup) (x : κ) :
    get? (mapValues f m) x = (get? m x).bind f := by
  induction m with
  | nil => rfl
  | cons p rest ih =>
    obtain ⟨k, a⟩ := p
    obtain ⟨hnot, hrest⟩ := List.nodup_cons.mp hm
    have hothers : get? (mapValues f rest) x = (get? rest x).bind f := ih hrest
    have hcons : mapValues f ((k, a) :: rest) = ((f a).map (k, ·)).toList ++ mapValues f rest := by
      unfold mapValues
      rw [List.filterMap_cons]
      cases f a <;> rfl
    rw [hcons, get?_append, hothers]
    by_cases hk : k = x
    · -- the key does not come again, so it has nothing where nothing is made of its value
      have hnone : get? rest x = none := (get?_eq_none_iff rest x).mpr (hk ▸ hnot)
      rw [hnone]
      cases hf : f a <;> simp [get?, hk, hf]
    · cases f a <;> simp [get?, hk]

end Anonymization.Assoc
