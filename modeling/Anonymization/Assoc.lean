/-!
# Maps that keep their order

A list of pairs, each key once, in the order in which the keys first came. Setting a key that is
there changes its value and not its place.

* `get?` -- the value of a key;
* `set`, `setIfNew` -- a pair more, the later or the earlier value counting;
* `ofList` -- the map of some pairs, the last of each key counting.
-/

namespace Anonymization

/-- A map from keys to values, as its list of pairs. -/
abbrev Assoc (κ α : Type) := List (κ × α)

namespace Assoc

variable {κ α : Type} [DecidableEq κ]

/-- The value of a key. -/
def get? : Assoc κ α → κ → Option α
  | [], _ => none
  | (k, a) :: rest, x => if k = x then some a else get? rest x

/-- The key is there. -/
def has (m : Assoc κ α) (x : κ) : Bool :=
  (get? m x).isSome

/-- The map with a value for the key. -/
def set : Assoc κ α → κ → α → Assoc κ α
  | [], x, v => [(x, v)]
  | (k, a) :: rest, x, v => if k = x then (k, v) :: rest else (k, a) :: set rest x v

/-- The map with a value for the key, unless it has one. -/
def setIfNew (m : Assoc κ α) (x : κ) (v : α) : Assoc κ α :=
  if has m x then m else m ++ [(x, v)]

/-- The map with the pairs of another, which count more. -/
def update (m new : Assoc κ α) : Assoc κ α :=
  new.foldl (fun m (k, a) => set m k a) m

/-- The map of some pairs. -/
def ofList (pairs : List (κ × α)) : Assoc κ α :=
  update [] pairs

/-- Of two lists one behind the other the first counts more. -/
theorem get?_append (m new : Assoc κ α) (x : κ) :
    get? (m ++ new) x = (get? m x).or (get? new x) := by
  induction m with
  | nil => rfl
  | cons p rest ih =>
    by_cases e : p.1 = x <;> simp [get?, e, ih]

/-- What was set is found, and nothing else changes. -/
theorem get?_set (m : Assoc κ α) (x y : κ) (v : α) :
    get? (set m x v) y = if x = y then some v else get? m y := by
  induction m with
  | nil => simp [set, get?]
  | cons p rest ih => grind [set, get?]

/-- The later pairs count more. -/
theorem get?_update (m new : Assoc κ α) (x : κ) :
    get? (update m new) x = (get? new.reverse x).or (get? m x) := by
  induction new generalizing m with
  | nil => rfl
  | cons p rest ih =>
    obtain ⟨k, a⟩ := p
    have h : update m ((k, a) :: rest) = update (set m k a) rest := rfl
    rw [h, ih, get?_set, List.reverse_cons, get?_append]
    cases get? rest.reverse x <;> by_cases e : k = x <;> simp [get?, e]

/-- Of the pairs with one key the last counts. -/
theorem get?_ofList (pairs : List (κ × α)) (x : κ) :
    get? (ofList pairs) x = get? pairs.reverse x := by
  rw [ofList, get?_update]
  simp [get?]

end Assoc

end Anonymization
