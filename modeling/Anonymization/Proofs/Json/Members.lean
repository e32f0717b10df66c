import Anonymization.Json.Reader
import Anonymization.Proofs.Assoc
/-!
# The members of an object that was read

* `setMember_eq_set` -- a member is set as in any map;
* `nodup_keys_of_readMembers` -- **what one member adds, and all members of an object**;
* `nodup_keys_of_read` -- so in an object that was read each name stands once.
-/

namespace Anonymization.Json

/-- A member is set like a key of a map. -/
theorem setMember_eq_set (name : Text) (value : Json) (members : List (Text × Json)) :
    setMember name value members = Assoc.set members name value := by
  induction members with
  | nil => rfl
  | cons m rest ih =>
    obtain ⟨k, v⟩ := m
    by_cases hk : k = name
    · simp [setMember, Assoc.set, hk]
    · simp [setMember, Assoc.set, hk, ih]

theorem nodup_keys_setMember {members : List (Text × Json)} (h : (Assoc.keys members).Nodup)
    (name : Text) (value : Json) : (Assoc.keys (setMember name value members)).Nodup := by
  rw [setMember_eq_set]
  exact Assoc.nodup_keys_set h name value

/-- **The members that are read are an object in which each name stands once**, if it does among those that
are read already. -/
theorem nodup_keys_of_readMembers {fuel depth : Nat} {done : List (Text × Json)} {t rest : Text} {v : Json}
    (hdone : (Assoc.keys done).Nodup) (h : readMembers fuel depth done t = .ok (v, rest)) :
    ∃ members, v = .object members ∧ (Assoc.keys members).Nodup := by
  induction fuel generalizing done t with
  | zero =>
    rw [readMembers] at h
    cases h
  | succ fuel ih =>
    unfold readMembers at h
    split at h
    · split at h
      · cases h
      · next name _ _ =>
        split at h
        · split at h
          · cases h
          · next value _ _ =>
            have hmore := nodup_keys_setMember hdone name value
            split at h
            · exact ih hmore h
            · cases h
              exact ⟨_, rfl, hmore⟩
            · cases h
        · cases h
    · cases h

/-- What is read as a list is one. -/
theorem list_of_readItems {fuel depth : Nat} {done : List Json} {t rest : Text} {v : Json}
    (h : readItems fuel depth done t = .ok (v, rest)) : ∃ items, v = .list items := by
  induction fuel generalizing done t with
  | zero =>
    rw [readItems] at h
    cases h
  | succ fuel ih =>
    unfold readItems at h
    split at h
    · cases h
    · split at h
      · exact ih h
      · cases h
        exact ⟨_, rfl⟩
      · cases h

/-- No word is an object. -/
theorem ne_object_of_readWord? {t rest : Text} {v : Json} (h : readWord? t = some (v, rest))
    (members : List (Text × Json)) : v ≠ .object members := by
  obtain ⟨w, hw, heq⟩ := Option.map_eq_some_iff.mp h
  cases heq
  have hmem := List.mem_of_find?_eq_some hw
  simp only [words, List.mem_cons, List.not_mem_nil, or_false] at hmem
  rcases hmem with rfl | rfl | rfl | rfl | rfl | rfl <;> exact fun h => by cases h

/-- No number is an object. -/
theorem ne_object_of_readNumber {t rest : Text} {v : Json} (h : readNumber t = .ok (v, rest))
    (members : List (Text × Json)) : v ≠ .object members := by
  -- where it does not fail it gives a whole number or a binary64 one
  unfold readNumber at h
  grind

/-- In an object that is read as a value each name stands once. -/
theorem nodup_keys_of_readValue {fuel depth : Nat} {t rest : Text} {members : List (Text × Json)}
    (h : readValue fuel depth t = .ok (.object members, rest)) : (Assoc.keys members).Nodup := by
  cases fuel with
  | zero =>
    rw [readValue] at h
    cases h
  | succ fuel =>
    unfold readValue at h
    split at h
    · split at h <;> cases h
    · split at h
      · cases h
      · split at h
        · cases h
        · obtain ⟨items, hitems⟩ := list_of_readItems h
          cases hitems
    · split at h
      · cases h
      · split at h
        · cases h
          exact List.nodup_nil
        · have hstart : (Assoc.keys ([] : List (Text × Json))).Nodup := List.nodup_nil
          obtain ⟨members', hmembers, hnodup⟩ := nodup_keys_of_readMembers hstart h
          cases hmembers
          exact hnodup
    · split at h
      · next hword =>
        cases h
        exact absurd rfl (ne_object_of_readWord? hword members)
      · exact absurd rfl (ne_object_of_readNumber h members)

/-- **In an object that was read each name stands once.** -/
theorem nodup_keys_of_read {t : Text} {members : List (Text × Json)} (h : read t = .ok (.object members)) :
    (Assoc.keys members).Nodup := by
  unfold read at h
  split at h
  · cases h
  · next hvalue =>
    split at h
    · cases h
      exact nodup_keys_of_readValue hvalue
    · cases h

end Anonymization.Json
