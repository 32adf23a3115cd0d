import Mathlib.Data.List.AList

/-!
# What a map holds after a change
-/

namespace AList

variable {α β : Type*} [DecidableEq α] {m : AList fun _ : α => β} {k j : α} {v w : β}

theorem lookup_insert_iff :
    (m.insert k v).lookup j = some w ↔ j = k ∧ v = w ∨ j ≠ k ∧ m.lookup j = some w := by
  by_cases h : j = k
  · subst h
    simp
  · simp [h]

theorem lookup_erase_iff : (m.erase k).lookup j = some w ↔ j ≠ k ∧ m.lookup j = some w := by
  by_cases h : j = k
  · subst h
    simp
  · simp [h]

end AList
