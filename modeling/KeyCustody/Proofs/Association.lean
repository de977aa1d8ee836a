import Mathlib.Data.List.Basic

/-!
# Looking things up by key

Where things are kept in a list by key, putting one under a key either takes the place of the one
that is there or adds it at the end. The functions that do so differ in what they keep, and not in
what is found afterwards.

## Main results

* `Association.lookup_cons` — looking up in a list with one more entry
* `Association.lookup_set`, `Association.nodup_set` — looking up after putting something in, and the
  keys after it
-/

namespace KeyCustody.Association

variable {α β : Type} [DecidableEq α] {key other : α} {b : β} {l : List (α × β)}

section Lookup

variable [BEq α] [LawfulBEq α]

theorem lookup_cons :
    List.lookup other ((key, b) :: l) = if other = key then some b else l.lookup other := by
  by_cases h : other = key
  · rw [if_pos h, h, List.lookup_cons_self]
  · rw [if_neg h, List.lookup_cons, beq_eq_false_iff_ne.mpr h]

end Lookup

/-! ## Putting something in -/

variable (set : List (α × β) → List (α × β)) (hnil : set [] = [(key, b)])
  (hcons : ∀ k c rest, set ((k, c) :: rest) =
    if k = key then (key, b) :: rest else (k, c) :: set rest)

include hnil hcons

/-- Only what is found under the key is another thing. -/
theorem lookup_set [BEq α] [LawfulBEq α] (l : List (α × β)) (other : α) :
    (set l).lookup other = if other = key then some b else l.lookup other := by
  induction l with
  | nil => rw [hnil, lookup_cons]
  | cons entry rest ih =>
    obtain ⟨k, c⟩ := entry
    rw [hcons]
    split_ifs with hk h h
    · rw [lookup_cons, if_pos h]
    · rw [lookup_cons, if_neg h, lookup_cons, if_neg (hk ▸ h)]
    · rw [lookup_cons, if_neg fun hother => hk (hother.symm.trans h), ih, if_pos h]
    · rw [lookup_cons, lookup_cons, ih, if_neg h]

theorem mem_keys_set (l : List (α × β)) :
    other ∈ (set l).map Prod.fst ↔ other = key ∨ other ∈ l.map Prod.fst := by
  induction l with
  | nil => simp [hnil]
  | cons entry rest ih =>
    obtain ⟨k, c⟩ := entry
    rw [hcons]
    split_ifs with hk
    · simp [hk]
    · rw [List.map_cons, List.mem_cons, ih, List.map_cons, List.mem_cons]
      exact or_left_comm

/-- No key stands twice if none did before. -/
theorem nodup_set (h : (l.map Prod.fst).Nodup) : ((set l).map Prod.fst).Nodup := by
  induction l with
  | nil => simp [hnil]
  | cons entry rest ih =>
    obtain ⟨k, c⟩ := entry
    obtain ⟨hk, hrest⟩ := List.nodup_cons.mp h
    rw [hcons]
    split_ifs with heq
    · exact heq ▸ h
    · refine List.nodup_cons.mpr ⟨fun hmem => ?_, ih hrest⟩
      rcases (mem_keys_set set hnil hcons rest).mp hmem with rfl | hmem
      · exact heq rfl
      · exact hk hmem

end KeyCustody.Association
