import Mathlib.Data.String.Basic
import KeyCustody.Octets

/-!
# Texts and their UTF-8 octets

A text and its octets determine each other, octets below 128 are always those of a text, and texts
are in the order of their octets: the lead octet of a character tells how many octets follow it, and
a character with more of them has a higher one.

## Main results

* `Octets.toText?_eq_some_iff` — reading octets as a text undoes writing it
* `Octets.exists_ofText_of_ascii` — ASCII octets are a text
* `Octets.ofText_lt_ofText` — writing keeps the order
-/

namespace KeyCustody.Octets

variable {b : Octets} {s t : String}

theorem toText?_eq_some_iff : toText? b = some s ↔ ofText s = b := by
  rw [toText?, ofText, String.fromUTF8?]
  constructor
  · intro h
    split_ifs at h with hvalid
    obtain rfl := Option.some_inj.mp h
    rfl
  · rintro rfl
    rw [dif_pos s.isValidUTF8]
    rfl

theorem ofText_eq_flatMap (s : String) : ofText s = s.toList.flatMap String.utf8EncodeChar := by
  conv_lhs => rw [ofText, ← String.ofList_toList (s := s), String.toByteArray_ofList]
  rw [List.utf8Encode, List.data_toByteArray]

theorem ofText_append (s t : String) : ofText (s ++ t) = ofText s ++ ofText t := by
  rw [ofText_eq_flatMap, ofText_eq_flatMap, ofText_eq_flatMap, String.toList_append,
    List.flatMap_append]

/-! ## ASCII -/

theorem utf8EncodeChar_ofNat (x : UInt8) (h : x < 128) :
    String.utf8EncodeChar (Char.ofNat x.toNat) = [x] := by
  have hx : x.toNat < 128 := UInt8.lt_iff_toNat_lt.mp h
  have hcode : (Char.ofNat x.toNat).val.toNat = x.toNat := by
    rw [Char.ofNat, dif_pos (Or.inl (by omega))]
    rfl
  have hsize : (Char.ofNat x.toNat).utf8Size = 1 := by
    rw [Char.utf8Size_eq_one_iff, UInt32.le_iff_toNat_le, hcode]
    exact Nat.le_of_lt_succ hx
  rw [String.utf8EncodeChar_eq_singleton hsize, List.singleton_inj, ← UInt8.toNat_inj,
    UInt32.toNat_toUInt8, hcode]
  exact Nat.mod_eq_of_lt (by omega)

theorem exists_ofText_of_ascii (h : ∀ x ∈ b, x < 128) : ∃ s, ofText s = b := by
  refine ⟨String.ofList (b.map fun x => Char.ofNat x.toNat), ?_⟩
  rw [ofText_eq_flatMap, String.toList_ofList]
  induction b with
  | nil => rfl
  | cons x b ih =>
    rw [List.forall_mem_cons] at h
    rw [List.map_cons, List.flatMap_cons, utf8EncodeChar_ofNat x h.1, ih h.2, List.singleton_append]

/-! ## Order -/

/-- The octets of a character that comes earlier are lower, whatever follows. -/
theorem utf8EncodeChar_append_lt {c d : Char} (h : c < d) (u v : Octets) :
    String.utf8EncodeChar c ++ u < String.utf8EncodeChar d ++ v := by
  have hlt : c.val.toNat < d.val.toNat := h
  have hd : d.val.toNat < 0x110000 := by
    rcases d.valid with h | h
    · exact Nat.lt_trans h (by decide)
    · exact h.2
  unfold String.utf8EncodeChar
  generalize c.val.toNat = m at hlt
  generalize d.val.toNat = n at hlt hd
  dsimp only
  -- Either the second has more octets, and a higher lead, or the groups of six bits decide.
  split_ifs <;>
    simp (disch := omega) only [List.cons_append, List.nil_append, List.cons_lt_cons_iff,
      UInt8.lt_iff_toNat_lt, ← UInt8.toNat_inj, UInt8.toNat_ofNat', Nat.reducePow,
      Nat.mod_eq_of_lt] <;>
    omega

theorem nil_lt_utf8EncodeChar_append (c : Char) (u : Octets) :
    [] < String.utf8EncodeChar c ++ u := by
  cases hc : String.utf8EncodeChar c with
  | nil =>
    have hlength := congrArg List.length hc
    rw [String.length_utf8EncodeChar] at hlength
    exact absurd hlength c.utf8Size_pos.ne'
  | cons x rest => exact List.nil_lt_cons _ _

theorem flatMap_utf8EncodeChar_lt {l m : List Char} (h : l < m) :
    l.flatMap String.utf8EncodeChar < m.flatMap String.utf8EncodeChar := by
  induction l generalizing m with
  | nil =>
    cases m with
    | nil => cases h
    | cons d m =>
      rw [List.flatMap_cons]
      exact nil_lt_utf8EncodeChar_append d _
  | cons c l ih =>
    cases m with
    | nil => cases h
    | cons d m =>
      rw [List.flatMap_cons, List.flatMap_cons]
      rcases List.cons_lt_cons_iff.mp h with hlt | ⟨rfl, hrest⟩
      · exact utf8EncodeChar_append_lt hlt _ _
      · exact List.append_left_lt (ih hrest)

/-- Texts are in the order of their octets. -/
theorem ofText_lt_ofText (h : s < t) : ofText s < ofText t := by
  rw [ofText_eq_flatMap, ofText_eq_flatMap]
  exact flatMap_utf8EncodeChar_lt (String.lt_iff_toList_lt.mp h)

end KeyCustody.Octets
