import KeyCustody.Octets

/-!
# Elements of the distinguished encoding

An element is a tag, a length and a content. Each has exactly one written form: lengths are
definite and take as few octets as they can, so that reading accepts exactly what writing
produces.

## Main definitions

* `Der.Element`, `Der.Element.encode`, `Der.take?` — an element, its written form, and reading
  one off the front of an octet string
* `Der.content?`, `Der.sole?` — the content of the next, and of the only, element of a given tag
* `Der.takeContext?` — reading on to a context-specific element of a given number

## Main results

* `Der.length_lt_of_take?` — reading an element leaves a shorter rest
-/

namespace KeyCustody.Der

/-- A tag and the octets under it. -/
structure Element where
  tag : UInt8
  content : Octets
deriving DecidableEq, Repr

/-- The written form of a length: one octet below 128, else the count of the digits that
follow and the digits. -/
def encodeLength (n : Nat) : Octets :=
  if n < 128 then [UInt8.ofNat n]
  else
    let digits := Octets.ofNat n
    UInt8.ofNat (128 + digits.length) :: digits

/-- The written form of an element. -/
def Element.encode (e : Element) : Octets :=
  e.tag :: (encodeLength e.content.length ++ e.content)

/-- Reads a length off the front; indefinite lengths and needless digits are refused. -/
def takeLength? : Octets → Option (Nat × Octets)
  | [] => none
  | x :: rest =>
    if x < 128 then some (x.toNat, rest)
    else
      let count := x.toNat - 128
      let digits := rest.take count
      if digits.length = count ∧ digits.head? ≠ some 0 ∧ 128 ≤ Octets.toNat digits then
        some (Octets.toNat digits, rest.drop count)
      else none

/-- The tags of the universal class that are in use here: the simple types, the restricted
strings and times, and the constructed sequence and set. -/
def universalTags : List UInt8 :=
  [0x01, 0x02, 0x03, 0x04, 0x05, 0x06, 0x09, 0x0a, 0x0c, 0x12, 0x13, 0x14, 0x15, 0x16, 0x17,
    0x18, 0x1a, 0x1e, 0x30, 0x31]

/-- A tag in use: a universal one, or one of another class with a number below 31. -/
def isTag (t : UInt8) : Bool :=
  if t < 0x40 then universalTags.contains t else t &&& 0x1f != 0x1f

/-- Reads one element off the front. -/
def take? : Octets → Option (Element × Octets)
  | [] => none
  | t :: rest =>
    if isTag t then
      match takeLength? rest with
      | none => none
      | some (n, rest) =>
        if n ≤ rest.length then some (⟨t, rest.take n⟩, rest.drop n) else none
    else none

theorem length_lt_of_takeLength? {b rest : Octets} {n : Nat} (h : takeLength? b = some (n, rest)) :
    rest.length < b.length := by
  cases b with
  | nil => simp [takeLength?] at h
  | cons x b =>
    simp only [takeLength?] at h
    split at h
    · simp_all
    · split at h
      · simp only [Option.some.injEq, Prod.mk.injEq] at h
        rw [← h.2, List.length_drop, List.length_cons]
        omega
      · simp at h

theorem length_lt_of_take? {b rest : Octets} {e : Element} (h : take? b = some (e, rest)) :
    rest.length < b.length := by
  cases b with
  | nil => simp [take?] at h
  | cons t b =>
    simp only [take?] at h
    split at h
    · split at h
      · simp at h
      · next n r hr =>
        split at h
        · simp only [Option.some.injEq, Prod.mk.injEq] at h
          have := length_lt_of_takeLength? hr
          simp [← h.2, List.length_drop]
          omega
        · simp at h
    · simp at h

/-- Reads the content of an element of the given tag off the front. -/
def content? (tag : UInt8) (b : Octets) : Option (Octets × Octets) :=
  match take? b with
  | some (e, rest) => if e.tag = tag then some (e.content, rest) else none
  | none => none

/-- The content of an element of the given tag, when the octets are that element alone. -/
def sole? (tag : UInt8) (b : Octets) : Option Octets :=
  match content? tag b with
  | some (content, []) => some content
  | _ => none

/-- Whether the octets are one element and nothing else. -/
def isElement (b : Octets) : Bool :=
  match take? b with
  | some (_, []) => true
  | _ => false

/-! ## Context-specific elements -/

/-- Whether a tag belongs to the context-specific class. -/
def isContext (t : UInt8) : Bool := t &&& 0xc0 == 0x80

/-- The number of a tag. -/
def tagNumber (t : UInt8) : UInt8 := t &&& 0x1f

/-- Reads on to the context-specific element of the given number. Elements of smaller numbers
before it are passed over; at any other element, or at the end, there is none. -/
def takeContext? (number : UInt8) (b : Octets) : Option (Option Element × Octets) :=
  match b.head? with
  | none => some (none, [])
  | some t =>
    if isTag t then
      if isContext t ∧ tagNumber t ≤ number then
        match _h : take? b with
        | none => none
        | some (e, rest) =>
          if tagNumber t = number then some (some e, rest) else takeContext? number rest
      else some (none, b)
    else none
termination_by b.length
decreasing_by exact length_lt_of_take? _h

/-- Whether the octets are constructed context-specific elements, each around one element. -/
def areExtensions (b : Octets) : Bool :=
  if b = [] then true
  else
    match _h : take? b with
    | none => false
    | some (e, rest) =>
      isContext e.tag && e.tag &&& 0x20 != 0 && isElement e.content && areExtensions rest
termination_by b.length
decreasing_by exact length_lt_of_take? _h

/-! ## Tags and simple contents -/

/-- The tag of an integer. -/
def integerTag : UInt8 := 0x02

/-- The tag of a bit string. -/
def bitStringTag : UInt8 := 0x03

/-- The tag of an octet string. -/
def octetStringTag : UInt8 := 0x04

/-- The tag of an object identifier. -/
def identifierTag : UInt8 := 0x06

/-- The tag of a sequence. -/
def sequenceTag : UInt8 := 0x30

/-- The empty element that stands for the absence of parameters. -/
def null : Element := ⟨0x05, []⟩

/-- The content of a natural number: its shortest form, with a zero octet in front where the
first bit would read as a sign. -/
def naturalContent (n : Nat) : Octets :=
  match Octets.ofNat n with
  | [] => [0]
  | x :: rest => if x < 128 then x :: rest else 0 :: x :: rest

/-- The natural number of an integer content; negative numbers and needless zeros are refused. -/
def natural? : Octets → Option Nat
  | [] => none
  | [x] => if x < 128 then some x.toNat else none
  | x :: y :: rest =>
    if x < 128 ∧ (x ≠ 0 ∨ 128 ≤ y) then some (Octets.toNat (x :: y :: rest)) else none

/-- The written form of a natural number. -/
def encodeNatural (n : Nat) : Octets := Element.encode ⟨integerTag, naturalContent n⟩

/-- Reads a natural number off the front. -/
def takeNatural? (b : Octets) : Option (Nat × Octets) := do
  let (content, rest) ← content? integerTag b
  let n ← natural? content
  some (n, rest)

/-- The written form of a sequence of given content. -/
def encodeSequence (content : Octets) : Octets := Element.encode ⟨sequenceTag, content⟩

/-- The octets of a bit string content that leaves no bits unused. -/
def wholeBits? : Octets → Option Octets
  | 0 :: b => some b
  | _ => none

end KeyCustody.Der
