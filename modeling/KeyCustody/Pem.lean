import KeyCustody.Text.Base64
import KeyCustody.Der.Element

/-!
# Armored documents

An armored document is an encoded element in base64, between two boundary lines that carry the
same label. The reader is strict about the frame: lines of 64 characters without blanks, and
nothing after the closing boundary but one end of line. Only in front of the opening boundary
may other text stand, on lines of its own.

An end of line is a line feed, a carriage return, or both in the order CR LF.

## Main definitions

* `Pem.Document` — a label and the element it stands over
* `Pem.decode?`, `Pem.encode` — reading strictly, and the canonical written form
-/

namespace KeyCustody.Pem

/-- A label and the octets of the element under it. -/
structure Document where
  label : Octets
  body : Octets
deriving DecidableEq, Repr

/-! ## Ends of lines -/

/-- The line feed. -/
def lf : UInt8 := 10

/-- The carriage return. -/
def cr : UInt8 := 13

/-- Strips an end of line off the front. -/
def afterLineEnd? : Octets → Option Octets
  | x :: y :: rest =>
    if x = cr then some (if y = lf then rest else y :: rest)
    else if x = lf then some (y :: rest) else none
  | [x] => if x = cr ∨ x = lf then some [] else none
  | [] => none

theorem length_lt_of_afterLineEnd? {b rest : Octets} (h : afterLineEnd? b = some rest) :
    rest.length < b.length := by
  match b, h with
  | x :: y :: b, h =>
    simp only [afterLineEnd?] at h
    split at h
    · obtain rfl := Option.some.inj h
      split <;> simp only [List.length_cons] <;> omega
    · split at h
      · obtain rfl := Option.some.inj h
        simp only [List.length_cons]
        omega
      · simp at h
  | [x], h =>
    simp only [afterLineEnd?] at h
    split at h
    · obtain rfl := Option.some.inj h
      simp
    · simp at h
  | [], h => simp [afterLineEnd?] at h

/-- Strips an end of line off the reverse of a text. -/
def beforeLineEndReversed? : Octets → Option Octets
  | x :: y :: rest =>
    if x = lf then some (if y = cr then rest else y :: rest)
    else if x = cr then some (y :: rest) else none
  | [x] => if x = lf ∨ x = cr then some [] else none
  | [] => none

/-- Strips an end of line off the end. -/
def beforeLineEnd? (b : Octets) : Option Octets :=
  (beforeLineEndReversed? b.reverse).map List.reverse

/-- Strips an end of line off the end, if there is one. -/
def trimLineEnd (b : Octets) : Octets :=
  (beforeLineEnd? b).getD b

/-! ## Boundaries -/

/-- Five hyphens. -/
def dashes : Octets := [45, 45, 45, 45, 45]

/-- What opens the first boundary: five hyphens, `BEGIN` and a space. -/
def opening : Octets := dashes ++ [66, 69, 71, 73, 78, 32]

/-- What opens the last boundary: five hyphens, `END` and a space. -/
def closing : Octets := dashes ++ [69, 78, 68, 32]

/-- The text after the given start, if it begins so. -/
def after? (start b : Octets) : Option Octets :=
  if start.isPrefixOf b then some (b.drop start.length) else none

/-- The text before the given end, if it ends so. -/
def before? (finish b : Octets) : Option Octets :=
  if finish.isSuffixOf b then some (b.take (b.length - finish.length)) else none

/-- Skips to an opening that follows a line feed; a zero octet on the way is refused. -/
def skipPreamble? : Octets → Option Octets
  | [] => none
  | x :: rest =>
    if x = 0 then none
    else if x = lf ∧ opening.isPrefixOf rest then some rest
    else skipPreamble? rest

/-- Skips to the first opening, at the start or after a line feed. -/
def fromOpening? (b : Octets) : Option Octets :=
  if opening.isPrefixOf b then some b else skipPreamble? b

/-- The visible ASCII characters other than the hyphen. -/
def isLabelCharacter (x : UInt8) : Bool :=
  (0x21 ≤ x && x ≤ 0x7e) && x != 45

/-- A space or a tab. -/
def isBlank (x : UInt8) : Bool := x == 32 || x == 9

/-- Reads a label up to the first hyphen, gathering it in reverse. A blank has to follow a
visible character. -/
def takeLabelFrom (gathered : Octets) : Octets → Option (Octets × Octets)
  | [] => some (gathered.reverse, [])
  | x :: rest =>
    if x = 45 then some (gathered.reverse, x :: rest)
    else if isLabelCharacter x then takeLabelFrom (x :: gathered) rest
    else
      match gathered with
      | y :: _ => if isBlank x ∧ !isBlank y then takeLabelFrom (x :: gathered) rest else none
      | [] => none

/-! ## The base64 lines -/

/-- Joins lines of exactly 64 characters, gathered in reverse; the last line may be shorter, and
an end of line after it is dropped. -/
def joinLinesFrom (gathered b : Octets) : Option Octets :=
  match _more : b.drop 64 with
  | [] => some (gathered.reverse ++ trimLineEnd b)
  | x :: later =>
    match _step : afterLineEnd? (x :: later) with
    | none => none
    | some rest => joinLinesFrom ((b.take 64).reverse ++ gathered) rest
termination_by b.length
decreasing_by
  have := length_lt_of_afterLineEnd? _step
  rw [← _more, List.length_drop] at this
  omega

/-- The lines without their ends. -/
def joinLines? (b : Octets) : Option Octets := joinLinesFrom [] b

/-! ## Documents -/

/-- Reads an armored document. -/
def decode? (text : Octets) : Option Document := do
  let b ← fromOpening? text
  let b ← after? opening b
  let (label, b) ← takeLabelFrom [] b
  let b ← after? dashes b
  let b ← afterLineEnd? b
  let b ← before? (closing ++ label ++ dashes) (trimLineEnd b)
  let b ← beforeLineEnd? b
  let characters ← joinLines? b
  let body ← Base64.decode? characters
  guard (Der.isElement body)
  some ⟨label, body⟩

/-- Breaks characters into lines of 64, each with its line feed; `gathered` is the text so far,
in reverse. -/
def breakLinesFrom (gathered b : Octets) : Octets :=
  match b with
  | [] => gathered.reverse
  | x :: rest =>
    breakLinesFrom (lf :: ((x :: rest).take 64).reverse ++ gathered) (rest.drop 63)
termination_by b.length
decreasing_by
  simp only [List.length_drop, List.length_cons]
  omega

/-- The canonical written form: lines of 64 characters, each ended by a line feed. -/
def encode (d : Document) : Octets :=
  opening ++ d.label ++ dashes ++ [lf] ++ breakLinesFrom [] (Base64.encode d.body) ++
    closing ++ d.label ++ dashes ++ [lf]

/-- The label of a private-key document. -/
def privateKeyLabel : Octets := Octets.ofText "PRIVATE KEY"

/-- The label of a public-key document. -/
def publicKeyLabel : Octets := Octets.ofText "PUBLIC KEY"

/-! ## Recognition -/

/-- Space, tab, line feed, carriage return and form feed. -/
def isAsciiSpace (x : UInt8) : Bool :=
  x == 32 || x == 9 || x == 10 || x == 13 || x == 12

/-- Whether octets look like an armored document rather than an encoded one: an opening stands
behind nothing but white space. -/
def isArmored (b : Octets) : Bool :=
  opening.isPrefixOf (b.dropWhile isAsciiSpace)

end KeyCustody.Pem
