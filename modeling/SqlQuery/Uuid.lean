import SqlQuery.Text.Digit

/-!
# Universally unique identifiers

An identifier is 128 bits. It is written as 32 lower-case hexadecimal digits in
groups of 8, 4, 4, 4 and 12, and read from that form in either case, bare, in
braces or after `urn:uuid:` in either case, or from the 32 digits alone.
-/

namespace SqlQuery

/-- A universally unique identifier. -/
structure Uuid where
  value : BitVec 128
deriving DecidableEq, Repr, Inhabited

namespace Uuid

/-- The places of the written form, counted in digits, before which a hyphen
stands. -/
def hyphenPlaces : List Nat := [8, 12, 16, 20]

/-- The digit at a place, the first digit being the most significant one. -/
def digitAt (u : Uuid) (place : Nat) : Nat :=
  u.value.toNat >>> (4 * (31 - place)) % 16

/-- The written form. -/
def text (u : Uuid) : String :=
  String.ofList <| (List.range 32).flatMap fun place =>
    let d := (Nat.toDigits 16 (u.digitAt place))
    if place ∈ hyphenPlaces then '-' :: d else d

/-- The identifier of 32 hexadecimal digits. -/
def ofDigits? (cs : List Char) : Option Uuid :=
  if cs.length = 32 then
    (cs.mapM Text.hexDigit?).map fun ds => ⟨BitVec.ofNat 128 (Text.ofDigits 16 ds)⟩
  else none

/-- The identifier of 36 characters in the written form. -/
def ofHyphenated? (cs : List Char) : Option Uuid :=
  let isHyphen (place : Nat) : Bool := cs[place]? == some '-'
  if cs.length = 36 ∧ [8, 13, 18, 23].all isHyphen then ofDigits? (cs.filter (· != '-')) else none

/-- Takes the braces or the resource name off the written form. -/
def unwrapped (cs : List Char) : List Char :=
  if cs.length = 38 ∧ cs.head? = some '\x7b' ∧ cs.getLast? = some '\x7d' then
    (cs.drop 1).dropLast
  else if cs.length = 45 ∧ (cs.take 9).map Char.toLower = "urn:uuid:".toList then cs.drop 9
  else cs

/-- Reads an identifier from any of its forms. -/
def ofText? (s : String) : Option Uuid :=
  let cs := s.toList
  if cs.length = 32 then ofDigits? cs else ofHyphenated? (unwrapped cs)

end Uuid

end SqlQuery
