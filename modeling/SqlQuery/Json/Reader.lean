import SqlQuery.Json.Basic
import SqlQuery.Text.Digit

/-!
# Reading JSON text

`Json.ofText?` reads one document with nothing but blanks around it. The grammar
is strict: no comments, no trailing commas, no leading zeros, no bare control
characters in a text. What the grammar allows but no value can hold becomes
`Json.unreadable`, as does everything below the 127th level of nesting.

An integer literal stays an integer while it fits 64 bits, signed below zero and
unsigned above it; `-0`, a fraction, an exponent or a larger number make it a
binary64. Digits that no longer fit a 64-bit significand are dropped.

Every reader takes the characters that are left and returns what it read with
the characters after it.
-/

namespace SqlQuery.Json

open Text (digit? hexDigit?)

/-- The four characters that may stand between tokens. -/
def isBlank (c : Char) : Bool :=
  c == ' ' || c == '\n' || c == '\t' || c == '\r'

/-- Drops leading blanks. -/
def skipBlanks (cs : List Char) : List Char :=
  cs.dropWhile isBlank

/-- The leading decimal digits, and what follows them. -/
def spanDigits : List Char → List Nat × List Char
  | [] => ([], [])
  | c :: cs =>
    match digit? c with
    | some d => let r := spanDigits cs; (d :: r.1, r.2)
    | none => ([], c :: cs)

/-! ## Numbers -/

/-- A significand of at most 64 bits and the power of ten it counts. -/
structure Significand where
  value : Nat
  exponent : Int

/-- Appends digits before the point while the word has room; each digit after
that is dropped and counts as a power of ten. -/
def takeInteger (value : Nat) : List Nat → Significand
  | [] => ⟨value, 0⟩
  | d :: ds =>
    if value * 10 + d < UInt64.size then takeInteger (value * 10 + d) ds
    else ⟨value, (d :: ds).length⟩

/-- Appends digits after the point while the word has room. -/
def takeFraction (s : Significand) : List Nat → Significand
  | [] => s
  | d :: ds =>
    if s.value * 10 + d < UInt64.size then takeFraction ⟨s.value * 10 + d, s.exponent - 1⟩ ds
    else s

/-- The document for an integer literal that fits, with its sign. -/
def integerLiteral? (negative : Bool) (s : Significand) : Option Json :=
  if s.exponent ≠ 0 then none
  else if negative then
    if s.value = 0 ∨ -s.value < Int64.minValue.toInt then none else some (.int (-s.value))
  else some (.int s.value)

/-- The document for a literal that is no integer. -/
def floatLiteral (negative : Bool) (s : Significand) : Json :=
  match Binary64.ofDecimal s.value s.exponent with
  | some x => .float (if negative then x.negate else x)
  | none => .unreadable

/-- Reads the digits before the point: a zero alone, or no zero first. -/
def readWhole (cs : List Char) : Option (List Nat × List Char) :=
  match spanDigits cs with
  | ([], _) => none
  | ([d], rest) => some ([d], rest)
  | (0 :: _, _) => none
  | r => some r

/-- Reads a fraction if there is one: a point and at least one digit. -/
def readFraction : List Char → Option (Option (List Nat) × List Char)
  | '.' :: cs =>
    match spanDigits cs with
    | ([], _) => none
    | (ds, rest) => some (some ds, rest)
  | cs => some (none, cs)

/-- Reads an exponent if there is one: a letter, an optional sign and at least one
digit. -/
def readExponent : List Char → Option (Option Int × List Char)
  | c :: cs =>
    if c == 'e' || c == 'E' then
      let signed : Bool × List Char := match cs with
        | '+' :: r => (false, r)
        | '-' :: r => (true, r)
        | r => (false, r)
      match spanDigits signed.2 with
      | ([], _) => none
      | (ds, rest) =>
        let n := Text.ofDigits 10 ds
        some (some (if signed.1 then -(n : Int) else n), rest)
    else some (none, c :: cs)
  | [] => some (none, [])

/-- Reads a number after its sign. -/
def readMagnitude (negative : Bool) (cs : List Char) : Option (Json × List Char) := do
  let (whole, cs) ← readWhole cs
  let (fraction, cs) ← readFraction cs
  let (exponent, cs) ← readExponent cs
  let s := takeInteger 0 whole
  match fraction, exponent with
  | none, none => return ((integerLiteral? negative s).getD (floatLiteral negative s), cs)
  | _, _ =>
    let s := takeFraction s (fraction.getD [])
    return (floatLiteral negative ⟨s.value, s.exponent + exponent.getD 0⟩, cs)

/-- Reads a number. -/
def readNumber : List Char → Option (Json × List Char)
  | '-' :: cs => readMagnitude true cs
  | cs => readMagnitude false cs

/-! ## Texts -/

/-- Reads four hexadecimal digits. -/
def readHex4 : List Char → Option (Nat × List Char)
  | a :: b :: c :: d :: cs => do
    return (((← hexDigit? a) * 16 + (← hexDigit? b)) * 256
      + (← hexDigit? c) * 16 + (← hexDigit? d), cs)
  | _ => none

/-- The character that a one-letter escape stands for. -/
def escaped? : Char → Option Char
  | '"' => some '"'
  | '\\' => some '\\'
  | '/' => some '/'
  | 'b' => some '\x08'
  | 'f' => some '\x0c'
  | 'n' => some '\n'
  | 'r' => some '\r'
  | 't' => some '\t'
  | _ => none

/-- One unit of a text: a character, half of a surrogate pair, or its end. -/
inductive TextUnit where
  | char (c : Char)
  | high (unit : Nat)
  | low (unit : Nat)

/-- Sorts a UTF-16 unit. -/
def TextUnit.ofCode (n : Nat) : TextUnit :=
  if 0xd800 ≤ n ∧ n < 0xdc00 then .high n
  else if 0xdc00 ≤ n ∧ n < 0xe000 then .low n
  else .char (Char.ofNat n)

/-- Reads the units of a text up to and with its closing quote. -/
def readUnits : Nat → List Char → Option (List TextUnit × List Char)
  | 0, _ => none
  | _, [] => none
  | _ + 1, '"' :: cs => some ([], cs)
  | fuel + 1, '\\' :: 'u' :: cs => do
    let (n, cs) ← readHex4 cs
    let (units, cs) ← readUnits fuel cs
    return (.ofCode n :: units, cs)
  | fuel + 1, '\\' :: c :: cs => do
    let e ← escaped? c
    let (units, cs) ← readUnits fuel cs
    return (.char e :: units, cs)
  | fuel + 1, c :: cs =>
    if c == '\\' || c.toNat < 0x20 then none
    else do
      let (units, cs) ← readUnits fuel cs
      return (.char c :: units, cs)

/-- Joins surrogate pairs; `none` when a half stands alone. -/
def joinUnits : List TextUnit → Option (List Char)
  | [] => some []
  | .char c :: rest => (joinUnits rest).map (c :: ·)
  | .high h :: .low l :: rest =>
    (joinUnits rest).map (Char.ofNat (0x10000 + (h - 0xd800) * 0x400 + (l - 0xdc00)) :: ·)
  | _ => none

/-- Reads a text after its opening quote; the inner `none` is a text that no value
can hold. -/
def readText (cs : List Char) : Option (Option String × List Char) := do
  let (units, rest) ← readUnits (cs.length + 1) cs
  return ((joinUnits units).map String.ofList, rest)

/-! ## Documents -/

/-- What an object is whose members are `members`; a key that no value can hold
spoils it. -/
def ofMembers (members : List (Option String × Json)) : Json :=
  match members.mapM (fun m => m.1.map (·, m.2)) with
  | some ms => .obj ms
  | none => .unreadable

/-- Takes a fixed word off the front. -/
def readWord (word : List Char) (j : Json) (cs : List Char) : Option (Json × List Char) :=
  if word.isPrefixOf cs then some (j, cs.drop word.length) else none

mutual

/-- Reads one document, blanks before it allowed; arrays and objects with no
`room` left are read and thrown away. -/
def readValue : (fuel room : Nat) → List Char → Option (Json × List Char)
  | 0, _, _ => none
  | fuel + 1, room, cs =>
    match skipBlanks cs with
    | '"' :: cs => (readText cs).map fun r => (r.1.elim .unreadable .str, r.2)
    | '[' :: cs => do
      let (items, cs) ← readItems fuel (room - 1) cs
      return (if room = 0 then .unreadable else .arr items, cs)
    | '\x7b' :: cs => do
      let (members, cs) ← readMembers fuel (room - 1) cs
      return (if room = 0 then .unreadable else ofMembers members, cs)
    | 'n' :: cs => readWord ['u', 'l', 'l'] .null cs
    | 't' :: cs => readWord ['r', 'u', 'e'] (.bool true) cs
    | 'f' :: cs => readWord ['a', 'l', 's', 'e'] (.bool false) cs
    | cs => readNumber cs

/-- Reads the items of an array after its opening bracket. -/
def readItems : (fuel room : Nat) → List Char → Option (List Json × List Char)
  | 0, _, _ => none
  | fuel + 1, room, cs =>
    match skipBlanks cs with
    | ']' :: cs => some ([], cs)
    | cs => do
      let (j, cs) ← readValue fuel room cs
      let (rest, cs) ← readMoreItems fuel room cs
      return (j :: rest, cs)

/-- Reads what follows an item: a comma and another one, or the closing bracket. -/
def readMoreItems : (fuel room : Nat) → List Char → Option (List Json × List Char)
  | 0, _, _ => none
  | fuel + 1, room, cs =>
    match skipBlanks cs with
    | ']' :: cs => some ([], cs)
    | ',' :: cs => do
      let (j, cs) ← readValue fuel room cs
      let (rest, cs) ← readMoreItems fuel room cs
      return (j :: rest, cs)
    | _ => none

/-- Reads the members of an object after its opening brace. -/
def readMembers : (fuel room : Nat) → List Char →
    Option (List (Option String × Json) × List Char)
  | 0, _, _ => none
  | fuel + 1, room, cs =>
    match skipBlanks cs with
    | '\x7d' :: cs => some ([], cs)
    | cs => do
      let (m, cs) ← readMember fuel room cs
      let (rest, cs) ← readMoreMembers fuel room cs
      return (m :: rest, cs)

/-- Reads one key, its colon and its value. -/
def readMember : (fuel room : Nat) → List Char →
    Option ((Option String × Json) × List Char)
  | 0, _, _ => none
  | fuel + 1, room, cs =>
    match skipBlanks cs with
    | '"' :: cs => do
      let (key, cs) ← readText cs
      match skipBlanks cs with
      | ':' :: cs =>
        let (j, cs) ← readValue fuel room cs
        return ((key, j), cs)
      | _ => none
    | _ => none

/-- Reads what follows a member: a comma and another one, or the closing brace. -/
def readMoreMembers : (fuel room : Nat) → List Char →
    Option (List (Option String × Json) × List Char)
  | 0, _, _ => none
  | fuel + 1, room, cs =>
    match skipBlanks cs with
    | '\x7d' :: cs => some ([], cs)
    | ',' :: cs => do
      let (m, cs) ← readMember fuel room cs
      let (rest, cs) ← readMoreMembers fuel room cs
      return (m :: rest, cs)
    | _ => none

end

/-- How many levels of arrays and objects a document may have. -/
def maxNesting : Nat := 127

/-- The document that a text is. Every step of the reader takes a character or
passes to a step that does, so three steps for a character are enough. -/
def ofText? (text : String) : Option Json :=
  let cs := text.toList
  match readValue (3 * cs.length + 3) maxNesting cs with
  | some (j, rest) => if (skipBlanks rest).isEmpty then some j else none
  | none => none

end SqlQuery.Json
