import SqlQuery.Json.Basic
import SqlQuery.Text.Digit

/-!
# Texts, numbers and dates of TOML

A text stands in one or three quotes of either kind. Double quotes allow escapes,
single ones none; in three quotes a text may have line breaks, of which one right
after the opening is dropped and each other one is a line feed. An integer is of
64 bits and may be written in base 16, 8 or 2; underscores may stand between
digits. Dates and times are checked against the calendar and the clock, but there
is no document for them.

Every reader takes the characters that are left and returns what it read with the
characters after it.
-/

namespace SqlQuery.Toml

open Text (digit? hexDigit? digitBelow? ofDigits)

/-- Whether a character may stand in a comment or a text as it is: the tab is the
only control character that may. -/
def isPlain (c : Char) : Bool :=
  c == '\t' || (' ' ≤ c && c != '\x7f')

/-- Whether a character is a blank within a line. -/
def isBlank (c : Char) : Bool :=
  c == ' ' || c == '\t'

/-- Drops leading blanks. -/
def skipBlanks (cs : List Char) : List Char :=
  cs.dropWhile isBlank

/-- Takes a line break off the front. -/
def lineBreak? : List Char → Option (List Char)
  | '\n' :: cs => some cs
  | '\r' :: '\n' :: cs => some cs
  | _ => none

/-! ## Texts -/

/-- The character that a one-letter escape stands for. -/
def escaped? : Char → Option Char
  | 'b' => some '\x08'
  | 't' => some '\t'
  | 'n' => some '\n'
  | 'f' => some '\x0c'
  | 'r' => some '\r'
  | '"' => some '"'
  | '\\' => some '\\'
  | _ => none

/-- The character of a number in hexadecimal digits; half a surrogate pair is none. -/
def character? (digits : List Char) : Option Char := do
  let n := ofDigits 16 (← digits.mapM hexDigit?)
  if n.isValidChar then some (Char.ofNat n) else none

/-- Reads an escape after its backslash. -/
def readEscape : List Char → Option (Char × List Char)
  | 'u' :: cs =>
    if 4 ≤ cs.length then (character? (cs.take 4)).map (·, cs.drop 4) else none
  | 'U' :: cs =>
    if 8 ≤ cs.length then (character? (cs.take 8)).map (·, cs.drop 8) else none
  | c :: cs => (escaped? c).map (·, cs)
  | [] => none

/-- Reads a text in double quotes, up to and with the closing one. -/
def readBasic : (fuel : Nat) → List Char → Option (List Char × List Char)
  | 0, _ => none
  | _ + 1, '"' :: cs => some ([], cs)
  | fuel + 1, '\\' :: cs => do
    let (c, cs) ← readEscape cs
    let (text, cs) ← readBasic fuel cs
    return (c :: text, cs)
  | fuel + 1, c :: cs =>
    if isPlain c then (readBasic fuel cs).map fun r => (c :: r.1, r.2) else none
  | _ + 1, [] => none

/-- Reads a text in single quotes, up to and with the closing one. -/
def readLiteral : List Char → Option (List Char × List Char)
  | [] => none
  | c :: cs =>
    if c = '\'' then some ([], cs)
    else if isPlain c then (readLiteral cs).map fun r => (c :: r.1, r.2)
    else none

/-- Up to two more quotes after the three that close a text are the end of it. -/
def lateQuotes (quote : Char) : List Char → List Char × List Char
  | a :: b :: cs =>
    if a = quote ∧ b = quote then ([a, b], cs)
    else if a = quote then ([a], b :: cs)
    else ([], a :: b :: cs)
  | [a] => if a = quote then ([a], []) else ([], [a])
  | [] => ([], [])

/-- After a backslash that ends its line: what is left when the break and all
blanks and breaks after it are dropped. -/
def continuation? (cs : List Char) : Option (List Char) :=
  (lineBreak? (skipBlanks cs)).map fun cs => skipBreaks cs
where
  /-- Drops blanks and line breaks. -/
  skipBreaks : List Char → List Char
    | [] => []
    | '\r' :: '\n' :: cs => skipBreaks cs
    | c :: cs => if isBlank c || c == '\n' then skipBreaks cs else c :: cs

/-- Reads a text in three quotes, up to and with the closing ones; only double
quotes allow escapes. -/
def readLines (quote : Char) : (fuel : Nat) → List Char → Option (List Char × List Char)
  | 0, _ => none
  | fuel + 1, cs =>
    if [quote, quote, quote].isPrefixOf cs then some (lateQuotes quote (cs.drop 3))
    else
      match cs with
      | '\r' :: '\n' :: cs | '\n' :: cs => do
        let (text, cs) ← readLines quote fuel cs
        return ('\n' :: text, cs)
      | c :: cs =>
        if c = '\\' ∧ quote = '"' then
          match continuation? cs with
          | some cs => readLines quote fuel cs
          | none => do
            let (e, cs) ← readEscape cs
            let (text, cs) ← readLines quote fuel cs
            return (e :: text, cs)
        else if isPlain c then do
          let (text, cs) ← readLines quote fuel cs
          return (c :: text, cs)
        else none
      | [] => none

/-- Reads a text in one pair of quotes. -/
def readLineText : List Char → Option (String × List Char)
  | '"' :: cs => (readBasic (cs.length + 1) cs).map fun r => (String.ofList r.1, r.2)
  | '\'' :: cs => (readLiteral cs).map fun r => (String.ofList r.1, r.2)
  | _ => none

/-- Reads a text. -/
def readText : List Char → Option (String × List Char)
  | a :: b :: c :: cs =>
    if (a = '"' ∨ a = '\'') ∧ b = a ∧ c = a then
      let cs := (lineBreak? cs).getD cs
      (readLines a (cs.length + 1) cs).map fun r => (String.ofList r.1, r.2)
    else readLineText (a :: b :: c :: cs)
  | cs => readLineText cs

/-! ## Numbers -/

/-- Reads the digits after the first, with single underscores between them. -/
def moreDigits (digit? : Char → Option Nat) : List Char → Option (List Nat × List Char)
  | [] => some ([], [])
  | '_' :: c :: cs => do
    let d ← digit? c
    let (ds, cs) ← moreDigits digit? cs
    return (d :: ds, cs)
  | c :: cs =>
    match digit? c with
    | some d => (moreDigits digit? cs).map fun r => (d :: r.1, r.2)
    | none => some ([], c :: cs)

/-- Reads at least one digit. -/
def readDigits (digit? : Char → Option Nat) : List Char → Option (List Nat × List Char)
  | [] => none
  | c :: cs => do
    let d ← digit? c
    let (ds, cs) ← moreDigits digit? cs
    return (d :: ds, cs)

/-- Takes a sign off the front; the sign is true for a minus. -/
def readSign : List Char → Bool × List Char
  | '+' :: cs => (false, cs)
  | '-' :: cs => (true, cs)
  | cs => (false, cs)

/-- Reads the digits before the point: a zero alone, or no zero first. -/
def readWhole : List Char → Option (List Nat × List Char)
  | '0' :: cs => some ([0], cs)
  | cs => readDigits digit? cs

/-- The document of an integer of 64 bits. -/
def integer? (n : Int) : Option Json :=
  if Int64.minValue.toInt ≤ n ∧ n ≤ Int64.maxValue.toInt then some (.int n) else none

/-- Reads a fraction if there is one. -/
def readFraction : List Char → Option (Option (List Nat) × List Char)
  | '.' :: cs => (readDigits digit? cs).map fun r => (some r.1, r.2)
  | cs => some (none, cs)

/-- Reads an exponent if there is one. -/
def readExponent : List Char → Option (Option Int × List Char)
  | c :: cs =>
    if c = 'e' ∨ c = 'E' then do
      let (negative, cs) := readSign cs
      let (ds, cs) ← readDigits digit? cs
      let n : Int := ofDigits 10 ds
      return (some (if negative then -n else n), cs)
    else some (none, c :: cs)
  | [] => some (none, [])

/-- An unbounded number. -/
def infinity : Binary64 := ⟨0x7ff0000000000000⟩

/-- What is not a number. -/
def notANumber : Binary64 := ⟨0x7ff8000000000000⟩

/-- The magnitude of `digits * 10 ^ exponent`, unbounded where it is out of range.
The place of the first digit tells whether it is far out, without computing it. -/
def magnitude (digits : List Nat) (exponent : Int) : Binary64 :=
  let n := ofDigits 10 digits
  let first : Int := (Nat.toDigits 10 n).length + exponent
  if n = 0 ∨ first < -400 then .zero
  else if 400 < first then infinity
  else
    let p := Binary64.power 10 exponent
    (Binary64.ofRatio (n * p.1) p.2).getD infinity

/-- The document of a number with its sign; a positive one has to be bounded. -/
def float? (negative : Bool) (x : Binary64) : Option Json :=
  if negative then some (.float x.negate)
  else if x = infinity then none
  else some (.float x)

/-- Reads a number in decimal digits after its sign. -/
def readDecimal (negative : Bool) (cs : List Char) : Option (Json × List Char) := do
  let (whole, cs) ← readWhole cs
  let (fraction, cs) ← readFraction cs
  let (exponent, cs) ← readExponent cs
  if fraction.isNone && exponent.isNone then
    let n : Int := ofDigits 10 whole
    return (← integer? (if negative then -n else n), cs)
  let places := fraction.getD []
  return (← float? negative (magnitude (whole ++ places) (exponent.getD 0 - places.length)), cs)

/-- Reads an integer of a base after its first two characters. -/
def readBased (base : Nat) (digit? : Char → Option Nat) (cs : List Char) :
    Option (Json × List Char) := do
  let (ds, cs) ← readDigits digit? cs
  return (← integer? (ofDigits base ds), cs)

/-- Reads a number. -/
def readNumber : List Char → Option (Json × List Char)
  | '0' :: 'x' :: cs => readBased 16 hexDigit? cs
  | '0' :: 'o' :: cs => readBased 8 (digitBelow? 8) cs
  | '0' :: 'b' :: cs => readBased 2 (digitBelow? 2) cs
  | cs =>
    let (negative, cs) := readSign cs
    let signed (x : Binary64) : Json := .float (if negative then x.negate else x)
    match cs with
    | 'i' :: 'n' :: 'f' :: cs => some (signed infinity, cs)
    | 'n' :: 'a' :: 'n' :: cs => some (signed notANumber, cs)
    | cs => readDecimal negative cs

/-! ## Dates and times -/

/-- Reads a fixed number of digits as a number between bounds. -/
def readField (width low high : Nat) (cs : List Char) : Option (Nat × List Char) := do
  let ds ← (cs.take width).mapM digit?
  let n := ofDigits 10 ds
  if ds.length = width ∧ low ≤ n ∧ n ≤ high then some (n, cs.drop width) else none

/-- Takes a fixed character off the front. -/
def expect (c : Char) : List Char → Option (List Char)
  | d :: cs => if d = c then some cs else none
  | [] => none

/-- The days of a month. -/
def monthLength (year month : Nat) : Nat :=
  if month = 2 then
    if year % 4 = 0 ∧ (year % 100 ≠ 0 ∨ year % 400 = 0) then 29 else 28
  else if month = 4 ∨ month = 6 ∨ month = 9 ∨ month = 11 then 30
  else 31

/-- Takes a date off the front. -/
def dropDate (cs : List Char) : Option (List Char) := do
  let (year, cs) ← readField 4 0 9999 cs
  let (month, cs) ← readField 2 1 12 (← expect '-' cs)
  let (_, cs) ← readField 2 1 (monthLength year month) (← expect '-' cs)
  return cs

/-- Takes a time of day off the front. -/
def dropTime (cs : List Char) : Option (List Char) := do
  let (_, cs) ← readField 2 0 23 cs
  let (_, cs) ← readField 2 0 59 (← expect ':' cs)
  let (_, cs) ← readField 2 0 60 (← expect ':' cs)
  match cs with
  | '.' :: c :: rest =>
    let _ ← digit? c
    return rest.dropWhile Char.isDigit
  | cs => return cs

/-- Takes a zone off the front: a letter, or hours and minutes with a sign. -/
def dropZone : List Char → Option (List Char)
  | c :: cs =>
    if c = 'Z' ∨ c = 'z' then some cs
    else if c = '+' ∨ c = '-' then do
      let (_, cs) ← readField 2 0 23 cs
      let (_, cs) ← readField 2 0 59 (← expect ':' cs)
      return cs
    else none
  | [] => none

/-- Takes a time after a date off the front, and a zone if there is one. -/
def dropTimeAfterDate : List Char → Option (List Char)
  | c :: cs =>
    if c = 'T' ∨ c = 't' ∨ c = ' ' then do
      let cs ← dropTime cs
      return (dropZone cs).getD cs
    else none
  | [] => none

/-- Takes a date, a time or both off the front. -/
def dropDateTime (cs : List Char) : Option (List Char) :=
  match dropDate cs with
  | some cs => some ((dropTimeAfterDate cs).getD cs)
  | none => dropTime cs

end SqlQuery.Toml
