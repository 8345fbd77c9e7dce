import SqlQuery.Toml.Scalar
import SqlQuery.Toml.Table

/-!
# Reading TOML text

`Toml.ofText?` reads a text into one document. A text is a row of lines: a key with
its value, a header, or nothing but blanks and a comment. Only inside the brackets
of an array may a line break stand between the parts of a value. A date becomes
`Json.unreadable`, since no document can hold it.

Every reader takes the characters that are left and returns what it read with the
characters after it.
-/

namespace SqlQuery.Toml

/-- How many levels of arrays and inline tables a value may have, and how many keys
may be joined by dots. -/
def maxNesting : Nat := 79

/-- Drops blanks, line breaks and comments; within a comment only a line break
ends it. -/
def skipTrivia (inComment : Bool) : List Char → List Char
  | [] => []
  | '\n' :: cs => skipTrivia false cs
  | '\r' :: '\n' :: cs => skipTrivia false cs
  | c :: cs =>
    if inComment then
      if isPlain c then skipTrivia true cs else c :: cs
    else if isBlank c then skipTrivia false cs
    else if c = '#' then skipTrivia true cs
    else c :: cs

/-! ## Keys -/

/-- Whether a character may stand in a key without quotes. -/
def isBare (c : Char) : Bool :=
  c.isAlphanum || c == '-' || c == '_'

/-- Reads one key, blanks around it allowed. -/
def readStep (cs : List Char) : Option (String × List Char) := do
  let cs := skipBlanks cs
  let (key, cs) ← match cs with
    | '"' :: _ | '\'' :: _ => readLineText cs
    | _ =>
      let bare := cs.takeWhile isBare
      if bare.isEmpty then none else some (String.ofList bare, cs.dropWhile isBare)
  return (key, skipBlanks cs)

/-- Reads keys joined by dots: those on the way, and the last one. -/
def readKeys : (fuel : Nat) → List Char → Option ((List String × String) × List Char)
  | 0, _ => none
  | fuel + 1, cs => do
    let (key, cs) ← readStep cs
    match cs with
    | '.' :: cs =>
      let ((path, last), cs) ← readKeys fuel cs
      return ((key :: path, last), cs)
    | cs => return (([], key), cs)

/-! ## Values -/

/-- Takes a fixed word off the front. -/
def readWord (word : List Char) (j : Json) (cs : List Char) : Option (Json × List Char) :=
  if word.isPrefixOf cs then some (j, cs.drop word.length) else none

/-- Reads a date or a number. -/
def readPoint (cs : List Char) : Option (Json × List Char) :=
  match dropDateTime cs with
  | some cs => some (.unreadable, cs)
  | none => readNumber cs

mutual

/-- Reads a value, with `room` levels of brackets left. -/
def readValue : (fuel room : Nat) → List Char → Option (Json × List Char)
  | 0, _, _ => none
  | fuel + 1, room, cs =>
    match cs with
    | '"' :: _ | '\'' :: _ => (readText cs).map fun r => (.str r.1, r.2)
    | '[' :: cs =>
      if room = 0 then none
      else (readItems fuel (room - 1) cs).map fun r => (.arr r.1, r.2)
    | '\x7b' :: cs => do
      if room = 0 then none
      let (pairs, cs) ← readPairs fuel (room - 1) cs
      return (← inlineTable? pairs, cs)
    | 't' :: _ => readWord ['t', 'r', 'u', 'e'] (.bool true) cs
    | 'f' :: _ => readWord ['f', 'a', 'l', 's', 'e'] (.bool false) cs
    | cs => readPoint cs

/-- Reads the items of an array after its opening bracket or after a comma; the
closing bracket may stand in either place. -/
def readItems : (fuel room : Nat) → List Char → Option (List Json × List Char)
  | 0, _, _ => none
  | fuel + 1, room, cs =>
    match skipTrivia false cs with
    | ']' :: cs => some ([], cs)
    | cs => do
      let (j, cs) ← readValue fuel room cs
      match skipTrivia false cs with
      | ']' :: cs => return ([j], cs)
      | ',' :: cs =>
        let (rest, cs) ← readItems fuel room cs
        return (j :: rest, cs)
      | _ => none

/-- Reads the pairs of an inline table after its opening brace. -/
def readPairs : (fuel room : Nat) → List Char → Option (List Pair × List Char)
  | 0, _, _ => none
  | fuel + 1, room, cs =>
    match skipBlanks cs with
    | '\x7d' :: cs => some ([], cs)
    | cs => readMorePairs fuel room cs

/-- Reads a pair and what follows it: a comma and another one, or the closing
brace. -/
def readMorePairs : (fuel room : Nat) → List Char → Option (List Pair × List Char)
  | 0, _, _ => none
  | fuel + 1, room, cs => do
    let (p, cs) ← readPair fuel room cs
    match skipBlanks cs with
    | '\x7d' :: cs => return ([p], cs)
    | ',' :: cs =>
      let (rest, cs) ← readMorePairs fuel room cs
      return (p :: rest, cs)
    | _ => none

/-- Reads keys, an equals sign and a value. -/
def readPair : (fuel room : Nat) → List Char → Option (Pair × List Char)
  | 0, _, _ => none
  | fuel + 1, room, cs => do
    let ((path, key), cs) ← readKeys maxNesting cs
    let (value, cs) ← readValue fuel room (skipBlanks (← expect '=' cs))
    return ({ path, key, value }, cs)

end

/-! ## Lines -/

/-- Takes the rest of a line off the front: blanks, a comment, and a line break
unless the text ends. -/
def endLine? (cs : List Char) : Option (List Char) :=
  let cs := match skipBlanks cs with
    | '#' :: cs => cs.dropWhile isPlain
    | cs => cs
  if cs.isEmpty then some [] else lineBreak? cs

/-- Reads a header after its opening bracket. -/
def readHeader : List Char → Option (Header × List Char)
  | '[' :: cs => do
    let ((path, key), cs) ← readKeys maxNesting cs
    let cs ← expect ']' (← expect ']' cs)
    return ({ kind := .item, path, key }, cs)
  | cs => do
    let ((path, key), cs) ← readKeys maxNesting cs
    let cs ← expect ']' cs
    return ({ kind := .table, path, key }, cs)

/-- Reads what a line says, if it says something; blanks before it have been
dropped. -/
def readStatement (cs : List Char) : Option (Option Line × List Char) :=
  match cs with
  | [] | '#' :: _ | '\n' :: _ | '\r' :: _ => some (none, cs)
  | '[' :: cs => (readHeader cs).map fun r => (some (.header r.1), r.2)
  | cs => (readPair (4 * cs.length + 4) maxNesting cs).map fun r => (some (.pair r.1), r.2)

/-- Reads lines up to the end of the text. -/
def readAllLines : (fuel : Nat) → List Char → Option (List Line)
  | 0, _ => none
  | fuel + 1, cs => do
    let (line, cs) ← readStatement (skipBlanks cs)
    let cs ← endLine? cs
    let rest ← if cs.isEmpty then some [] else readAllLines fuel cs
    return line.toList ++ rest

/-- The document that a text is; a byte order mark before it is dropped. Every line
takes a character, and so does every few steps within a value. -/
def ofText? (text : String) : Option Json :=
  let cs := match text.toList with
    | '\ufeff' :: cs => cs
    | cs => cs
  (readAllLines (cs.length + 1) cs).bind ofLines?

end SqlQuery.Toml
