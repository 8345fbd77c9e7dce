import SqlQuery.Json.Basic
import SqlQuery.Number.Shortest

/-!
# Writing JSON text

Two layouts of the same document: `compact` has no blank at all, `pretty` puts
every item and member on a line of its own, two blanks deeper than its parent.
A text escapes the quote, the backslash and the control characters only.
-/

namespace SqlQuery.Json

/-- One lower-case hexadecimal digit. -/
def hexChar (n : Nat) : Char :=
  if n < 10 then Char.ofNat ('0'.toNat + n) else Char.ofNat ('a'.toNat + (n - 10))

/-- The written form of one character of a text. -/
def escapeChar (c : Char) : List Char :=
  match c with
  | '"' => ['\\', '"']
  | '\\' => ['\\', '\\']
  | '\n' => ['\\', 'n']
  | '\t' => ['\\', 't']
  | '\r' => ['\\', 'r']
  | '\x08' => ['\\', 'b']
  | '\x0c' => ['\\', 'f']
  | c =>
    if c.toNat < 0x20 then
      ['\\', 'u', '0', '0', hexChar (c.toNat / 16), hexChar (c.toNat % 16)]
    else [c]

/-- A text in quotes. -/
def quoted (s : String) : String :=
  String.ofList ('"' :: s.toList.flatMap escapeChar ++ ['"'])

/-- The written form of a document without parts. -/
def scalarText : Json → String
  | .null => "null"
  | .bool b => if b then "true" else "false"
  | .int n => toString n
  | .float x => x.jsonText
  | .str s => quoted s
  | .arr _ => "[]"
  | .obj _ => "\x7b\x7d"
  | .unreadable => "null"

mutual

/-- The document without any blank. -/
def compact : Json → String
  | .arr items => "[" ++ ",".intercalate (compactItems items) ++ "]"
  | .obj members => "\x7b" ++ ",".intercalate (compactMembers members) ++ "\x7d"
  | j => scalarText j

/-- Every item without any blank. -/
def compactItems : List Json → List String
  | [] => []
  | j :: rest => compact j :: compactItems rest

/-- Every member without any blank. -/
def compactMembers : List (String × Json) → List String
  | [] => []
  | (k, j) :: rest => (quoted k ++ ":" ++ compact j) :: compactMembers rest

end

/-- The parts of an array or object, each on a line at `level + 1`, between the
brackets, the closing one at `level`. -/
def block (level : Nat) (opening closing : String) (parts : List String) : String :=
  let indent (n : Nat) : String := "".pushn ' ' (2 * n)
  if parts.isEmpty then opening ++ closing
  else
    opening ++ "\n" ++ ",\n".intercalate (parts.map (indent (level + 1) ++ ·))
      ++ "\n" ++ indent level ++ closing

mutual

/-- The document laid out on lines, its first line not indented. -/
def prettyAt (level : Nat) : Json → String
  | .arr items => block level "[" "]" (prettyItems (level + 1) items)
  | .obj members => block level "\x7b" "\x7d" (prettyMembers (level + 1) members)
  | j => scalarText j

/-- Every item laid out on lines. -/
def prettyItems (level : Nat) : List Json → List String
  | [] => []
  | j :: rest => prettyAt level j :: prettyItems level rest

/-- Every member laid out on lines. -/
def prettyMembers (level : Nat) : List (String × Json) → List String
  | [] => []
  | (k, j) :: rest => (quoted k ++ ": " ++ prettyAt level j) :: prettyMembers level rest

end

/-- The document laid out on lines. -/
def pretty (j : Json) : String :=
  prettyAt 0 j

end SqlQuery.Json
