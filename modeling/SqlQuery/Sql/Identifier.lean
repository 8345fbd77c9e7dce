import SqlQuery.Text.Letter

/-!
# Names in SQL text

A name is written bare where it reads as one word that is no reserved word and
does not start with a number; any other name is written between quote characters,
a quote character inside it doubled. The name `*` stands for all columns and is
never quoted.

`escape_bare`, `escape_star` and `escape_quoted` say which of the three forms a
name takes.
-/

namespace SqlQuery.Sql

/-- The words that are quoted when they are names, in lower case. -/
def reservedWords : List String :=
  ["order", "group", "user", "table", "select", "from", "where", "join", "left", "right",
    "inner", "outer", "on", "and", "or", "not", "null", "true", "false", "limit", "offset", "as",
    "in", "is", "like", "between", "having", "union", "all", "distinct", "case", "when", "then",
    "else", "end", "create", "alter", "drop", "insert", "update", "delete", "index", "key",
    "primary", "foreign", "references", "default", "constraint", "check", "match", "set",
    "values"]

/-- Whether a name is a reserved word in any letter case. -/
def isReserved (name : List Char) : Bool :=
  reservedWords.contains (String.ofList (name.map Text.foldToAscii))

/-- Whether a character may stand in a word. -/
def isWordChar (c : Char) : Bool :=
  Text.isAlphanumeric c || c == '_'

/-- Whether a name can be written as it is. -/
def isBare (name : List Char) : Bool :=
  !isReserved name && !name.isEmpty && name.all isWordChar && !name.head?.any Text.isNumeric

/-- The characters of a name with every quote character doubled. -/
def doubled (quote : Char) : List Char → List Char
  | [] => []
  | c :: rest => if c = quote then quote :: quote :: doubled quote rest else c :: doubled quote rest

/-- The written form of the characters of a name. -/
def escapeChars (quote : Char) (name : List Char) : List Char :=
  if name = ['*'] then name
  else if isBare name then name
  else quote :: (doubled quote name ++ [quote])

/-- The written form of a name. -/
def escape (quote : Char) (name : String) : String :=
  String.ofList (escapeChars quote name.toList)

theorem escape_star (quote : Char) : escapeChars quote ['*'] = ['*'] := by
  simp [escapeChars]

theorem escape_bare (quote : Char) {name : List Char} (h : isBare name = true) :
    escapeChars quote name = name := by
  simp [escapeChars, h]

/-- All other names are quoted, with the quote characters in them doubled. -/
theorem escape_quoted (quote : Char) {name : List Char} (hs : name ≠ ['*'])
    (h : isBare name = false) :
    escapeChars quote name = quote :: (doubled quote name ++ [quote]) := by
  simp [escapeChars, hs, h]

end SqlQuery.Sql
