import SqlQuery.Json.Writer
import SqlQuery.Instant
import SqlQuery.Uuid

/-!
# Bound values

A value is what a query binds to a placeholder. Values travel beside the text of
a statement and are never written into it; the text may depend on the `kind` of a
value, on the length of an array and on a truth value, and on nothing else.
-/

namespace SqlQuery

/-- A bound value. -/
inductive Value where
  | null
  | bool (b : Bool)
  | int (n : Int64)
  | float (x : Binary64)
  | string (s : String)
  | instant (t : Instant)
  | uuid (u : Uuid)
  | array (items : List Value)
  | json (document : Json)
deriving Repr, Inhabited

/-- The shape of a value. -/
inductive Kind where
  | null
  | bool
  | int
  | float
  | string
  | instant
  | uuid
  | array
  | json
deriving DecidableEq, Repr, Inhabited

/-- The name of a shape in messages. -/
def Kind.name : Kind → String
  | .null => "null"
  | .bool => "bool"
  | .int => "int"
  | .float => "float"
  | .string => "string"
  | .instant => "datetime"
  | .uuid => "uuid"
  | .array => "array"
  | .json => "json"

namespace Value

/-- The shape of a value. -/
def kind : Value → Kind
  | .null => .null
  | .bool _ => .bool
  | .int _ => .int
  | .float _ => .float
  | .string _ => .string
  | .instant _ => .instant
  | .uuid _ => .uuid
  | .array _ => .array
  | .json _ => .json

/-- Whether the value is null. -/
def isNull (v : Value) : Bool :=
  v.kind == .null

/-- The text of a string. -/
def string? : Value → Option String
  | .string s => some s
  | _ => none

/-- The items of an array. -/
def array? : Value → Option (List Value)
  | .array items => some items
  | _ => none

/-- The truth value of a boolean. -/
def bool? : Value → Option Bool
  | .bool b => some b
  | _ => none

mutual

/-- Equality of values is decidable. -/
def decEq : (a b : Value) → Decidable (a = b)
  | .null, b => by
    cases b with
    | null => exact isTrue rfl
    | _ => exact isFalse (by simp)
  | .array xs, b => by
    cases b with
    | array ys =>
      exact match decEqItems xs ys with
        | isTrue h => isTrue (by rw [h])
        | isFalse h => isFalse (by simpa using h)
    | _ => exact isFalse (by simp)
  | .bool x, b => by
    cases b with
    | bool y => exact decidable_of_iff (x = y) (by simp)
    | _ => exact isFalse (by simp)
  | .int x, b => by
    cases b with
    | int y => exact decidable_of_iff (x = y) (by simp)
    | _ => exact isFalse (by simp)
  | .float x, b => by
    cases b with
    | float y => exact decidable_of_iff (x = y) (by simp)
    | _ => exact isFalse (by simp)
  | .string x, b => by
    cases b with
    | string y => exact decidable_of_iff (x = y) (by simp)
    | _ => exact isFalse (by simp)
  | .instant x, b => by
    cases b with
    | instant y => exact decidable_of_iff (x = y) (by simp)
    | _ => exact isFalse (by simp)
  | .uuid x, b => by
    cases b with
    | uuid y => exact decidable_of_iff (x = y) (by simp)
    | _ => exact isFalse (by simp)
  | .json x, b => by
    cases b with
    | json y => exact decidable_of_iff (x = y) (by simp)
    | _ => exact isFalse (by simp)

/-- Equality of lists of values. -/
def decEqItems : (xs ys : List Value) → Decidable (xs = ys)
  | [], [] => isTrue rfl
  | [], _ :: _ | _ :: _, [] => isFalse (by simp)
  | x :: xs, y :: ys =>
    match decEq x y, decEqItems xs ys with
    | isTrue h, isTrue h' => isTrue (by rw [h, h'])
    | isFalse h, _ => isFalse (by simp [h])
    | _, isFalse h => isFalse (by simp [h])

end

instance : DecidableEq Value := decEq

mutual

/-- The value as shown to a reader: texts, points in time and identifiers in
single quotes, nothing escaped. -/
def display : Value → String
  | .null => "NULL"
  | .bool b => if b then "true" else "false"
  | .int n => toString n.toInt
  | .float x => x.plainText
  | .string s => "'" ++ s ++ "'"
  | .instant t => "'" ++ t.text ++ "+00:00'"
  | .uuid u => "'" ++ u.text ++ "'"
  | .array items => "[" ++ ", ".intercalate (displayItems items) ++ "]"
  | .json j => j.compact

/-- Every item as shown to a reader. -/
def displayItems : List Value → List String
  | [] => []
  | v :: rest => display v :: displayItems rest

end

mutual

/-- The value as a JSON document. -/
def toJson : Value → Json
  | .null => .null
  | .bool b => .bool b
  | .int n => .int n.toInt
  | .float x => .float x
  | .string s => .str s
  | .instant t => .str (t.text ++ "Z")
  | .uuid u => .str u.text
  | .array items => .arr (itemsToJson items)
  | .json j => j

/-- Every item as a JSON document. -/
def itemsToJson : List Value → List Json
  | [] => []
  | v :: rest => toJson v :: itemsToJson rest

end

/-- The value of an integer: itself in the signed 64-bit range, a binary64
outside. -/
def ofInt (n : Int) : Value :=
  if Int64.minValue.toInt ≤ n ∧ n ≤ Int64.maxValue.toInt then .int (Int64.ofInt n)
  else
    let x := (Binary64.ofNat? n.natAbs).getD .zero
    .float (if n < 0 then x.negate else x)

mutual

/-- The value that a document is. Texts stay texts, arrays are taken apart, and
an object stays a document, in normal form. -/
def ofJson? : Json → Option Value
  | .null => some .null
  | .bool b => some (.bool b)
  | .int n => some (ofInt n)
  | .float x => some (.float x)
  | .str s => some (.string s)
  | .arr items => (itemsOfJson? items).map .array
  | .obj members => if (Json.obj members).readable then some (.json (Json.obj members).normal) else none
  | .unreadable => none

/-- The values that all the documents are. -/
def itemsOfJson? : List Json → Option (List Value)
  | [] => some []
  | j :: rest => do return (← ofJson? j) :: (← itemsOfJson? rest)

end

end Value

end SqlQuery
