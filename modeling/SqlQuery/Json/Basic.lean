import SqlQuery.Number.Binary64

/-!
# JSON documents

A document keeps apart what its text keeps apart: integers and binary64 numbers
are different, and an object is a list of members in the order written, a key
that is repeated included. `Json.normal` is the form without that freedom: keys
sorted, of equal keys the last one kept.

`unreadable` stands for a literal that no value can hold: a number beyond
binary64, a text with half a surrogate pair, a nesting beyond the reader's limit.
It is harmless where nobody looks, such as under a key that a record does not
know, and nothing can be decoded from it.
-/

namespace SqlQuery

/-- A JSON document. -/
inductive Json where
  | null
  | bool (b : Bool)
  | int (n : Int)
  | float (x : Binary64)
  | str (s : String)
  | arr (items : List Json)
  | obj (members : List (String × Json))
  | unreadable
deriving Repr, Inhabited

namespace Json

mutual

/-- Equality of documents is decidable, member by member. -/
def decEq : (a b : Json) → Decidable (a = b)
  | .null, b => by
    cases b with
    | null => exact isTrue rfl
    | _ => exact isFalse (by simp)
  | .bool x, b => by
    cases b with
    | bool y => exact decidable_of_iff (x = y) (by simp)
    | _ => exact isFalse (by simp)
  | .int x, b => by
    cases b with
    | int y => exact decidable_of_iff (x = y) (by simp)
    | _ => exact isFalse (by simp)
  | .float x, b => by
    cases b with
    | float y => exact decidable_of_iff (x = y) (by simp)
    | _ => exact isFalse (by simp)
  | .str x, b => by
    cases b with
    | str y => exact decidable_of_iff (x = y) (by simp)
    | _ => exact isFalse (by simp)
  | .arr xs, b => by
    cases b with
    | arr ys =>
      exact match decEqItems xs ys with
        | isTrue h => isTrue (by rw [h])
        | isFalse h => isFalse (by simpa using h)
    | _ => exact isFalse (by simp)
  | .obj xs, b => by
    cases b with
    | obj ys =>
      exact match decEqMembers xs ys with
        | isTrue h => isTrue (by rw [h])
        | isFalse h => isFalse (by simpa using h)
    | _ => exact isFalse (by simp)
  | .unreadable, b => by
    cases b with
    | unreadable => exact isTrue rfl
    | _ => exact isFalse (by simp)

/-- Equality of lists of documents. -/
def decEqItems : (xs ys : List Json) → Decidable (xs = ys)
  | [], [] => isTrue rfl
  | [], _ :: _ | _ :: _, [] => isFalse (by simp)
  | x :: xs, y :: ys =>
    match decEq x y, decEqItems xs ys with
    | isTrue h, isTrue h' => isTrue (by rw [h, h'])
    | isFalse h, _ => isFalse (by simp [h])
    | _, isFalse h => isFalse (by simp [h])

/-- Equality of lists of members. -/
def decEqMembers : (xs ys : List (String × Json)) → Decidable (xs = ys)
  | [], [] => isTrue rfl
  | [], _ :: _ | _ :: _, [] => isFalse (by simp)
  | (k, x) :: xs, (l, y) :: ys =>
    if hk : k = l then
      match decEq x y, decEqMembers xs ys with
      | isTrue h, isTrue h' => isTrue (by rw [hk, h, h'])
      | isFalse h, _ => isFalse (by simp [h])
      | _, isFalse h => isFalse (by simp [h])
    else isFalse (by simp [hk])

end

instance : DecidableEq Json := decEq

/-- Puts a member in the place its key has among sorted ones; an equal key is
replaced. -/
def insertMember (key : String) (value : Json) :
    List (String × Json) → List (String × Json)
  | [] => [(key, value)]
  | (k, v) :: rest =>
    if key < k then (key, value) :: (k, v) :: rest
    else if key = k then (key, value) :: rest
    else (k, v) :: insertMember key value rest

/-- Members sorted by key, the last of equal keys kept. -/
def sortMembers (members : List (String × Json)) : List (String × Json) :=
  members.foldl (fun sorted m => insertMember m.1 m.2 sorted) []

mutual

/-- The document with every object sorted and free of repeated keys. -/
def normal : Json → Json
  | .arr items => .arr (normalItems items)
  | .obj members => .obj (sortMembers (normalMembers members))
  | j => j

/-- `normal` on every item. -/
def normalItems : List Json → List Json
  | [] => []
  | j :: rest => normal j :: normalItems rest

/-- `normal` on every member's value. -/
def normalMembers : List (String × Json) → List (String × Json)
  | [] => []
  | (k, j) :: rest => (k, normal j) :: normalMembers rest

end

mutual

/-- Whether every literal of the document can be held as a value. -/
def readable : Json → Bool
  | .arr items => readableItems items
  | .obj members => readableMembers members
  | .unreadable => false
  | _ => true

/-- `readable` on every item. -/
def readableItems : List Json → Bool
  | [] => true
  | j :: rest => readable j && readableItems rest

/-- `readable` on every member's value. -/
def readableMembers : List (String × Json) → Bool
  | [] => true
  | (_, j) :: rest => readable j && readableMembers rest

end

mutual

/-- The levels of arrays and objects, a scalar having none. -/
def depth : Json → Nat
  | .arr items => depthItems items + 1
  | .obj members => depthMembers members + 1
  | _ => 0

/-- The depth of the deepest item. -/
def depthItems : List Json → Nat
  | [] => 0
  | j :: rest => max (depth j) (depthItems rest)

/-- The depth of the deepest member. -/
def depthMembers : List (String × Json) → Nat
  | [] => 0
  | (_, j) :: rest => max (depth j) (depthMembers rest)

end

end Json

end SqlQuery
