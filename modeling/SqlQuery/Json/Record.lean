import SqlQuery.Json.Basic

/-!
# Records and variants in JSON

How typed data is found in a document. A record is an object, or the array of its
fields in their order; keys it does not know are ignored, and a key it knows may
stand only once. A variant is a text, its name, or an object with one member, its
name and its body.

How a document came in makes a difference in few places: how long the array of a
record may be, and what may stand as the body of a variant.
-/

namespace SqlQuery.Json

/-- How a document came in: as a JSON text of its own, as part of a larger document
that had been read before, or as a TOML text. -/
inductive Form where
  | text
  | tree
  | toml
deriving DecidableEq, Repr, Inhabited

/-- The fields of a record that are present, by name. -/
abbrev Record := List (String × Json)

/-- The members of a document read as a record with the given fields. -/
def record? (keys : List String) : Json → Option Record
  | .obj members =>
    let known := members.filter (·.1 ∈ keys)
    if (known.map (·.1)).Nodup then some known else none
  | .arr items => if items.length ≤ keys.length then some (keys.zip items) else none
  | _ => none

/-- The members of a document read as a record, by the rules of its form: in TOML,
an array may go on after the fields. -/
def Form.record? (form : Form) (keys : List String) (j : Json) : Option Record :=
  match form, j with
  | .toml, .arr items => some (keys.zip items)
  | _, j => j.record? keys

/-- The body of a variant with named fields; an array is one only in a JSON text of
its own. -/
def Form.body? (form : Form) (keys : List String) (j : Json) : Option Record :=
  match form, j with
  | .text, j => j.record? keys
  | _, .arr _ => none
  | _, j => j.record? keys

/-- A field that has to be there. -/
def Record.need {α : Type} (r : Record) (key : String) (decode : Json → Option α) : Option α :=
  (r.lookup key).bind decode

/-- A field that takes a default where it is missing. -/
def Record.orElse {α : Type} (r : Record) (key : String) (default : α)
    (decode : Json → Option α) : Option α :=
  match r.lookup key with
  | some j => decode j
  | none => some default

/-- Reads null as nothing. -/
def nullable {α : Type} (decode : Json → Option α) : Json → Option (Option α)
  | .null => some none
  | j => (decode j).map some

/-- A field that may be missing or null. -/
def Record.maybe {α : Type} (r : Record) (key : String) (decode : Json → Option α) :
    Option (Option α) :=
  r.orElse key none (nullable decode)

/-- The text of a document. -/
def str? : Json → Option String
  | .str s => some s
  | _ => none

/-- The truth value of a document. -/
def bool? : Json → Option Bool
  | .bool b => some b
  | _ => none

/-- The unsigned 64-bit number of a document; only integer literals count. -/
def word? : Json → Option UInt64
  | .int n => if 0 ≤ n ∧ n < UInt64.size then some (UInt64.ofNat n.toNat) else none
  | _ => none

/-- The items of an array, each decoded. -/
def list? {α : Type} (decode : Json → Option α) : Json → Option (List α)
  | .arr items => items.mapM decode
  | _ => none

/-- The name of a variant and its body, if it has one. -/
def variant? : Json → Option (String × Option Json)
  | .str name => some (name, none)
  | .obj [(name, body)] => some (name, some body)
  | _ => none

/-- The name of a variant without a body; a null may stand in its place. -/
def tag? (j : Json) : Option String :=
  match variant? j with
  | some (name, none) => some name
  | some (name, some .null) => some name
  | _ => none

/-- The name of a variant without a body, by the rules of its form: in TOML, what is
empty may stand in the place of the body. -/
def Form.tag? (form : Form) (j : Json) : Option String :=
  match form, variant? j with
  | .toml, some (name, some (.obj [])) => some name
  | .toml, some (name, some (.arr [])) => some name
  | _, _ => j.tag?

/-- The name of a variant and the body it has to have. -/
def tagged? (j : Json) : Option (String × Json) :=
  match variant? j with
  | some (name, some body) => some (name, body)
  | _ => none

/-- A document or null. -/
def ofOption {α : Type} (encode : α → Json) : Option α → Json
  | some a => encode a
  | none => .null

/-- An array of encoded items. -/
def ofList {α : Type} (encode : α → Json) (items : List α) : Json :=
  .arr (items.map encode)

/-- An unsigned number as a document. -/
def ofWord (n : UInt64) : Json :=
  .int n.toNat

/-- A text for each of a list. -/
def ofStrings (items : List String) : Json :=
  ofList .str items

/-- The texts of an array. -/
def strings? : Json → Option (List String) :=
  list? str?

/-- Reads a word by its spelling. -/
def ofName {α : Type} (read : String → Option α) (j : Json) : Option α :=
  j.tag?.bind read

end SqlQuery.Json
