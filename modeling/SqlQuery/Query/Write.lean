import SqlQuery.Query.Filter

/-!
# Written data and nested writes

A row of data is a list of fields with their values, in the order in which they
were set; that order is the order of columns and placeholders. A nested write
changes the rows of a relation of one parent row.
-/

namespace SqlQuery

/-- The first text of a list that also stands before itself. -/
def firstRepeat (seen : List String) : List String → Option String
  | [] => none
  | s :: rest => if s ∈ seen then some s else firstRepeat (s :: seen) rest

/-- Fields and their values, in order. -/
abbrev Row := List (String × Value)

namespace Row

/-- The names of the fields, in order. -/
def fields (r : Row) : List String :=
  r.map (·.1)

/-- The values, in order. -/
def values (r : Row) : List Value :=
  r.map (·.2)

/-- The value of the first field of a name. -/
def get? (r : Row) (field : String) : Option Value :=
  (r.find? (·.1 == field)).map (·.2)

/-- The row with one more field at its end. -/
def set (r : Row) (field : String) (value : Value) : Row :=
  r ++ [(field, value)]

/-- The first field that is named a second time. -/
def repeatedField? (r : Row) : Option String :=
  firstRepeat [] r.fields

end Row

/-- The data that a query writes. -/
inductive Payload where
  | none
  | create (row : Row)
  | createMany (rows : List Row)
  | update (row : Row)
  | upsert (keys : List String) (create update : Row)
deriving DecidableEq, Repr, Inhabited

/-- The kinds of payload. -/
inductive Payload.Kind where
  | none
  | create
  | createMany
  | update
  | upsert
deriving DecidableEq, Repr, Inhabited

/-- The spelling of a kind of payload in messages. -/
def Payload.Kind.name : Payload.Kind → String
  | .none => "no"
  | .create => "create"
  | .createMany => "createMany"
  | .update => "update"
  | .upsert => "upsert"

/-- The kind of a payload. -/
def Payload.kind : Payload → Payload.Kind
  | .none => .none
  | .create _ => .create
  | .createMany _ => .createMany
  | .update _ => .update
  | .upsert .. => .upsert

/-- A change to the rows of a relation. -/
inductive RelationChange where
  | create (row : Row)
  | createMany (rows : List Row)
  | connect (filter : Filter)
  | connectOrCreate (filter : Filter) (create : Row)
  | disconnect (filter : Filter)
  | set (filter : Filter)
  | update (filter : Filter) (data : Row)
  | updateMany (filter : Filter) (data : Row)
  | delete (filter : Filter)
  | deleteMany (filter : Filter)
  | upsert (filter : Filter) (create update : Row)
deriving Repr, Inhabited

/-- The kinds of change to a relation. -/
inductive RelationChange.Kind where
  | create
  | createMany
  | connect
  | connectOrCreate
  | disconnect
  | set
  | update
  | updateMany
  | delete
  | deleteMany
  | upsert
deriving DecidableEq, Repr, Inhabited

/-- The spelling of a kind of change. -/
def RelationChange.Kind.name : RelationChange.Kind → String
  | .create => "create"
  | .createMany => "createMany"
  | .connect => "connect"
  | .connectOrCreate => "connectOrCreate"
  | .disconnect => "disconnect"
  | .set => "set"
  | .update => "update"
  | .updateMany => "updateMany"
  | .delete => "delete"
  | .deleteMany => "deleteMany"
  | .upsert => "upsert"

/-- The kind of a change. -/
def RelationChange.kind : RelationChange → RelationChange.Kind
  | .create _ => .create
  | .createMany _ => .createMany
  | .connect _ => .connect
  | .connectOrCreate .. => .connectOrCreate
  | .disconnect _ => .disconnect
  | .set _ => .set
  | .update .. => .update
  | .updateMany .. => .updateMany
  | .delete _ => .delete
  | .deleteMany _ => .deleteMany
  | .upsert .. => .upsert

/-- A change to the rows of one relation of a parent row. -/
structure NestedWrite where
  relation : String
  change : RelationChange
deriving Repr, Inhabited

end SqlQuery
