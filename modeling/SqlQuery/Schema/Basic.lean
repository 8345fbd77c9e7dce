import SqlQuery.Error
import SqlQuery.Text.EditDistance

/-!
# Schemas

A schema knows the models: their tables, the columns behind their fields, and
their relations. Models stand in the order of their first registration; one that
is registered again under the same name takes the place of the earlier one. Beside
them stands an index, which has for every name the place of its model.

Every lookup answers with what it found or with an error that names what is
missing and, where one is close, a name that exists. A model that declares no
fields accepts any field, as the column of the same name.
-/

namespace SqlQuery

/-- A field of a model and, where it differs, its column. -/
structure FieldDef where
  name : String
  column : Option String := none
deriving DecidableEq, Repr, Inhabited

/-- The column of a field. -/
def FieldDef.columnName (f : FieldDef) : String :=
  f.column.getD f.name

/-- How the rows of two models are related. -/
inductive RelationKind where
  | oneToOne
  | oneToMany
  | manyToOne
deriving DecidableEq, Repr, Inhabited

namespace RelationKind

/-- The spelling of a kind of relation in documents. -/
def name : RelationKind → String
  | .oneToOne => "one_to_one"
  | .oneToMany => "one_to_many"
  | .manyToOne => "many_to_one"

/-- The spelling of a kind of relation in listings. -/
def title : RelationKind → String
  | .oneToOne => "OneToOne"
  | .oneToMany => "OneToMany"
  | .manyToOne => "ManyToOne"

/-- Reads the spelling of a kind of relation. -/
def ofName? : String → Option RelationKind :=
  named? [.oneToOne, .oneToMany, .manyToOne] name

theorem ofName?_name (k : RelationKind) : ofName? k.name = some k := by
  cases k <;> decide

/-- Whether one row has many partners. -/
def isMany (k : RelationKind) : Bool :=
  k == .oneToMany

end RelationKind

/-- A relation to another model; the fields on both sides pair up in order. -/
structure Relation where
  name : String
  toModel : String
  fromFields : List String
  toFields : List String
  kind : RelationKind
deriving DecidableEq, Repr, Inhabited

/-- A model: its table, fields and relations. -/
structure Model where
  name : String
  table : String
  fields : List FieldDef := []
  relations : List Relation := []
deriving DecidableEq, Repr, Inhabited

namespace Model

/-- The names of the declared fields, in order. -/
def fieldNames (m : Model) : List String :=
  m.fields.map (·.name)

/-- The names of the declared relations, in order. -/
def relationNames (m : Model) : List String :=
  m.relations.map (·.name)

/-- The column of a field. A model without fields takes any name for a column, and
`*` stands for all columns of any model. -/
def column (m : Model) (field : String) : Except Error String :=
  if m.fields.isEmpty || field == "*" then .ok field
  else
    match m.fields.find? (·.name == field) with
    | some f => .ok f.columnName
    | none => .error (.unknownField m.name field (Text.closest? field m.fieldNames))

/-- The relation of a name. -/
def relation (m : Model) (name : String) : Except Error Relation :=
  match m.relations.find? (·.name == name) with
  | some r => .ok r
  | none => .error (.unknownRelation m.name name (Text.closest? name m.relationNames))

end Model

/-- The models that are known, in the order of their first registration, and where
the model of each name stands among them. -/
structure Schema where
  models : List Model := []
  index : List (String × Nat) := []
deriving DecidableEq, Repr, Inhabited

namespace Schema

/-- The names of the models, in order. -/
def names (s : Schema) : List String :=
  s.models.map (·.name)

/-- The place that the index has for a name. -/
def position? (s : Schema) (name : String) : Option Nat :=
  s.index.lookup name

/-- The schema with a model registered: in the place of the one with its name, or at
the end, where the index then leads. -/
def add (s : Schema) (m : Model) : Schema :=
  match s.position? m.name with
  | some i => { s with models := s.models.set i m }
  | none =>
    { models := s.models ++ [m], index := s.index ++ [(m.name, s.models.length)] }

/-- The schema of models registered one after the other. -/
def ofModels (models : List Model) : Schema :=
  models.foldl add {}

/-- The model to which the index leads from a name. -/
def model? (s : Schema) (name : String) : Option Model := do
  s.models[← s.position? name]?

/-- The model of a name. -/
def model (s : Schema) (name : String) : Except Error Model :=
  match s.model? name with
  | some m => .ok m
  | none => .error (.unknownModel name (Text.closest? name s.names))

/-- The table of a model. -/
def table (s : Schema) (model : String) : Except Error String := do
  return (← s.model model).table

/-- The column of a field of a model. -/
def column (s : Schema) (model field : String) : Except Error String := do
  (← s.model model).column field

/-- The relation of a model. -/
def relation (s : Schema) (model name : String) : Except Error Relation := do
  (← s.model model).relation name

/-- The names of the declared fields of a model, in order. -/
def fieldNames (s : Schema) (model : String) : Except Error (List String) := do
  return (← s.model model).fieldNames

/-- The declared relations of a model, in order. -/
def relations (s : Schema) (model : String) : Except Error (List Relation) := do
  return (← s.model model).relations

/-- The column of a field of a model, or of a table that no model describes, where
every field is its own column. -/
def columnOf (s : Schema) (model : Option String) (field : String) : Except Error String :=
  match model with
  | some m => s.column m field
  | none => .ok field

end Schema

end SqlQuery
