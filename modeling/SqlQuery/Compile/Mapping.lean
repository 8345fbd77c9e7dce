/-!
# Where results belong

A mapping says how the rows of a result are shaped into records: which column
holds which field of which relation, and which relations were joined.
-/

namespace SqlQuery

/-- A column of the result and the field it holds; the path leads from the root
model to the relation of the field. -/
structure FieldMapping where
  column : String
  path : List String
  field : String
deriving DecidableEq, Repr, Inhabited

/-- A field of the root model, held by the column of its name. -/
def FieldMapping.root (name : String) : FieldMapping :=
  { column := name, path := [], field := name }

/-- A joined relation, and whether one row can have many of it. -/
structure RelationMapping where
  path : List String
  aliasName : String
  many : Bool
deriving DecidableEq, Repr, Inhabited

/-- How the rows of a result are shaped; without fields and relations they are the
rows of the model as they are. -/
structure ResultMapping where
  model : String
  fields : List FieldMapping := []
  relations : List RelationMapping := []
deriving DecidableEq, Repr, Inhabited

end SqlQuery
