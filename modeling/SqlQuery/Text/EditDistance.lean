/-!
# Edit distance and the closest name

`editDistance` counts the insertions, deletions and replacements of characters
that turn one text into another, by the usual table of one row per character.
`closest?` picks among candidates the first one at the least distance, if that is
within the number of slips a name of that length is allowed.
-/

namespace SqlQuery.Text

/-- The next row of the table: `above` is the row before, `left` the entry to the
left of the first one to fill, `diagonal` the one above that. -/
def nextRow (c : Char) : (diagonal left : Nat) → List Char → List Nat → List Nat
  | diagonal, left, d :: ds, up :: above =>
    let here := if c = d then diagonal else 1 + min diagonal (min left up)
    here :: nextRow c up here ds above
  | _, _, _, _ => []

/-- The distances from a growing start of one text to every start of another;
`row` is the row reached so far. -/
def distanceRows (target : List Char) : (source : List Char) → (row : List Nat) → List Nat
  | [], row => row
  | c :: source, row =>
    match row with
    | [] => []
    | first :: above =>
      distanceRows target source ((first + 1) :: nextRow c first (first + 1) target above)

/-- The least number of insertions, deletions and replacements that turn `source`
into `target`. -/
def editDistance (source target : String) : Nat :=
  let row := distanceRows target.toList source.toList (List.range (target.toList.length + 1))
  row.getLast?.getD 0

/-- How many slips a name may have, by its length in bytes. -/
def allowedSlips (bytes : Nat) : Nat :=
  if bytes ≤ 2 then 0 else if bytes ≤ 5 then 2 else 3

/-- The first of the candidates that is nearer than all before it, among those
within `limit`; `best` is the nearest so far. -/
def nearest (name : String) (limit : Nat) :
    (best : Option (String × Nat)) → List String → Option String
  | best, [] => best.map (·.1)
  | best, c :: rest =>
    let d := editDistance name c
    let nearer := match best with
      | none => true
      | some b => decide (d < b.2)
    nearest name limit (if d ≤ limit && nearer then some (c, d) else best) rest

/-- The candidate that a mistaken name most likely meant. -/
def closest? (name : String) (candidates : List String) : Option String :=
  nearest name (allowedSlips name.utf8ByteSize) none candidates

end SqlQuery.Text
