import SqlQuery.Proofs.Json.Record
import SqlQuery.Proofs.Json.Value
import SqlQuery.Proofs.Schema.Registration
import SqlQuery.Query.Codec
import SqlQuery.Schema.Codec

/-!
# Queries and schemas that are written are read back

The reader of a type and its writer are two definitions, and a field that one of them names
otherwise, or a default that is not the value left out, would lose a part of a query in silence.
Each section below is about one type and says that its reader, given what its writer wrote,
answers with the value that was written. The only condition is on the values inside: they are
*plain*, which is what keeps two of them from the same document.

Filters, inclusions and queries are trees, and their readers go down a document level by level.
What is written for a part of a tree has fewer levels than what is written for the tree
(`Query.depth_lt_toJson` and its like), so the levels do not run out.

> `documents_round_trip`: queries, lists of nested writes and schemas are read back.
-/

namespace SqlQuery

open Json

/-! ## Filters -/

/-- A condition on a plain value is read back. -/
theorem Condition.ofJson?_toJson {c : Condition} (h : c.value.Plain) :
    Condition.ofJson? c.toJson = some c := by
  have haggregate : nullable (ofName AggregateFunction.ofName?)
      (ofOption (fun f : AggregateFunction => .str f.name) c.aggregate) = some c.aggregate :=
    nullable_ofOption fun f _ => ⟨by simp, AggregateFunction.ofName?_name f⟩
  rw [ofJson?, toJson, record?_obj (by rfl) (by decide)]
  simp [Record.need, Record.orElse, Record.maybe, List.lookup_cons, str?, ofName_str,
    Operator.ofName?_name, CaseMode.ofName?_name, Value.ofJson?_toJson h, haggregate]

/-- A filter in which every value is plain. -/
inductive Filter.Plain : Filter → Prop where
  | mk {op : LogicalOp} {conditions : List Condition} {nested : List Filter} :
      (∀ c ∈ conditions, c.value.Plain) → (∀ f ∈ nested, Plain f) → Plain ⟨op, conditions, nested⟩

namespace Filter

/-- Filters are written as a list of documents. -/
theorem listToJson_eq (fs : List Filter) : Json.arr (listToJson fs) = ofList toJson fs := by
  have hmap : listToJson fs = fs.map toJson := by
    induction fs with
    | nil => rfl
    | cons f rest ih => rw [listToJson, ih, List.map_cons]
  rw [hmap, ofList]

/-- The document of a group is less deep than that of its filter. -/
theorem depth_lt_toJson {f g : Filter} (h : g ∈ f.nested) : g.toJson.depth < f.toJson.depth := by
  obtain ⟨op, conditions, nested⟩ := f
  have hitem : g.toJson.depth < (Json.arr (listToJson nested)).depth := by
    rw [listToJson_eq]
    exact depth_lt_arr (List.mem_map_of_mem h)
  have hmember : (Json.arr (listToJson nested)).depth < (toJson ⟨op, conditions, nested⟩).depth :=
    depth_lt_obj "nested" (by simp)
  omega

theorem ofJsonWithin?_toJson {f : Filter} (h : f.Plain) :
    ∀ {fuel : Nat}, f.toJson.depth < fuel → ofJsonWithin? fuel f.toJson = some f := by
  induction h with
  | @mk op conditions nested hconditions _ ih =>
    intro fuel hfuel
    cases fuel with
    | zero => omega
    | succ fuel =>
      have hread : list? Condition.ofJson? (ofList Condition.toJson conditions) = some conditions :=
        list?_ofList fun c hc => Condition.ofJson?_toJson (hconditions c hc)
      have hnested : list? (ofJsonWithin? fuel) (.arr (listToJson nested)) = some nested := by
        rw [listToJson_eq]
        refine list?_ofList fun g hg => ih g hg ?_
        have hdepth := depth_lt_toJson (f := ⟨op, conditions, nested⟩) hg
        omega
      -- the record has the fields that are known, and every one of them reads back
      rw [ofJsonWithin?, toJson, record?_obj (by rfl) (by decide)]
      simp [Record.orElse, List.lookup_cons, ofName_str, LogicalOp.ofName?_name, hread, hnested]

/-- A filter of plain values is read back from its document. -/
theorem ofJson?_toJson {f : Filter} (h : f.Plain) : ofJson? f.toJson = some f :=
  ofJsonWithin?_toJson h (Nat.lt_succ_self _)

end Filter

/-! ## Written data -/

/-- A row in which every value is plain. -/
def Row.Plain (row : Row) : Prop :=
  ∀ e ∈ row, e.2.Plain

/-- A row of plain values is read back in order. -/
theorem Row.ofJson?_toJson {row : Row} (h : Row.Plain row) :
    Row.ofJson? (Row.toJson row) = some row := by
  refine list?_ofList fun e he => ?_
  rw [fieldToJson, fieldOfJson?, Value.ofJson?_toJson (h e he)]
  rfl

/-- Rows of plain values are read back in order. -/
theorem Row.list?_ofList {rows : List Row} (h : ∀ row ∈ rows, Row.Plain row) :
    list? Row.ofJson? (ofList Row.toJson rows) = some rows :=
  Json.list?_ofList fun row hrow => Row.ofJson?_toJson (h row hrow)

/-- A payload in which every value is plain. -/
inductive Payload.Plain : Payload → Prop where
  | none : Plain .none
  | create {row : Row} : Row.Plain row → Plain (.create row)
  | createMany {rows : List Row} : (∀ row ∈ rows, Row.Plain row) → Plain (.createMany rows)
  | update {row : Row} : Row.Plain row → Plain (.update row)
  | upsert {keys : List String} {create update : Row} : Row.Plain create → Row.Plain update →
      Plain (.upsert keys create update)

/-- What has a body is no payload without data. -/
theorem Payload.ofJson?_obj (form : Form) {name : String} {body : Json} (h : body ≠ .null) :
    Payload.ofJson? form (.obj [(name, body)]) = taggedOfJson? form (.obj [(name, body)]) := by
  rw [ofJson?, tag?_obj h]
  exact if_neg (by simp)

/-- A payload is read back by its tag. -/
theorem Payload.ofJson?_toJson (form : Form) {p : Payload} (h : p.Plain) :
    Payload.ofJson? form p.toJson = some p := by
  cases h with
  | none => rfl
  | create hrow | update hrow =>
    rw [toJson, ofJson?_obj form (by simp [Row.toJson, ofList])]
    simp [taggedOfJson?, tagged?_obj, Row.ofJson?_toJson hrow]
  | createMany hrows =>
    rw [toJson, ofJson?_obj form (by simp [ofList])]
    simp [taggedOfJson?, tagged?_obj, Row.list?_ofList hrows]
  | @upsert keys create update hcreate hupdate =>
    have hrecord : (Json.obj [("keys", ofStrings keys), ("create", Row.toJson create),
        ("update", Row.toJson update)]).record? ["keys", "create", "update"] = some _ :=
      record?_obj rfl (by decide)
    rw [toJson, ofJson?_obj form (by simp)]
    simp [taggedOfJson?, tagged?_obj, Form.body?_obj, hrecord, Record.need, List.lookup_cons,
      strings?_ofStrings, Row.ofJson?_toJson hcreate, Row.ofJson?_toJson hupdate]

/-- A change to a relation in which every value is plain. -/
inductive RelationChange.Plain : RelationChange → Prop where
  | create {row : Row} : Row.Plain row → Plain (.create row)
  | createMany {rows : List Row} : (∀ row ∈ rows, Row.Plain row) → Plain (.createMany rows)
  | connect {f : Filter} : f.Plain → Plain (.connect f)
  | connectOrCreate {f : Filter} {create : Row} : f.Plain → Row.Plain create →
      Plain (.connectOrCreate f create)
  | disconnect {f : Filter} : f.Plain → Plain (.disconnect f)
  | set {f : Filter} : f.Plain → Plain (.set f)
  | update {f : Filter} {data : Row} : f.Plain → Row.Plain data → Plain (.update f data)
  | updateMany {f : Filter} {data : Row} : f.Plain → Row.Plain data → Plain (.updateMany f data)
  | delete {f : Filter} : f.Plain → Plain (.delete f)
  | deleteMany {f : Filter} : f.Plain → Plain (.deleteMany f)
  | upsert {f : Filter} {create update : Row} : f.Plain → Row.Plain create → Row.Plain update →
      Plain (.upsert f create update)

/-- A change to a relation is read back by its tag. -/
theorem RelationChange.ofJson?_toJson (form : Form) {c : RelationChange} (h : c.Plain) :
    RelationChange.ofJson? form c.toJson = some c := by
  cases h with
  | create hrow =>
    simp [toJson, ofJson?, kind, Kind.name, tagged?_obj, Row.ofJson?_toJson hrow]
  | createMany hrows =>
    simp [toJson, ofJson?, kind, Kind.name, tagged?_obj, Row.list?_ofList hrows]
  | connect hf | disconnect hf | set hf | delete hf | deleteMany hf =>
    simp [toJson, ofJson?, kind, Kind.name, tagged?_obj, Filter.ofJson?_toJson hf]
  | @connectOrCreate f create hf hcreate =>
    have hrecord : (Json.obj [("filter", f.toJson), ("create", Row.toJson create)]).record?
        ["filter", "create"] = some _ := record?_obj rfl (by decide)
    simp [toJson, ofJson?, kind, Kind.name, tagged?_obj, Form.body?_obj, hrecord,
      Record.need, List.lookup_cons, Filter.ofJson?_toJson hf, Row.ofJson?_toJson hcreate]
  | @update f data hf hdata | @updateMany f data hf hdata =>
    have hrecord : (Json.obj [("filter", f.toJson), ("data", Row.toJson data)]).record?
        ["filter", "data"] = some _ := record?_obj rfl (by decide)
    simp [toJson, ofJson?, kind, Kind.name, tagged?_obj, Form.body?_obj, hrecord,
      Record.need, List.lookup_cons, Filter.ofJson?_toJson hf, Row.ofJson?_toJson hdata]
  | @upsert f create update hf hcreate hupdate =>
    have hrecord : (Json.obj [("filter", f.toJson), ("create", Row.toJson create),
        ("update", Row.toJson update)]).record? ["filter", "create", "update"] = some _ :=
      record?_obj rfl (by decide)
    simp [toJson, ofJson?, kind, Kind.name, tagged?_obj, Form.body?_obj, hrecord,
      Record.need, List.lookup_cons, Filter.ofJson?_toJson hf, Row.ofJson?_toJson hcreate,
      Row.ofJson?_toJson hupdate]

/-- A write to a relation is read back. -/
theorem NestedWrite.ofJson?_toJson (form : Form) {w : NestedWrite} (h : w.change.Plain) :
    NestedWrite.ofJson? form w.toJson = some w := by
  rw [ofJson?, toJson, record?_obj (by rfl) (by decide)]
  simp [Record.need, List.lookup_cons, str?, RelationChange.ofJson?_toJson form h]

/-! ## Parts of queries -/

theorem Ordering.ofJson?_toJson (o : Ordering) : Ordering.ofJson? o.toJson = some o := by
  rw [ofJson?, toJson, record?_obj (by rfl) (by decide)]
  simp [Record.need, Record.orElse, List.lookup_cons, str?, ofName_str, SortOrder.ofName?_name]

/-- A cursor with a plain value is read back. -/
theorem Cursor.ofJson?_toJson {c : Cursor} (h : c.value.Plain) :
    Cursor.ofJson? c.toJson = some c := by
  rw [ofJson?, toJson, record?_obj (by rfl) (by decide)]
  simp [Record.need, List.lookup_cons, str?, Value.ofJson?_toJson h]

theorem Aggregation.ofJson?_toJson (a : Aggregation) : Aggregation.ofJson? a.toJson = some a := by
  rw [ofJson?, toJson, record?_obj (by rfl) (by decide)]
  simp [Record.need, Record.orElse, List.lookup_cons, str?, ofName_str,
    AggregateFunction.ofName?_name]

/-! ## Queries and inclusions -/

mutual

/-- A query in which every value is plain, those of its inclusions included. -/
inductive Query.Plain : Query → Prop where
  | mk {q : Query} : q.filter.Plain → (∀ i ∈ q.inclusions, Inclusion.Plain i) →
      (∀ c ∈ q.cursor, c.value.Plain) → q.having.Plain → q.payload.Plain →
      (∀ w ∈ q.writes, w.change.Plain) → Query.Plain q

/-- An inclusion in which every value is plain, those of the inclusions below it included. -/
inductive Inclusion.Plain : Inclusion → Prop where
  | mk {i : Inclusion} : (∀ q ∈ i.query, Query.Plain q) → (∀ j ∈ i.nested, Inclusion.Plain j) →
      Inclusion.Plain i

end

/-- Inclusions are written as a list of documents. -/
theorem Inclusion.listToJson_eq (is : List Inclusion) :
    Json.arr (listToJson is) = ofList toJson is := by
  have hmap : listToJson is = is.map toJson := by
    induction is with
    | nil => rfl
    | cons i rest ih => rw [listToJson, ih, List.map_cons]
  rw [hmap, ofList]

/-- The document of an inclusion, field by field. -/
theorem Inclusion.toJson_eq (i : Inclusion) :
    i.toJson = .obj [("relation", .str i.relation), ("query", ofOption Query.toJson i.query),
      ("include", .bool i.projects), ("nested", ofList toJson i.nested)] := by
  obtain ⟨relation, query, projects, nested⟩ := i
  rw [toJson, listToJson_eq]
  cases query <;> rfl

/-- The fields of the document of a query. -/
def Query.members (q : Query) : Record :=
  [("model", .str q.model), ("operation", .str q.operation.name),
    ("selection", ofStrings q.selection), ("filter", q.filter.toJson),
    ("include", ofList Inclusion.toJson q.inclusions),
    ("order_by", ofList Ordering.toJson q.orderBy), ("skip", ofOption ofWord q.skip),
    ("take", ofOption ofWord q.take), ("cursor", ofOption Cursor.toJson q.cursor),
    ("group_by", ofStrings q.groupBy), ("having", q.having.toJson),
    ("distinct", ofStrings q.distinct),
    ("aggregations", ofList Aggregation.toJson q.aggregations),
    ("payload", q.payload.toJson), ("writes", ofList NestedWrite.toJson q.writes),
    ("throw_if_not_found", .bool q.throwIfNotFound)]

/-- A query is written as its members. -/
theorem Query.toJson_eq (q : Query) : q.toJson = .obj q.members := by
  obtain ⟨⟩ := q
  rw [toJson, Inclusion.listToJson_eq]
  rfl

/-- The document of an inclusion is less deep than that of its query. -/
theorem Query.depth_lt_toJson {q : Query} {i : Inclusion} (h : i ∈ q.inclusions) :
    i.toJson.depth < q.toJson.depth := by
  have hitem : i.toJson.depth < (ofList Inclusion.toJson q.inclusions).depth :=
    depth_lt_arr (List.mem_map_of_mem h)
  have hmember : (ofList Inclusion.toJson q.inclusions).depth < q.toJson.depth := by
    rw [q.toJson_eq]
    exact depth_lt_obj "include" (by simp [members])
  omega

/-- The document of a nested inclusion is less deep than that of the one above. -/
theorem Inclusion.depth_lt_toJson {i j : Inclusion} (h : j ∈ i.nested) :
    j.toJson.depth < i.toJson.depth := by
  have hitem : j.toJson.depth < (ofList toJson i.nested).depth :=
    depth_lt_arr (List.mem_map_of_mem h)
  have hmember : (ofList toJson i.nested).depth < i.toJson.depth := by
    rw [i.toJson_eq]
    exact depth_lt_obj "nested" (by simp)
  omega

/-- The document of an inclusion's query is less deep than that of the inclusion. -/
theorem Inclusion.depth_query_lt_toJson {i : Inclusion} {q : Query} (h : q ∈ i.query) :
    q.toJson.depth < i.toJson.depth := by
  have hquery : ofOption Query.toJson i.query = q.toJson := by
    rw [Option.mem_def.mp h]
    rfl
  rw [i.toJson_eq, hquery]
  exact depth_lt_obj "query" (by simp)

-- on the plainness of both: a query is in its inclusions, and an inclusion has a query
mutual

/-- A query is read back with fuel for its depth, member by member. -/
theorem Query.ofJsonWithin?_toJson (form : Form) {q : Query} (h : q.Plain) {fuel : Nat}
    (hfuel : q.toJson.depth < fuel) : Query.ofJsonWithin? form fuel q.toJson = some q := by
  cases h with
  | mk hfilter hinclusions hcursor hhaving hpayload hwrites =>
    cases fuel with
    | zero => omega
    | succ fuel =>
      have hword (n : Option UInt64) : nullable word? (ofOption ofWord n) = some n :=
        nullable_ofOption fun k _ => ⟨by simp [ofWord], word?_ofWord k⟩
      -- one reading for every field, in the order of the record
      have hmodel : q.members.need "model" str? = some q.model := rfl
      have hoperation : q.members.need "operation" (ofName Operation.ofName?)
          = some q.operation := Operation.ofName?_name _
      have hselection : q.members.orElse "selection" [] strings? = some q.selection :=
        strings?_ofStrings _
      have hfilter : q.members.orElse "filter" {} Filter.ofJson? = some q.filter :=
        Filter.ofJson?_toJson hfilter
      have hinclusions : q.members.orElse "include" [] (list? (Inclusion.ofJsonWithin? form fuel))
          = some q.inclusions := by
        refine list?_ofList fun i hi => Inclusion.ofJsonWithin?_toJson form (hinclusions i hi) ?_
        have hdepth := Query.depth_lt_toJson hi
        omega
      have horder : q.members.orElse "order_by" [] (list? Ordering.ofJson?) = some q.orderBy :=
        list?_ofList fun o _ => o.ofJson?_toJson
      have hskip : q.members.maybe "skip" word? = some q.skip := hword _
      have htake : q.members.maybe "take" word? = some q.take := hword _
      have hcursor : q.members.maybe "cursor" Cursor.ofJson? = some q.cursor :=
        nullable_ofOption fun c hc =>
          ⟨by simp [Cursor.toJson], Cursor.ofJson?_toJson (hcursor c hc)⟩
      have hgroupBy : q.members.orElse "group_by" [] strings? = some q.groupBy :=
        strings?_ofStrings _
      have hhaving : q.members.orElse "having" {} Filter.ofJson? = some q.having :=
        Filter.ofJson?_toJson hhaving
      have hdistinct : q.members.orElse "distinct" [] strings? = some q.distinct :=
        strings?_ofStrings _
      have haggregations : q.members.orElse "aggregations" [] (list? Aggregation.ofJson?)
          = some q.aggregations := list?_ofList fun a _ => a.ofJson?_toJson
      have hpayload : q.members.orElse "payload" .none (Payload.ofJson? form) = some q.payload :=
        Payload.ofJson?_toJson form hpayload
      have hwrites : q.members.orElse "writes" [] (list? (NestedWrite.ofJson? form))
          = some q.writes :=
        list?_ofList fun w hw => NestedWrite.ofJson?_toJson form (hwrites w hw)
      have hthrow : q.members.orElse "throw_if_not_found" false bool?
          = some q.throwIfNotFound := rfl
      rw [Query.ofJsonWithin?, q.toJson_eq, record?_obj (by rfl) (by decide),
        Option.bind_eq_bind, Option.bind_some]
      rw [hmodel, hoperation, hselection, hfilter, hinclusions, horder, hskip, htake, hcursor,
        hgroupBy, hhaving, hdistinct, haggregations, hpayload, hwrites, hthrow]
      exact congrArg some q.eta

/-- An inclusion is read back with fuel for its depth, member by member. -/
theorem Inclusion.ofJsonWithin?_toJson (form : Form) {i : Inclusion} (h : i.Plain) {fuel : Nat}
    (hfuel : i.toJson.depth < fuel) : Inclusion.ofJsonWithin? form fuel i.toJson = some i := by
  cases h with
  | mk hquery hnested =>
    cases fuel with
    | zero => omega
    | succ fuel =>
      have hread : nullable (Query.ofJsonWithin? form fuel) (ofOption Query.toJson i.query)
          = some i.query := by
        refine nullable_ofOption fun q hq => ⟨by simp [q.toJson_eq], ?_⟩
        have hdepth := Inclusion.depth_query_lt_toJson hq
        exact Query.ofJsonWithin?_toJson form (hquery q hq) (by omega)
      have hbelow : list? (Inclusion.ofJsonWithin? form fuel) (ofList Inclusion.toJson i.nested)
          = some i.nested := by
        refine list?_ofList fun j hj => Inclusion.ofJsonWithin?_toJson form (hnested j hj) ?_
        have hdepth := Inclusion.depth_lt_toJson hj
        omega
      rw [Inclusion.ofJsonWithin?, i.toJson_eq, record?_obj (by rfl) (by decide)]
      simp [Record.need, Record.orElse, Record.maybe, List.lookup_cons, str?, bool?, hread, hbelow,
        i.eta]

end

/-- A query of plain values is read back from its document. -/
theorem Query.ofJson?_toJson (form : Form) {q : Query} (h : q.Plain) :
    Query.ofJson? form q.toJson = some q :=
  Query.ofJsonWithin?_toJson form h (Nat.lt_succ_self _)

/-! ## Schemas -/

/-- A field is read back, with its column if it has one of its own. -/
theorem FieldDef.ofJson?_toJson (form : Form) (f : FieldDef) :
    FieldDef.ofJson? form f.toJson = some f := by
  have hcolumn : nullable str? (ofOption .str f.column) = some f.column :=
    nullable_ofOption fun column _ => ⟨by simp, rfl⟩
  rw [ofJson?, toJson, Form.record?_obj, record?_obj (by rfl) (by decide)]
  simp [Record.need, Record.orElse, Record.maybe, List.lookup_cons, str?, hcolumn]

theorem Relation.ofJson?_toJson (form : Form) (r : Relation) :
    Relation.ofJson? form r.toJson = some r := by
  rw [ofJson?, toJson, Form.record?_obj, record?_obj (by rfl) (by decide)]
  simp [Record.need, List.lookup_cons, str?, strings?_ofStrings, Form.tag?_str,
    RelationKind.ofName?_name]

theorem Model.ofJson?_toJson (form : Form) (m : Model) :
    Model.ofJson? form m.toJson = some m := by
  have hfields : list? (FieldDef.ofJson? form) (ofList FieldDef.toJson m.fields) = some m.fields :=
    list?_ofList fun f _ => f.ofJson?_toJson form
  have hrelations : list? (Relation.ofJson? form) (ofList Relation.toJson m.relations)
      = some m.relations := list?_ofList fun r _ => r.ofJson?_toJson form
  rw [ofJson?, toJson, Form.record?_obj, record?_obj (by rfl) (by decide)]
  simp [Record.need, Record.orElse, List.lookup_cons, str?, hfields, hrelations]

/-- A schema is read by registering its models again. -/
theorem Schema.ofJson?_toJson (form : Form) (s : Schema) :
    Schema.ofJson? form s.toJson = some (ofModels s.models) := by
  have hmodels : list? (Model.ofJson? form) (ofList Model.toJson s.models) = some s.models :=
    list?_ofList fun m _ => m.ofJson?_toJson form
  rw [ofJson?, toJson, Form.record?_obj, record?_obj (by rfl) (by decide)]
  simp [Record.orElse, hmodels]

/-! ## Documents of every kind -/

/-- In whatever form a document comes in: a query is read back from its document, and so is a list
of nested writes, where the values inside are plain; and so is every schema that was reached by
registrations, with the index that it had, which is not written. -/
theorem documents_round_trip (form : Form) :
    (∀ q : Query, q.Plain → Query.ofJson? form q.toJson = some q) ∧
      (∀ ws : List NestedWrite, (∀ w ∈ ws, w.change.Plain) →
        list? (NestedWrite.ofJson? form) (ofList NestedWrite.toJson ws) = some ws) ∧
      ∀ (added : List Model) (s : Schema), s.Reached added →
        Schema.ofJson? form s.toJson = some s := by
  refine ⟨fun q h => Query.ofJson?_toJson form h, ?_, ?_⟩
  · intro ws h
    exact list?_ofList fun w hw => NestedWrite.ofJson?_toJson form (h w hw)
  · intro added s h
    rw [Schema.ofJson?_toJson, (Schema.inStep_of_reached h).ofModels_models]

/-- A purge of readers that asks for their late books, and a schema in which readers were
registered a second time. -/
theorem documents_round_trip_purge :
    let late : Condition := { field := "late", op := .isIn, value := .array [.bool true, .null] }
    let tagged : Condition :=
      { field := "id", op := .gt, value := .json (.obj [("a", .int 1), ("b", .str "x")])
        aggregate := some .count }
    let books : Query :=
      { model := "Book", operation := .findMany, selection := ["late"]
        filter := .not [.or [late]] }
    let q : Query :=
      { model := "Reader", operation := .deleteMany, filter := .and [late]
        inclusions := [{ relation := "books", query := some books, projects := false
                         nested := [{ relation := "reader" }] }]
        orderBy := [{ field := "id", order := .desc }], skip := some 3
        cursor := some { field := "id", value := .int 7 }, having := .and [tagged]
        payload := .upsert ["id"] [("id", .int 7)] [("name", .string "a")]
        writes := [{ relation := "books", change := .updateMany (.and [late]) [("late", .null)] }] }
    let readers : Model :=
      { name := "Reader", table := "readers", fields := [{ name := "id", column := some "key" }]
        relations := [{ name := "books", toModel := "Book", fromFields := ["id"]
                        toFields := ["reader"], kind := .oneToMany }] }
    let others : Model := { readers with table := "people" }
    let s := ((Schema.ofModels [readers]).add { name := "Book", table := "books" }).add others
    Query.ofJson? .tree q.toJson = some q ∧
      list? (NestedWrite.ofJson? .tree) (ofList NestedWrite.toJson q.writes) = some q.writes ∧
      Schema.ofJson? .tree s.toJson = some s ∧ s.table "Reader" = .ok "people" := by
  intro late tagged books q readers others s
  obtain ⟨hquery, hwrites, hschema⟩ := documents_round_trip .tree
  have hlate : late.value.Plain := .array (by simp [Value.Plain.bool, Value.Plain.null])
  have hlateFilter (op : LogicalOp) : Filter.Plain ⟨op, [late], []⟩ :=
    .mk (by simp [hlate]) (by simp)
  have hempty : Filter.Plain {} := .mk (by simp) (by simp)
  have htagged : tagged.value.Plain :=
    .json (.obj (by decide) (by simp [Json.Tidy.int, Json.Tidy.str]))
  have hdenied : books.filter.Plain :=
    .mk (by simp) fun f hf => by
      obtain rfl := List.mem_singleton.mp hf
      exact hlateFilter .or
  have hbooks : books.Plain :=
    .mk hdenied (by simp [books]) (by simp [books]) hempty .none (by simp [books])
  have hinclusion : ∀ i ∈ q.inclusions, i.Plain := by
    intro i hi
    obtain rfl := List.mem_singleton.mp hi
    refine .mk (by simpa using hbooks) fun j hj => ?_
    obtain rfl := List.mem_singleton.mp hj
    exact .mk (by simp) (by simp)
  have hwrite : ∀ w ∈ q.writes, w.change.Plain := by
    intro w hw
    obtain rfl := List.mem_singleton.mp hw
    exact .updateMany (hlateFilter .and) (by simp [Row.Plain, Value.Plain.null])
  have hpayload : q.payload.Plain :=
    .upsert (by simp [Row.Plain, Value.Plain.int]) (by simp [Row.Plain, Value.Plain.string])
  have hhaving : q.having.Plain := .mk (by simpa [q] using htagged) (by simp)
  have hplain : q.Plain :=
    .mk (hlateFilter .and) hinclusion (by simp [q, Value.Plain.int]) hhaving hpayload hwrite
  have hreached : s.Reached _ := .add others (.add _ (.define [readers]))
  exact ⟨hquery q hplain, hwrites _ hwrite, hschema _ s hreached, by decide⟩

end SqlQuery
