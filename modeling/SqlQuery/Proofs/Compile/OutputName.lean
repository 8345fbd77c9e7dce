import SqlQuery.Proofs.Compile.BoundValues
import SqlQuery.Proofs.Compile.Selection

/-!
# The names of returned columns

A joined column is returned under the alias of its join, an underscore and its field. No two
aliases are the same, but they have underscores of their own, so one name can be split in two
ways: an alias that goes on from another one takes over what the field of the other starts
with. A root column is returned under its field, which may be spelled like any of these names.

> `exists_of_outputName_eq`: two ways to split a name differ by what the longer alias takes
> over.

> `Query.nodup_columns_iff`: the names of a result differ exactly where no alias
> takes over the start of a field in such a way, and no root field is spelled like a name.
-/

namespace SqlQuery

open Sql

/-- The name under which a joined field is returned. -/
def outputName (aliasName field : String) : String :=
  aliasName ++ "_" ++ field

/-- An output name is the alias, an underscore and the field. -/
theorem toList_outputName (aliasName field : String) :
    (outputName aliasName field).toList = aliasName.toList ++ '_' :: field.toList := by
  rw [outputName, String.toList_append, String.toList_append, List.append_assoc]
  rfl

/-- Different fields of one join are returned under different names. -/
theorem outputName_injective (aliasName : String) : Function.Injective (outputName aliasName) :=
  fun _ _ h => (String.append_right_inj _).mp h

/-- A name goes on from an alias. -/
theorem ne_outputName (aliasName field : String) : aliasName ≠ outputName aliasName field := by
  intro h
  have hlength := congrArg List.length (congrArg String.toList h)
  rw [toList_outputName, List.length_append, List.length_cons] at hlength
  omega

/-- Two aliases make one name with their fields only where both are the same, or where the
longer alias goes on from the other one by what the field of the other starts with. -/
theorem exists_of_outputName_eq {a b f g : String} (h : outputName a f = outputName b g) :
    (a = b ∧ f = g) ∨ (∃ s, b = outputName a s ∧ f = outputName s g) ∨
      ∃ s, a = outputName b s ∧ g = outputName s f := by
  have htext := congrArg String.toList h
  rw [toList_outputName, toList_outputName] at htext
  -- what the one alias has more than the other stands before the underscore of the other
  have hlonger : ∀ {x y u v : String} {more : List Char},
      y.toList = x.toList ++ more → '_' :: u.toList = more ++ '_' :: v.toList →
        (x = y ∧ u = v) ∨ ∃ s, y = outputName x s ∧ u = outputName s v := by
    intro x y u v more hy hu
    cases more with
    | nil =>
      rw [List.append_nil] at hy
      exact Or.inl ⟨String.toList_inj.mp hy.symm, String.toList_inj.mp (List.cons.inj hu).2⟩
    | cons c more =>
      obtain ⟨rfl, htail⟩ := List.cons.inj hu
      refine Or.inr ⟨String.ofList more, String.toList_inj.mp ?_, String.toList_inj.mp ?_⟩
      · rw [toList_outputName, String.toList_ofList, hy]
      · rw [toList_outputName, String.toList_ofList]
        exact htail
  rcases List.append_eq_append_iff.mp htext with ⟨more, hb, hf⟩ | ⟨more, ha, hg⟩
  · exact (hlonger hb hf).imp_right Or.inl
  · rcases hlonger ha hg with ⟨hab, hfg⟩ | hlonger
    · exact Or.inl ⟨hab.symm, hfg.symm⟩
    · exact Or.inr (Or.inr hlonger)

/-- An alias that is made like an output name leaves open where it ends. -/
theorem outputName_outputName (a s g : String) :
    outputName (outputName a s) g = outputName a (outputName s g) := by
  simp only [outputName, String.append_assoc]

/-! ## The names of one join -/

namespace JoinNode

/-- The fields that a node returns. -/
def fields (n : JoinNode) : List String :=
  n.returned.fields.map (·.field)

/-- The names under which a node returns them. -/
def columns (n : JoinNode) : List String :=
  n.returned.fields.map (·.column)

/-- A node splits a field of another one where its alias goes on from that of the other by
what the field starts with, and the rest of the field is one that the node returns. -/
def Splits (n m : JoinNode) : Prop :=
  ∃ s, n.join.aliasName = outputName m.join.aliasName s ∧
    ∃ g ∈ n.fields, outputName s g ∈ m.fields

variable {env : Env} {m n : JoinNode}

/-- The names that a node returns its fields under. -/
theorem Compiled.columns_eq (h : n.Compiled env) :
    n.columns = n.fields.map (outputName n.join.aliasName) := by
  obtain ⟨wanted, -, hfields, -⟩ := h.returns.spec
  unfold columns fields
  rw [hfields, List.map_map, List.map_map, List.map_map]
  rfl

/-- Where a node returns fields, they are those that its inclusion asks for. -/
theorem Compiled.fields_eq (h : n.Compiled env) :
    n.fields = [] ∨ n.inclusion.wantedFields env.schema n.relation.toModel = .ok n.fields := by
  obtain ⟨wanted, hwanted, hfields, -⟩ := h.returns.spec
  have hown : n.fields = wanted := by
    unfold fields
    rw [hfields, List.map_map]
    exact List.map_id _
  rw [hown]
  exact hwanted

/-- The names of one join do not get in each other's way. -/
theorem not_splits_self (n : JoinNode) : ¬n.Splits n := by
  rintro ⟨s, hs, -⟩
  exact ne_outputName _ _ hs

/-- Two nodes with different aliases share a name exactly where one alias splits a field of the
other node. -/
theorem disjoint_columns_iff (hm : m.Compiled env) (hn : n.Compiled env)
    (hne : m.join.aliasName ≠ n.join.aliasName) :
    m.columns.Disjoint n.columns ↔ ¬m.Splits n ∧ ¬n.Splits m := by
  rw [hm.columns_eq, hn.columns_eq, List.disjoint_left]
  constructor
  · intro hdisjoint
    refine ⟨?_, ?_⟩
    · rintro ⟨s, hs, g, hg, hmem⟩
      refine hdisjoint (List.mem_map_of_mem hg) ?_
      rw [hs, outputName_outputName]
      exact List.mem_map_of_mem hmem
    · rintro ⟨s, hs, g, hg, hmem⟩
      refine hdisjoint (List.mem_map_of_mem hmem) ?_
      rw [← outputName_outputName, ← hs]
      exact List.mem_map_of_mem hg
  · rintro ⟨hmn, hnm⟩ name hname hname'
    obtain ⟨f, hf, rfl⟩ := List.mem_map.mp hname
    obtain ⟨g, hg, heq⟩ := List.mem_map.mp hname'
    rcases exists_of_outputName_eq heq with ⟨halias, -⟩ | ⟨s, hs, rfl⟩ | ⟨s, hs, rfl⟩
    · exact hne halias.symm
    · exact hmn ⟨s, hs, f, hf, hg⟩
    · exact hnm ⟨s, hs, g, hg, hf⟩

end JoinNode

/-! ## The names of all joins -/

/-- The names of some nodes with different aliases differ exactly where no alias splits a
field. -/
theorem nodup_columns_of_nodes {env : Env} {nodes : List JoinNode}
    (hcompiled : ∀ n ∈ nodes, n.Compiled env) (haliases : (nodes.map (·.join.aliasName)).Nodup)
    (hfields : ∀ n ∈ nodes, n.fields.Nodup) :
    (nodes.flatMap (·.columns)).Nodup ↔ ∀ m ∈ nodes, ∀ n ∈ nodes, ¬m.Splits n := by
  have hpairwise := List.pairwise_map.mp haliases
  rw [List.nodup_flatMap]
  constructor
  · rintro ⟨-, hdisjoint⟩ m hm n hn
    have : Std.Symm fun m n : JoinNode => ¬m.Splits n ∧ ¬n.Splits m := ⟨fun _ _ h => h.symm⟩
    refine (List.Pairwise.forall_of_forall (R := fun m n : JoinNode => ¬m.Splits n ∧ ¬n.Splits m)
      (fun n _ => ⟨n.not_splits_self, n.not_splits_self⟩) ?_ hm hn).1
    refine (hpairwise.and hdisjoint).imp_of_mem ?_
    rintro m n hm hn ⟨hne, hdisjoint⟩
    exact (JoinNode.disjoint_columns_iff (hcompiled m hm) (hcompiled n hn) hne).mp hdisjoint
  · intro hsplits
    refine ⟨?_, ?_⟩
    · intro n hn
      rw [(hcompiled n hn).columns_eq]
      exact (hfields n hn).map (outputName_injective _)
    · refine hpairwise.imp_of_mem ?_
      intro m n hm hn hne
      exact (JoinNode.disjoint_columns_iff (hcompiled m hm) (hcompiled n hn) hne).mpr
        ⟨hsplits m hm n hn, hsplits n hn m hm⟩

/-! ## The names of a result -/

namespace Query

variable {q : Query} {env : Env}

/-- The mapping of rows lists the selected fields before those of the joins. -/
theorem fields_of_rowItems {qualifier : Option String} {plan : JoinPlan}
    {items : List SelectItem} {fields : List FieldMapping}
    (h : q.rowItems env qualifier plan = .ok (items, fields)) :
    fields = (q.selectedFields env.dialect).map .root ++ plan.fields := by
  unfold rowItems at h
  obtain ⟨own, -, h⟩ := bind_eq_ok.mp h
  cases h
  rfl

/-- The names under which a query for rows returns columns: its own fields, and those of the
nodes of its inclusions. -/
theorem columns_of_compile {c : Compiled} (hfinds : q.operation.finds = true)
    (h : q.compile env = .ok c) :
    ∃ s nodes, c.statement = .select s ∧ s.joins = nodes.map (·.join) ∧
      Inclusion.AllJoinedAs env { model := q.model, aliasName := s.table } [s.table]
        q.inclusions nodes ∧
      c.mapping.fields.map (·.column)
        = q.selectedFields env.dialect ++ nodes.flatMap (·.columns) := by
  have hreads : q.operation.reads = true := by rw [Operation.reads, hfinds, Bool.true_or]
  obtain ⟨s, plan, hs, hselected⟩ := selectedAs_of_compile hreads h
  obtain ⟨nodes, hnodes, rfl⟩ := Inclusion.allJoinedAs_of_compileJoins hselected.plan_eq
  have hitems := hselected.items_eq
  rw [Operation.isAggregate_of_finds hfinds] at hitems
  refine ⟨s, nodes, hs, hselected.joins_eq, hnodes, ?_⟩
  have hroot : ((q.selectedFields env.dialect).map FieldMapping.root).map (·.column)
      = q.selectedFields env.dialect := by
    rw [List.map_map]
    exact List.map_id _
  rw [fields_of_rowItems hitems, List.map_append, hroot, planOf, List.map_flatMap]
  rfl

/-- Where neither the query nor an inclusion returns a field twice, the names of the result
differ exactly where no root field is spelled like the name of a joined one, and no joined
relation splits a field of another one. -/
theorem nodup_columns_iff {c : Compiled} (hfinds : q.operation.finds = true)
    (h : q.compile env = .ok c) :
    ∃ s nodes, c.statement = .select s ∧ s.joins = nodes.map (·.join) ∧
      Inclusion.AllJoinedAs env { model := q.model, aliasName := s.table } [s.table]
        q.inclusions nodes ∧
      ((q.selectedFields env.dialect).Nodup → (∀ n ∈ nodes, n.fields.Nodup) →
        ((c.mapping.fields.map (·.column)).Nodup ↔
          (∀ n ∈ nodes, ∀ f ∈ n.fields,
            outputName n.join.aliasName f ∉ q.selectedFields env.dialect) ∧
          ∀ m ∈ nodes, ∀ n ∈ nodes, ¬m.Splits n)) := by
  obtain ⟨s, nodes, hs, hjoins, hnodes, hcolumns⟩ := columns_of_compile hfinds h
  refine ⟨s, nodes, hs, hjoins, hnodes, fun hroot hfields => ?_⟩
  have hcompiled := hnodes.spec.2
  have haliases := (List.nodup_cons.mp hnodes.nodup).2
  rw [hcolumns, List.nodup_append', nodup_columns_of_nodes hcompiled haliases hfields]
  constructor
  · rintro ⟨-, hsplits, hdisjoint⟩
    refine ⟨fun n hn f hf hmem => ?_, hsplits⟩
    refine hdisjoint hmem (List.mem_flatMap.mpr ⟨n, hn, ?_⟩)
    rw [(hcompiled n hn).columns_eq]
    exact List.mem_map_of_mem hf
  · rintro ⟨hspelled, hsplits⟩
    refine ⟨hroot, hsplits, List.disjoint_right.mpr ?_⟩
    intro name hname
    obtain ⟨n, hn, hname⟩ := List.mem_flatMap.mp hname
    rw [(hcompiled n hn).columns_eq] at hname
    obtain ⟨f, hf, rfl⟩ := List.mem_map.mp hname
    exact hspelled n hn f hf

end Query

/-- Readers with their books, under fields of their own that are given. -/
def readersWithBooks (selection : List String) : Query :=
  let books : Query := { model := "Book", operation := .findMany, selection := ["late"] }
  { model := "Reader", operation := .findMany, selection
    inclusions := [{ relation := "books", query := some books }] }

/-- The name of a reader beside those of the reader's books. -/
theorem Query.nodup_columns_iff_books :
    ∃ (c : Compiled) (s : Select) (nodes : List JoinNode),
      (readersWithBooks ["name"]).compile { schema := librarySchema, dialect := .mysql } = .ok c ∧
        c.statement = .select s ∧ s.joins = nodes.map (·.join) ∧
        ((c.mapping.fields.map (·.column)).Nodup ↔
          (∀ n ∈ nodes, ∀ f ∈ n.fields, outputName n.join.aliasName f ∉ ["name"]) ∧
            ∀ m ∈ nodes, ∀ n ∈ nodes, ¬m.Splits n) := by
  obtain ⟨c, hc⟩ : ∃ c, (readersWithBooks ["name"]).compile
      { schema := librarySchema, dialect := .mysql } = .ok c := ⟨_, rfl⟩
  obtain ⟨s, nodes, hs, hjoins, hnodes, hiff⟩ := Query.nodup_columns_iff (by decide) hc
  refine ⟨c, s, nodes, hc, hs, hjoins, hiff (by decide) ?_⟩
  -- the one inclusion selects a single field
  intro n hn
  have hinclusion : n.inclusion ∈ nodes.map (·.inclusion) := List.mem_map_of_mem hn
  rw [hnodes.inclusions] at hinclusion
  rcases (hnodes.spec.2 n hn).fields_eq with hnone | hwanted
  · rw [hnone]
    exact List.nodup_nil
  · rw [List.mem_singleton.mp hinclusion] at hwanted
    have hfields : ["late"] = n.fields := Except.ok.inj hwanted
    rw [← hfields]
    exact List.nodup_singleton _

/-- Selected beside its books, a field of the reader has the name of a field of the books. -/
theorem Query.columns_collide :
    ∃ c : Compiled,
      (readersWithBooks ["readers_books_late"]).compile
          { schema := librarySchema, dialect := .mysql } = .ok c ∧
        (readersWithBooks ["readers_books_late"]).selection.Nodup ∧
        (c.statement.prepare .mysql).sql
          = "SELECT readers.readers_books_late AS readers_books_late,"
            ++ " readers_books.late AS readers_books_late FROM readers"
            ++ " LEFT JOIN books AS readers_books ON readers_books.reader_id = readers.id" ∧
        ¬(c.mapping.fields.map (·.column)).Nodup := by
  have hcompiled : ((readersWithBooks ["readers_books_late"]).compile
        { schema := librarySchema, dialect := .mysql }).map
      (fun c => ((c.statement.prepare .mysql).sql, c.mapping.fields.map (·.column)))
      = .ok ("SELECT readers.readers_books_late AS readers_books_late,"
          ++ " readers_books.late AS readers_books_late FROM readers"
          ++ " LEFT JOIN books AS readers_books ON readers_books.reader_id = readers.id",
        ["readers_books_late", "readers_books_late"]) := by decide +kernel
  cases hc : (readersWithBooks ["readers_books_late"]).compile
      { schema := librarySchema, dialect := .mysql } with
  | error e =>
    rw [hc] at hcompiled
    cases hcompiled
  | ok c =>
    rw [hc] at hcompiled
    obtain ⟨hsql, hcolumns⟩ := Prod.mk.inj (Except.ok.inj hcompiled)
    refine ⟨c, rfl, by decide, hsql, ?_⟩
    rw [hcolumns]
    decide

end SqlQuery
