import SqlQuery.Compile.Query
import SqlQuery.Proofs.Compile.BoundValues
import SqlQuery.Proofs.Sql.Template

/-!
# Where names come from

Every name in a compiled fragment is taken from the schema by way of a field that the query
is about, or is an alias of a relation that was joined. What counts as known is left open
here: `known` says for each role what a name may be, and each lemma asks for no more than its
fragment needs.

> `Filter.named_of_compiledTo`: a filter names columns of its fields, under its qualifier.

> `Inclusion.named_of_compileAll`: joins name tables and columns of their sites, under the
> aliases of their plan.
-/

namespace SqlQuery

open Sql

variable {known : Known}

/-- An optional name is known where the name is. -/
theorem optional_self {r : Role} {name : Option String} (h : ∀ n, name = some n → known r n) :
    Option.Rel ((named known).names r) name name := by
  cases name with
  | none => exact .none
  | some n => exact .some ⟨rfl, h n rfl⟩

/-- Any values are related, since only names are looked at. -/
theorem values_self (vs : List Value) : List.Forall₂ (named known).values vs vs :=
  List.forall₂_same.mpr fun _ _ => rfl

/-- The columns of some fields are known. -/
def Schema.Knows (schema : Schema) (known : Known) (model : Option String)
    (fields : List String) : Prop :=
  ∀ field ∈ fields, ∀ column, schema.columnOf model field = .ok column → known .column column

/-- What is known of fields is known of fewer of them. -/
theorem Schema.Knows.mono {schema : Schema} {model : Option String} {fields more : List String}
    (h : schema.Knows known model more) (hsub : fields ⊆ more) :
    schema.Knows known model fields :=
  fun field hfield => h field (hsub hfield)

/-! ## Filters -/

/-- The fields that a filter is about, in order. -/
def Filter.fields (f : Filter) : List String :=
  f.allConditions.map (·.field)

/-- The columns of some fields are known in a scope, and so is what stands before them. -/
structure FilterScope.Knows (env : Env) (scope : FilterScope) (known : Known)
    (fields : List String) : Prop where
  qualifier : ∀ q, scope.qualifier = some q → known .qualifier q
  column : env.schema.Knows known scope.model fields

/-- Where nothing is joined, only the columns have to be known. -/
theorem FilterScope.Knows.unqualified {env : Env} {model : Option String} {fields : List String}
    (h : env.schema.Knows known model fields) :
    FilterScope.Knows env { model } known fields where
  qualifier _ hq := by cases hq
  column := h

namespace Condition

variable {c : Condition} {env : Env} {scope : FilterScope} {lhs : Operand} {a : Atom}

/-- An operand names the column of its condition's field. -/
theorem named_of_operand (hknows : scope.Knows env known [c.field])
    (h : c.operand env scope = .ok lhs) : lhs.Alike (named known) lhs := by
  unfold operand columnRef at h
  obtain ⟨ref, href, h⟩ := bind_eq_ok.mp h
  obtain ⟨column, hcolumn, href⟩ := bind_eq_ok.mp href
  cases href
  have hknown := hknows.column c.field (List.mem_singleton_self _) column hcolumn
  have hqualifier : ∀ q, (if column = "*" then none else scope.qualifier) = some q →
      known .qualifier q := by
    intro q hq
    split at hq
    · cases hq
    · exact hknows.qualifier q hq
  have href : ColumnRef.Alike (named known)
      { qualifier := if column = "*" then none else scope.qualifier, column }
      { qualifier := if column = "*" then none else scope.qualifier, column } :=
    ⟨optional_self hqualifier, rfl, hknown⟩
  split at h
  next => cases h; exact .column href
  next f _ =>
    split at h
    · cases h; exact .aggregate f href
    · cases h

theorem named_matching (hlhs : lhs.Alike (named known) lhs) (op : Comparison)
    (nullExpected : Bool) :
    (c.matching lhs op nullExpected).Alike (named known) (c.matching lhs op nullExpected) := by
  unfold matching
  split
  · exact .null _ hlhs
  · exact .compare _ _ hlhs rfl

/-- A comparison of order names the column of its operand. -/
theorem named_of_ordered (hlhs : lhs.Alike (named known) lhs) {op : Comparison}
    (h : c.ordered lhs op = .ok a) : a.Alike (named known) a := by
  unfold ordered at h
  split at h <;> cases h
  exact .compare _ _ hlhs rfl

/-- A condition on a list names the column of its operand, or nothing. -/
theorem named_of_membership (hlhs : lhs.Alike (named known) lhs) {expected : Bool}
    (h : c.membership lhs expected = .ok a) : a.Alike (named known) a := by
  unfold membership at h
  split at h <;> cases h
  · exact .constant _
  · exact .oneOf _ _ hlhs (values_self _)

/-- A condition on text names the column of its operand. -/
theorem named_of_patterned (hlhs : lhs.Alike (named known) lhs) {before after : String}
    (h : c.patterned lhs before after = .ok a) : a.Alike (named known) a := by
  unfold patterned at h
  split at h <;> cases h
  exact .like _ hlhs rfl

/-- A condition on elements names the column of its operand, or nothing. -/
theorem named_of_elements (hlhs : lhs.Alike (named known) lhs) {vacuous : Bool}
    {test : List Value → ArrayTest} (htest : ∀ vs, (test vs).Alike (named known) (test vs))
    (h : c.elements env lhs vacuous test = .ok a) : a.Alike (named known) a := by
  unfold elements at h
  split at h
  next => cases h
  next items _ =>
    obtain ⟨style, -, h⟩ := bind_eq_ok.mp h
    cases h
    split
    · exact .constant _
    · exact .array style hlhs (htest items)

/-- The atom of a condition names the column of its field. -/
theorem named_of_atom (hknows : scope.Knows env known [c.field]) (h : c.atom env scope = .ok a) :
    a.Alike (named known) a := by
  unfold atom at h
  obtain ⟨lhs, hlhs, h⟩ := bind_eq_ok.mp h
  have hlhs := named_of_operand hknows hlhs
  split at h
  next => cases h
  next =>
    cases hop : c.op <;> rw [hop] at h <;> dsimp only at h
    case equals | not => cases h; exact named_matching hlhs _ _
    case isIn | notIn => exact named_of_membership hlhs h
    case lt | lte | gt | gte => exact named_of_ordered hlhs h
    case contains | startsWith | endsWith => exact named_of_patterned hlhs h
    case isNull =>
      split at h <;> cases h
      exact .null _ hlhs
    case isEmpty =>
      split at h
      · obtain ⟨style, rfl⟩ := arrays_spec h
        exact .array style hlhs (.empty _)
      · cases h
    case has =>
      split at h
      · cases h
      · obtain ⟨style, rfl⟩ := arrays_spec h
        exact .array style hlhs (.has rfl)
    case hasEvery => exact named_of_elements hlhs (fun vs => .hasEvery (values_self vs)) h
    case hasSome => exact named_of_elements hlhs (fun vs => .hasSome (values_self vs)) h
    case search =>
      split at h <;> cases h
      exact .search hlhs rfl

end Condition

namespace Sql.Predicate

mutual

/-- A predicate holds no names but those of its atoms. -/
theorem alike_self_of_atoms {L : Likeness} :
    ∀ p : Predicate, (∀ a ∈ p.atoms, a.Alike L a) → p.Alike L p
  | .atom a, h => .atom (h a (List.mem_singleton_self a))
  | .group p, h => .group (alike_self_of_atoms p h)
  | .not p, h => .not (alike_self_of_atoms p h)
  | .all parts, h => .all (allAlike_self_of_atoms parts h)
  | .any parts, h => .any (allAlike_self_of_atoms parts h)

/-- Parts of a predicate name what their atoms do. -/
theorem allAlike_self_of_atoms {L : Likeness} :
    ∀ ps : List Predicate, (∀ a ∈ atomsOf ps, a.Alike L a) → AllAlike L ps ps
  | [], _ => .nil
  | p :: rest, h =>
    .cons (alike_self_of_atoms p fun a ha => h a (List.mem_append_left _ ha))
      (allAlike_self_of_atoms rest fun a ha => h a (List.mem_append_right _ ha))

end

end Sql.Predicate

/-- A filter names the columns of its fields. -/
theorem Filter.named_of_compiledTo {f : Filter} {env : Env} {scope : FilterScope}
    {p : Option Predicate} (hknows : scope.Knows env known f.fields)
    (h : Condition.CompiledTo env scope f.allConditions (Predicate.atomsOf p.toList)) :
    Option.Rel (Predicate.Alike (named known)) p p := by
  have hatoms : ∀ a ∈ Predicate.atomsOf p.toList, a.Alike (named known) a := by
    intro a ha
    obtain ⟨c, hc, hatom⟩ := exists_mem_of_forall₂ h a ha
    refine Condition.named_of_atom ⟨hknows.qualifier, hknows.column.mono ?_⟩ hatom
    exact List.cons_subset.mpr ⟨List.mem_map_of_mem hc, List.nil_subset _⟩
  cases p with
  | none => exact .none
  | some p =>
    refine .some (p.alike_self_of_atoms fun a ha => hatoms a ?_)
    exact List.mem_append_left _ ha

theorem Filter.named_of_compile {f : Filter} {env : Env} {scope : FilterScope}
    {p : Option Predicate} (hknows : scope.Knows env known f.fields)
    (h : f.compile env scope = .ok p) : Option.Rel (Predicate.Alike (named known)) p p :=
  named_of_compiledTo hknows (compileNode_spec env scope f 1 p h).atoms

/-! ## Joins -/

/-- The fields that the join of a site is about, each with its model. -/
inductive JoinSite.Reads (schema : Schema) (site : JoinSite) : String → String → Prop where
  | source {r : Relation} {field : String} :
      schema.relation site.model site.inclusion.relation = .ok r → field ∈ r.fromFields →
      Reads schema site site.model field
  | target {r : Relation} {field : String} :
      schema.relation site.model site.inclusion.relation = .ok r → field ∈ r.toFields →
      Reads schema site r.toModel field
  | filtered {r : Relation} {field : String} :
      schema.relation site.model site.inclusion.relation = .ok r →
      field ∈ site.inclusion.ownFilter.fields → Reads schema site r.toModel field
  | returned {r : Relation} {fields : List String} {field : String} :
      schema.relation site.model site.inclusion.relation = .ok r →
      site.inclusion.wantedFields schema r.toModel = .ok fields → field ∈ fields →
      Reads schema site r.toModel field

/-- The table that a site is joined with. -/
def JoinSite.HasTable (schema : Schema) (site : JoinSite) (table : String) : Prop :=
  ∃ r, schema.relation site.model site.inclusion.relation = .ok r ∧
    schema.table r.toModel = .ok table

/-- The tables and columns of some sites are known. -/
structure KnowsSites (schema : Schema) (known : Known) (sites : List JoinSite) : Prop where
  table : ∀ site ∈ sites, ∀ table, site.HasTable schema table → known .table table
  column : ∀ site ∈ sites, ∀ model field column, site.Reads schema model field →
    schema.column model field = .ok column → known .column column

/-- What is known of sites is known of fewer of them. -/
theorem KnowsSites.mono {schema : Schema} {sites more : List JoinSite}
    (h : KnowsSites schema known more) (hsub : sites ⊆ more) : KnowsSites schema known sites :=
  ⟨fun site hsite => h.table site (hsub hsite), fun site hsite => h.column site (hsub hsite)⟩

namespace JoinPlan

/-- The aliases of a plan are known. -/
def Announced (known : Known) (p : JoinPlan) : Prop :=
  ∀ r ∈ p.relations, known .alias r.aliasName ∧ known .qualifier r.aliasName

/-- What a plan announces is announced by its first part. -/
theorem Announced.left {a b : JoinPlan} (h : (a ++ b).Announced known) : a.Announced known :=
  fun r hr => h r (List.mem_append_left _ hr)

/-- What a plan announces is announced by its second part. -/
theorem Announced.right {a b : JoinPlan} (h : (a ++ b).Announced known) : b.Announced known :=
  fun r hr => h r (List.mem_append_right _ hr)

/-- The joins of a plan hold known names only, and so do its items where the names of its
columns are known; aggregates leave the items out. -/
structure Named (known : Known) (p : JoinPlan) : Prop where
  joins : List.Forall₂ (Join.Alike (named known)) p.joins p.joins
  items : (∀ f ∈ p.fields, known .output f.column) →
    List.Forall₂ (SelectItem.Alike (named known)) p.items p.items

theorem Named.append {a b : JoinPlan} (ha : a.Named known) (hb : b.Named known) :
    (a ++ b).Named known := by
  refine ⟨List.rel_append ha.joins hb.joins, fun h => List.rel_append (ha.items ?_) (hb.items ?_)⟩
  · exact fun f hf => h f (List.mem_append_left _ hf)
  · exact fun f hf => h f (List.mem_append_right _ hf)

end JoinPlan

/-- A reference under a known qualifier names a known column. -/
theorem ColumnRef.named_some {q column : String} (hq : known .qualifier q)
    (hcolumn : known .column column) :
    ColumnRef.Alike (named known) ⟨some q, column⟩ ⟨some q, column⟩ :=
  ⟨.some ⟨rfl, hq⟩, rfl, hcolumn⟩

/-- The equalities of a relation name the columns of its fields on both sides. -/
theorem named_of_relationEqualities {schema : Schema} {site : JoinSite} {parent : JoinParent}
    {r : Relation} {aliasName : String} {equalities : List Atom}
    (hsites : KnowsSites schema known [site]) (hmodel : parent.model = site.model)
    (hr : schema.relation site.model site.inclusion.relation = .ok r)
    (hparent : known .qualifier parent.aliasName) (halias : known .qualifier aliasName)
    (h : relationEqualities schema parent r aliasName = .ok equalities) :
    List.Forall₂ (Atom.Alike (named known)) equalities equalities := by
  refine List.forall₂_same.mpr fun e he => ?_
  obtain ⟨pair, hpair, a, b, ha, hb, rfl⟩ :=
    exists_mem_of_forall₂ (relationEqualities_spec h).2 e he
  obtain ⟨hfrom, hto⟩ := List.of_mem_zip hpair
  have hcolumn := hsites.column site (List.mem_singleton_self site)
  rw [hmodel] at ha
  exact .sameColumn (ColumnRef.named_some halias (hcolumn _ _ _ (.target hr hto) hb))
    (ColumnRef.named_some hparent (hcolumn _ _ _ (.source hr hfrom) ha))

namespace Inclusion

/-- Fields are returned from their columns. -/
theorem named_of_projectFields {schema : Schema} {model aliasName : String} {path : List String}
    (halias : known .qualifier aliasName) :
    ∀ {fields : List String} {plan : JoinPlan},
      projectFields schema model aliasName path fields = .ok plan →
        schema.Knows known (some model) fields → plan.Named known := by
  intro fields
  induction fields with
  | nil =>
    intro plan h _
    cases h
    exact ⟨.nil, fun _ => .nil⟩
  | cons field rest ih =>
    intro plan h hcolumns
    rw [projectFields] at h
    obtain ⟨column, hcolumn, h⟩ := bind_eq_ok.mp h
    obtain ⟨more, hmore, h⟩ := bind_eq_ok.mp h
    cases h
    have hknown := hcolumns field (List.mem_cons_self ..) column hcolumn
    refine JoinPlan.Named.append ⟨.nil, fun houtput => .cons ?_ .nil⟩
      (ih hmore (hcolumns.mono (List.subset_cons_self ..)))
    exact .column (ColumnRef.named_some halias hknown)
      (.some ⟨rfl, houtput _ (List.mem_singleton_self _)⟩)

/-- What an inclusion returns is named by its alias and its columns. -/
theorem named_of_project {i : Inclusion} {schema : Schema} {model aliasName : String}
    {path : List String} {plan : JoinPlan} (halias : known .qualifier aliasName)
    (hcolumns : ∀ fields, i.wantedFields schema model = .ok fields →
      schema.Knows known (some model) fields)
    (h : i.project schema model aliasName path = .ok plan) : plan.Named known := by
  unfold project at h
  split at h
  next =>
    obtain ⟨fields, hfields, h⟩ := bind_eq_ok.mp h
    split at h
    next =>
      cases h
      exact ⟨.nil, fun _ => .cons (.star (.some ⟨rfl, halias⟩)) .nil⟩
    next => exact named_of_projectFields halias h (hcolumns fields hfields)
  next =>
    cases h
    exact ⟨.nil, fun _ => .nil⟩

/-- An inclusion's own join and items are about its site, under the alias of its plan. -/
theorem named_of_compileOwn {i : Inclusion} {env : Env} {parent : JoinParent}
    {used : List String} {own : JoinPlan} {here : JoinParent}
    (hsites : KnowsSites env.schema known [⟨parent.model, i⟩])
    (hparent : known .qualifier parent.aliasName) (hplan : own.Announced known)
    (h : i.compileOwn env parent used = .ok (own, here)) :
    own.Named known ∧ known .qualifier here.aliasName := by
  unfold compileOwn at h
  obtain ⟨r, hr, h⟩ := bind_eq_ok.mp h
  obtain ⟨table, htable, h⟩ := bind_eq_ok.mp h
  obtain ⟨equalities, hequalities, h⟩ := bind_eq_ok.mp h
  obtain ⟨filter, hfilter, h⟩ := bind_eq_ok.mp h
  obtain ⟨items, hitems, h⟩ := bind_eq_ok.mp h
  cases h
  have hr := Refusal.of_eq_ok.mp hr
  have hitems := Refusal.of_eq_ok.mp (Refusal.after_eq_ok.mp hitems)
  have hcolumn := hsites.column _ (List.mem_singleton_self _)
  obtain ⟨halias, hqualifier⟩ := hplan.left _ (List.mem_singleton_self _)
  have hatoms := named_of_relationEqualities hsites rfl hr hparent hqualifier
    (Refusal.of_eq_ok.mp hequalities)
  have hown : Option.Rel (Predicate.Alike (named known)) filter filter := by
    refine Filter.named_of_compiledTo ⟨?_, ?_⟩ (compileFilter_spec hfilter).atoms
    · intro q hq
      cases hq
      exact hqualifier
    · intro field hfield column hc
      exact hcolumn _ _ _ (.filtered hr hfield) hc
  have hon := Predicate.Alike.beside hatoms hown
  have htable := hsites.table _ (List.mem_singleton_self _) table
    ⟨r, hr, Refusal.of_eq_ok.mp htable⟩
  have hitems := named_of_project hqualifier
    (fun fields hfields field hfield column hc =>
      hcolumn _ _ _ (.returned hr hfields hfield) hc) hitems
  refine ⟨JoinPlan.Named.append ⟨.cons ?_ .nil, fun _ => .nil⟩ hitems, hqualifier⟩
  exact ⟨⟨rfl, htable⟩, ⟨rfl, halias⟩, hon⟩

mutual

theorem named_of_compile (env : Env) :
    ∀ (i : Inclusion) (parent : JoinParent) (depth : Nat) (used : List String)
      (out : JoinPlan × List String), compile env parent depth used i = .ok out →
        KnowsSites env.schema known (i.sites env.schema parent.model) →
          known .qualifier parent.aliasName → out.1.Announced known → out.1.Named known
  | ⟨relation, query, projects, nested⟩, parent, depth, used, out, h, hsites, hparent, hplan => by
    rw [compile] at h
    split at h
    next => cases h
    next =>
      obtain ⟨⟨own, here⟩, hown, h⟩ := bind_eq_ok.mp h
      obtain ⟨⟨below, used'⟩, hbelow, h⟩ := bind_eq_ok.mp h
      cases h
      obtain ⟨r, j, hr, hmodel, -⟩ := compileOwn_spec hown
      dsimp only at hr
      rw [sites, hr] at hsites
      obtain ⟨hnamed, hhere⟩ := named_of_compileOwn
        (hsites.mono (List.cons_subset_cons _ (List.nil_subset _))) hparent hplan.left hown
      have hnested : KnowsSites env.schema known (sitesOf env.schema here.model nested) := by
        rw [hmodel]
        exact hsites.mono (List.subset_cons_self ..)
      exact hnamed.append (named_of_compileAll env nested here _ _ _
        (Refusal.after_eq_ok.mp hbelow) hnested hhere hplan.right)

/-- The joins of inclusions hold the names of their sites, under the aliases of their plan. -/
theorem named_of_compileAll (env : Env) :
    ∀ (is : List Inclusion) (parent : JoinParent) (depth : Nat) (used : List String)
      (out : JoinPlan × List String), compileAll env parent depth used is = .ok out →
        KnowsSites env.schema known (sitesOf env.schema parent.model is) →
          known .qualifier parent.aliasName → out.1.Announced known → out.1.Named known
  | [], parent, depth, used, out, h, _, _, _ => by
    rw [compileAll] at h
    cases h
    exact ⟨.nil, fun _ => .nil⟩
  | i :: rest, parent, depth, used, out, h, hsites, hparent, hplan => by
    rw [compileAll] at h
    obtain ⟨⟨plan, used'⟩, hfirst, h⟩ := bind_eq_ok.mp h
    obtain ⟨⟨more, used''⟩, hmore, h⟩ := bind_eq_ok.mp h
    cases h
    rw [sitesOf] at hsites
    have hnamed := named_of_compile env i parent depth used _ hfirst
      (hsites.mono (List.subset_append_left ..)) hparent hplan.left
    exact hnamed.append (named_of_compileAll env rest parent depth used' _
      (Refusal.after_eq_ok.mp hmore) (hsites.mono (List.subset_append_right ..)) hparent
      hplan.right)

end

/-- The joins of a query name its tables, its columns and the announced aliases. -/
theorem named_of_compileJoins {env : Env} {model aliasName : String}
    {inclusions : List Inclusion} {plan : JoinPlan}
    (hsites : KnowsSites env.schema known (sitesOf env.schema model inclusions))
    (hroot : known .qualifier aliasName) (hplan : plan.Announced known)
    (h : compileJoins env model aliasName inclusions = .ok plan) : plan.Named known := by
  unfold compileJoins at h
  obtain ⟨out, hout, h⟩ := bind_eq_ok.mp h
  cases h
  exact named_of_compileAll env inclusions _ _ _ _ hout hsites hroot hplan

end Inclusion

/-! ## Written data -/

theorem named_of_columnsOf {schema : Schema} {model : Option String} {fields columns : List String}
    (hknows : schema.Knows known model fields) (h : columnsOf schema model fields = .ok columns) :
    List.Forall₂ ((named known).names .column) columns columns := by
  refine List.forall₂_same.mpr fun column hmem => ⟨rfl, ?_⟩
  obtain ⟨field, hfield, hcolumn⟩ := exists_mem_of_forall₂ (forall₂_of_mapM h) column hmem
  exact hknows field hfield column hcolumn

/-- Assignments name the columns of their row's fields. -/
theorem named_of_assignmentsOf {schema : Schema} {model : Option String} {row : Row}
    {assignments : List Assignment} (hknows : schema.Knows known model row.fields)
    (h : assignmentsOf schema model row = .ok assignments) :
    List.Forall₂ (Assignment.Alike (named known)) assignments assignments := by
  unfold assignmentsOf at h
  obtain ⟨columns, hcolumns, h⟩ := bind_eq_ok.mp h
  cases h
  have hnames := List.forall₂_same.mp (named_of_columnsOf hknows hcolumns)
  refine List.forall₂_same.mpr fun a ha => ?_
  obtain ⟨pair, hpair, rfl⟩ := List.mem_map.mp ha
  exact ⟨hnames pair.1 (List.of_mem_zip hpair).1, .value rfl⟩

/-- An insertion names its fixed columns and those of the fields of its rows. -/
theorem named_of_insertion {site : WriteSite} {schema : Schema} {model : Option String}
    {fixed : List (String × Value)} {rows : List Row} {columns : List String}
    {values : List (List Value)} (hfixed : ∀ entry ∈ fixed, known .column entry.1)
    (hknows : schema.Knows known model (rows.flatMap Row.fields))
    (h : insertion site schema model fixed rows = .ok (columns, values)) :
    List.Forall₂ ((named known).names .column) columns columns := by
  unfold insertion at h
  obtain ⟨fields, hfields, h⟩ := bind_eq_ok.mp h
  obtain ⟨own, hown, h⟩ := bind_eq_ok.mp h
  cases h
  obtain ⟨first, rest, rfl, rfl⟩ := Query.commonFields_spec hfields
  have hfirst := named_of_columnsOf
    (hknows.mono fun field hfield => List.mem_append_left _ hfield) hown
  refine List.rel_append (List.forall₂_same.mpr fun column hmem => ⟨rfl, ?_⟩) hfirst
  obtain ⟨entry, hentry, rfl⟩ := List.mem_map.mp hmem
  exact hfixed entry hentry

theorem rows_self (rows : List (List Value)) :
    List.Forall₂ (List.Forall₂ (named known).values) rows rows :=
  List.forall₂_same.mpr fun row _ => values_self row

end SqlQuery
