import SqlQuery.Proofs.Compile.ColumnScope
import SqlQuery.Proofs.Sql.Execution

/-!
# What a filter says of a row

A filter can be true, false or unknown of a row. Each condition says what its comparison
says, and a node joins what its conditions and its groups say by its operator, in the logic
of three truth values; groups without any condition are passed over. This is told from the
tree alone; the predicate that the tree is compiled to says the same.

> `Filter.truth_of_compile`: a compiled predicate says of every row what the filter says.

> `Filter.truth_congr`: a filter says the same of rows that agree on its conditions' columns.
-/

namespace SqlQuery

open Sql

/-- What an operator says of some parts. -/
def LogicalOp.truth : LogicalOp → List Truth → Truth
  | .and, parts => .all parts
  | .or, parts => .any parts
  | .not, parts => (Truth.all parts).not

/-- What a condition says where it is known what its operands find; one that is refused
says nothing. -/
def Condition.truth (E : Engine) (env : Env) (scope : FilterScope) (look : Operand → Value)
    (c : Condition) : Truth :=
  match c.atom env scope with
  | .ok a => a.truth E look
  | .error _ => none

/-- A condition is as true as the atom that it compiles to. -/
theorem Condition.truth_of_atom {env : Env} {scope : FilterScope} {c : Condition} {a : Atom}
    (h : c.atom env scope = .ok a) (E : Engine) (look : Operand → Value) :
    c.truth E env scope look = a.truth E look := by
  rw [truth, h]

/-- A condition looks at its own column of a row. -/
theorem Condition.truth_congr {E : Engine} {env : Env} {scope : FilterScope} {c : Condition}
    {row row' : TableRow}
    (h : ∀ ref, c.columnRef env scope = .ok ref → row ref.column = row' ref.column) :
    c.truth E env scope row.look = c.truth E env scope row'.look := by
  unfold truth
  split
  next a ha => exact Atom.truth_congr fun ref href => h ref (columnRef_of_atom ha ref href)
  next => rfl

theorem Condition.truths_of_compiledTo {env : Env} {scope : FilterScope} {cs : List Condition}
    {as : List Atom} (h : Condition.CompiledTo env scope cs as) (E : Engine)
    (look : Operand → Value) :
    cs.map (truth E env scope look) = as.map (·.truth E look) := by
  induction h with
  | nil => rfl
  | cons hc _ ih => rw [List.map_cons, List.map_cons, ih, truth_of_atom hc]

namespace Filter

mutual

/-- What a filter says where it is known what the operands of its conditions find. -/
def truth (E : Engine) (env : Env) (scope : FilterScope) (look : Operand → Value) :
    Filter → Truth
  | ⟨op, conditions, nested⟩ =>
    op.truth (conditions.map (Condition.truth E env scope look)
      ++ truths E env scope look nested)

/-- What those of some filters say in which a condition stands. -/
def truths (E : Engine) (env : Env) (scope : FilterScope) (look : Operand → Value) :
    List Filter → List Truth
  | [] => []
  | f :: rest =>
    (if f.isEmpty then [] else [truth E env scope look f]) ++ truths E env scope look rest

end

/-! ## The predicate of a filter -/

variable {E : Engine} {env : Env} {scope : FilterScope} {look : Operand → Value}

/-- What is assembled from a node says what the node's operator says of its parts. -/
theorem truth_assemble {op : LogicalOp} {atoms : List Atom} {groups : List Predicate}
    {p : Predicate} (h : assemble op atoms groups = some p) :
    p.truth E look = op.truth (atoms.map (·.truth E look) ++ Predicate.truths E look groups) := by
  have hparts : Predicate.truths E look (atoms.map .atom ++ groups.map .group)
      = atoms.map (·.truth E look) ++ Predicate.truths E look groups := by
    simp only [Predicate.truths_eq, List.map_append, List.map_map]
    rfl
  unfold assemble at h
  split at h
  next => cases h
  next =>
    cases h
    rw [Predicate.truth, hparts, LogicalOp.truth]
  next =>
    cases h
    rw [Predicate.truth, hparts, LogicalOp.truth]
  next q =>
    cases h
    rw [Predicate.truth, List.map_nil, List.nil_append, LogicalOp.truth, Predicate.truths,
      Predicate.truths, Truth.all_singleton]
  next =>
    cases h
    rw [Predicate.truth, Predicate.truth, hparts, LogicalOp.truth]

mutual

theorem truth_of_compileNode :
    ∀ (f : Filter) (depth : Nat) (p : Predicate),
      compileNode env scope depth f = .ok (some p) →
        p.truth E look = f.truth E env scope look
  | ⟨op, conditions, nested⟩, depth, p, h => by
    rw [compileNode] at h
    split at h
    next => cases h
    next =>
      obtain ⟨as, has, h⟩ := bind_eq_ok.mp h
      obtain ⟨groups, hgroups, h⟩ := bind_eq_ok.mp h
      have hconds := Condition.truths_of_compiledTo (Condition.compiledTo_of_atoms has) E look
      have hnested :=
        truths_of_compileNodes nested (depth + 1) groups (Refusal.after_eq_ok.mp hgroups)
      rw [truth_assemble (Except.ok.inj h), truth, hconds, hnested]

theorem truths_of_compileNodes :
    ∀ (fs : List Filter) (depth : Nat) (ps : List Predicate),
      compileNodes env scope depth fs = .ok ps →
        Predicate.truths E look ps = truths E env scope look fs
  | [], depth, ps, h => by
    rw [compileNodes] at h
    cases h
    rfl
  | f :: rest, depth, ps, h => by
    rw [compileNodes] at h
    obtain ⟨p, hp, h⟩ := bind_eq_ok.mp h
    obtain ⟨more, hmore, h⟩ := bind_eq_ok.mp h
    cases h
    have hrest := truths_of_compileNodes rest depth more (Refusal.after_eq_ok.mp hmore)
    have hnone := (compileNode_spec env scope f depth p hp).none_iff
    rw [truths, ← hrest]
    -- a filter is left out of the list exactly where it is compiled to nothing
    cases p with
    | none =>
      rw [if_pos (hnone.mp rfl)]
      rfl
    | some q =>
      rw [if_neg fun he => by simpa using hnone.mpr he, ← truth_of_compileNode f depth q hp]
      rfl

end

/-- A compiled predicate says of every row what the filter says. -/
theorem truth_of_compile {f : Filter} {p : Predicate} (h : f.compile env scope = .ok (some p)) :
    p.truth E look = f.truth E env scope look :=
  truth_of_compileNode f 1 p h

/-! ## The columns of a filter -/

mutual

/-- A filter says the same of rows that agree on the columns of its conditions. -/
theorem truth_congr {row row' : TableRow} :
    ∀ f : Filter, (∀ c ∈ f.allConditions, ∀ ref, c.columnRef env scope = .ok ref →
        row ref.column = row' ref.column) →
      f.truth E env scope row.look = f.truth E env scope row'.look
  | ⟨op, conditions, nested⟩, h => by
    rw [allConditions] at h
    have hconds : conditions.map (Condition.truth E env scope row.look)
        = conditions.map (Condition.truth E env scope row'.look) :=
      List.map_congr_left fun c hc =>
        Condition.truth_congr (h c (List.mem_append_left _ hc))
    have hnested := truths_congr nested fun c hc => h c (List.mem_append_right _ hc)
    rw [truth, truth, hconds, hnested]

/-- Some filters look at the columns of their own conditions. -/
theorem truths_congr {row row' : TableRow} :
    ∀ fs : List Filter, (∀ c ∈ conditionsOf fs, ∀ ref, c.columnRef env scope = .ok ref →
        row ref.column = row' ref.column) →
      truths E env scope row.look fs = truths E env scope row'.look fs
  | [], _ => rfl
  | f :: rest, h => by
    rw [conditionsOf] at h
    have hfirst := truth_congr f fun c hc => h c (List.mem_append_left _ hc)
    have hrest := truths_congr rest fun c hc => h c (List.mem_append_right _ hc)
    rw [truths, truths, hfirst, hrest]

end

end Filter

end SqlQuery
