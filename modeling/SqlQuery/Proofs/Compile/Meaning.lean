import SqlQuery.Proofs.Compile.Condition

/-!
# The text of a filter means what the filter means

`Filter.meaning` says what a filter tree stands for, whatever its conditions are
about: a node joins its conditions and its groups by its operator, a NOT node denies
their conjunction, and groups without any condition are passed over. The compiler
drops such groups too, but it decides about them by what their compilation returned,
and it decides about parentheses node by node.

The claim is about the text. One induction over the tree relates the predicate to
the filter, and reading the text of the predicate does the rest:

> `Filter.compileNode_spec`: the atoms of the predicate are those of the conditions in
> order, it stands for the filter's meaning, and there is none only for an empty filter.

> `Filter.read_compile`: the text of a compiled filter is read as its meaning.
-/

namespace SqlQuery

open Sql

/-! ## What a filter stands for -/

/-- What an operator says of some parts. -/
def LogicalOp.holds : LogicalOp → List Bool → Bool
  | .and, parts => parts.all id
  | .or, parts => parts.any id
  | .not, parts => !parts.all id

namespace Filter

mutual

/-- The conditions of a filter, a node's own before those of its groups. -/
def allConditions : Filter → List Condition
  | ⟨_, conditions, nested⟩ => conditions ++ conditionsOf nested

/-- The conditions of some filters, in order. -/
def conditionsOf : List Filter → List Condition
  | [] => []
  | f :: rest => allConditions f ++ conditionsOf rest

end

mutual

/-- What a filter says where it is known which conditions hold; these are numbered
from `start`. -/
def meaning (truth : Nat → Bool) (start : Nat) : Filter → Bool
  | ⟨op, conditions, nested⟩ =>
    op.holds ((List.range' start conditions.length).map truth
      ++ meanings truth (start + conditions.length) nested)

/-- What those of some filters say in which a condition stands. -/
def meanings (truth : Nat → Bool) (start : Nat) : List Filter → List Bool
  | [] => []
  | f :: rest =>
    (if f.isEmpty then [] else [meaning truth start f])
      ++ meanings truth (start + (allConditions f).length) rest

end

mutual

/-- A filter is empty where no condition stands in it at any level. -/
theorem isEmpty_iff : ∀ f : Filter, f.isEmpty = true ↔ f.allConditions = []
  | ⟨op, conditions, nested⟩ => by
    rw [isEmpty, allConditions, Bool.and_eq_true, List.isEmpty_iff, allEmpty_iff nested,
      List.append_eq_nil_iff]

/-- Some filters are empty where they hold no condition at any depth. -/
theorem allEmpty_iff : ∀ fs : List Filter, allEmpty fs = true ↔ conditionsOf fs = []
  | [] => by simp [allEmpty, conditionsOf]
  | f :: rest => by
    rw [allEmpty, conditionsOf, Bool.and_eq_true, isEmpty_iff f, allEmpty_iff rest,
      List.append_eq_nil_iff]

end

end Filter

/-! ## One node -/

namespace Sql.Predicate

/-- The atoms of two lists of predicates, in order. -/
theorem atomsOf_append (ps qs : List Predicate) :
    atomsOf (ps ++ qs) = atomsOf ps ++ atomsOf qs := by
  simp only [atomsOf_eq, List.flatMap_append]

/-- Predicates that come later count their atoms behind those before them. -/
theorem evalEach_append (truth : Nat → Bool) :
    ∀ (ps qs : List Predicate) (start : Nat),
      evalEach truth start (ps ++ qs)
        = evalEach truth start ps ++ evalEach truth (start + (atomsOf ps).length) qs := by
  intro ps qs
  induction ps with
  | nil => intro start; rfl
  | cons p ps ih =>
    intro start
    simp only [List.cons_append, evalEach, atomsOf, ih, List.length_append, Nat.add_assoc]

theorem atomsOf_map_atom (as : List Atom) : atomsOf (as.map .atom) = as := by
  induction as with
  | nil => rfl
  | cons a as ih => rw [List.map_cons, atomsOf, ih]; rfl

theorem evalEach_map_atom (truth : Nat → Bool) :
    ∀ (as : List Atom) (start : Nat),
      evalEach truth start (as.map .atom) = (List.range' start as.length).map truth := by
  intro as
  induction as with
  | nil => intro start; rfl
  | cons a as ih =>
    intro start
    rw [List.map_cons, evalEach, ih, List.length_cons, List.range'_succ]
    rfl

/-- Parentheses change nothing about the atoms. -/
theorem atomsOf_map_group (ps : List Predicate) : atomsOf (ps.map .group) = atomsOf ps := by
  induction ps with
  | nil => rfl
  | cons p ps ih => rw [List.map_cons, atomsOf, ih]; rfl

/-- Parentheses change nothing about the truth. -/
theorem evalEach_map_group (truth : Nat → Bool) :
    ∀ (ps : List Predicate) (start : Nat),
      evalEach truth start (ps.map .group) = evalEach truth start ps := by
  intro ps
  induction ps with
  | nil => intro start; rfl
  | cons p ps ih =>
    intro start
    rw [List.map_cons, evalEach, evalEach, ih]
    rfl

/-- A predicate made an operand can stand beside others. -/
theorem FitsAt.operand {p : Predicate} (h : p.FitsAt .alone) : p.operand.FitsAt .operand := by
  cases h with
  | @any q rest hparts =>
    cases rest with
    | nil => exact .one (hparts q (List.mem_cons_self ..))
    | cons r rest => exact .group (.any hparts)
  | alone h =>
    cases h with
    | atom a => exact .atom a
    | group h => exact .group h
    | not h => exact .not h
    | all h => exact .all h
    | one h => exact .one h

/-- To be made an operand changes nothing about the atoms. -/
theorem atoms_operand (p : Predicate) : p.operand.atoms = p.atoms := by
  unfold operand
  split <;> rfl

/-- To be made an operand changes nothing about the truth. -/
theorem eval_operand (truth : Nat → Bool) (start : Nat) (p : Predicate) :
    p.operand.eval truth start = p.eval truth start := by
  unfold operand
  split <;> rfl

end Sql.Predicate

namespace Filter

/-- The parts of a node: its atoms and its groups. -/
theorem atomsOf_parts (atoms : List Atom) (groups : List Predicate) :
    Predicate.atomsOf (atoms.map .atom ++ groups.map .group)
      = atoms ++ Predicate.atomsOf groups := by
  rw [Predicate.atomsOf_append, Predicate.atomsOf_map_atom, Predicate.atomsOf_map_group]

/-- The parts of a node count its conditions first, and its groups behind them. -/
theorem evalEach_parts (truth : Nat → Bool) (start : Nat) (atoms : List Atom)
    (groups : List Predicate) :
    Predicate.evalEach truth start (atoms.map .atom ++ groups.map .group)
      = (List.range' start atoms.length).map truth
        ++ Predicate.evalEach truth (start + atoms.length) groups := by
  rw [Predicate.evalEach_append, Predicate.evalEach_map_atom, Predicate.evalEach_map_group,
    Predicate.atomsOf_map_atom]

/-- The parts of a node that has any can stand beside each other. -/
theorem exists_parts {atoms : List Atom} {groups : List Predicate}
    (hsome : ¬(atoms = [] ∧ groups = [])) (hgroups : ∀ p ∈ groups, p.FitsAt .alone) :
    ∃ q rest, atoms.map Predicate.atom ++ groups.map .group = q :: rest ∧
      ∀ p ∈ q :: rest, p.FitsAt .operand := by
  have hne : atoms.map Predicate.atom ++ groups.map .group ≠ [] := by simpa using hsome
  obtain ⟨q, rest, hparts⟩ := List.exists_cons_of_ne_nil hne
  refine ⟨q, rest, hparts, ?_⟩
  intro p hp
  rw [← hparts] at hp
  rcases List.mem_append.mp hp with hp | hp
  · obtain ⟨a, -, rfl⟩ := List.mem_map.mp hp
    exact .atom a
  · obtain ⟨g, hg, rfl⟩ := List.mem_map.mp hp
    exact .group (hgroups g hg)

/-- A node without parts is assembled to nothing, and any other one to a predicate
that holds the atoms of its parts and says what the operator says of them. -/
theorem assemble_spec (op : LogicalOp) {atoms : List Atom} {groups : List Predicate}
    (hsome : ¬(atoms = [] ∧ groups = [])) (hgroups : ∀ p ∈ groups, p.FitsAt .alone) :
    ∃ p, assemble op atoms groups = some p ∧ p.FitsAt .alone ∧
      p.atoms = atoms ++ Predicate.atomsOf groups ∧
      ∀ truth start, p.eval truth start
        = op.holds ((List.range' start atoms.length).map truth
            ++ Predicate.evalEach truth (start + atoms.length) groups) := by
  obtain ⟨q, rest, hparts, hfits⟩ := exists_parts hsome hgroups
  have hall : (Predicate.all (atoms.map .atom ++ groups.map .group)).FitsAt .operand := by
    rw [hparts]
    exact .all hfits
  have hany : (Predicate.any (atoms.map .atom ++ groups.map .group)).FitsAt .alone := by
    rw [hparts]
    exact .any hfits
  unfold assemble
  split
  next => exact absurd ⟨rfl, rfl⟩ hsome
  next =>
    refine ⟨_, rfl, .alone hall, atomsOf_parts atoms groups, ?_⟩
    intro truth start
    rw [Predicate.eval, evalEach_parts]
    rfl
  next =>
    refine ⟨_, rfl, hany, atomsOf_parts atoms groups, ?_⟩
    intro truth start
    rw [Predicate.eval, evalEach_parts]
    rfl
  next p =>
    -- a lone group has no parentheses of its own below the denial
    have hp := hgroups p (List.mem_cons_self ..)
    refine ⟨_, rfl, .alone (.not hp), by simp [Predicate.atoms, Predicate.atomsOf], ?_⟩
    intro truth start
    simp [Predicate.eval, Predicate.evalEach, LogicalOp.holds]
  next =>
    refine ⟨_, rfl, .alone (.not (.alone hall)), atomsOf_parts atoms groups, ?_⟩
    intro truth start
    rw [Predicate.eval, Predicate.eval, evalEach_parts]
    rfl

/-! ## The whole tree -/

/-- What a filter is compiled to: the atoms of its conditions, in a predicate that
stands for its meaning, or nothing where it is empty. -/
structure CompiledTo (env : Env) (scope : FilterScope) (f : Filter) (p : Option Predicate) :
    Prop where
  none_iff : p = none ↔ f.isEmpty = true
  atoms : Condition.CompiledTo env scope f.allConditions (Predicate.atomsOf p.toList)
  fits : ∀ q ∈ p, q.FitsAt .alone
  eval : ∀ q ∈ p, ∀ truth start, q.eval truth start = f.meaning truth start

/-- No parentheses are empty in what a filter is compiled to. -/
theorem CompiledTo.filled {env : Env} {scope : FilterScope} {f : Filter} {p : Predicate}
    (h : f.CompiledTo env scope (some p)) (d : Dialect) : Filled (p.tokens d) := by
  have hitems := Condition.hasItems_of_compiledTo h.atoms
  exact (h.fits p rfl).filled d (by simpa [Predicate.atomsOf] using hitems)

mutual

theorem compileNode_spec (env : Env) (scope : FilterScope) :
    ∀ (f : Filter) (depth : Nat) (p : Option Predicate),
      compileNode env scope depth f = .ok p → f.CompiledTo env scope p
  | ⟨op, conditions, nested⟩, depth, p, h => by
    rw [compileNode] at h
    split at h
    next => cases h
    next =>
      obtain ⟨as, has, h⟩ := bind_eq_ok.mp h
      obtain ⟨groups, hgroups, h⟩ := bind_eq_ok.mp h
      cases h
      have hconds := Condition.compiledTo_of_atoms has
      obtain ⟨hnested, hempty, hfits, heval⟩ :=
        compileNodes_spec env scope nested (depth + 1) groups (Refusal.after_eq_ok.mp hgroups)
      have hlength : as.length = conditions.length := hconds.length_eq.symm
      by_cases hnone : as = [] ∧ groups = []
      -- neither conditions nor groups: the node is left out, and the filter is empty
      · obtain ⟨rfl, rfl⟩ := hnone
        cases hconds
        have hnil : assemble op [] [] = none := by cases op <;> rfl
        rw [hnil]
        refine ⟨by simp [isEmpty, hempty], ?_, by simp, by simp⟩
        rw [allConditions]
        exact hnested
      · obtain ⟨q, hq, hqfits, hqatoms, hqeval⟩ := assemble_spec op hnone hfits
        rw [hq]
        refine ⟨?_, ?_, ?_, ?_⟩
        · have hcons : conditions = [] ↔ as = [] := by
            rw [← List.length_eq_zero_iff, ← hlength, List.length_eq_zero_iff]
          rw [isEmpty, Bool.and_eq_true, List.isEmpty_iff, hcons, hempty]
          simpa using hnone
        · simp only [Option.toList_some, Predicate.atomsOf, List.append_nil, hqatoms, allConditions]
          exact List.rel_append hconds hnested
        · rintro _ ⟨⟩
          exact hqfits
        · rintro _ ⟨⟩ truth start
          rw [hqeval, meaning, hlength, heval]

/-- Some nodes are compiled to what they stand for, those without conditions to nothing. -/
theorem compileNodes_spec (env : Env) (scope : FilterScope) :
    ∀ (fs : List Filter) (depth : Nat) (ps : List Predicate),
      compileNodes env scope depth fs = .ok ps →
        Condition.CompiledTo env scope (conditionsOf fs) (Predicate.atomsOf ps) ∧
          (allEmpty fs = true ↔ ps = []) ∧ (∀ q ∈ ps, q.FitsAt .alone) ∧
          ∀ truth start, Predicate.evalEach truth start ps = meanings truth start fs
  | [], depth, ps, h => by
    rw [compileNodes] at h
    cases h
    exact ⟨.nil, by simp [allEmpty], by simp, fun _ _ => rfl⟩
  | f :: rest, depth, ps, h => by
    rw [compileNodes] at h
    obtain ⟨p, hp, h⟩ := bind_eq_ok.mp h
    obtain ⟨more, hmore, h⟩ := bind_eq_ok.mp h
    cases h
    obtain ⟨hnone, hatoms, hfits, heval⟩ := compileNode_spec env scope f depth p hp
    obtain ⟨hconds, hempty, hmorefits, hmoreeval⟩ :=
      compileNodes_spec env scope rest depth more (Refusal.after_eq_ok.mp hmore)
    refine ⟨?_, ?_, ?_, ?_⟩
    · rw [Predicate.atomsOf_append, conditionsOf]
      exact List.rel_append hatoms hconds
    · rw [allEmpty, Bool.and_eq_true, ← hnone, hempty, List.append_eq_nil_iff,
        Option.toList_eq_nil_iff]
    · intro q hq
      rcases List.mem_append.mp hq with hq | hq
      · exact hfits q (by simpa using hq)
      · exact hmorefits q hq
    · intro truth start
      have hlength : (Predicate.atomsOf p.toList).length = (allConditions f).length :=
        hatoms.length_eq.symm
      rw [Predicate.evalEach_append, hmoreeval, meanings, hlength]
      -- a filter is left out of the meaning exactly where it is left out of the text
      cases p with
      | none => rw [if_pos (hnone.mp rfl)]; rfl
      | some q =>
        have hne : ¬f.isEmpty = true := fun he => by simpa using hnone.mpr he
        rw [if_neg hne, ← heval q rfl]
        rfl

end

/-- What a filter is compiled to as an operand; nothing stands for a truth. -/
structure OperandOf (env : Env) (scope : FilterScope) (f : Filter) (p : Option Predicate) :
    Prop where
  atoms : Condition.CompiledTo env scope f.allConditions (Predicate.atomsOf p.toList)
  fits : ∀ q ∈ p, q.FitsAt .operand
  eval : ∀ truth start, (Predicate.evalEach truth start p.toList).all id
    = (f.isEmpty || f.meaning truth start)

/-- No parentheses are empty in a filter that is compiled as an operand. -/
theorem OperandOf.filled {env : Env} {scope : FilterScope} {f : Filter} {p : Predicate}
    (h : f.OperandOf env scope (some p)) (d : Dialect) : Filled (p.tokens d) := by
  have hitems := Condition.hasItems_of_compiledTo h.atoms
  exact (h.fits p rfl).filled d (by simpa [Predicate.atomsOf] using hitems)

/-- Equalities with an operand beside them need no parentheses. -/
theorem OperandOf.fits_all {env : Env} {scope : FilterScope} {f : Filter} {p : Option Predicate}
    (h : f.OperandOf env scope p) {equalities : List Atom} (hne : equalities ≠ []) :
    (Predicate.all (equalities.map .atom ++ p.toList)).FitsAt .operand := by
  have hparts : ∀ q ∈ equalities.map Predicate.atom ++ p.toList, q.FitsAt .operand := by
    intro q hq
    rcases List.mem_append.mp hq with hq | hq
    · obtain ⟨e, -, rfl⟩ := List.mem_map.mp hq
      exact .atom e
    · exact h.fits q (by simpa using hq)
  have hsome : equalities.map Predicate.atom ++ p.toList ≠ [] := by simp [hne]
  obtain ⟨q, rest, hcons⟩ := List.exists_cons_of_ne_nil hsome
  rw [hcons] at hparts ⊢
  exact .all hparts

/-- A filter that is compiled as an operand stands for itself beside others. -/
theorem compileOperand_spec {env : Env} {scope : FilterScope} {f : Filter}
    {p : Option Predicate} (h : f.compileOperand env scope = .ok p) : f.OperandOf env scope p := by
  unfold compileOperand at h
  obtain ⟨q, hq, h⟩ := bind_eq_ok.mp h
  cases h
  obtain ⟨hnone, hatoms, hfits, heval⟩ := compileNode_spec env scope f 1 q hq
  cases q with
  | none =>
    refine ⟨hatoms, by simp, ?_⟩
    intro truth start
    rw [hnone.mp rfl]
    rfl
  | some q =>
    have hne : f.isEmpty = false := by
      rw [Bool.eq_false_iff]
      intro he
      exact absurd (hnone.mpr he) (by simp)
    refine ⟨?_, ?_, ?_⟩
    · simpa [Predicate.atomsOf, Predicate.atoms_operand] using hatoms
    · rintro _ ⟨⟩
      exact (hfits q rfl).operand
    · intro truth start
      simp [Predicate.evalEach, Predicate.eval_operand, heval q rfl, hne]

/-- The text of a compiled filter is empty where no condition stands in the filter,
and else it is read as what the filter means, with the texts of its conditions for
atoms. It holds no empty parentheses. -/
theorem read_compile {schema : Schema} {maxDepth : Nat} {scope : FilterScope} {p : Parameters}
    {f : Filter} {sql : String}
    (h : (p.writePredicate (f.compile { schema, dialect := p.dialect, maxDepth } scope)).1
      = .ok sql) :
    (sql = "" ↔ f.allConditions = []) ∧
      (f.allConditions ≠ [] → ∃ atoms formula,
        Condition.CompiledTo { schema, dialect := p.dialect, maxDepth } scope
            f.allConditions atoms ∧
          Formula.read p.dialect.quote (p.writeAll (atoms.map (·.tokens p.dialect))).1 sql
            = some formula ∧
          ∀ truth, formula.eval truth = f.meaning truth 0) ∧
      ∃ ls, lexemes p.dialect.quote sql.toList = some ls ∧
        ¬[Lexeme.mark '(', .mark ')'] <:+: ls := by
  cases hp : f.compile { schema, dialect := p.dialect, maxDepth } scope with
  | error r =>
    rw [hp] at h
    cases h
  | ok q =>
    rw [hp] at h
    cases h
    obtain ⟨hnone, hatoms, hfits, heval⟩ := compileNode_spec _ scope f 1 q hp
    have hempty : q = none ↔ f.allConditions = [] := by rw [hnone, isEmpty_iff]
    cases q with
    | none =>
      have hconditions := hempty.mp rfl
      refine ⟨⟨fun _ => hconditions, fun _ => rfl⟩, ?_, [], rfl, by simp⟩
      exact fun hne => absurd hconditions hne
    | some q =>
      have hne : f.allConditions ≠ [] := fun he => by simpa using hempty.mpr he
      have hlexemes := lexemes_render p.dialect p.bound.length (q.tokens p.dialect)
      simp only [Option.toList_some, Predicate.atomsOf, List.append_nil] at hatoms
      have hfilled := (hfits q rfl).filled p.dialect (Condition.hasItems_of_compiledTo hatoms)
      refine ⟨⟨fun he => ?_, fun he => absurd he hne⟩, fun _ => ?_, _, hlexemes,
        hfilled.not_empty_pair p.dialect p.bound.length⟩
      -- a predicate has lexemes, so its text is not empty
      · have hnil : lexemes p.dialect.quote "".toList
            = some (lexemesOf p.dialect p.bound.length (q.tokens p.dialect)) := he ▸ hlexemes
        exact absurd (Option.some.inj hnil).symm (hfilled.enclosing p.dialect _).ne_nil
      · obtain ⟨formula, hread, hmeans⟩ := (hfits q rfl).read_render p
        refine ⟨q.atoms, formula, hatoms, hread, ?_⟩
        intro truth
        rw [hmeans, heval q rfl]

/-- A disjunction of a condition and a denial, with groups that say nothing. -/
def deniedFilter : Filter :=
  { op := .or
    conditions := [.equals "a" (.int 1)]
    nested :=
      [.not [{}, .or [.isNull "b", .isIn "c" (.array [.int 2, .null])]], { nested := [{}] }] }

/-- A denied group behind OR, read back from its text. -/
theorem read_compile_denied :
    ∃ atoms formula,
      Condition.CompiledTo { schema := {}, dialect := .postgres } { model := none }
          deniedFilter.allConditions atoms ∧
        Formula.read '"'
            (({ dialect := .postgres } : Parameters).writeAll (atoms.map (·.tokens .postgres))).1
            "a = $1 OR (NOT (b IS NULL OR c IN ($2, $3)))" = some formula ∧
        ∀ truth, formula.eval truth = (truth 0 || !(truth 1 || truth 2)) := by
  have hsql : (({ dialect := .postgres } : Parameters).writePredicate
      (deniedFilter.compile { schema := {}, dialect := .postgres } { model := none })).1
        = .ok "a = $1 OR (NOT (b IS NULL OR c IN ($2, $3)))" := by decide
  obtain ⟨-, hread, -⟩ := read_compile (p := { dialect := .postgres }) hsql
  obtain ⟨atoms, formula, hatoms, hformula, heval⟩ := hread (by decide)
  refine ⟨atoms, formula, hatoms, hformula, ?_⟩
  intro truth
  rw [heval]
  simp [deniedFilter, meaning, meanings, LogicalOp.holds, isEmpty, allEmpty, Filter.not, Filter.or,
    List.range', allConditions, conditionsOf]

end Filter

end SqlQuery
