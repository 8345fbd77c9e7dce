import SqlQuery.Compile.Parameters
import SqlQuery.Proofs.Compile.Outcome
import SqlQuery.Proofs.Sql.AtomText
import SqlQuery.Proofs.Sql.Numbering

/-!
# The text of a filter, written in one pass

A filter can be written without a predicate in between: condition by condition, in one pass that
puts texts together and hands the list of bound values from each condition to the next. `Writer` is
such a pass, and `Filter.write` is the one over a filter. Every operator has its template here, a
NOT node loses the parentheses of a lone group, and what is refused leaves bound what had been
bound.

> `Filter.writeNode_eq`: the pass writes the text of the predicate that the filter compiles to, and
> binds its values; where the filter is refused, it is refused for the same cause and with the same
> values bound.

A predicate knows nothing of the values bound before it. So the pass does not depend on them
either, up to the numbers of its placeholders.

> `Filter.offset_invariant`: behind two lists of values a filter is written alike, but for where
> its placeholders start, and adds the same values to both.
-/

namespace SqlQuery

open Sql

namespace Parameters

/-- To bind nothing leaves the bound values as they are. -/
@[simp]
theorem bindAll_nil (p : Parameters) : p.bindAll [] = p := by
  simp [bindAll]

theorem bindAll_append (p : Parameters) (us vs : List Value) :
    p.bindAll (us ++ vs) = (p.bindAll us).bindAll vs := by
  simp [bindAll]

@[simp]
theorem dialect_bindAll (p : Parameters) (values : List Value) :
    (p.bindAll values).dialect = p.dialect :=
  rfl

@[simp]
theorem length_bound_bindAll (p : Parameters) (values : List Value) :
    (p.bindAll values).bound.length = p.bound.length + values.length :=
  List.length_append

end Parameters

/-- A pass that writes text and binds values. A refusal does not take back what has been bound. -/
abbrev Writer := ExceptT Error (StateM Parameters)

namespace Writer

variable {α β : Type}

/-- The placeholder of one more value. -/
def slot (v : Value) : Writer String :=
  modifyGet fun p => p.bind v

/-- To bind a value is to get the placeholder behind those already bound. -/
theorem slot_apply (v : Value) (p : Parameters) :
    slot v p = (.ok (p.dialect.placeholder (p.bound.length + 1)), p.bindAll [v]) := by
  rw [← render_slot p.dialect p.bound.length v]
  rfl

theorem pure_apply (a : α) (p : Parameters) : (pure a : Writer α) p = (.ok a, p) :=
  rfl

/-- A pass goes on with what it has and with what it has bound. -/
theorem bind_of_ok {w : Writer α} {p p' : Parameters} {a : α} (h : w p = (.ok a, p'))
    (f : α → Writer β) : (w >>= f) p = f a p' := by
  have hrun : (w >>= f) p = (ExceptT.bindCont f (w p).1) (w p).2 := rfl
  rw [hrun, h]
  rfl

/-- A pass that is refused stops there, and keeps what it has bound. -/
theorem bind_of_error {w : Writer α} {p p' : Parameters} {e : Error} (h : w p = (.error e, p'))
    (f : α → Writer β) : (w >>= f) p = (.error e, p') := by
  have hrun : (w >>= f) p = (ExceptT.bindCont f (w p).1) (w p).2 := rfl
  rw [hrun, h]
  rfl

/-- Values that are bound one after the other get placeholders that are counted on. -/
theorem mapM_slot (values : List Value) (p : Parameters) :
    values.mapM slot p
      = (.ok ((List.range' (p.bound.length + 1) values.length).map p.dialect.placeholder),
          p.bindAll values) := by
  induction values generalizing p with
  | nil => simp [pure_apply]
  | cons v values ih =>
    rw [List.mapM_cons, bind_of_ok (slot_apply v p), bind_of_ok (ih _), pure_apply,
      ← Parameters.bindAll_append]
    simp [List.range'_succ]

end Writer

/-! ## Atoms -/

/-- The pass over an atom: the template of its operator, filled with the placeholders of its
values. -/
def Sql.Atom.write (d : Dialect) : Atom → Writer String
  | .compare lhs folded op value => do
    let rhs ← Writer.slot value
    return foldingText folded (lhs.written d) ++ " " ++ op.symbol.text ++ " "
      ++ foldingText folded rhs
  | .sameColumn a b => return a.written d ++ " = " ++ b.written d
  | .null lhs expected => return lhs.written d ++ (if expected then " IS NULL" else " IS NOT NULL")
  | .oneOf lhs folded expected items => do
    let placeholders ← items.mapM Writer.slot
    return foldingText folded (lhs.written d) ++ (if expected then " IN (" else " NOT IN (")
      ++ ", ".intercalate (placeholders.map (foldingText folded)) ++ ")"
  | .like lhs folded pattern => do
    let rhs ← Writer.slot (.string pattern)
    return foldingText folded (lhs.written d) ++ " LIKE " ++ foldingText folded rhs
  | .array style lhs (.empty true) => return style.isEmptyText (lhs.written d)
  | .array style lhs (.empty false) => return "NOT (" ++ style.isEmptyText (lhs.written d) ++ ")"
  | .array style lhs (.has element) => do
    let placeholder ← Writer.slot element
    return style.hasText (lhs.written d) placeholder
  | .array style lhs (.hasEvery elements) => do
    let placeholders ← elements.mapM Writer.slot
    return style.hasEveryText (lhs.written d) (", ".intercalate placeholders)
  | .array style lhs (.hasSome elements) => do
    let placeholders ← elements.mapM Writer.slot
    return style.hasSomeText (lhs.written d) (", ".intercalate placeholders)
  | .search lhs query => do
    let placeholder ← Writer.slot (.string query)
    return d.searchText (lhs.written d) placeholder
  | .constant truth => return if truth then "1 = 1" else "1 = 0"

/-- The pass over an atom writes its tokens, and binds its values. -/
theorem Sql.Atom.write_eq (a : Atom) (p : Parameters) :
    a.write p.dialect p
      = (.ok (p.dialect.render p.bound.length (a.tokens p.dialect)), p.bindAll a.values) := by
  cases a with
  | compare lhs folded op value =>
    rw [Atom.write, Writer.bind_of_ok (Writer.slot_apply value p), Writer.pure_apply,
      render_compare, Atom.values]
  | sameColumn b c =>
    rw [Atom.write, Writer.pure_apply, render_sameColumn, Atom.values, Parameters.bindAll_nil]
  | null lhs expected =>
    rw [Atom.write, Writer.pure_apply, render_null, Atom.values, Parameters.bindAll_nil]
  | oneOf lhs folded expected items =>
    rw [Atom.write, Writer.bind_of_ok (Writer.mapM_slot items p), Writer.pure_apply,
      render_oneOf, Atom.values]
  | like lhs folded pattern =>
    rw [Atom.write, Writer.bind_of_ok (Writer.slot_apply _ p), Writer.pure_apply, render_like,
      Atom.values]
  | array style lhs test =>
    cases test with
    | empty expected =>
      cases expected with
      | true =>
        rw [Atom.write, Writer.pure_apply, Atom.tokens, ArrayTest.tokens,
          ArrayStyle.render_isEmpty, Atom.values, Parameters.bindAll_nil]
      | false =>
        rw [Atom.write, Writer.pure_apply, Atom.tokens, ArrayTest.tokens,
          render_word_cons _ _ _ (opens_grouped _), render_grouped, ArrayStyle.render_isEmpty,
          Atom.values, Parameters.bindAll_nil]
        have hnot (text : String) : Keyword.not.text ++ " " ++ ("(" ++ text ++ ")")
            = "NOT (" ++ text ++ ")" := by
          rw [← String.toList_inj]
          simp [Keyword.text]
        rw [hnot]
    | has element =>
      rw [Atom.write, Writer.bind_of_ok (Writer.slot_apply element p), Writer.pure_apply,
        Atom.tokens, ArrayTest.tokens, ArrayStyle.render_has, Atom.values]
    | hasEvery elements =>
      rw [Atom.write, Writer.bind_of_ok (Writer.mapM_slot elements p), Writer.pure_apply,
        Atom.tokens, ArrayTest.tokens, ArrayStyle.render_hasEvery, placeholdersText, Atom.values]
    | hasSome elements =>
      rw [Atom.write, Writer.bind_of_ok (Writer.mapM_slot elements p), Writer.pure_apply,
        Atom.tokens, ArrayTest.tokens, ArrayStyle.render_hasSome, placeholdersText, Atom.values]
  | search lhs query =>
    rw [Atom.write, Writer.bind_of_ok (Writer.slot_apply _ p), Writer.pure_apply, Atom.tokens,
      Dialect.render_search, Atom.values]
  | constant truth =>
    rw [Atom.write, Writer.pure_apply, render_constant, Atom.values, Parameters.bindAll_nil]

/-! ## Conditions and filters -/

/-- The pass over a condition. -/
def Condition.write (c : Condition) (env : Env) (scope : FilterScope) : Writer String := do
  let a ← MonadExcept.ofExcept (c.atom env scope)
  a.write env.dialect

/-- A text in parentheses. -/
def parenthesized (text : String) : String :=
  "(" ++ text ++ ")"

namespace Filter

/-- The text of a node with the texts of some conditions and some groups, if it has either. -/
def joinTexts (op : LogicalOp) (conditions groups : List String) : Option String :=
  let parts := conditions ++ groups.map parenthesized
  match op, conditions, groups with
  | _, [], [] => none
  | .and, _, _ => some (" AND ".intercalate parts)
  | .or, _, _ => some (" OR ".intercalate parts)
  | .not, [], [group] => some ("NOT " ++ parenthesized group)
  | .not, _, _ => some ("NOT " ++ parenthesized (" AND ".intercalate parts))

mutual

/-- The pass over a node that is `depth` levels down. -/
def writeNode (env : Env) (scope : FilterScope) (depth : Nat) : Filter → Writer (Option String)
  | ⟨op, conditions, nested⟩ =>
    if env.maxDepth < depth then throw (.depthExceeded .filter env.maxDepth)
    else do
      let texts ← conditions.mapM (·.write env scope)
      let groups ← writeNodes env scope (depth + 1) nested
      return joinTexts op texts groups

/-- The pass over nodes; one in which no condition stands has no text. -/
def writeNodes (env : Env) (scope : FilterScope) (depth : Nat) :
    List Filter → Writer (List String)
  | [] => return []
  | f :: rest => do
    let text ← writeNode env scope depth f
    let more ← writeNodes env scope depth rest
    return text.toList ++ more

end

/-- The pass over a filter; one in which no condition stands has the empty text. -/
def write (f : Filter) (env : Env) (scope : FilterScope) : Writer String := do
  let text ← f.writeNode env scope 1
  return text.getD ""

end Filter

/-! ## What a pass makes of an outcome -/

/-- A compiled part as it is written: its text and the values that it binds, or the cause of its
refusal and the values that had been bound before. -/
def Parameters.settle {α β : Type} (p : Parameters) (text : α → β) (values : α → List Value) :
    Except Refusal α → Except Error β × Parameters
  | .ok a => (.ok (text a), p.bindAll (values a))
  | .error r => (.error r.cause, p.bindAll r.bound)

namespace Writer

variable {α β γ δ ζ η : Type} {p : Parameters} {x : Except Refusal α} {w : Writer γ} {s : α → γ}
  {us : α → List Value} {text : ζ → η} {values : ζ → List Value}

/-- A pass goes on behind the values of its first part as the outcome goes on. -/
theorem settle_bind {v : γ → Writer η} {y : α → Except Refusal ζ} (hw : w p = p.settle s us x)
    (hv : ∀ a, x = .ok a → v (s a) (p.bindAll (us a)) = p.settle text values (y a)) :
    (w >>= v) p = p.settle text values (x >>= y) := by
  cases x with
  | error r => exact bind_of_error hw _
  | ok a => exact (bind_of_ok hw _).trans (hv a rfl)

/-- Two parts are written one after the other, the second behind the values of the first; what
they are merged into has the combined text. -/
theorem settle_both {v : γ → Writer δ} {y : α → Except Refusal β} {t : α → β → δ}
    {vs : β → List Value} {merge : α → β → ζ} {combine : γ → δ → η} (hw : w p = p.settle s us x)
    (hv : ∀ a, v (s a) (p.bindAll (us a)) = (p.bindAll (us a)).settle (t a) vs (y a))
    (htext : ∀ a b, text (merge a b) = combine (s a) (t a b))
    (hvalues : ∀ a b, values (merge a b) = us a ++ vs b) :
    (do let c ← w; let e ← v c; return combine c e : Writer η) p
      = p.settle text values (do
          let a ← x
          let b ← Refusal.after (us a) (y a)
          return merge a b) := by
  refine settle_bind hw fun a _ => ?_
  have hrest := hv a
  cases hy : y a with
  | error r =>
    -- the refusal of the second part has the values of the first before its own
    rw [hy] at hrest
    rw [bind_of_error hrest]
    exact congrArg (Prod.mk _) (p.bindAll_append ..).symm
  | ok b =>
    rw [hy] at hrest
    rw [bind_of_ok hrest, pure_apply, ← htext, ← Parameters.bindAll_append, ← hvalues]
    rfl

end Writer

/-! ## The pass and the predicate -/

namespace Sql.Predicate

mutual

/-- What the tokens of a predicate bind is what it binds. -/
theorem slots_tokens (d : Dialect) : ∀ p : Predicate, slots (p.tokens d) = p.values
  | .atom a => by rw [tokens, values, Atom.slots_tokens]
  | .group p => by rw [tokens, values, slots_grouped, slots_tokens d p]
  | .not p => by
    rw [tokens, values, ← slots_tokens d p, ← slots_grouped (tokens d p)]
    rfl
  | .all parts => by
    rw [tokens, values, joined, slots_intercalate rfl, slots_tokensOf d parts]
  | .any parts => by
    rw [tokens, values, joined, slots_intercalate rfl, slots_tokensOf d parts]

/-- Parts of a predicate bind their values one part after the other. -/
theorem slots_tokensOf (d : Dialect) :
    ∀ parts : List Predicate, (tokensOf d parts).flatMap slots = valuesOf parts
  | [] => rfl
  | p :: rest => by
    rw [tokensOf, valuesOf, List.flatMap_cons, slots_tokens d p, slots_tokensOf d rest]

end

/-- The values of some predicates are those of each of them in turn. -/
theorem valuesOf_eq (parts : List Predicate) : valuesOf parts = parts.flatMap values := by
  induction parts with
  | nil => rfl
  | cons p rest ih => rw [valuesOf, ih, List.flatMap_cons]

end Sql.Predicate

variable {p : Parameters} {env : Env} {scope : FilterScope}

/-- The pass over a condition writes its atom, or is refused with nothing bound. -/
theorem Condition.write_eq (hp : p.dialect = env.dialect) (c : Condition) :
    c.write env scope p
      = p.settle (fun a => p.dialect.render p.bound.length (a.tokens p.dialect)) Atom.values
          (Refusal.of (c.atom env scope)) := by
  unfold Condition.write
  rw [← hp]
  cases hatom : c.atom env scope with
  | error e =>
    have herror : (MonadExcept.ofExcept (.error e) : Writer Atom) p = (.error e, p) := rfl
    rw [Writer.bind_of_error herror]
    simp [Parameters.settle, Refusal.of, Except.mapError]
  | ok a =>
    have hok : (MonadExcept.ofExcept (.ok a) : Writer Atom) p = (.ok a, p) := rfl
    rw [Writer.bind_of_ok hok, a.write_eq]
    rfl

/-- Conditions are written one after the other. -/
theorem Condition.mapM_write (hp : p.dialect = env.dialect) (conditions : List Condition) :
    conditions.mapM (·.write env scope) p
      = p.settle (fun as => renderEach p.dialect p.bound.length (as.map (·.tokens p.dialect)))
          (·.flatMap Atom.values) (atoms env scope conditions) := by
  induction conditions generalizing p with
  | nil => simp [atoms, Parameters.settle, renderEach, Writer.pure_apply]
  | cons c rest ih =>
    rw [List.mapM_cons, atoms]
    refine Writer.settle_both (write_eq hp c) (fun a => ih hp) ?_ fun a as => rfl
    intro a as
    rw [List.map_cons, renderEach, Atom.slots_tokens, Parameters.length_bound_bindAll]
    rfl

namespace Filter

theorem renderEach_groups (d : Dialect) (bound : Nat) (groups : List Predicate) :
    renderEach d bound ((groups.map Predicate.group).map (·.tokens d))
      = (renderEach d bound (groups.map (·.tokens d))).map parenthesized := by
  induction groups generalizing bound with
  | nil => rfl
  | cons g groups ih =>
    simp only [List.map_cons, renderEach, Predicate.tokens, render_grouped, slots_grouped, ih]
    rfl

/-- The parts of a node with a word between them: the texts of its atoms, and behind them those of
its groups in parentheses. -/
theorem render_parts (d : Dialect) (bound : Nat) (k : Keyword) (as : List Atom)
    (groups : List Predicate) :
    d.render bound
        (joined k (Predicate.tokensOf d (as.map .atom ++ groups.map .group)))
      = (" " ++ k.text ++ " ").intercalate
          (renderEach d bound (as.map (·.tokens d))
            ++ (renderEach d (bound + (as.flatMap Atom.values).length)
                (groups.map (·.tokens d))).map parenthesized) := by
  have hatoms : (as.map Predicate.atom).map (·.tokens d) = as.map (·.tokens d) := by
    simp [Predicate.tokens]
  have hslots : (as.map (·.tokens d)).flatMap slots = as.flatMap Atom.values := by
    simp [List.flatMap_map, Atom.slots_tokens]
  have hparts (f : Fragment Value) (hf : f ∈ as.map (·.tokens d)
      ++ (groups.map Predicate.group).map (·.tokens d)) : Opens f ∧ Closes f := by
    rcases List.mem_append.mp hf with hf | hf
    · obtain ⟨a, -, rfl⟩ := List.mem_map.mp hf
      exact ⟨a.opens d, a.closes d⟩
    · obtain ⟨q, hq, rfl⟩ := List.mem_map.mp hf
      obtain ⟨g, -, rfl⟩ := List.mem_map.mp hq
      rw [Predicate.tokens]
      exact ⟨opens_grouped _, closes_grouped _⟩
  rw [Predicate.tokensOf_eq, List.map_append, hatoms, render_joined d bound k hparts,
    renderEach_append, renderEach_groups, hslots]

/-- A node of atoms and groups is written as their texts are joined. -/
theorem joinTexts_eq (d : Dialect) (bound : Nat) (op : LogicalOp) (as : List Atom)
    (groups : List Predicate) :
    (assemble op as groups).map (fun q => d.render bound (q.tokens d))
      = joinTexts op (renderEach d bound (as.map (·.tokens d)))
          (renderEach d (bound + (as.flatMap Atom.values).length)
            (groups.map (·.tokens d))) := by
  have hjoined (k : Keyword) := render_parts d bound k as groups
  have hdenied (q : Predicate) : d.render bound ((Predicate.not q).tokens d)
      = "NOT " ++ parenthesized (d.render bound (q.tokens d)) := by
    rw [Predicate.tokens, render_word_cons d bound _ (opens_grouped _), render_grouped]
    rfl
  have hall : d.render bound ((Predicate.all (as.map .atom ++ groups.map .group)).tokens d) = _ :=
    hjoined .and
  have hnot := hdenied (.all (as.map .atom ++ groups.map .group))
  rw [hall] at hnot
  rcases as with _ | ⟨a, as⟩
  · rcases groups with _ | ⟨g, gs⟩
    · cases op <;> rfl
    · cases op with
      | and => exact congrArg some (hjoined .and)
      | or => exact congrArg some (hjoined .or)
      | not =>
        -- a lone group stands in the parentheses of the denial itself
        cases gs with
        | nil => exact congrArg some (hdenied g)
        | cons g' gs => exact congrArg some hnot
  · cases op with
    | and => exact congrArg some (hjoined .and)
    | or => exact congrArg some (hjoined .or)
    | not => exact congrArg some hnot

/-- Conditions are bound before groups, whichever word joins them. -/
theorem valuesOf_assemble (op : LogicalOp) (as : List Atom) (groups : List Predicate) :
    Predicate.valuesOf (assemble op as groups).toList
      = as.flatMap Atom.values ++ Predicate.valuesOf groups := by
  have hparts : Predicate.valuesOf (as.map .atom ++ groups.map .group)
      = as.flatMap Atom.values ++ Predicate.valuesOf groups := by
    simp [Predicate.valuesOf_eq, List.flatMap_map, Predicate.values]
  unfold assemble
  dsimp only
  split <;> simp_all [Predicate.valuesOf, Predicate.values]

mutual

/-- The pass over a node writes the predicate that the node compiles to. -/
theorem writeNode_eq (env : Env) (scope : FilterScope) (depth : Nat) :
    ∀ (f : Filter) (p : Parameters), p.dialect = env.dialect →
      f.writeNode env scope depth p
        = p.settle (·.map fun q => p.dialect.render p.bound.length (q.tokens p.dialect))
            (fun q => Predicate.valuesOf q.toList) (f.compileNode env scope depth)
  | ⟨op, conditions, nested⟩, p, hp => by
    rw [writeNode, compileNode]
    split
    · -- a node too far down is refused before anything of it is bound
      rw [Parameters.settle, Parameters.bindAll_nil]
      rfl
    · refine Writer.settle_both (Condition.mapM_write hp conditions)
        (fun as => writeNodes_eq env scope (depth + 1) nested _ hp) ?_ (valuesOf_assemble op)
      intro as groups
      rw [joinTexts_eq, Parameters.length_bound_bindAll]
      rfl

theorem writeNodes_eq (env : Env) (scope : FilterScope) (depth : Nat) :
    ∀ (fs : List Filter) (p : Parameters), p.dialect = env.dialect →
      writeNodes env scope depth fs p
        = p.settle (fun qs => renderEach p.dialect p.bound.length (qs.map (·.tokens p.dialect)))
            Predicate.valuesOf (compileNodes env scope depth fs)
  | [], p, _ => by
    rw [writeNodes, compileNodes, Writer.pure_apply]
    simp [Parameters.settle, renderEach, Predicate.valuesOf]
  | f :: rest, p, hp => by
    rw [writeNodes, compileNodes]
    refine Writer.settle_both (writeNode_eq env scope depth f p hp)
      (fun q => writeNodes_eq env scope depth rest _ hp) ?_ ?_
    · rintro (_ | q) qs
      · simp [Predicate.valuesOf]
      · simp [Predicate.valuesOf, renderEach, Predicate.slots_tokens]
    · intro q qs
      simp [Predicate.valuesOf_eq]

end

/-- The pass over a filter writes the predicate that the filter compiles to. -/
theorem write_eq (f : Filter) (env : Env) (scope : FilterScope) {p : Parameters}
    (hp : p.dialect = env.dialect) :
    f.write env scope p = p.writePredicate (f.compile env scope) := by
  have hnode := writeNode_eq env scope 1 f p hp
  unfold write compile
  cases hcompile : f.compileNode env scope 1 with
  | error r =>
    rw [hcompile] at hnode
    exact Writer.bind_of_error hnode _
  | ok q =>
    have hslots : slots (Sql.optional p.dialect q) = Predicate.valuesOf q.toList := by
      cases q with
      | none => rfl
      | some q => simp [Sql.optional, Predicate.valuesOf, Predicate.slots_tokens]
    rw [hcompile] at hnode
    rw [Writer.bind_of_ok hnode, Writer.pure_apply]
    dsimp only
    rw [← hslots]
    cases q <;> rfl

-- the group of the denial keeps its own parentheses only, and the numbers go on behind two values
example :
    ((Filter.not [.or [.equals "a" (.int 1), .isIn "b" (.array [.int 2, .int 3])]]).write
        { schema := {}, dialect := .postgres } { model := none }
        { dialect := .postgres, bound := [.null, .null] }).1.toOption
      = some "NOT (a = $3 OR b IN ($4, $5))" := by
  decide +kernel

end Filter

/-- Behind two lists of values a compiled filter is written alike, but for where its placeholders
start, and binds the same values. -/
theorem Parameters.writePredicate_offset (d : Dialect) (bound bound' : List Value)
    (outcome : Except Refusal (Option Predicate)) :
    let written := ({ dialect := d, bound } : Parameters).writePredicate outcome
    let written' := ({ dialect := d, bound := bound' } : Parameters).writePredicate outcome
    SameOutcome Eq (SameButNumbers d bound.length bound'.length) written.1 written'.1 ∧
    ∃ gained, written.2 = { dialect := d, bound := bound ++ gained } ∧
      written'.2 = { dialect := d, bound := bound' ++ gained } := by
  cases outcome with
  | ok q => exact ⟨.ok (sameButNumbers_render ..), slots (Sql.optional d q), rfl, rfl⟩
  | error r => exact ⟨.error rfl, r.bound, rfl, rfl⟩

namespace Filter

/-- Behind two lists of values a filter is written alike, but for where its placeholders start: it
is refused behind both for the same cause, or the texts are the same once their numbers are counted
from the same value on. Behind both it binds the same values, and what was bound before stays. -/
theorem offset_invariant (f : Filter) (env : Env) (scope : FilterScope)
    (bound bound' : List Value) :
    let p : Parameters := { dialect := env.dialect, bound }
    let p' : Parameters := { dialect := env.dialect, bound := bound' }
    let written := p.writePredicate (f.compile env scope)
    let written' := p'.writePredicate (f.compile env scope)
    f.write env scope p = written ∧ f.write env scope p' = written' ∧
    SameOutcome Eq (SameButNumbers env.dialect bound.length bound'.length) written.1 written'.1 ∧
    ∃ gained, written.2 = { dialect := env.dialect, bound := bound ++ gained } ∧
      written'.2 = { dialect := env.dialect, bound := bound' ++ gained } :=
  ⟨f.write_eq env scope rfl, f.write_eq env scope rfl,
    Parameters.writePredicate_offset env.dialect bound bound' _⟩

end Filter

end SqlQuery
