import SqlQuery.Proofs.Sql.ColumnList
import SqlQuery.Proofs.Sql.References

/-!
# The text of an operand

An operand binds no values, so it is written alike wherever it stands: as an item of a selection,
and in the condition that compares it. Its text tells which column it reads under which qualifier,
as names are read back from it.

> `Operand.text_infix`: the text of an operand stands in the text of every atom about it.

> `Operand.text_aggregate_inj`: aggregates of different columns are written differently.
-/

namespace SqlQuery.Sql

variable {α : Type}

/-! ## Parts of a fragment -/

/-- The first of two fragments starts their common text. -/
theorem prefix_layout_append (quote : Char) (write : α → String) (f g : Fragment α) :
    layout quote write f <+: layout quote write (f ++ g) := by
  induction f with
  | nil => exact List.nil_prefix
  | cons t f ih =>
    cases f with
    | nil =>
      cases g with
      | nil => exact List.prefix_rfl
      | cons u g =>
        rw [List.singleton_append, layout, layout, List.append_assoc]
        exact List.prefix_append ..
    | cons u f =>
      rw [List.cons_append, List.cons_append, layout, layout]
      exact (List.prefix_append_right_inj _).mpr ih

/-- The second of two fragments ends their common text. -/
theorem suffix_layout_append (quote : Char) (write : α → String) (f g : Fragment α) :
    layout quote write g <:+ layout quote write (f ++ g) := by
  induction f with
  | nil => exact List.suffix_rfl
  | cons t f ih =>
    cases hmore : f ++ g with
    | nil =>
      rw [(List.append_eq_nil_iff.mp hmore).2]
      exact List.nil_suffix
    | cons u more =>
      rw [List.cons_append, hmore, layout]
      rw [hmore] at ih
      exact ih.trans (List.suffix_append ..)

/-- The numbers of placeholders are nothing to a fragment that has none. -/
theorem number_of_slots_nil {f : Fragment α} (h : slots f = []) (bound : Nat) :
    number bound f = number 0 f := by
  induction f with
  | nil => rfl
  | cons t f ih =>
    cases t with
    | slot a => cases h
    | _ => exact congrArg _ (ih h)

/-- A part without placeholders is written the same as alone. -/
theorem render_infix (d : Dialect) (bound : Nat) {f g : Fragment α} (h : f <:+: g)
    (hf : slots f = []) : (d.render 0 f).toList <:+: (d.render bound g).toList := by
  obtain ⟨before, after, rfl⟩ := h
  unfold Dialect.render
  rw [String.toList_ofList, String.toList_ofList, number_append, number_append,
    number_of_slots_nil hf (bound + _)]
  exact (suffix_layout_append ..).isInfix.trans (prefix_layout_append ..).isInfix

theorem infix_commas {f : Fragment α} {fs : List (Fragment α)} (h : f ∈ fs) : f <:+: commas fs := by
  induction fs with
  | nil => cases h
  | cons g fs ih =>
    cases fs with
    | nil =>
      rw [List.mem_singleton.mp h]
      exact ⟨[], [], by simp [commas]⟩
    | cons g' fs =>
      rw [commas, List.intercalate_cons_cons]
      rcases List.mem_cons.mp h with rfl | h
      · rw [List.append_assoc]
        exact (List.prefix_append ..).isInfix
      · exact (ih h).trans (List.suffix_append ..).isInfix

/-- An argument is a part of a call. -/
theorem infix_call {k : Keyword} {f : Fragment α} {fs : List (Fragment α)} (h : f ∈ fs) :
    f <:+: call k fs :=
  (infix_commas h).trans ⟨[.word k, .symbol .arguments], [.symbol .close], rfl⟩

theorem infix_folding (folded : Bool) (f : Fragment α) : f <:+: folding folded f := by
  cases folded with
  | true => exact infix_call (List.mem_singleton_self f)
  | false => exact List.infix_rfl

/-- The left side of a comparison stands in it. -/
theorem infix_compared_left (s : Symbol) (f g : Fragment α) : f <:+: compared s f g :=
  (List.prefix_append ..).isInfix

/-- The right side of a comparison stands in it. -/
theorem infix_compared_right (s : Symbol) (f g : Fragment α) : g <:+: compared s f g :=
  ⟨f ++ [Token.symbol s], [], by simp [compared]⟩

/-! ## Operands in atoms -/

/-- The column stands in the test for an empty array, in every style. -/
theorem infix_isEmpty (style : ArrayStyle) (column : Fragment α) :
    column <:+: style.isEmpty column := by
  cases style with
  | native =>
    exact (infix_call (List.mem_cons_self ..)).trans
      ((infix_call (List.mem_cons_self ..)).trans (infix_compared_left ..))
  | json => exact (infix_call (List.mem_singleton_self _)).trans (infix_compared_left ..)

/-- The column stands in every test of an array. -/
theorem ArrayTest.infix_tokens (style : ArrayStyle) (column : Fragment Value) (test : ArrayTest) :
    column <:+: test.tokens style column := by
  cases test with
  | empty expected =>
    cases expected with
    | true => exact infix_isEmpty style column
    | false =>
      exact (infix_isEmpty style column).trans ⟨[.word .not, .symbol .group], [.symbol .close], rfl⟩
  | has element =>
    cases style with
    | native => exact (infix_call (List.mem_singleton_self _)).trans (infix_compared_right ..)
    | json => exact infix_call (List.mem_cons_self ..)
  | hasEvery elements | hasSome elements =>
    cases style with
    | native => exact infix_compared_left ..
    | json => exact infix_call (List.mem_cons_self ..)

/-- The column stands in a text search, in every dialect. -/
theorem infix_search (d : Dialect) (column query : Fragment α) :
    column <:+: d.search column query := by
  cases d with
  | postgres => exact (infix_call (List.mem_singleton_self _)).trans (infix_compared_left ..)
  | mysql => exact (infix_call (List.mem_singleton_self _)).trans (List.prefix_append ..).isInfix
  | sqlite => exact (List.prefix_append ..).isInfix

/-- What an atom looks at is a part of it. -/
theorem Atom.infix_tokens (d : Dialect) (a : Atom) :
    ∀ o ∈ a.operands, (o.tokens : Fragment Value) <:+: a.tokens d := by
  cases a with
  | compare lhs folded op value =>
    exact List.forall_mem_singleton.mpr
      ((infix_folding folded lhs.tokens).trans (infix_compared_left ..))
  | sameColumn b c =>
    exact List.forall_mem_cons.mpr ⟨infix_compared_left ..,
      List.forall_mem_singleton.mpr (infix_compared_right ..)⟩
  | null lhs expected =>
    refine List.forall_mem_singleton.mpr ?_
    cases expected <;> exact (List.prefix_append ..).isInfix
  | oneOf lhs folded expected items =>
    refine List.forall_mem_singleton.mpr ((infix_folding folded lhs.tokens).trans ?_)
    exact (List.prefix_append ..).isInfix.trans (List.prefix_append ..).isInfix
  | like lhs folded pattern =>
    exact List.forall_mem_singleton.mpr
      ((infix_folding folded lhs.tokens).trans (List.prefix_append ..).isInfix)
  | array style lhs test => exact List.forall_mem_singleton.mpr (test.infix_tokens style _)
  | search lhs query => exact List.forall_mem_singleton.mpr (infix_search d _ _)
  | constant truth => exact fun _ ho => absurd ho List.not_mem_nil

/-! ## Texts -/

namespace Operand

/-- The text of an operand. -/
def text (d : Dialect) (o : Operand) : String :=
  d.render 0 (o.tokens : Fragment Value)

/-- The text of an operand stands in the text of every atom about it. -/
theorem text_infix (d : Dialect) (bound : Nat) {a : Atom} :
    ∀ o ∈ a.operands, (o.text d).toList <:+: (d.render bound (a.tokens d)).toList :=
  fun o ho => render_infix d bound (a.infix_tokens d o ho) (slots_tokens o)

end Operand

theorem Lexeme.ofName_inj {n n' : String} (h : ofName n.toList = ofName n'.toList) : n = n' := by
  have hname := congrArg Lexeme.name? h
  rw [name?_ofName, name?_ofName] at hname
  exact Option.some.inj hname

/-- What is read of a reference. -/
def ColumnRef.lexemes (c : ColumnRef) : List Lexeme :=
  match c.qualifier with
  | some q => [.ofName q.toList, .mark '.', .ofName c.column.toList]
  | none => [.ofName c.column.toList]

/-- A reference is known from what is read of it. -/
theorem ColumnRef.lexemes_inj {c c' : ColumnRef} (h : c.lexemes = c'.lexemes) : c = c' := by
  obtain ⟨qualifier, column⟩ := c
  obtain ⟨qualifier', column'⟩ := c'
  cases qualifier <;> cases qualifier' <;> dsimp only [lexemes] at h
  case none.none =>
    obtain rfl : column = column' := Lexeme.ofName_inj (List.cons.inj h).1
    rfl
  case some.some q q' =>
    simp only [List.cons.injEq, and_true, true_and] at h
    obtain rfl : q = q' := Lexeme.ofName_inj h.1
    obtain rfl : column = column' := Lexeme.ofName_inj h.2
    rfl
  all_goals cases congrArg List.length h

/-- Aggregates of different columns are written differently. -/
theorem Operand.text_aggregate_inj {d : Dialect} {f : AggregateFunction} {c c' : ColumnRef}
    (h : (Operand.aggregate f c).text d = (Operand.aggregate f c').text d) : c = c' := by
  have hlexemes (c : ColumnRef) :
      lexemesOf d 0 ((Operand.aggregate f c).tokens : Fragment Value)
        = (Keyword.ofAggregate f).lexeme :: .mark '(' :: (c.lexemes ++ [Lexeme.mark ')']) := by
    obtain ⟨_ | _, _⟩ := c <;> rfl
  have hread := congrArg (fun text => Sql.lexemes d.quote text.toList) h
  simp only [text, lexemes_render, hlexemes, Option.some.injEq, List.cons.injEq, true_and,
    List.append_cancel_right_eq] at hread
  exact ColumnRef.lexemes_inj hread

end SqlQuery.Sql
