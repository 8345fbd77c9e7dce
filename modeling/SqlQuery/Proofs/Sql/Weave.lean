import Mathlib.Data.List.Forall2
import SqlQuery.Compile.Parameters
import SqlQuery.Proofs.Sql.Lexeme

/-!
# Pieces of a text

Where arguments stand in a text is said without counting: `Woven` holds when some
pieces stand in a text one after the other and nothing between them binds a value.
The n-th placeholder of the text is then the n-th placeholder of the pieces.

> `Woven.slots_eq`: a fragment binds what its pieces bind, in their order.

> `Woven.lexemes`: pieces of a fragment are pieces of the text that is read back.

> `mapM_lexemes_writeAll`: fragments that are written one after the other are read
> back with their placeholders counted on.
-/

namespace SqlQuery.Sql

/-- The pieces stand in the list in order, and no element beside them binds. -/
inductive Woven {β : Type} (binds : β → Bool) : List (List β) → List β → Prop where
  | glue {ts : List β} : (∀ t ∈ ts, binds t = false) → Woven binds [] ts
  | piece {before piece rest : List β} {pieces : List (List β)} :
      (∀ t ∈ before, binds t = false) → Woven binds pieces rest →
        Woven binds (piece :: pieces) (before ++ piece ++ rest)

/-- Whether a token binds a value. -/
def Token.isSlot {α : Type} : Token α → Bool
  | .slot _ => true
  | _ => false

/-- Whether a lexeme is a placeholder. -/
def Lexeme.isPlaceholder : Lexeme → Bool
  | .placeholder _ => true
  | _ => false

namespace Woven

variable {β : Type} {binds : β → Bool}

/-- A list is woven of itself alone. -/
theorem self (ts : List β) : Woven binds [ts] ts := by
  have h : Woven binds [ts] ([] ++ ts ++ []) := .piece (by simp) (.glue (by simp))
  simpa using h

/-- Elements that do not bind can stand in front. -/
theorem glue_append {before ts : List β} {pieces : List (List β)}
    (hbefore : ∀ t ∈ before, binds t = false) (h : Woven binds pieces ts) :
    Woven binds pieces (before ++ ts) := by
  cases h with
  | glue hts =>
    refine .glue fun t ht => ?_
    rcases List.mem_append.mp ht with ht | ht
    · exact hbefore t ht
    · exact hts t ht
  | @piece b p rest pieces hb hrest =>
    have hall : ∀ t ∈ before ++ b, binds t = false := by
      intro t ht
      rcases List.mem_append.mp ht with ht | ht
      · exact hbefore t ht
      · exact hb t ht
    have h : Woven binds (p :: pieces) (before ++ b ++ p ++ rest) := .piece hall hrest
    simpa only [List.append_assoc] using h

/-- What is woven of some pieces, and behind it what is woven of others, is woven of all. -/
theorem append {ts us : List β} {pieces more : List (List β)} (h : Woven binds pieces ts)
    (h' : Woven binds more us) : Woven binds (pieces ++ more) (ts ++ us) := by
  induction h with
  | glue hts => exact h'.glue_append hts
  | @piece b p rest pieces hb _ ih =>
    have hp : Woven binds (p :: (pieces ++ more)) (b ++ p ++ (rest ++ us)) := .piece hb ih
    simpa only [List.append_assoc, List.cons_append] using hp

/-- What stands in a piece stands in the whole. -/
theorem mem_of_mem {t : β} {piece ts : List β} {pieces : List (List β)} (h : Woven binds pieces ts)
    (hpiece : piece ∈ pieces) (ht : t ∈ piece) : t ∈ ts := by
  induction h with
  | glue _ => exact absurd hpiece List.not_mem_nil
  | @piece before p pieces rest _ _ ih =>
    rcases List.mem_cons.mp hpiece with rfl | hpiece
    · exact List.mem_append_left _ (List.mem_append_right _ ht)
    · exact List.mem_append_right _ (ih hpiece)

/-- Elements that do not bind can stand behind. -/
theorem append_glue {ts after : List β} {pieces : List (List β)} (h : Woven binds pieces ts)
    (hafter : ∀ t ∈ after, binds t = false) : Woven binds pieces (ts ++ after) := by
  have h' := h.append (.glue hafter)
  rwa [List.append_nil] at h'

/-- Pieces that do not bind need not be counted. -/
theorem drop {piece ts : List β} {pieces : List (List β)} (h : Woven binds (piece :: pieces) ts)
    (hpiece : ∀ t ∈ piece, binds t = false) : Woven binds pieces ts := by
  cases h with
  | piece hb hrest =>
    rw [List.append_assoc]
    exact (hrest.glue_append hpiece).glue_append hb

/-- Lists with a separator that does not bind between them. -/
theorem intercalate {sep : List β} (hsep : ∀ t ∈ sep, binds t = false) :
    ∀ {lists : List (List β)} {pieces : List (List (List β))},
      List.Forall₂ (Woven binds) pieces lists →
        Woven binds pieces.flatten (sep.intercalate lists) := by
  intro lists pieces h
  induction h with
  | nil => exact .glue (by simp)
  | @cons ps ts pss tss hp htail ih =>
    cases tss with
    | nil =>
      cases htail
      simpa using hp
    | cons us tss =>
      rw [List.intercalate_cons_cons, List.flatten_cons, List.append_assoc]
      exact hp.append (ih.glue_append hsep)

end Woven

/-! ## Fragments -/

/-- What holds no slot binds nothing. -/
theorem slots_eq_nil_iff {α : Type} {ts : Fragment α} :
    slots ts = [] ↔ ∀ t ∈ ts, t.isSlot = false := by
  induction ts with
  | nil => simp [slots]
  | cons t ts ih => cases t <;> simp [slots, ih, Token.isSlot]

/-- Parentheses bind nothing. -/
theorem Woven.grouped {α : Type} {pieces : List (Fragment α)} {f : Fragment α}
    (h : Woven Token.isSlot pieces f) : Woven Token.isSlot pieces (grouped f) := by
  rw [Sql.grouped, ← List.singleton_append, List.append_assoc]
  exact (h.append_glue (by simp [Token.isSlot])).glue_append (by simp [Token.isSlot])

/-- A fragment binds what its pieces bind, in their order. -/
theorem Woven.slots_eq {α : Type} {pieces : List (Fragment α)} {ts : Fragment α}
    (h : Woven Token.isSlot pieces ts) : slots ts = pieces.flatMap slots := by
  induction h with
  | glue hts => rw [slots_eq_nil_iff.mpr hts]; rfl
  | piece hb _ ih =>
    rw [slots_append, slots_append, slots_eq_nil_iff.mpr hb, ih, List.flatMap_cons, List.nil_append]

/-! ## Slots of built fragments -/

attribute [simp] slots slots_append

/-- What binds nothing may stand between fragments. -/
@[simp]
theorem slots_intercalate {α : Type} {sep : Fragment α} (hsep : slots sep = []) :
    ∀ fs : List (Fragment α), slots (sep.intercalate fs) = fs.flatMap slots := by
  intro fs
  induction fs with
  | nil => rfl
  | cons f fs ih =>
    cases fs with
    | nil => simp
    | cons g fs =>
      rw [List.intercalate_cons_cons, slots_append, slots_append, hsep, ih]
      simp

/-- A list binds what its members bind. -/
@[simp]
theorem slots_commas {α : Type} (fs : List (Fragment α)) :
    slots (commas fs) = fs.flatMap slots :=
  slots_intercalate rfl fs

/-- A call binds what its arguments bind. -/
@[simp]
theorem slots_call {α : Type} (k : Keyword) (fs : List (Fragment α)) :
    slots (call k fs) = fs.flatMap slots := by
  simp [call]

@[simp]
theorem slots_grouped {α : Type} (f : Fragment α) : slots (grouped f) = slots f := by
  simp [grouped]

/-- A comparison binds the values of its left side first. -/
@[simp]
theorem slots_compared {α : Type} (s : Symbol) (f g : Fragment α) :
    slots (compared s f g) = slots f ++ slots g := by
  simp [compared]

@[simp]
theorem slots_folding {α : Type} (folded : Bool) (f : Fragment α) :
    slots (folding folded f) = slots f := by
  cases folded <;> simp [folding]

@[simp]
theorem slots_nameList {α : Type} (names : List String) :
    slots (nameList (α := α) names) = [] := by
  simp [nameList, List.flatMap_map]

/-- A list of placeholders binds each of its values. -/
@[simp]
theorem slots_slotList (items : List Value) : slots (slotList items) = items := by
  simp [slotList, List.flatMap_map]

@[simp]
theorem ColumnRef.slots_tokens {α : Type} (c : ColumnRef) : slots (c.tokens (α := α)) = [] := by
  unfold ColumnRef.tokens
  split <;> rfl

@[simp]
theorem Operand.slots_tokens {α : Type} (o : Operand) : slots (o.tokens (α := α)) = [] := by
  cases o <;> simp [Operand.tokens]

/-- An atom binds its values, in order. -/
@[simp]
theorem Atom.slots_tokens (d : Dialect) (a : Atom) : slots (a.tokens d) = a.values := by
  cases a with
  | compare lhs folded op value => simp [Atom.tokens, Atom.values]
  | sameColumn a b => simp [Atom.tokens, Atom.values]
  | null lhs expected => cases expected <;> simp [Atom.tokens, Atom.values]
  | oneOf lhs folded expected items =>
    cases expected <;> simp [Atom.tokens, Atom.values, List.flatMap_map]
  | like lhs folded pattern => simp [Atom.tokens, Atom.values]
  | search lhs query => cases d <;> simp [Atom.tokens, Atom.values, Dialect.search]
  | constant truth => simp [Atom.tokens, Atom.values]
  | array style lhs test =>
    cases test with
    | empty expected =>
      cases expected <;> cases style <;>
        simp [Atom.tokens, Atom.values, ArrayTest.tokens, ArrayStyle.isEmpty]
    | has element =>
      cases style <;> simp [Atom.tokens, Atom.values, ArrayTest.tokens, ArrayStyle.has]
    | hasEvery elements =>
      cases style <;> simp [Atom.tokens, Atom.values, ArrayTest.tokens, ArrayStyle.hasEvery,
        ArrayStyle.nativeArray]
    | hasSome elements =>
      cases style <;> simp [Atom.tokens, Atom.values, ArrayTest.tokens, ArrayStyle.hasSome,
        ArrayStyle.nativeArray]

@[simp]
theorem SelectItem.slots_tokens {α : Type} (i : SelectItem) : slots (i.tokens (α := α)) = [] := by
  cases i with
  | star qualifier => simp [SelectItem.tokens]
  | column c aliasName => cases aliasName <;> simp [SelectItem.tokens, aliasTokens]
  | aggregate f c aliasName => simp [SelectItem.tokens, aliasTokens]

@[simp]
theorem Distinct.slots_tokens {α : Type} (x : Distinct) : slots (x.tokens (α := α)) = [] := by
  cases x <;> simp [Distinct.tokens, List.flatMap_map]

@[simp]
theorem slots_words {α : Type} (words : List Keyword) :
    slots (words.map (Token.word (α := α))) = [] := by
  induction words with
  | nil => rfl
  | cons k words ih => exact ih

/-- The words of a clause bind nothing. -/
@[simp]
theorem slots_clause {α : Type} (words : List Keyword) (body : Fragment α) :
    slots (clause words body) = slots body := by
  unfold clause
  split
  next h => rw [List.isEmpty_iff.mp h]
  next => rw [slots_append, slots_words, List.nil_append]

/-- The numbers of a page are written, not bound. -/
@[simp]
theorem slots_limitOffset {α : Type} (d : Dialect) (limit offset : Option Nat) :
    slots (d.limitOffset (α := α) limit offset) = [] := by
  cases d <;> cases limit <;> cases offset <;> rfl

@[simp]
theorem slots_returning {α : Type} (d : Dialect) (returning : Bool) :
    slots (returningTokens (α := α) d returning) = [] := by
  unfold returningTokens
  split <;> rfl

@[simp]
theorem slots_dual {α : Type} (d : Dialect) : slots (d.dual (α := α)) = [] := by
  cases d <;> rfl

/-- What an insertion proposed binds nothing. -/
theorem slots_proposed (d : Dialect) (keys : List String) :
    slots (assignmentList d (keys.map fun k => { column := k, source := .proposed })) = [] := by
  cases d <;> simp [assignmentList, Assignment.tokens, Dialect.proposed, List.flatMap_map]

/-! ## Reading pieces back -/

/-- The lexemes of fragments that are written one after the other. -/
def lexemesOfAll {α : Type} (d : Dialect) (bound : Nat) : List (Fragment α) → List (List Lexeme)
  | [] => []
  | f :: fs => lexemesOf d bound f :: lexemesOfAll d (bound + (slots f).length) fs

/-- Fragments that come later are numbered behind the values of all before them. -/
theorem lexemesOfAll_append {α : Type} (d : Dialect) :
    ∀ (fs gs : List (Fragment α)) (bound : Nat),
      lexemesOfAll d bound (fs ++ gs)
        = lexemesOfAll d bound fs ++ lexemesOfAll d (bound + (fs.flatMap slots).length) gs := by
  intro fs gs
  induction fs with
  | nil => intro bound; rfl
  | cons f fs ih =>
    intro bound
    simp only [List.cons_append, lexemesOfAll, ih, List.flatMap_cons, List.length_append,
      Nat.add_assoc]

/-- A fragment without slots is read without placeholders. -/
theorem isPlaceholder_of_mem_lexemesOf {α : Type} (d : Dialect) (bound : Nat) {f : Fragment α}
    (h : ∀ t ∈ f, t.isSlot = false) : ∀ l ∈ lexemesOf d bound f, l.isPlaceholder = false := by
  unfold lexemesOf
  induction f with
  | nil => intro l hl; exact absurd hl (by simp [number])
  | cons t f ih =>
    have hf := ih fun u hu => h u (List.mem_cons_of_mem _ hu)
    have ht := h t (List.mem_cons_self ..)
    intro l hl
    cases t with
    | slot a => exact absurd ht (by simp [Token.isSlot])
    | word k =>
      rcases List.mem_cons.mp hl with rfl | hl
      · rfl
      · exact hf l hl
    | number n =>
      rcases List.mem_cons.mp hl with rfl | hl
      · rfl
      · exact hf l hl
    | name n =>
      rcases List.mem_cons.mp hl with rfl | hl
      · unfold Lexeme.ofName
        split
        · rfl
        · split <;> rfl
      · exact hf l hl
    | symbol s =>
      rcases List.mem_append.mp hl with hl | hl
      · obtain ⟨c, -, rfl⟩ := List.mem_map.mp hl
        rfl
      · exact hf l hl

/-- Pieces of a fragment are pieces of the text that is read back. -/
theorem Woven.lexemes {α : Type} (d : Dialect) {pieces : List (Fragment α)} {ts : Fragment α}
    (h : Woven Token.isSlot pieces ts) :
    ∀ bound, Woven Lexeme.isPlaceholder (lexemesOfAll d bound pieces) (lexemesOf d bound ts) := by
  induction h with
  | glue hts => intro bound; exact .glue (isPlaceholder_of_mem_lexemesOf d bound hts)
  | piece hb _ ih =>
    -- what stands before the piece binds nothing, so its numbers are those of the pieces
    intro bound
    rw [lexemesOf_append, lexemesOf_append, slots_append, slots_eq_nil_iff.mpr hb, List.nil_append,
      List.length_nil, Nat.add_zero]
    exact .piece (isPlaceholder_of_mem_lexemesOf d bound hb) (ih _)

/-- The texts of fragments that are written one after the other, read back. -/
theorem mapM_lexemes_writeAll :
    ∀ (fs : List (Fragment Value)) (p : Parameters),
      (p.writeAll fs).1.mapM (fun text => lexemes p.dialect.quote text.toList)
        = some (lexemesOfAll p.dialect p.bound.length fs) := by
  intro fs
  induction fs with
  | nil => intro p; rfl
  | cons f fs ih =>
    intro p
    have hrest := ih (p.bindAll (slots f))
    simp only [Parameters.bindAll, List.length_append] at hrest
    simp only [Parameters.writeAll, Parameters.write, Parameters.bindAll, List.mapM_cons,
      lexemes_render, Option.bind_eq_bind, Option.bind_some, hrest]
    rfl

end SqlQuery.Sql
