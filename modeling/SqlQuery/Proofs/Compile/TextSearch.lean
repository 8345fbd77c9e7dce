import SqlQuery.Proofs.Compile.FilterTruth
import SqlQuery.Proofs.Sql.LikePattern

/-!
# Looking for a text in a column

A condition that a column contains a text, or starts or ends with it, is written with LIKE, and the
text is put between percent signs just as it stands. The signs that patterns have are not taken out
of it, so the condition asks for the text only where no character of it is one of these. Any other
text is read as a part of the pattern.

> `TextSearch.like_pattern`: what the pattern of a text matches.

> `TextSearch.plain_of_like`: only plain texts are looked for as they are.

> `Condition.text_search`: what conditions that look for a text mean.
-/

namespace SqlQuery

open Sql LikeSign

/-- The ways to look for a text in another one. -/
inductive TextSearch where
  | contains
  | startsWith
  | endsWith
deriving DecidableEq, Repr

namespace TextSearch

/-- The operator of a condition that looks for a text. -/
def operator : TextSearch → Operator
  | .contains => .contains
  | .startsWith => .startsWith
  | .endsWith => .endsWith

/-- Whether a text is found in another one. -/
def Finds : TextSearch → List Char → List Char → Prop
  | .contains, s, text => s <:+: text
  | .startsWith, s, text => s <+: text
  | .endsWith, s, text => s <:+ text

/-- Whether something may stand before what is found. -/
def opens : TextSearch → Bool
  | .startsWith => false
  | _ => true

/-- Whether something may stand behind what is found. -/
def closes : TextSearch → Bool
  | .endsWith => false
  | _ => true

/-- The pattern with which a text is looked for. -/
def pattern (k : TextSearch) (s : String) : String :=
  (if k.opens then "%" else "") ++ s ++ if k.closes then "%" else ""

/-- A pattern is the text with the wildcards around it. -/
theorem toList_pattern (k : TextSearch) (s : String) :
    (k.pattern s).toList = wild k.opens ++ s.toList ++ wild k.closes := by
  cases k <;> simp [pattern, wild, opens, closes]

variable {k : TextSearch} {s text : List Char}

/-- A text is found where the rest of what is searched stands at the open ends. -/
theorem finds_iff : k.Finds s text ↔
    ∃ u w, text = u ++ s ++ w ∧ (k.opens = true ∨ u = []) ∧ (k.closes = true ∨ w = []) := by
  cases k with
  | contains =>
    simp [Finds, opens, closes, List.IsInfix, eq_comm]
  | startsWith => simp [Finds, opens, closes, List.IsPrefix, eq_comm]
  | endsWith => simp [Finds, opens, closes, List.IsSuffix, eq_comm]

theorem finds_self (k : TextSearch) (s : List Char) : k.Finds s s :=
  finds_iff.mpr ⟨[], [], by simp, Or.inr rfl, Or.inr rfl⟩

theorem Finds.occurs (h : k.Finds s text) : s <:+: text := by
  obtain ⟨u, w, rfl, -, -⟩ := finds_iff.mp h
  exact ⟨u, w, rfl⟩

/-! ## The pattern of a text -/

/-- Where a text is a pattern by itself, its parts are looked for with the meaning that they have
there. -/
theorem like_pattern {s : String} {p : List LikeSign} (hs : read s.toList = some p)
    (text : String) : like (k.pattern s) text = true ↔
      ∃ v, k.Finds v text.toList ∧ accepts p v = true := by
  rw [like, toList_pattern, read_between hs, Option.any_some, accepts_between]
  constructor
  · rintro ⟨u, v, w, htext, hu, hw, hv⟩
    exact ⟨v, finds_iff.mpr ⟨u, w, htext, hu, hw⟩, hv⟩
  · rintro ⟨v, hfinds, hv⟩
    obtain ⟨u, w, htext, hu, hw⟩ := finds_iff.mp hfinds
    exact ⟨u, v, w, htext, hu, hw, hv⟩

/-- A plain text is looked for as it is. -/
theorem like_of_plain {s : String} (hs : ∀ c ∈ s.toList, IsPlain c) (text : String) :
    like (k.pattern s) text = true ↔ k.Finds s.toList text.toList := by
  rw [like_pattern (read_of_plain hs)]
  simp only [accepts_chars, exists_eq_right]

/-- Only plain texts are looked for as they are. -/
theorem plain_of_like {s : String}
    (h : ∀ text : String, like (k.pattern s) text = true ↔ k.Finds s.toList text.toList) :
    ∀ c ∈ s.toList, IsPlain c := by
  -- the text is found in itself, so there is a pattern
  obtain ⟨p, hp⟩ : ∃ p, read (s.toList ++ wild k.closes) = some p := by
    have hself := (h s).mpr (k.finds_self s.toList)
    obtain ⟨q, hq, -⟩ := (Option.any_eq_true ..).mp hself
    rw [toList_pattern, List.append_assoc, read_append (read_wild k.opens)] at hq
    obtain ⟨p, hp, -⟩ := Option.map_eq_some_iff.mp hq
    exact ⟨p, hp⟩
  -- the pattern matches its shortest text, so the text is found there
  have hfound : k.Finds s.toList (shortest p) := by
    have hmatch := h (String.ofList (shortest p))
    rw [String.toList_ofList] at hmatch
    refine hmatch.mp ?_
    rw [like, toList_pattern, List.append_assoc, read_append (read_wild k.opens), hp,
      Option.map_some, Option.any_some, String.toList_ofList, accepts_append]
    exact ⟨[], shortest p, rfl, (accepts_wild ..).mpr (Or.inr rfl), accepts_shortest p⟩
  obtain ⟨hlength, hplain⟩ := shortest_of_readFrom k.closes hp
  exact hplain (hfound.occurs.eq_of_length_le hlength).symm

end TextSearch

/-! ## Conditions -/

namespace Condition

/-- The atom of a condition that looks for a text. -/
theorem atom_of_textSearch {c : Condition} {k : TextSearch} {s : String} (hop : c.op = k.operator)
    (hmode : c.mode = .default) (hvalue : c.value = .string s) (env : Env) (scope : FilterScope) :
    c.atom env scope = (do return .like (← c.operand env scope) false (k.pattern s)) := by
  have hfolds : c.folds = false := by
    rw [folds, hmode]
    rfl
  have hpatterned (lhs : Operand) (before after : String) :
      c.patterned lhs before after = .ok (.like lhs false (before ++ s ++ after)) := by
    unfold patterned
    rw [hvalue, hfolds]
    rfl
  unfold atom
  rw [hop, hfolds]
  cases c.operand env scope with
  | error e => rfl
  | ok lhs => cases k <;> exact hpatterned lhs _ _

/-- A condition that looks for a text in letters as they are. It is refused only for what it looks
at, and it binds one pattern. The pattern matches the texts in which the text is found, as the
operator says, exactly if no character of the text is a sign of patterns; if the text is a pattern
by itself, the texts in which something is found that it matches. On a database that reads patterns
so, the condition is true of a row exactly if the pattern matches what stands in the column. -/
theorem text_search (c : Condition) (k : TextSearch) (s : String) (hop : c.op = k.operator)
    (hmode : c.mode = .default) (hvalue : c.value = .string s) (env : Env) (scope : FilterScope) :
    (∀ a, c.atom env scope = .ok a ↔
        ∃ lhs, c.operand env scope = .ok lhs ∧ a = .like lhs false (k.pattern s)) ∧
      c.boundValues = [.string (k.pattern s)] ∧
      ((∀ text : String, like (k.pattern s) text = true ↔ k.Finds s.toList text.toList) ↔
        ∀ ch ∈ s.toList, IsPlain ch) ∧
      ((read s.toList).isSome = true → ∀ text : String, like (k.pattern s) text = true ↔
        ∃ v : String, k.Finds v.toList text.toList ∧ like s v = true) ∧
      ∀ (E : Engine) (look : Operand → Value) (lhs : Operand) (text : String),
        (∀ p t : String, E.like (.string t) (.string p) = like p t) →
          c.operand env scope = .ok lhs → look lhs = .string text →
            c.truth E env scope look = some (like (k.pattern s) text) := by
  have hatom := atom_of_textSearch hop hmode hvalue env scope
  refine ⟨?_, ?_, ⟨TextSearch.plain_of_like, TextSearch.like_of_plain⟩, ?_, ?_⟩
  · intro a
    rw [hatom]
    constructor
    · intro h
      obtain ⟨lhs, hlhs, h⟩ := bind_eq_ok.mp h
      cases h
      exact ⟨lhs, hlhs, rfl⟩
    · rintro ⟨lhs, hlhs, rfl⟩
      rw [hlhs]
      rfl
  · unfold boundValues
    rw [hop, hvalue]
    cases k <;> rfl
  · intro hread text
    obtain ⟨p, hp⟩ := Option.isSome_iff_exists.mp hread
    rw [TextSearch.like_pattern hp]
    constructor
    · rintro ⟨v, hfinds, hv⟩
      refine ⟨String.ofList v, by rwa [String.toList_ofList], ?_⟩
      rw [like, hp, Option.any_some, String.toList_ofList]
      exact hv
    · rintro ⟨v, hfinds, hv⟩
      rw [like, hp, Option.any_some] at hv
      exact ⟨v.toList, hfinds, hv⟩
  · intro E look lhs text hlike hlhs hlook
    unfold truth
    rw [hatom, hlhs]
    show Engine.known E.like (look lhs) (.string (k.pattern s)) = _
    rw [hlook]
    exact congrArg some (hlike _ _)

/-- A condition on the titles that contain two letters. -/
def titleWithAn : Condition :=
  { field := "title", op := .contains, value := .string "an" }

/-- A database that tells values apart as they are and reads the signs of patterns. -/
def patternEngine : Engine :=
  { Engine.exact with
    like := fun
      | .string text, .string pattern => like pattern text
      | _, _ => false }

/-- Titles in which a text occurs that has no signs of patterns in it. -/
theorem text_search_title :
    titleWithAn.atom { schema := {}, dialect := .mysql } { model := none }
        = .ok (.like (.column { column := "title" }) false "%an%") ∧
      (∀ text : String, like "%an%" text = true ↔ "an".toList <:+: text.toList) ∧
      titleWithAn.truth patternEngine { schema := {}, dialect := .mysql } { model := none }
        (TableRow.look fun _ => .string "Oceans") = some true := by
  obtain ⟨hatom, -, hplain, -, htruth⟩ := text_search titleWithAn .contains "an" rfl rfl rfl
    { schema := {}, dialect := .mysql } { model := none }
  have hlook := htruth patternEngine (TableRow.look fun _ => .string "Oceans")
    (.column { column := "title" }) "Oceans" (fun _ _ => rfl) rfl rfl
  refine ⟨(hatom _).mpr ⟨_, rfl, rfl⟩, hplain.mpr (by simp [IsPlain]), hlook.trans (by decide)⟩

/-- A condition on the titles that contain a percentage. -/
def titleWithFifty : Condition :=
  { field := "title", op := .contains, value := .string "50%" }

/-- A percent sign in the text that is looked for is read as any text, so more is found than the
text. -/
theorem fifty_found_in_thousands :
    titleWithFifty.atom { schema := {}, dialect := .mysql } { model := none }
        = .ok (.like (.column { column := "title" }) false "%50%%") ∧
      like "%50%%" "5000" = true ∧ ¬"50%".toList <:+: "5000".toList := by
  refine ⟨rfl, by decide, by decide⟩

end Condition

end SqlQuery
