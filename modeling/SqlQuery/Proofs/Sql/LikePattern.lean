import Mathlib.Data.List.Infix

/-!
# What a pattern stands for

In the pattern of LIKE a percent sign stands for any text, an underscore for any one character and
every other character for itself; a backslash takes the character behind it for itself. A pattern
that ends in a backslash with nothing behind it is none, and matches no text.

A pattern is first read into its signs, and these are compared with a text one by one. Patterns that
are written one after the other match one after the other.

> `accepts_append`: a text is matched by two patterns in a row if it falls into two texts that are.

> `accepts_between`: what is matched where any text may stand around a pattern.

> `shortest_of_readFrom`: the shortest text of a pattern is the pattern itself only if no character
> of it means anything else.
-/

namespace SqlQuery.Sql

/-- A sign of a pattern. -/
inductive LikeSign where
  | anyText
  | anyChar
  | char (c : Char)
deriving DecidableEq, Repr

namespace LikeSign

/-- The sign of a character that no backslash stands before. -/
def ofChar (c : Char) : LikeSign :=
  if c = '%' then .anyText else if c = '_' then .anyChar else .char c

/-- The signs of the rest of a pattern, where it is known whether a backslash stands before it. -/
def readFrom (escaped : Bool) : List Char → Option (List LikeSign)
  | [] => if escaped then none else some []
  | c :: rest =>
    if escaped then (readFrom false rest).map (.char c :: ·)
    else if c = '\\' then readFrom true rest
    else (readFrom false rest).map (ofChar c :: ·)

/-- The signs of a pattern. -/
def read (pattern : List Char) : Option (List LikeSign) :=
  readFrom false pattern

/-- Whether signs match a text. -/
def accepts : List LikeSign → List Char → Bool
  | [], text => text.isEmpty
  | .anyText :: p, text => text.tails.any (accepts p)
  | .anyChar :: p, text =>
    match text with
    | [] => false
    | _ :: rest => accepts p rest
  | .char c :: p, text =>
    match text with
    | [] => false
    | d :: rest => d == c && accepts p rest

end LikeSign

open LikeSign

/-- Whether a pattern matches a text. -/
def like (pattern text : String) : Bool :=
  (read pattern.toList).any (accepts · text.toList)

/-- Whether a character stands for itself in every pattern. -/
def IsPlain (c : Char) : Prop :=
  c ≠ '%' ∧ c ≠ '_' ∧ c ≠ '\\'

instance (c : Char) : Decidable (IsPlain c) :=
  inferInstanceAs (Decidable (_ ∧ _))

namespace LikeSign

/-! ## Reading -/

/-- What is behind a pattern is read by itself, if no escape is left open. -/
theorem readFrom_append {p : List Char} :
    ∀ {s : List Char} {escaped : Bool} {ss : List LikeSign}, readFrom escaped s = some ss →
      readFrom escaped (s ++ p) = (read p).map (ss ++ ·) := by
  intro s
  induction s with
  | nil =>
    intro escaped ss h
    rw [readFrom] at h
    split at h
    next => cases h
    next hescaped =>
      cases h
      rw [Bool.not_eq_true] at hescaped
      subst hescaped
      simp [read]
  | cons c rest ih =>
    intro escaped ss h
    rw [readFrom] at h
    rw [List.cons_append, readFrom]
    split at h
    next hescaped =>
      obtain ⟨more, hmore, rfl⟩ := Option.map_eq_some_iff.mp h
      rw [if_pos hescaped, ih hmore, Option.map_map]
      rfl
    next hescaped =>
      rw [if_neg hescaped]
      split at h
      next hc => rw [if_pos hc, ih h]
      next hc =>
        obtain ⟨more, hmore, rfl⟩ := Option.map_eq_some_iff.mp h
        rw [if_neg hc, ih hmore, Option.map_map]
        rfl

/-- What is written behind a pattern is read behind its signs. -/
theorem read_append {s : List Char} {ss : List LikeSign} (h : read s = some ss) (p : List Char) :
    read (s ++ p) = (read p).map (ss ++ ·) :=
  readFrom_append h

/-- Plain characters are read one by one. -/
theorem read_of_plain {s : List Char} (h : ∀ c ∈ s, IsPlain c) :
    read s = some (s.map .char) := by
  induction s with
  | nil => rfl
  | cons c rest ih =>
    obtain ⟨hpercent, hunderscore, hbackslash⟩ := h c (List.mem_cons_self ..)
    have hrest := ih fun d hd => h d (List.mem_cons_of_mem _ hd)
    unfold read at hrest ⊢
    rw [readFrom, if_neg Bool.false_ne_true, if_neg hbackslash, hrest, ofChar, if_neg hpercent,
      if_neg hunderscore]
    rfl

/-! ## Matching -/

/-- Whether a sign stands for a text. -/
def StandsFor : LikeSign → List Char → Prop
  | .anyText, _ => True
  | .anyChar, text => ∃ c, text = [c]
  | .char c, text => text = [c]

/-- The first sign stands for the start of a text, and the others match what is left. -/
theorem accepts_cons (sign : LikeSign) (p : List LikeSign) (text : List Char) :
    accepts (sign :: p) text = true ↔
      ∃ u v, text = u ++ v ∧ sign.StandsFor u ∧ accepts p v = true := by
  cases sign with
  | anyText =>
    simp only [accepts, List.any_eq_true, List.mem_tails, StandsFor, true_and]
    constructor
    · rintro ⟨v, ⟨u, rfl⟩, hv⟩
      exact ⟨u, v, rfl, hv⟩
    · rintro ⟨u, v, rfl, hv⟩
      exact ⟨v, ⟨u, rfl⟩, hv⟩
  | anyChar =>
    cases text with
    | nil => simp [accepts, StandsFor]
    | cons d rest =>
      constructor
      · intro h
        exact ⟨[d], rest, rfl, ⟨d, rfl⟩, h⟩
      · rintro ⟨_, v, he, ⟨c, rfl⟩, hv⟩
        obtain ⟨rfl, rfl⟩ := List.cons_eq_cons.mp he
        exact hv
  | char c =>
    cases text with
    | nil => simp [accepts, StandsFor]
    | cons d rest =>
      rw [accepts, Bool.and_eq_true, beq_iff_eq]
      constructor
      · rintro ⟨rfl, h⟩
        exact ⟨[d], rest, rfl, rfl, h⟩
      · rintro ⟨_, v, he, rfl, hv⟩
        obtain ⟨rfl, rfl⟩ := List.cons_eq_cons.mp he
        exact ⟨rfl, hv⟩

/-- A text is matched by two patterns in a row if it falls into two texts that are matched. -/
theorem accepts_append (p q : List LikeSign) :
    ∀ text : List Char, accepts (p ++ q) text = true ↔
      ∃ u v, text = u ++ v ∧ accepts p u = true ∧ accepts q v = true := by
  induction p with
  | nil => simp [accepts]
  | cons sign p ih =>
    intro text
    rw [List.cons_append, accepts_cons]
    constructor
    · rintro ⟨u, v, rfl, hu, hv⟩
      obtain ⟨v, w, rfl, hv, hw⟩ := (ih _).mp hv
      exact ⟨u ++ v, w, (List.append_assoc ..).symm, (accepts_cons ..).mpr ⟨u, v, rfl, hu, hv⟩, hw⟩
    · rintro ⟨u, w, rfl, hu, hw⟩
      obtain ⟨u, v, rfl, hu, hv⟩ := (accepts_cons ..).mp hu
      exact ⟨u, v ++ w, List.append_assoc .., hu, (ih _).mpr ⟨v, w, rfl, hv, hw⟩⟩

/-- Characters that stand for themselves match the text that they spell. -/
theorem accepts_chars (s text : List Char) :
    accepts (s.map .char) text = true ↔ text = s := by
  induction s generalizing text with
  | nil => simp [accepts]
  | cons c s ih =>
    cases text with
    | nil => simp [accepts]
    | cons d rest => simp [accepts, ih]

/-- A percent sign that is written or not. -/
def wild (written : Bool) : List Char :=
  if written then ['%'] else []

theorem read_wild (written : Bool) :
    read (wild written) = some (if written then [.anyText] else []) := by
  cases written <;> rfl

/-- Where no wildcard is written at an end, nothing may stand there. -/
theorem accepts_wild (written : Bool) (text : List Char) :
    accepts (if written then [.anyText] else []) text = true ↔ written = true ∨ text = [] := by
  cases written with
  | true => simp [accepts, List.mem_tails]
  | false => simp [accepts]

/-- What is written between percent signs is read between them. -/
theorem read_between {s : List Char} {p : List LikeSign} (hs : read s = some p)
    (before after : Bool) :
    read (wild before ++ s ++ wild after)
      = some ((if before then [.anyText] else []) ++ p ++ if after then [.anyText] else []) := by
  have hfirst : read (wild before ++ s) = some ((if before then [.anyText] else []) ++ p) := by
    rw [read_append (read_wild before), hs]
    rfl
  rw [read_append hfirst, read_wild]
  rfl

/-- Between percent signs a pattern matches what stands between any texts. -/
theorem accepts_between (p : List LikeSign) (before after : Bool) (text : List Char) :
    accepts ((if before then [.anyText] else []) ++ p ++ if after then [.anyText] else []) text
        = true ↔
      ∃ u v w, text = u ++ v ++ w ∧ (before = true ∨ u = []) ∧ (after = true ∨ w = []) ∧
        accepts p v = true := by
  constructor
  · intro h
    obtain ⟨uv, w, rfl, huv, hw⟩ := (accepts_append ..).mp h
    obtain ⟨u, v, rfl, hu, hv⟩ := (accepts_append ..).mp huv
    exact ⟨u, v, w, rfl, (accepts_wild ..).mp hu, (accepts_wild ..).mp hw, hv⟩
  · rintro ⟨u, v, w, rfl, hu, hw, hv⟩
    have huv := (accepts_append ..).mpr ⟨u, v, rfl, (accepts_wild ..).mpr hu, hv⟩
    exact (accepts_append ..).mpr ⟨u ++ v, w, rfl, huv, (accepts_wild ..).mpr hw⟩

/-! ## The shortest text of a pattern -/

/-- A text for a sign that is as short as can be. -/
def sample : LikeSign → List Char
  | .anyText => []
  | .anyChar => ['a']
  | .char c => [c]

/-- A text for signs that is as short as can be. -/
def shortest (p : List LikeSign) : List Char :=
  p.flatMap sample

/-- The shortest text of a pattern has one sample for every sign. -/
theorem shortest_cons (sign : LikeSign) (p : List LikeSign) :
    shortest (sign :: p) = sign.sample ++ shortest p :=
  List.flatMap_cons

theorem accepts_shortest (p : List LikeSign) : accepts p (shortest p) = true := by
  induction p with
  | nil => rfl
  | cons sign p ih =>
    rw [shortest_cons]
    refine (accepts_cons ..).mpr ⟨_, _, rfl, ?_, ih⟩
    cases sign with
    | anyText => trivial
    | anyChar => exact ⟨'a', rfl⟩
    | char c => rfl

/-- The shortest text behind a character that is no backslash spells this character only if it is
plain. -/
theorem shortest_ofChar {c : Char} {p : List LikeSign} {s : List Char} (hc : c ≠ '\\')
    (hlength : (shortest p).length ≤ s.length) :
    (shortest (ofChar c :: p)).length ≤ (c :: s).length ∧
      (shortest (ofChar c :: p) = c :: s → IsPlain c ∧ shortest p = s) := by
  rw [shortest_cons, ofChar]
  split
  next =>
    refine ⟨hlength.trans (Nat.le_succ _), fun he => ?_⟩
    exact absurd (congrArg List.length he) (Nat.lt_succ_of_le hlength).ne
  next hpercent =>
    split
    next hunderscore =>
      refine ⟨Nat.succ_le_succ hlength, fun he => ?_⟩
      rw [hunderscore] at he
      exact absurd (List.cons_eq_cons.mp he).1 (by decide)
    next hunderscore =>
      refine ⟨Nat.succ_le_succ hlength, fun he => ?_⟩
      exact ⟨⟨hpercent, hunderscore, hc⟩, (List.cons_eq_cons.mp he).2⟩

/-- The backslash that has been read before the rest of a pattern. -/
def pending (escaped : Bool) : List Char :=
  if escaped then ['\\'] else []

/-- The shortest text of a pattern is no longer than the pattern is without a percent sign at its
end, and it is the same only if all characters are plain. -/
theorem shortest_of_readFrom (written : Bool) :
    ∀ {s : List Char} {escaped : Bool} {p : List LikeSign},
      readFrom escaped (s ++ wild written) = some p →
        (shortest p).length ≤ (pending escaped ++ s).length ∧
          (shortest p = pending escaped ++ s → ∀ c ∈ pending escaped ++ s, IsPlain c) := by
  intro s
  induction s with
  | nil =>
    intro escaped p h
    cases escaped with
    | true =>
      cases written with
      | true =>
        cases h
        exact ⟨Nat.le_refl 1, fun he => absurd he (by decide)⟩
      | false => cases h
    | false =>
      rw [List.nil_append, ← read, read_wild] at h
      cases h
      cases written <;> exact ⟨Nat.le_refl 0, fun _ _ hc => absurd hc List.not_mem_nil⟩
  | cons c rest ih =>
    intro escaped p h
    rw [List.cons_append, readFrom] at h
    cases escaped with
    | true =>
      -- two characters are read as one, so the text is shorter
      obtain ⟨q, hq, rfl⟩ := Option.map_eq_some_iff.mp h
      have hshorter : (shortest (.char c :: q)).length < (pending true ++ c :: rest).length :=
        Nat.succ_lt_succ (Nat.lt_succ_of_le (ih hq).1)
      exact ⟨hshorter.le, fun he => absurd (congrArg List.length he) hshorter.ne⟩
    | false =>
      rw [if_neg Bool.false_ne_true] at h
      split at h
      next hc =>
        subst hc
        exact ih h
      next hc =>
        obtain ⟨q, hq, rfl⟩ := Option.map_eq_some_iff.mp h
        obtain ⟨hlength, hplain⟩ := ih hq
        obtain ⟨hle, hspells⟩ := shortest_ofChar hc hlength
        refine ⟨hle, fun he => ?_⟩
        obtain ⟨hfirst, hrest⟩ := hspells he
        exact List.forall_mem_cons.mpr ⟨hfirst, hplain hrest⟩

end LikeSign

end SqlQuery.Sql
