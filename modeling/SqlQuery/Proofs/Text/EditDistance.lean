import Mathlib.Order.Bounds.Defs
import SqlQuery.Text.EditDistance

/-!
# What the edit distance counts

The distance of two texts is filled into a table, row by row. What it stands for is said without
the table: a `Slip` is one character inserted, deleted or replaced anywhere in a text, and texts
are `n` slips apart where `n` of them lead from the one to the other. Between the two stands the
`cost` of lining the texts up from one end: a slip anywhere can be made good at its place in the
lineup, and the table is the costs of all starts of the texts.

> `Slips.aligned`: as many slips as lead from one text to another are enough to line them up.

> `isLeast_editDistance`: the edit distance is the least number of slips that do.
-/

namespace SqlQuery.Text

/-! ## Slips -/

/-- One character is inserted, deleted or replaced. -/
inductive Slip : List Char → List Char → Prop where
  | insert (before after : List Char) (c : Char) : Slip (before ++ after) (before ++ c :: after)
  | delete (before after : List Char) (c : Char) : Slip (before ++ c :: after) (before ++ after)
  | replace (before after : List Char) (c d : Char) :
      Slip (before ++ c :: after) (before ++ d :: after)

/-- So many slips lead from one text to another. -/
inductive Slips : Nat → List Char → List Char → Prop where
  | none (a : List Char) : Slips 0 a a
  | more {n : Nat} {a b c : List Char} : Slips n a b → Slip b c → Slips (n + 1) a c

/-- A slip behind a character is a slip of the longer texts. -/
theorem Slip.cons {a b : List Char} (h : Slip a b) (x : Char) : Slip (x :: a) (x :: b) := by
  cases h with
  | insert before after c => exact .insert (x :: before) after c
  | delete before after c => exact .delete (x :: before) after c
  | replace before after c d => exact .replace (x :: before) after c d

/-- A slip is one too where the texts are read from the other end. -/
theorem Slip.reverse {a b : List Char} (h : Slip a b) : Slip a.reverse b.reverse := by
  cases h with
  | insert before after c => simpa using Slip.insert after.reverse before.reverse c
  | delete before after c => simpa using Slip.delete after.reverse before.reverse c
  | replace before after c d => simpa using Slip.replace after.reverse before.reverse c d

namespace Slips

variable {n : Nat} {a b : List Char}

/-- Slips behind a character are slips of the longer texts. -/
theorem cons (h : Slips n a b) (x : Char) : Slips n (x :: a) (x :: b) := by
  induction h with
  | none a => exact .none (x :: a)
  | more _ hslip ih => exact .more ih (hslip.cons x)

/-- Slips are slips of the texts read backwards too. -/
theorem reverse (h : Slips n a b) : Slips n a.reverse b.reverse := by
  induction h with
  | none a => exact .none a.reverse
  | more _ hslip ih => exact .more ih hslip.reverse

end Slips

/-! ## Lining texts up -/

/-- Two texts are lined up from their first characters on, with so many slips. -/
inductive Aligned : Nat → List Char → List Char → Prop where
  | nil : Aligned 0 [] []
  | keep {n : Nat} {a b : List Char} (c : Char) : Aligned n a b → Aligned n (c :: a) (c :: b)
  | replace {n : Nat} {a b : List Char} (c d : Char) :
      Aligned n a b → Aligned (n + 1) (c :: a) (d :: b)
  | insert {n : Nat} {a b : List Char} (c : Char) : Aligned n a b → Aligned (n + 1) a (c :: b)
  | delete {n : Nat} {a b : List Char} (c : Char) : Aligned n a b → Aligned (n + 1) (c :: a) b

namespace Aligned

variable {n : Nat} {a b : List Char}

theorem self : ∀ a : List Char, Aligned 0 a a
  | [] => .nil
  | c :: a => .keep c (self a)

/-- Texts that are lined up are as many slips apart. -/
theorem slips (h : Aligned n a b) : Slips n a b := by
  induction h with
  | nil => exact .none []
  | keep c _ ih => exact ih.cons c
  | @replace _ _ b c d _ ih => exact .more (ih.cons c) (.replace [] b c d)
  | @insert _ _ b c _ ih => exact .more ih (.insert [] b c)
  | @delete _ _ b c _ ih => exact .more (ih.cons c) (.delete [] b c)

/-- A lineup can be mended where the first character of the second text is another one. -/
theorem change_first {c : Char} (d : Char) (h : Aligned n a (c :: b)) :
    ∃ m ≤ n + 1, Aligned m a (d :: b) := by
  generalize htext : c :: b = text at h
  induction h with
  | nil => cases htext
  | keep x h _ =>
    cases htext
    exact ⟨_, Nat.le_refl _, .replace c d h⟩
  | replace x y h _ =>
    cases htext
    exact ⟨_, Nat.le_succ _, .replace x d h⟩
  | insert x h _ =>
    cases htext
    exact ⟨_, Nat.le_succ _, .insert d h⟩
  | delete x _ ih =>
    obtain ⟨m, hm, h⟩ := ih htext
    exact ⟨m + 1, Nat.succ_le_succ hm, .delete x h⟩

/-- A lineup can be mended where the first character of the second text is missing. -/
theorem drop_first {c : Char} (h : Aligned n a (c :: b)) : ∃ m ≤ n + 1, Aligned m a b := by
  generalize htext : c :: b = text at h
  induction h with
  | nil => cases htext
  | keep x h _ =>
    cases htext
    exact ⟨_, Nat.le_refl _, .delete c h⟩
  | replace x y h _ =>
    cases htext
    exact ⟨_, Nat.le_succ _, .delete x h⟩
  | @insert m _ _ x h _ =>
    cases htext
    exact ⟨m, by omega, h⟩
  | delete x _ ih =>
    obtain ⟨m, hm, h⟩ := ih htext
    exact ⟨m + 1, Nat.succ_le_succ hm, .delete x h⟩

theorem symm (h : Aligned n a b) : Aligned n b a := by
  induction h with
  | nil => exact .nil
  | keep c _ ih => exact .keep c ih
  | replace c d _ ih => exact .replace d c ih
  | insert c _ ih => exact .delete c ih
  | delete c _ ih => exact .insert c ih

/-- A first character that both texts have in common need not slip. -/
theorem keep_first {c : Char} (h : Aligned n (c :: a) (c :: b)) : ∃ m ≤ n, Aligned m a b := by
  cases h with
  | keep _ h => exact ⟨n, Nat.le_refl n, h⟩
  | replace _ _ h => exact ⟨_, Nat.le_succ _, h⟩
  | insert _ h =>
    obtain ⟨m, hm, h⟩ := h.symm.drop_first
    exact ⟨m, hm, h.symm⟩
  | delete _ h => exact h.drop_first

/-- What mends a lineup of the end of a text mends one of the whole text. -/
theorem behind {rest rest' : List Char}
    (hrest : ∀ k a, Aligned k a rest → ∃ m ≤ k + 1, Aligned m a rest') {text : List Char}
    (h : Aligned n a text) :
    ∀ before, text = before ++ rest → ∃ m ≤ n + 1, Aligned m a (before ++ rest') := by
  -- the lineup is followed to where the end begins; what came before that keeps its slips
  induction h with
  | nil =>
    intro before htext
    obtain ⟨rfl, rfl⟩ := List.append_eq_nil_iff.mp htext.symm
    exact hrest 0 [] .nil
  | keep c h ih =>
    intro before htext
    cases before with
    | nil =>
      cases htext
      exact hrest _ _ (.keep c h)
    | cons x before =>
      cases htext
      obtain ⟨m, hm, h⟩ := ih before rfl
      exact ⟨m, hm, .keep _ h⟩
  | replace c d h ih =>
    intro before htext
    cases before with
    | nil =>
      cases htext
      exact hrest _ _ (.replace c d h)
    | cons x before =>
      cases htext
      obtain ⟨m, hm, h⟩ := ih before rfl
      exact ⟨m + 1, Nat.succ_le_succ hm, .replace _ _ h⟩
  | insert c h ih =>
    intro before htext
    cases before with
    | nil =>
      cases htext
      exact hrest _ _ (.insert c h)
    | cons x before =>
      cases htext
      obtain ⟨m, hm, h⟩ := ih before rfl
      exact ⟨m + 1, Nat.succ_le_succ hm, .insert _ h⟩
  | delete c _ ih =>
    intro before htext
    obtain ⟨m, hm, h⟩ := ih before htext
    exact ⟨m + 1, Nat.succ_le_succ hm, .delete c h⟩

/-- One more slip takes one more slip to line up, if any. -/
theorem slip {c : List Char} (h : Aligned n a b) (hslip : Slip b c) :
    ∃ m ≤ n + 1, Aligned m a c := by
  cases hslip with
  | insert before after x =>
    exact h.behind (fun k _ hk => ⟨k + 1, Nat.le_refl _, .insert x hk⟩) before rfl
  | delete before after x => exact h.behind (fun _ _ hk => hk.drop_first) before rfl
  | replace before after x y => exact h.behind (fun _ _ hk => hk.change_first y) before rfl

end Aligned

/-- As many slips as lead from one text to another are enough to line them up. -/
theorem Slips.aligned {n : Nat} {a b : List Char} (h : Slips n a b) :
    ∃ m ≤ n, Aligned m a b := by
  induction h with
  | none a => exact ⟨0, Nat.le_refl _, .self a⟩
  | more _ hslip ih =>
    obtain ⟨m, hm, haligned⟩ := ih
    obtain ⟨m', hm', h⟩ := haligned.slip hslip
    exact ⟨m', by omega, h⟩

/-! ## The least number -/

/-- The slips of the best lineup of two texts. -/
def cost : List Char → List Char → Nat
  | [], b => b.length
  | c :: a, [] => (c :: a).length
  | c :: a, d :: b =>
    if c = d then cost a b
    else 1 + min (cost a b) (min (cost (c :: a) b) (cost a (d :: b)))
termination_by a b => a.length + b.length

/-- To come to nothing every character is dropped. -/
theorem cost_nil_right (a : List Char) : cost a [] = a.length := by
  cases a <;> simp [cost]

theorem aligned_cost : ∀ a b : List Char, Aligned (cost a b) a b := by
  intro a b
  induction a, b using cost.induct with
  | case1 b =>
    rw [cost]
    induction b with
    | nil => exact .nil
    | cons d b ih => exact .insert d ih
  | case2 c a =>
    rw [cost_nil_right]
    induction a generalizing c with
    | nil => exact .delete c .nil
    | cons d a ih => exact .delete c (ih d)
  | case3 a c b ih =>
    rw [cost, if_pos rfl]
    exact .keep c ih
  | case4 c a d b hne hreplace hinsert hdelete =>
    -- the least of the three costs tells which slip the lineup begins with
    rw [cost, if_neg hne, Nat.add_comm]
    rcases Nat.le_total (cost a b) (min (cost (c :: a) b) (cost a (d :: b))) with hle | hle
    · rw [Nat.min_eq_left hle]
      exact .replace c d hreplace
    · rw [Nat.min_eq_right hle]
      rcases Nat.le_total (cost (c :: a) b) (cost a (d :: b)) with hle | hle
      · rw [Nat.min_eq_left hle]
        exact .insert d hinsert
      · rw [Nat.min_eq_right hle]
        exact .delete c hdelete

/-- Out of nothing every character takes a slip. -/
theorem length_le_of_aligned_nil {n : Nat} {b : List Char} (h : Aligned n [] b) : b.length ≤ n := by
  induction b generalizing n with
  | nil => exact Nat.zero_le n
  | cons d b ih =>
    cases h with
    | insert _ h => exact Nat.succ_le_succ (ih h)

/-- No lineup has fewer slips than the best one. -/
theorem cost_le {n : Nat} {a b : List Char} (h : Aligned n a b) : cost a b ≤ n := by
  induction a, b using cost.induct generalizing n with
  | case1 b =>
    rw [cost]
    exact length_le_of_aligned_nil h
  | case2 c a =>
    rw [cost]
    exact length_le_of_aligned_nil h.symm
  | case3 a c b ih =>
    rw [cost, if_pos rfl]
    obtain ⟨m, hm, h⟩ := h.keep_first
    exact Nat.le_trans (ih h) hm
  | case4 a c d b hne hreplace hinsert hdelete =>
    rw [cost, if_neg hne]
    cases h with
    | keep _ _ => exact absurd rfl hne
    | replace _ _ h =>
      have hbest := hreplace h
      omega
    | insert _ h =>
      have hbest := hinsert h
      omega
    | delete _ h =>
      have hbest := hdelete h
      omega

/-! ## The table -/

/-- The costs of a text against the starts of another, each one character longer than the one
before. Starts are read from their ends, `done` being the first of them. -/
def costs (s : List Char) : (done : List Char) → List Char → List Nat
  | _, [] => []
  | done, t :: rest => cost s (t :: done) :: costs s (t :: done) rest

/-- A row is filled from the one above it. -/
theorem nextRow_costs (c : Char) (s done target : List Char) :
    nextRow c (cost s done) (cost (c :: s) done) target (costs s done target)
      = costs (c :: s) done target := by
  induction target generalizing done with
  | nil => rfl
  | cons t rest ih =>
    have hentry : cost (c :: s) (t :: done)
        = if c = t then cost s done
          else 1 + min (cost s done) (min (cost (c :: s) done) (cost s (t :: done))) := by
      rw [cost]
    rw [costs, costs, nextRow, ← hentry, ih]

/-- The rows for a growing start of a text end with the row for all of it. -/
theorem distanceRows_costs (target source s : List Char) :
    distanceRows target source (cost s [] :: costs s [] target)
      = cost (source.reverse ++ s) [] :: costs (source.reverse ++ s) [] target := by
  induction source generalizing s with
  | nil => rfl
  | cons c source ih =>
    have hfirst : cost s [] + 1 = cost (c :: s) [] := by
      rw [cost_nil_right, cost_nil_right, List.length_cons]
    rw [distanceRows, hfirst, nextRow_costs, ih, List.reverse_cons, List.append_assoc,
      List.singleton_append]

/-- The first row of the table counts characters. -/
theorem costs_nil (done target : List Char) :
    costs [] done target = List.range' (done.length + 1) target.length := by
  induction target generalizing done with
  | nil => rfl
  | cons t rest ih => rw [costs, ih, cost, List.length_cons, List.length_cons, List.range'_succ]

/-- The last entry of a row is the cost of the whole text. -/
theorem getLast?_costs (s done target : List Char) :
    (cost s done :: costs s done target).getLast? = some (cost s (target.reverse ++ done)) := by
  induction target generalizing done with
  | nil => rfl
  | cons t rest ih =>
    rw [costs, List.getLast?_cons_cons, ih, List.reverse_cons, List.append_assoc,
      List.singleton_append]

/-- The edit distance is the cost of lining the texts up from their ends. -/
theorem editDistance_eq_cost (source target : String) :
    editDistance source target = cost source.toList.reverse target.toList.reverse := by
  have hrow : List.range (target.toList.length + 1) = cost [] [] :: costs [] [] target.toList := by
    rw [costs_nil, cost, List.range_eq_range', List.range'_succ]
    rfl
  unfold editDistance
  dsimp only
  rw [hrow, distanceRows_costs, getLast?_costs, List.append_nil, List.append_nil]
  rfl

/-- The edit distance is the least number of slips that lead from one text to the other. -/
theorem isLeast_editDistance (source target : String) :
    IsLeast {n | Slips n source.toList target.toList} (editDistance source target) := by
  rw [editDistance_eq_cost]
  refine ⟨?_, fun n h => ?_⟩
  · have h := (aligned_cost source.toList.reverse target.toList.reverse).slips.reverse
    rwa [List.reverse_reverse, List.reverse_reverse] at h
  · obtain ⟨m, hm, h⟩ := (Slips.reverse h).aligned
    exact Nat.le_trans (cost_le h) hm

example : editDistance "emial" "email" = 2 := by decide

end SqlQuery.Text
