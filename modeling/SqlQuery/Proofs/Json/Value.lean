import Mathlib.Data.List.Nodup
import Mathlib.Data.String.Basic
import SqlQuery.Value.Basic

/-!
# Values as documents

A value is written as the document that it looks like, without any mark of its shape, and a
document is read as the value that it looks like. So a point in time or an identifier comes back
as the text it was written as, and a document that is no object as the value it could be taken
for. The other values come back as they are:

> `Value.ofJson?_toJson`: a plain value is read back from its document.

Objects inside values are read in normal form. Where the keys of every object stand in order and
once, this changes nothing (`Json.Tidy.normal_eq`).
-/

namespace SqlQuery

/-! ## Documents in normal form -/

/-- A document in which every object has its keys in order and once, and in which no literal is
unreadable or a number with a fraction. -/
inductive Json.Tidy : Json → Prop where
  | null : Tidy .null
  | bool (b : Bool) : Tidy (.bool b)
  | int (n : Int) : Tidy (.int n)
  | str (s : String) : Tidy (.str s)
  | arr {items : List Json} : (∀ j ∈ items, Tidy j) → Tidy (.arr items)
  | obj {members : List (String × Json)} : members.Pairwise (fun m n => m.1 < n.1) →
      (∀ m ∈ members, Tidy m.2) → Tidy (.obj members)

namespace Json

/-- A member whose key is behind all others is inserted last. -/
theorem insertMember_of_last (key : String) (value : Json) :
    ∀ {members : List (String × Json)}, (∀ m ∈ members, m.1 < key) →
      insertMember key value members = members ++ [(key, value)] := by
  intro members
  induction members with
  | nil => intro _; rfl
  | cons m rest ih =>
    intro h
    have hm : m.1 < key := h m (List.mem_cons_self ..)
    have hrest := ih fun n hn => h n (List.mem_cons_of_mem _ hn)
    rw [insertMember, if_neg (lt_asymm hm), if_neg (ne_of_gt hm), hrest, List.cons_append]

/-- Sorting keeps members that stand in order already. -/
theorem sortMembers_of_sorted {members : List (String × Json)}
    (h : members.Pairwise (fun m n => m.1 < n.1)) : sortMembers members = members := by
  -- what is sorted so far comes before all that is left
  have hfold : ∀ (rest sorted : List (String × Json)),
      (sorted ++ rest).Pairwise (fun m n => m.1 < n.1) →
        rest.foldl (fun sorted m => insertMember m.1 m.2 sorted) sorted = sorted ++ rest := by
    intro rest
    induction rest with
    | nil => intro sorted _; simp
    | cons m rest ih =>
      intro sorted hsorted
      have hlast : ∀ n ∈ sorted, n.1 < m.1 := fun n hn =>
        (List.pairwise_append.mp hsorted).2.2 n hn m (List.mem_cons_self ..)
      rw [List.append_cons] at hsorted
      rw [List.foldl_cons, insertMember_of_last m.1 m.2 hlast, ih _ hsorted, ← List.append_cons]
  exact hfold members [] h

/-- Items in normal form stay as they are. -/
theorem normalItems_eq {items : List Json} (h : ∀ j ∈ items, j.normal = j) :
    normalItems items = items := by
  induction items with
  | nil => rfl
  | cons j rest ih =>
    rw [normalItems, h j (List.mem_cons_self ..), ih fun i hi => h i (List.mem_cons_of_mem _ hi)]

/-- Members in normal form stay as they are. -/
theorem normalMembers_eq {members : List (String × Json)} (h : ∀ m ∈ members, m.2.normal = m.2) :
    normalMembers members = members := by
  induction members with
  | nil => rfl
  | cons m rest ih =>
    rw [normalMembers, h m (List.mem_cons_self ..), ih fun n hn => h n (List.mem_cons_of_mem _ hn)]

/-- Items are readable if each of them is. -/
theorem readableItems_of_all {items : List Json} (h : ∀ j ∈ items, j.readable = true) :
    readableItems items = true := by
  induction items with
  | nil => rfl
  | cons j rest ih =>
    rw [readableItems, h j (List.mem_cons_self ..), ih fun i hi => h i (List.mem_cons_of_mem _ hi)]
    rfl

/-- Members are readable if each of them is. -/
theorem readableMembers_of_all {members : List (String × Json)}
    (h : ∀ m ∈ members, m.2.readable = true) : readableMembers members = true := by
  induction members with
  | nil => rfl
  | cons m rest ih =>
    rw [readableMembers, h m (List.mem_cons_self ..),
      ih fun n hn => h n (List.mem_cons_of_mem _ hn)]
    rfl

/-- A tidy document is in normal form. -/
theorem Tidy.normal_eq {j : Json} (h : j.Tidy) : j.normal = j := by
  induction h with
  | null | bool | int | str => rfl
  | arr _ ih => rw [normal, normalItems_eq ih]
  | obj hsorted _ ih => rw [normal, normalMembers_eq ih, sortMembers_of_sorted hsorted]

theorem Tidy.readable_eq {j : Json} (h : j.Tidy) : j.readable = true := by
  induction h with
  | null | bool | int | str => rfl
  | arr _ ih => rw [readable, readableItems_of_all ih]
  | obj _ _ ih => rw [readable, readableMembers_of_all ih]

end Json

/-! ## Values -/

namespace Value

/-- A value that looks like no other one as a document: made of null, truth values, integers,
texts, arrays and objects. -/
inductive Plain : Value → Prop where
  | null : Plain .null
  | bool (b : Bool) : Plain (.bool b)
  | int (n : Int64) : Plain (.int n)
  | string (s : String) : Plain (.string s)
  | array {items : List Value} : (∀ v ∈ items, Plain v) → Plain (.array items)
  | json {members : List (String × Json)} : (Json.obj members).Tidy → Plain (.json (.obj members))

/-- An integer of 64 bits is no number that needs a fraction. -/
theorem ofInt_toInt (n : Int64) : ofInt n.toInt = .int n := by
  have hmin : Int64.minValue.toInt ≤ n.toInt := Int64.minValue_le_toInt n
  have hmax : n.toInt ≤ Int64.maxValue.toInt := Int64.toInt_le n
  rw [ofInt, if_pos ⟨hmin, hmax⟩, Int64.ofInt_toInt]

/-- Items that are read back one by one are read back together. -/
theorem itemsOfJson?_itemsToJson {items : List Value}
    (h : ∀ v ∈ items, ofJson? v.toJson = some v) :
    itemsOfJson? (itemsToJson items) = some items := by
  induction items with
  | nil => rfl
  | cons v rest ih =>
    rw [itemsToJson, itemsOfJson?, h v (List.mem_cons_self ..),
      ih fun w hw => h w (List.mem_cons_of_mem _ hw)]
    rfl

/-- A plain value is read back from its document. -/
theorem ofJson?_toJson {v : Value} (h : v.Plain) : ofJson? v.toJson = some v := by
  induction h with
  | null | bool | string => rfl
  | int n => rw [toJson, ofJson?, ofInt_toInt]
  | array _ ih => rw [toJson, ofJson?, itemsOfJson?_itemsToJson ih, Option.map_some]
  | json htidy => rw [toJson, ofJson?, htidy.readable_eq, if_pos rfl, htidy.normal_eq]

end Value

end SqlQuery
