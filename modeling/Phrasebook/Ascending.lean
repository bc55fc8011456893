/-!
# Ascending lists

A list sorted strictly upwards, as the plain form of a finite set. `insert` keeps the order and adds
no second copy, `ofList` sorts and drops repetitions.
-/

namespace Phrasebook.Ascending

variable {α : Type} [LT α] [DecidableLT α] [DecidableEq α]

/-- Puts `a` in its place among ascending elements, unless it is there already. -/
def insert (a : α) : List α → List α
  | [] => [a]
  | b :: rest =>
    if a = b then b :: rest
    else if a < b then a :: b :: rest
    else b :: insert a rest

/-- The elements of a list in ascending order, each once. -/
def ofList (as : List α) : List α := as.foldr insert []

@[simp] theorem ofList_nil : ofList ([] : List α) = [] := rfl

@[simp] theorem ofList_cons (a : α) (as : List α) : ofList (a :: as) = insert a (ofList as) := rfl

@[simp] theorem mem_insert {a x : α} {as : List α} : x ∈ insert a as ↔ x = a ∨ x ∈ as := by
  induction as with
  | nil => simp [insert]
  | cons b rest ih =>
    by_cases h : a = b
    · simp [insert, h]
    · by_cases hlt : a < b
      · simp [insert, h, hlt]
      · simp [insert, h, hlt, ih]
        grind

@[simp] theorem mem_ofList {x : α} {as : List α} : x ∈ ofList as ↔ x ∈ as := by
  induction as with
  | nil => simp
  | cons a as ih => simp [ih]

end Phrasebook.Ascending
