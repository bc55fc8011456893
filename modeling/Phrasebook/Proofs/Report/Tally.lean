import Phrasebook.Report.Coverage

/-!
# Tallies

Tallies add up in any order and in any grouping (`sum_perm`, `sum_flatMap`). So the totals of a
catalog are the tally of all its messages, however they are spread over contexts.
-/

namespace Phrasebook.Tally

theorem add_comm (a b : Tally) : a.add b = b.add a := by
  unfold add
  rw [Nat.add_comm a.finished, Nat.add_comm a.unfinished, Nat.add_comm a.retired]

theorem add_assoc (a b c : Tally) : (a.add b).add c = a.add (b.add c) := by
  simp only [add, Nat.add_assoc]

@[simp] theorem empty_add (a : Tally) : add {} a = a := by
  simp only [add, Nat.zero_add]

@[simp] theorem add_empty (a : Tally) : a.add {} = a := by
  rw [add_comm, empty_add]

@[simp] theorem sum_nil : sum [] = {} := rfl

theorem foldl_add (start : Tally) (tallies : List Tally) :
    tallies.foldl add start = start.add (sum tallies) := by
  induction tallies generalizing start with
  | nil => exact (add_empty start).symm
  | cons tally rest ih =>
    show rest.foldl add (start.add tally) = start.add (rest.foldl add (add {} tally))
    rw [ih, ih, empty_add, add_assoc]

@[simp] theorem sum_cons (tally : Tally) (rest : List Tally) :
    sum (tally :: rest) = tally.add (sum rest) := by
  show rest.foldl add (add {} tally) = _
  rw [foldl_add, empty_add]

theorem sum_append (as bs : List Tally) : sum (as ++ bs) = (sum as).add (sum bs) := by
  rw [sum, List.foldl_append, foldl_add]
  rfl

theorem sum_flatMap {α : Type} (groups : List α) (f : α → List Tally) :
    sum (groups.flatMap f) = sum (groups.map fun group => sum (f group)) := by
  induction groups with
  | nil => rfl
  | cons group rest ih => rw [List.flatMap_cons, sum_append, List.map_cons, sum_cons, ih]

theorem sum_perm {as bs : List Tally} (h : as.Perm bs) : sum as = sum bs := by
  apply h.foldl_eq'
  intro a _ b _ start
  rw [add_assoc, add_assoc, add_comm a b]

end Phrasebook.Tally
