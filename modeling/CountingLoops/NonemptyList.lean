/-!
Lists that hold at least one item, as a first item and the list of the others. The view of such a
list is `toList`; every operation here is described by what it does to that view.
-/

namespace CountingLoops

/-- A list with at least one item. -/
structure NonemptyList (α : Type) where
  head : α
  tail : List α
  deriving DecidableEq

namespace NonemptyList

variable {α β : Type}

/-- All items, in order. -/
def toList (xs : NonemptyList α) : List α := xs.head :: xs.tail

/-- The list with these items, unless there are none. -/
def ofList? : List α → Option (NonemptyList α)
  | [] => none
  | x :: xs => some ⟨x, xs⟩

/-- The number of items, which is at least one. -/
def length (xs : NonemptyList α) : Nat := xs.tail.length + 1

/-- The item at the end. -/
def last (xs : NonemptyList α) : α := xs.tail.getLastD xs.head

/-- The items under `f`, in the same order. -/
def map (f : α → β) (xs : NonemptyList α) : NonemptyList β :=
  ⟨f xs.head, xs.tail.map f⟩

@[simp] theorem length_toList (xs : NonemptyList α) : xs.toList.length = xs.length := rfl

@[simp] theorem toList_map (f : α → β) (xs : NonemptyList α) :
    (xs.map f).toList = xs.toList.map f := rfl

theorem toList_ne_nil (xs : NonemptyList α) : xs.toList ≠ [] :=
  List.cons_ne_nil _ _

theorem toList_inj {xs ys : NonemptyList α} : xs.toList = ys.toList ↔ xs = ys := by
  obtain ⟨x, xs⟩ := xs
  obtain ⟨y, ys⟩ := ys
  simp [toList]

theorem getLast?_toList (xs : NonemptyList α) : xs.toList.getLast? = some xs.last := by
  simp [toList, last, List.getLast?_cons]

theorem ofList?_toList (xs : NonemptyList α) : ofList? xs.toList = some xs := rfl

theorem toList_of_ofList? {l : List α} {xs : NonemptyList α} (h : ofList? l = some xs) :
    xs.toList = l := by
  cases l with
  | nil => simp [ofList?] at h
  | cons x l =>
    simp only [ofList?, Option.some.injEq] at h
    subst h
    rfl

end NonemptyList

end CountingLoops
