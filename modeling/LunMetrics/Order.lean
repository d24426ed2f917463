/- Sorting by insertion. The recursion is structural, other than that of the library's merge sort, so that the order of
   given elements can be computed in proofs. An element is put before the first one that it may precede; so elements that
   precede each other keep their order. -/
namespace LunMetrics

variable {α : Type}

/-- `a` put before the first element that it may precede. -/
def insertBy (le : α → α → Bool) (a : α) : List α → List α
  | [] => [a]
  | b :: bs => if le a b then a :: b :: bs else b :: insertBy le a bs

/-- The elements in the order `le`. -/
def sortBy (le : α → α → Bool) : List α → List α
  | [] => []
  | a :: as => insertBy le a (sortBy le as)

end LunMetrics
