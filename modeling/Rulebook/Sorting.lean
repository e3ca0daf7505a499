/-
  Stable sorting by a comparison that can fail.

  Short lists are sorted by insertion into a first ascending or descending run, so the comparisons
  are made in a known order: the first pair that cannot be compared decides the fault.  Longer lists
  are merged from sorted halves.
-/

namespace Rulebook.Sorting

variable {α ε : Type}

/-- The items that go on descending from `last`, in reverse, and the items after them. -/
def descending (less : α → α → Except ε Bool) : α → List α → List α → Except ε (List α × List α)
  | _, run, [] => .ok (run, [])
  | last, run, x :: xs => do
    if ← less x last then descending less x (x :: run) xs else return (run, x :: xs)

/-- The items that go on ascending from `last`, those before in reverse, and the items after
    them. -/
def ascending (less : α → α → Except ε Bool) : α → List α → List α → Except ε (List α × List α)
  | _, run, [] => .ok (run.reverse, [])
  | last, run, x :: xs => do
    if ← less x last then return (run.reverse, x :: xs) else ascending less x (x :: run) xs

/-- The longest run at the start of a list, in ascending order, and the items after it. -/
def firstRun (less : α → α → Except ε Bool) : List α → Except ε (List α × List α)
  | [] => .ok ([], [])
  | [x] => .ok ([x], [])
  | x :: y :: rest => do
    if ← less y x then descending less y [y, x] rest else ascending less y [y, x] rest

/-- Where an item goes in a sorted list: after the items that are not greater, by halving. -/
def position (less : α → α → Except ε Bool) (sorted : Array α) (x : α) :
    Nat → Nat → Nat → Except ε Nat
  | 0, low, _ => .ok low
  | fuel + 1, low, high =>
    if high ≤ low then .ok low
    else
      let mid := low + (high - low) / 2
      match sorted[mid]? with
      | none => .ok low
      | some y => do
        if ← less x y then position less sorted x fuel low mid
        else position less sorted x fuel (mid + 1) high

/-- Inserts items one by one into a sorted list. -/
def insertAll (less : α → α → Except ε Bool) : Array α → List α → Except ε (List α)
  | sorted, [] => .ok sorted.toList
  | sorted, x :: xs => do
    let i ← position less sorted x (sorted.size + 1) 0 sorted.size
    insertAll less (sorted.insertIdxIfInBounds i x) xs

/-- Sorts a short list. -/
def sortShort (less : α → α → Except ε Bool) (xs : List α) : Except ε (List α) := do
  let (run, rest) ← firstRun less xs
  insertAll less run.toArray rest

/-- Merges two sorted lists, the items of the first before equal ones of the second. -/
def merge (less : α → α → Except ε Bool) : Nat → List α → List α → List α → Except ε (List α)
  | 0, xs, ys, out => .ok (out.reverse ++ xs ++ ys)
  | _, [], ys, out => .ok (out.reverse ++ ys)
  | _, xs, [], out => .ok (out.reverse ++ xs)
  | fuel + 1, x :: xs, y :: ys, out => do
    if ← less y x then merge less fuel (x :: xs) ys (y :: out)
    else merge less fuel xs (y :: ys) (x :: out)

/-- Sorts a list, halving it at most `fuel` times. -/
def sortWith (less : α → α → Except ε Bool) : Nat → List α → Except ε (List α)
  | 0, xs => sortShort less xs
  | fuel + 1, xs =>
    if xs.length < 64 then sortShort less xs
    else do
      let half := xs.length / 2
      let left ← sortWith less fuel (xs.take half)
      let right ← sortWith less fuel (xs.drop half)
      merge less xs.length left right []

/-- A list in ascending order, equal items in the order they had. -/
def sort (less : α → α → Except ε Bool) (xs : List α) : Except ε (List α) :=
  sortWith less xs.length xs

end Rulebook.Sorting
