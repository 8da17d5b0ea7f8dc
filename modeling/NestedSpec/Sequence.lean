/-!
# Positions and stacks

Positions counted from either end of a sequence, the concatenation of sequences, and a last-in
first-out stack. A stack is held as the list of its items with the newest first, so `fromTop` is
the representation and `toList` is its reverse.
-/

namespace NestedSpec

/-- The place that `index` names among `size` items; a negative index counts from the end. -/
def position? (index : Int) (size : Nat) : Option Nat :=
  if 0 ≤ index then
    if index.toNat < size then some index.toNat else none
  else
    if index.natAbs ≤ size then some (size - index.natAbs) else none

def merge {α : Type} (lists : List (List α)) : List α :=
  lists.flatten

structure Stack (α : Type) where
  /-- The items from the top of the stack to its bottom. -/
  fromTop : List α := []
deriving Repr, DecidableEq

namespace Stack

variable {α : Type}

def empty : Stack α := ⟨[]⟩

def push (stack : Stack α) (item : α) : Stack α :=
  ⟨item :: stack.fromTop⟩

def pop (stack : Stack α) : Option α × Stack α :=
  (stack.fromTop.head?, ⟨stack.fromTop.tail⟩)

def peek (stack : Stack α) : Option α :=
  stack.fromTop.head?

/-- The items from the bottom of the stack to its top. -/
def toList (stack : Stack α) : List α :=
  stack.fromTop.reverse

def size (stack : Stack α) : Nat :=
  stack.fromTop.length

def isEmpty (stack : Stack α) : Bool :=
  stack.fromTop.isEmpty

/-- The item at `index` from the bottom; a negative index counts from the top. -/
def peekAt (stack : Stack α) (index : Int) : Option α :=
  (position? index stack.size).bind fun place => stack.toList[place]?

@[simp] theorem toList_push (stack : Stack α) (item : α) :
    (stack.push item).toList = stack.toList ++ [item] := by
  simp [push, toList]

@[simp] theorem pop_push (stack : Stack α) (item : α) :
    (stack.push item).pop = (some item, stack) := rfl

@[simp] theorem peek_push (stack : Stack α) (item : α) : (stack.push item).peek = some item := rfl

@[simp] theorem length_toList (stack : Stack α) : stack.toList.length = stack.size := by
  simp [toList, size]

end Stack
end NestedSpec
