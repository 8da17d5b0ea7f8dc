import NestedSpec.Config
import NestedSpec.Generator
import NestedSpec.Location

/-!
# The order of siblings

The three ways to order the members of one scope: as they are, by place, or by a shuffle. The
generator of a shuffle is derived from the seed and the name of the scope alone, so a scope keeps
its order whatever else the run holds.
-/

namespace NestedSpec

structure Orderer where
  mode : Mode
  seed : UInt64
deriving Repr, DecidableEq

namespace Orderer

/-- The same seed with another mode. -/
def withMode (orderer : Orderer) (mode : Mode) : Orderer :=
  { orderer with mode }

/-- The members of a scope in order; `place` says where a member was declared. Members with the
same place stay as they were. -/
def order {α : Type} (orderer : Orderer) (scope : String) (place : α → Location)
    (items : List α) : List α :=
  match orderer.mode with
  | .defined => items
  | .file => items.mergeSort fun a b => (place a).atMost (place b)
  | .random => (Generator.shuffle items (.ofBytes (deriveSeed orderer.seed scope))).1

/-- Ordering loses no member and adds none. -/
theorem order_perm {α : Type} (orderer : Orderer) (scope : String) (place : α → Location)
    (items : List α) : (orderer.order scope place items).Perm items := by
  unfold order
  split
  · exact List.Perm.refl _
  · exact List.mergeSort_perm _ _
  · exact Generator.shuffle_perm _ _

end Orderer
end NestedSpec
