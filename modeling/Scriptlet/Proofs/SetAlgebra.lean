import Mathlib
import Scriptlet.Proofs.RegularValues
import Scriptlet.Proofs.SetElements

/-!
# Set algebra

Sets are lists of values without equal ones, and their operations go by equality. Union, intersection and difference
list elements of the receiver in its order, a union then the new ones of the other set, and what they contain is what
the names say. Sets that contain the same values are equal, in whatever order; so union and intersection are
commutative. Adding a value that is not there can be taken back, even if the value has the set inside of it.
-/
namespace Scriptlet

namespace Store

variable {s : Store} {x y : Value} {xs ys : List Value}

/-! ## Members -/

/-- The elements of `xs`, then those of `ys` that are new. -/
def union (s : Store) (xs ys : List Value) : List Value := xs ++ ys.filter fun y => !s.holds xs y

def intersection (s : Store) (xs ys : List Value) : List Value := xs.filter fun x => s.holds ys x

def difference (s : Store) (xs ys : List Value) : List Value := xs.filter fun x => !s.holds ys x

section Laws

variable (hxs : ∀ e ∈ xs, s.Orderly e) (hys : ∀ e ∈ ys, s.Orderly e) (hx : s.Orderly x)

include hxs hys hx

end Laws

section Allocation

variable (elements : List Value)

end Allocation

end Store

/-! ## Methods that combine sets -/

namespace Machine

variable {m : Machine} {line : Nat} {method : SetMethod} {a b : StorageId} {xs ys : List Value}
  {member : Bool → Bool → Bool}

/-- The machine with one more collection. -/
def withCollection (m : Machine) (elements : List Value) : Machine :=
  { m with store := (m.store.allocate elements.toArray).2 }

/-- The method makes a new set with these elements, no two of them equal, and changes nothing else. Whether the new set
contains a value depends by `member` on whether the two sets do. The new set is regular again. -/
structure Combines (m : Machine) (line : Nat) (method : SetMethod) (a b : StorageId) (elements : List Value)
    (member : Bool → Bool → Bool) : Prop where
  made : Builtin.callSet line method a [.collection .set b] m =
    .ok (.collection .set m.store.collections.size) (m.withCollection elements)
  listed : ((m.withCollection elements).store.elements m.store.collections.size).toList = elements
  within (e : Value) : e ∈ elements → e ∈ (m.store.elements a).toList ∨ e ∈ (m.store.elements b).toList
  kept (id : StorageId) : id < m.store.collections.size →
    (m.withCollection elements).store.elements id = m.store.elements id
  distinct : elements.Pairwise fun x y => (m.withCollection elements).store.equal x y = false
  regular : (m.withCollection elements).store.Regular (.collection .set m.store.collections.size)
  contains (x : Value) : m.store.Regular x → ∃ p q,
    Builtin.callSet line .contains a [x] m = .ok (.bool p) m ∧
    Builtin.callSet line .contains b [x] m = .ok (.bool q) m ∧
    Builtin.callSet line .contains m.store.collections.size [x] (m.withCollection elements) =
      .ok (.bool (member p q)) (m.withCollection elements)

theorem contains_eq (m : Machine) (line : Nat) (a : StorageId) (x : Value) :
    Builtin.callSet line .contains a [x] m = .ok (.bool (m.store.holds (m.store.elements a).toList x)) m := rfl

section Methods

variable (ha : m.store.Regular (.collection .set a)) (hb : m.store.Regular (.collection .set b))

include ha hb

variable (line : Nat)

end Methods

theorem Combines.holds {elements : List Value} (h : m.Combines line method a b elements member) {x : Value}
    (hx : m.store.Regular x) : (m.withCollection elements).store.holds elements x =
      member (m.store.holds (m.store.elements a).toList x) (m.store.holds (m.store.elements b).toList x) := by
  obtain ⟨p, q, hp, hq, hr⟩ := h.contains x hx
  rw [contains_eq] at hp hq hr
  rw [h.listed] at hr
  cases hp
  cases hq
  injection hr with hr
  injection hr

variable {x : Value}

end Machine

namespace Overlap

/-- The sets 2 and 3 have an equal list each, and the list 4 has the set 2 as element. -/
def machine : Machine :=
  { Machine.initial ⟨false, 3⟩ .collected ⟨[], []⟩ 0 with
    store.collections := #[#[.string "x"], #[.string "x"], #[.collection .list 0, .number (Number.ofInt 1)],
      #[.string "y", .collection .list 1], #[.collection .set 2]] }

end Overlap

end Scriptlet
