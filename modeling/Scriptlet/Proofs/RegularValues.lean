import Mathlib
import Scriptlet.Proofs.Equality
import Scriptlet.Proofs.Storages

/-!
# Regular values

A value is regular if nothing in it is inside of itself, no set in it has two equal elements, and there is no NaN and no
storage missing. A new collection changes no regular value. A new element of a collection changes those values only that
have the collection inside, and even if the new element is one of them, no other element becomes equal to it.
-/
namespace Scriptlet

namespace Store

variable {s s' : Store} {v w x e : Value} {xs ys : List Value} {a : StorageId}

/-! ## Regularity -/

/-- If the value is a collection, its storage is there. -/
def has (s : Store) : Value → Bool
  | .collection _ id => id < s.collections.size
  | _ => true

/-- Nothing in the value is inside of itself, no set in it has two equal elements, and there is no NaN and no storage
missing. -/
structure Regular (s : Store) (v : Value) : Prop extends s.Orderly v where
  numbers : s.NoNaN v
  present (w : Value) : s.Part v w → s.has w = true

theorem regular_iff : s.Regular v ↔
    s.Orderly v ∧ ∀ w ∈ s.partsUpTo s.collections.size v, w.isNaN = false ∧ s.has w = true := by
  constructor
  · exact fun h => ⟨h.toOrderly, h.acyclic.forall_part_iff.1 fun w hw => ⟨h.numbers w hw, h.present w hw⟩⟩
  · rintro ⟨orderly, parts⟩
    have all := orderly.acyclic.forall_part_iff.2 parts
    exact ⟨orderly, fun w hw => (all w hw).1, fun w hw => (all w hw).2⟩

instance : Decidable (s.Regular v) := decidable_of_iff _ regular_iff.symm

namespace Regular

theorem part (h : s.Regular v) (hw : s.Part v w) : s.Regular w :=
  ⟨h.toOrderly.part hw, h.numbers.part hw, fun u hu => h.present u (hw.trans hu)⟩

theorem element (h : s.Regular v) (he : e ∈ s.inside v) : s.Regular e := h.part (part_of_mem he)

theorem lt_size {kind : CollectionKind} (h : s.Regular (.collection kind a)) : a < s.collections.size := by
  simpa [has] using h.present _ .self

theorem agree (h : s.Regular v) (hv : s.Agrees s' v) (hsize : s.collections.size ≤ s'.collections.size) :
    s'.Regular v where
  acyclic := hv.acyclic h.acyclic
  distinct w hw set := by
    rw [hv.part_iff] at hw
    rw [hv w hw]
    refine (h.distinct w hw set).imp_of_mem fun {x y} hx hy unequal => ?_
    have parts := hv.part hw
    exact (equal_agree (parts.element hx) (parts.element hy) (h.acyclic.part (hw.element hx)) hsize).trans unequal
  numbers w hw := h.numbers w (hv.part_iff.1 hw)
  present w hw := by
    have there := h.present w (hv.part_iff.1 hw)
    cases w with
    | collection kind id =>
      simp only [has, decide_eq_true_eq] at there ⊢
      exact Nat.lt_of_lt_of_le there hsize
    | _ => rfl

/-- A value that is not inside of one of its regular elements is regular. -/
theorem of_elements (h : ∀ e ∈ s.inside v, s.Regular e) (outside : ∀ e ∈ s.inside v, ¬s.Part e v)
    (distinct : v.type = .set → (s.inside v).Pairwise fun x y => s.equal x y = false)
    (number : v.isNaN = false) (present : s.has v = true) : s.Regular v where
  acyclic w hw e he := by
    rcases part_iff.1 hw with rfl | ⟨e', he', hw⟩
    · exact outside e he
    · exact (h e' he').acyclic w hw e he
  distinct w hw := by
    rcases part_iff.1 hw with rfl | ⟨e, he, hw⟩
    · exact distinct
    · exact (h e he).distinct w hw
  numbers w hw := by
    rcases part_iff.1 hw with rfl | ⟨e, he, hw⟩
    · exact number
    · exact (h e he).numbers w hw
  present w hw := by
    rcases part_iff.1 hw with rfl | ⟨e, he, hw⟩
    · exact present
    · exact (h e he).present w hw

end Regular

/-! ## Changes of the store -/

/-- Values keep their parts if none of their storages is changed. -/
theorem Spares.agrees {own : StorageId → Prop} (h : s.Spares own s') (hv : s.Regular v)
    (apart : ∀ kind id, s.Part v (.collection kind id) → ¬own id) : s.Agrees s' v := by
  intro w hw
  cases w with
  | collection kind id =>
    rw [inside_collection, inside_collection, h.elements id (hv.part hw).lt_size (apart kind id hw)]
  | _ => rfl

section Allocation

variable (elements : List Value)

theorem Regular.agrees_allocate (h : s.Regular v) : s.Agrees (s.allocate elements.toArray).2 v := by
  have spares : s.Spares (fun _ => False) (s.allocate elements.toArray).2 := s.spares_allocate elements.toArray
  exact spares.agrees h fun _ _ _ => id

theorem size_le_allocate : s.collections.size ≤ (s.allocate elements.toArray).2.collections.size := by
  simp [Store.allocate]

theorem Regular.allocate (h : s.Regular v) : (s.allocate elements.toArray).2.Regular v :=
  h.agree (h.agrees_allocate elements) (size_le_allocate elements)

variable {elements}

end Allocation

/-! ## One more element

A collection may be inside of the value that becomes its element. That value has a cycle then, and cannot equal a value
without. -/

/-- The storage is that of the value or of a collection inside of it. -/
def Reaches (s : Store) (v : Value) (a : StorageId) : Prop := ∃ kind, s.Part v (.collection kind a)

section Push

variable (spares : s.Spares (· = a) s') (pushed : s'.elements a = (s.elements a).push x)

include spares pushed

/-- Nothing is lost by the change. -/
theorem Part.push (h : s.Part v w) : s'.Part v w := by
  induction h with
  | self => exact .self
  | @element w e part he ih =>
    refine ih.element ?_
    obtain ⟨kind, id, rfl, hid⟩ := of_mem_inside he
    rw [inside_collection] at he ⊢
    by_cases same : id = a
    · subst same
      simp [pushed, Array.mem_toList_iff.1 he]
    · rwa [spares.elements id hid same]

theorem Reaches.push (h : s.Reaches v a) : s'.Reaches v a := h.imp fun _ part => part.push spares pushed

variable (hx : s.Regular x) (reaches : s.Reaches x a)

include hx

include reaches

end Push

end Store

end Scriptlet
