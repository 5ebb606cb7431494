import Scriptlet.Value.Store
import Mathlib.Data.Finset.Card
import Mathlib.Data.Finset.Range

/-!
# Values inside values

The parts of a value are the value itself and the elements of the collections among its parts. If no collection is a
part of one of its own elements, then collections nest at most as deep as there are storages: on the way down every
storage is a new one. This is why comparing values to that depth compares them completely.
-/
namespace Scriptlet

namespace Store

variable {s s' : Store} {v w u e : Value} {kind : CollectionKind} {id : StorageId} {n k : Nat}

/-! ## Parts -/

/-- The elements of a collection; other values have none. -/
def inside (s : Store) : Value → List Value
  | .collection _ id => (s.elements id).toList
  | _ => []

@[simp] theorem inside_collection : s.inside (.collection kind id) = (s.elements id).toList := rfl

/-- The second value is the first one or lies inside of it. -/
inductive Part (s : Store) (v : Value) : Value → Prop where
  | self : s.Part v v
  | element {w e : Value} : s.Part v w → e ∈ s.inside w → s.Part v e

theorem Part.trans (h : s.Part v w) (h' : s.Part w u) : s.Part v u := by
  induction h' with
  | self => exact h
  | element _ he ih => exact ih.element he

theorem part_of_mem (he : e ∈ s.inside v) : s.Part v e := Part.self.element he

theorem part_iff : s.Part v w ↔ w = v ∨ ∃ e ∈ s.inside v, s.Part e w := by
  constructor
  · intro h
    induction h with
    | self => exact .inl rfl
    | element _ he ih =>
      rcases ih with rfl | ⟨e', he', inner⟩
      · exact .inr ⟨_, he, .self⟩
      · exact .inr ⟨e', he', inner.element he⟩
  · rintro (rfl | ⟨e, he, inner⟩)
    · exact .self
    · exact (part_of_mem he).trans inner

/-- Only a collection has elements, and then its storage is there. -/
theorem of_mem_inside (he : e ∈ s.inside v) : ∃ kind id, v = .collection kind id ∧ id < s.collections.size := by
  cases v with
  | collection kind id =>
    refine ⟨kind, id, rfl, ?_⟩
    by_contra outside
    have none : s.elements id = #[] := by simp [elements, Array.getD, outside]
    simp [inside, none] at he
  | _ => cases he

/-! ## Depth -/

/-- Collections nest at most `depth` levels below the value. -/
def NestedUpTo (s : Store) : (depth : Nat) → Value → Prop
  | 0, v => s.inside v = []
  | n + 1, v => ∀ e ∈ s.inside v, s.NestedUpTo n e

theorem NestedUpTo.element (h : s.NestedUpTo n v) (he : e ∈ s.inside v) : ∃ k, n = k + 1 ∧ s.NestedUpTo k e := by
  cases n with
  | zero =>
    rw [NestedUpTo] at h
    rw [h] at he
    cases he
  | succ n => exact ⟨n, rfl, h e he⟩

theorem NestedUpTo.mono (h : s.NestedUpTo n v) (hk : n ≤ k) : s.NestedUpTo k v := by
  induction n generalizing v k with
  | zero =>
    cases k with
    | zero => exact h
    | succ k =>
      intro e he
      obtain ⟨_, hn, -⟩ := h.element he
      cases hn
  | succ n ih =>
    obtain ⟨k, rfl⟩ : ∃ m, k = m + 1 := ⟨k - 1, by omega⟩
    exact fun e he => ih (h e he) (by omega)

theorem NestedUpTo.part (h : s.NestedUpTo n v) (hw : s.Part v w) : s.NestedUpTo n w := by
  induction hw with
  | self => exact h
  | element _ he ih =>
    obtain ⟨k, rfl, hk⟩ := ih.element he
    exact hk.mono (Nat.le_succ k)

/-- No collection in the value is a part of one of its own elements. -/
def Acyclic (s : Store) (v : Value) : Prop := ∀ w, s.Part v w → ∀ e ∈ s.inside w, ¬s.Part e w

theorem Acyclic.part (h : s.Acyclic v) (hw : s.Part v w) : s.Acyclic w := fun u hu => h u (hw.trans hu)

theorem NestedUpTo.acyclic (h : s.NestedUpTo n v) : s.Acyclic v := by
  intro w hw e he hcycle
  have hw := h.part hw
  clear h
  -- once around the cycle there is a level less, but the nesting is the same
  induction n with
  | zero =>
    obtain ⟨_, hn, -⟩ := hw.element he
    cases hn
  | succ n ih => exact ih ((hw e he).part hcycle)

section Storages

open Classical in
/-- The storages of the collections in the value. -/
noncomputable def storages (s : Store) (v : Value) : Finset StorageId :=
  (Finset.range s.collections.size).filter fun id => ∃ kind, s.Part v (.collection kind id)

theorem mem_storages : id ∈ s.storages v ↔ id < s.collections.size ∧ ∃ kind, s.Part v (.collection kind id) := by
  simp [storages]

/-- An element of a collection that is in no cycle has fewer storages inside of it. -/
theorem card_storages_lt (h : s.Acyclic v) (he : e ∈ s.inside v) : (s.storages e).card < (s.storages v).card := by
  obtain ⟨kind, id, rfl, hid⟩ := of_mem_inside he
  refine Finset.card_lt_card (Finset.ssubset_iff_of_subset ?_ |>.2 ⟨id, ?_, ?_⟩)
  · intro id' hid'
    obtain ⟨hsize, kind', hpart⟩ := mem_storages.1 hid'
    exact mem_storages.2 ⟨hsize, kind', (part_of_mem he).trans hpart⟩
  · exact mem_storages.2 ⟨hid, kind, .self⟩
  · intro hmem
    obtain ⟨-, kind', hpart⟩ := mem_storages.1 hmem
    -- a collection with this storage has the element `e`, whatever its kind is
    exact h _ ((part_of_mem he).trans hpart) e he hpart

theorem Acyclic.nestedUpTo_of_card (h : s.Acyclic v) (hn : (s.storages v).card ≤ n) : s.NestedUpTo n v := by
  induction n generalizing v with
  | zero =>
    refine List.eq_nil_iff_forall_not_mem.2 fun e he => ?_
    have := card_storages_lt h he
    omega
  | succ n ih =>
    intro e he
    have := card_storages_lt h he
    exact ih (h.part (part_of_mem he)) (by omega)

theorem card_storages_le (s : Store) (v : Value) : (s.storages v).card ≤ s.collections.size := by
  calc (s.storages v).card ≤ (Finset.range s.collections.size).card :=
        Finset.card_le_card fun _ hid => Finset.mem_range.2 (mem_storages.1 hid).1
    _ = s.collections.size := Finset.card_range _

end Storages

/-- Where nothing contains itself, there are no more levels than storages. -/
theorem Acyclic.nestedUpTo (h : s.Acyclic v) : s.NestedUpTo s.collections.size v :=
  h.nestedUpTo_of_card (card_storages_le s v)

theorem acyclic_iff : s.Acyclic v ↔ s.NestedUpTo s.collections.size v := ⟨Acyclic.nestedUpTo, NestedUpTo.acyclic⟩

/-! ## Listing the parts -/

/-- The parts of a value down to `depth` levels. -/
def partsUpTo (s : Store) : (depth : Nat) → Value → List Value
  | 0, v => [v]
  | n + 1, v => v :: (s.inside v).flatMap (s.partsUpTo n)

theorem NestedUpTo.mem_partsUpTo (h : s.NestedUpTo n v) : w ∈ s.partsUpTo n v ↔ s.Part v w := by
  induction n generalizing v with
  | zero =>
    simp only [NestedUpTo] at h
    simp [partsUpTo, part_iff (v := v), h]
  | succ n ih =>
    have inner : (∃ e ∈ s.inside v, w ∈ s.partsUpTo n e) ↔ ∃ e ∈ s.inside v, s.Part e w :=
      exists_congr fun e => and_congr_right fun he => ih (h e he)
    simp [partsUpTo, part_iff (v := v), inner]

instance decidableNestedUpTo (s : Store) : (n : Nat) → (v : Value) → Decidable (s.NestedUpTo n v)
  | 0, v => inferInstanceAs (Decidable (s.inside v = []))
  | n + 1, v =>
    have := s.decidableNestedUpTo n
    inferInstanceAs (Decidable (∀ e ∈ s.inside v, s.NestedUpTo n e))

instance : Decidable (s.Acyclic v) := decidable_of_iff _ acyclic_iff.symm

/-- What holds for all parts of a value without cycles can be found out by listing them. -/
theorem Acyclic.forall_part_iff {P : Value → Prop} (h : s.Acyclic v) :
    (∀ w, s.Part v w → P w) ↔ ∀ w ∈ s.partsUpTo s.collections.size v, P w :=
  forall_congr' fun _ => by rw [h.nestedUpTo.mem_partsUpTo]

/-! ## Values with the same parts in two stores -/

/-- All collections in the value have the same elements in both stores. -/
def Agrees (s s' : Store) (v : Value) : Prop := ∀ w, s.Part v w → s'.inside w = s.inside w

namespace Agrees

variable (h : s.Agrees s' v)

include h

theorem inside_eq : s'.inside v = s.inside v := h v .self

theorem part (hw : s.Part v w) : s.Agrees s' w := fun u hu => h u (hw.trans hu)

theorem element (he : e ∈ s.inside v) : s.Agrees s' e := h.part (part_of_mem he)

theorem part_iff : s'.Part v w ↔ s.Part v w := by
  constructor
  · intro hw
    induction hw with
    | self => exact .self
    | element _ he ih =>
      rw [h _ ih] at he
      exact ih.element he
  · intro hw
    induction hw with
    | self => exact .self
    | element hw he ih =>
      rw [← h _ hw] at he
      exact ih.element he

theorem acyclic (hv : s.Acyclic v) : s'.Acyclic v := by
  intro w hw e he hcycle
  rw [h.part_iff] at hw
  rw [h w hw] at he
  rw [((h.part hw).element he).part_iff] at hcycle
  exact hv w hw e he hcycle

end Agrees

end Store

end Scriptlet
