import Mathlib
import Scriptlet.Proofs.Builtins
import Scriptlet.Proofs.Nesting

/-!
# Equality of values

Collections of one kind are equal if they have the same storage or if their elements are equal, for sets in any order.
Among values without cycles, whose sets have no two equal elements, this is symmetric and transitive. For sets it takes
a count: if every element of the first set has an equal one in the second, these are different ones, and since both sets
have the same size there are no others. Only numbers that are not equal to themselves stand against reflexivity, and
without them it makes no difference whether the storages or the elements are compared.
-/
namespace Scriptlet

/-! ## Matching lists up to a relation -/

section Matching

variable {α : Type} {R : α → α → Prop} {xs ys : List α}
  (apart : xs.Pairwise fun x x' => ¬R x x')
  (joins : ∀ x ∈ xs, ∀ x' ∈ xs, ∀ y ∈ ys, R y x → R y x' → R x x') (covered : ∀ x ∈ xs, ∃ y ∈ ys, R y x)

include apart joins covered

/-- The elements of `xs` are related to different elements of `ys`. -/
theorem exists_matching : ∃ f : α → α, (xs.map f).Subperm ys ∧ ∀ x ∈ xs, R (f x) x := by
  choose! f hf hrelated using covered
  have within : xs.map f ⊆ ys := by
    intro y hy
    obtain ⟨x, hx, rfl⟩ := List.mem_map.1 hy
    exact hf x hx
  have nodup : (xs.map f).Nodup := by
    refine List.pairwise_map.2 (apart.imp_of_mem ?_)
    intro x x' hx hx' unrelated same
    exact unrelated (joins x hx x' hx' (f x) (hf x hx) (hrelated x hx) (same ▸ hrelated x' hx'))
  exact ⟨f, List.subperm_of_subset nodup within, hrelated⟩

/-- If there are not more elements in `ys`, then none of them is left out. -/
theorem covers_of_length_le (hle : ys.length ≤ xs.length) : ∀ y ∈ ys, ∃ x ∈ xs, R y x := by
  obtain ⟨f, within, hf⟩ := exists_matching apart joins covered
  have perm : (xs.map f).Perm ys := within.perm_of_length_le (by simpa using hle)
  intro y hy
  obtain ⟨x, hx, rfl⟩ := List.mem_map.1 (perm.mem_iff.2 hy)
  exact ⟨x, hx, hf x hx⟩

end Matching

def Value.isNaN : Value → Bool
  | .number x => x.isNaN
  | _ => false

namespace Store

variable {s s' : Store} {f g : Value → Value → Bool} {v w u : Value} {kind : CollectionKind} {a b : StorageId}
  {xs ys : List Value} {n k : Nat}

/-! ## Comparing elements -/

/-- Comparison of the elements of two collections of one kind, whose parts are compared by `equal`. -/
def sameElements (equal : Value → Value → Bool) (kind : CollectionKind) (xs ys : List Value) : Bool :=
  xs.length == ys.length &&
    if kind = .set then xs.all fun x => ys.any fun y => equal y x
    else (xs.zip ys).all fun pair => equal pair.1 pair.2

theorem sameElements_set : sameElements f .set xs ys = true ↔
    xs.length = ys.length ∧ ∀ x ∈ xs, ∃ y ∈ ys, f y x = true := by
  simp [sameElements]

theorem sameElements_ordered (h : kind ≠ .set) : sameElements f kind xs ys = true ↔
    List.Forall₂ (fun x y => f x y = true) xs ys := by
  simp [sameElements, h, List.forall₂_iff_zip]

theorem sameElements_imp
    (h : ∀ x ∈ xs, ∀ y ∈ ys, (f x y = true → g x y = true) ∧ (f y x = true → g y x = true))
    (hf : sameElements f kind xs ys = true) : sameElements g kind xs ys = true := by
  by_cases hk : kind = .set
  · subst hk
    rw [sameElements_set] at hf ⊢
    refine ⟨hf.1, fun x hx => ?_⟩
    obtain ⟨y, hy, hyx⟩ := hf.2 x hx
    exact ⟨y, hy, (h x hx y hy).2 hyx⟩
  · rw [sameElements_ordered hk, List.forall₂_iff_zip] at hf ⊢
    refine ⟨hf.1, fun hxy => ?_⟩
    obtain ⟨hx, hy⟩ := List.of_mem_zip hxy
    exact (h _ hx _ hy).1 (hf.2 hxy)

theorem sameElements_congr (h : ∀ x ∈ xs, ∀ y ∈ ys, f x y = g x y ∧ f y x = g y x) :
    sameElements f kind xs ys = sameElements g kind xs ys := by
  rw [Bool.eq_iff_iff]
  constructor
  · exact sameElements_imp fun x hx y hy => ⟨(h x hx y hy).1.symm.trans, (h x hx y hy).2.symm.trans⟩
  · exact sameElements_imp fun x hx y hy => ⟨(h x hx y hy).1.trans, (h x hx y hy).2.trans⟩

theorem equalWith_collection (s : Store) (f : Value → Value → Bool) (kind kind' : CollectionKind) (a b : StorageId) :
    s.equalWith f (.collection kind a) (.collection kind' b) =
      (kind == kind' && (a == b || sameElements f kind (s.elements a).toList (s.elements b).toList)) := by
  cases kind <;> rfl

/-- Equality depends on how the elements of the two values are compared with each other. -/
theorem equalWith_congr (h : ∀ x ∈ s.inside v, ∀ y ∈ s.inside w, f x y = g x y ∧ f y x = g y x) :
    s.equalWith f v w = s.equalWith g v w := by
  cases v with
  | collection kind a =>
    cases w with
    | collection kind' b =>
      simp only [inside_collection] at h
      rw [equalWith_collection, equalWith_collection, sameElements_congr h]
    | _ => rfl
  | _ => cases w <;> rfl

/-- For values other than collections there are no elements to compare. -/
theorem equalWith_plain (h : ∀ kind id, v ≠ .collection kind id) : s.equalWith f v w = s.equalWith g v w := by
  refine equalWith_congr fun x hx => ?_
  obtain ⟨kind, id, rfl, -⟩ := of_mem_inside hx
  exact absurd rfl (h kind id)

/-- Equality depends on the elements that the two values have. -/
theorem equalWith_agree (hv : s'.inside v = s.inside v) (hw : s'.inside w = s.inside w) :
    s'.equalWith f v w = s.equalWith f v w := by
  cases v with
  | collection kind a =>
    cases w with
    | collection kind' b =>
      simp only [inside_collection] at hv hw
      rw [equalWith_collection, equalWith_collection, hv, hw]
    | _ => rfl
  | _ => cases w <;> rfl

/-! ## Equal values -/

/-- When values are equal whose elements are compared by `equal`. -/
inductive EqualBy (s : Store) (equal : Value → Value → Bool) : Value → Value → Prop where
  | undefined : s.EqualBy equal .undefined .undefined
  | null : s.EqualBy equal .null .null
  | bool (b : Bool) : s.EqualBy equal (.bool b) (.bool b)
  | number {x y : Float} : (x == y) = true → s.EqualBy equal (.number x) (.number y)
  | string (text : String) : s.EqualBy equal (.string text) (.string text)
  | native (id : Identity) (f g : Native) : s.EqualBy equal (.native id f) (.native id g)
  | function {f g : FunctionObject} : f.id = g.id → s.EqualBy equal (.function f) (.function g)
  | classObject {c d : ClassObject} : c.id = d.id → s.EqualBy equal (.classObject c) (.classObject d)
  | object (id : InstanceId) (c d : ClassObject) : s.EqualBy equal (.object id c) (.object id d)
  | collection {kind : CollectionKind} {a b : StorageId} :
    a = b ∨ sameElements equal kind (s.elements a).toList (s.elements b).toList = true →
    s.EqualBy equal (.collection kind a) (.collection kind b)
  | file {p q : String} : Path.parts p = Path.parts q → s.EqualBy equal (.file p) (.file q)

theorem EqualBy.of_equalWith (h : s.equalWith f v w = true) : s.EqualBy f v w := by
  cases v with
  | undefined =>
    cases w with
    | undefined => exact .undefined
    | _ => cases h
  | null =>
    cases w with
    | null => exact .null
    | _ => cases h
  | bool b =>
    cases w with
    | bool b' => exact eq_of_beq (α := Bool) h ▸ .bool b
    | _ => cases h
  | number x =>
    cases w with
    | number y => exact .number h
    | _ => cases h
  | string t =>
    cases w with
    | string t' => exact eq_of_beq (α := String) h ▸ .string t
    | _ => cases h
  | native i f =>
    cases w with
    | native j g => exact eq_of_beq (α := Identity) h ▸ .native i f g
    | _ => cases h
  | function f =>
    cases w with
    | function g => exact .function (eq_of_beq h)
    | _ => cases h
  | classObject c =>
    cases w with
    | classObject d => exact .classObject (eq_of_beq h)
    | _ => cases h
  | object i c =>
    cases w with
    | object j d => exact eq_of_beq (α := InstanceId) h ▸ .object i c d
    | _ => cases h
  | collection kind a =>
    cases w with
    | collection kind' b =>
      simp only [equalWith_collection, Bool.and_eq_true, Bool.or_eq_true, beq_iff_eq] at h
      obtain ⟨rfl, h⟩ := h
      exact .collection h
    | _ => cases h
  | file p =>
    cases w with
    | file q => exact .file (eq_of_beq h)
    | _ => cases h

theorem EqualBy.equalWith (h : s.EqualBy f v w) : s.equalWith f v w = true := by
  cases h with
  | undefined => rfl
  | null => rfl
  | bool b => exact beq_self_eq_true b
  | number h => exact h
  | string text => exact beq_self_eq_true text
  | native id f g => exact beq_self_eq_true id
  | function h => exact beq_iff_eq.2 h
  | classObject h => exact beq_iff_eq.2 h
  | object id c d => exact beq_self_eq_true id
  | collection h => simpa [equalWith_collection] using h
  | file h => exact beq_iff_eq.2 h

theorem equalWith_iff : s.equalWith f v w = true ↔ s.EqualBy f v w := ⟨.of_equalWith, EqualBy.equalWith⟩

/-- Equality is symmetric as far as the comparison of elements is. -/
theorem EqualBy.symm (h : s.EqualBy f v w)
    (hsame : ∀ kind a, v = .collection kind a → sameElements f kind (s.inside v) (s.inside w) = true →
      sameElements f kind (s.inside w) (s.inside v) = true) : s.EqualBy f w v := by
  cases h with
  | undefined => exact .undefined
  | null => exact .null
  | bool b => exact .bool b
  | number h => exact .number (BEq.symm h)
  | string text => exact .string text
  | native id f g => exact .native id g f
  | function h => exact .function h.symm
  | classObject h => exact .classObject h.symm
  | object id c d => exact .object id d c
  | collection h => exact .collection (h.imp Eq.symm (hsame _ _ rfl))
  | file h => exact .file h.symm

/-- Equality is transitive as far as the comparison of elements is. -/
theorem EqualBy.trans (h : s.EqualBy f v w) (h' : s.EqualBy f w u)
    (hsame : ∀ kind, sameElements f kind (s.inside v) (s.inside w) = true →
      sameElements f kind (s.inside w) (s.inside u) = true →
      sameElements f kind (s.inside v) (s.inside u) = true) : s.EqualBy f v u := by
  cases h with
  | undefined => exact h'
  | null => exact h'
  | bool b => exact h'
  | number h => cases h' with | number h' => exact .number (BEq.trans h h')
  | string text => exact h'
  | native id f g => cases h' with | native _ _ k => exact .native id f k
  | function h => cases h' with | function h' => exact .function (h.trans h')
  | classObject h => cases h' with | classObject h' => exact .classObject (h.trans h')
  | object id c d => cases h' with | object _ _ d' => exact .object id c d'
  | collection h =>
    cases h' with
    | collection h' =>
      rcases h with rfl | h
      · exact .collection h'
      · rcases h' with rfl | h'
        · exact .collection (.inr h)
        · exact .collection (.inr (hsame _ h h'))
  | file h => cases h' with | file h' => exact .file (h.trans h')

/-! ## Depth -/

/-- Comparing deeper than one of the values is nested makes no difference. -/
theorem equalUpTo_eq (h : s.NestedUpTo n v ∨ s.NestedUpTo n w) (hk : n ≤ k) :
    s.equalUpTo k v w = s.equalUpTo n v w := by
  induction n generalizing k v w with
  | zero =>
    cases k with
    | zero => rfl
    | succ k =>
      refine equalWith_congr fun x hx y hy => ?_
      simp only [NestedUpTo] at h
      rcases h with none | none
      · simp [none] at hx
      · simp [none] at hy
  | succ n ih =>
    obtain ⟨k, rfl⟩ : ∃ m, k = m + 1 := ⟨k - 1, by omega⟩
    refine equalWith_congr fun x hx y hy => ?_
    have inner : s.NestedUpTo n x ∨ s.NestedUpTo n y := h.imp (fun h => h x hx) fun h => h y hy
    exact ⟨ih inner (by omega), ih inner.symm (by omega)⟩

/-- If one of the values has no cycles, then it is by equality that elements are compared. -/
theorem equal_unfold (h : s.Acyclic v ∨ s.Acyclic w) : s.equal v w = s.equalWith s.equal v w := by
  have nested := h.imp Acyclic.nestedUpTo Acyclic.nestedUpTo
  exact (equalUpTo_eq nested (Nat.le_succ _)).symm

theorem equalUpTo_agree (hv : s.Agrees s' v) (hw : s.Agrees s' w) (n : Nat) :
    s'.equalUpTo n v w = s.equalUpTo n v w := by
  induction n generalizing v w with
  | zero => exact equalWith_agree hv.inside_eq hw.inside_eq
  | succ n ih =>
    rw [equalUpTo, equalUpTo, equalWith_agree hv.inside_eq hw.inside_eq]
    exact equalWith_congr fun x hx y hy =>
      ⟨ih (hv.element hx) (hw.element hy), ih (hw.element hy) (hv.element hx)⟩

/-- Values with the same parts in two stores are equal in both or in none. -/
theorem equal_agree (hv : s.Agrees s' v) (hw : s.Agrees s' w) (h : s.Acyclic v)
    (hsize : s.collections.size ≤ s'.collections.size) : s'.equal v w = s.equal v w := by
  rw [equal, equal, equalUpTo_agree hv hw]
  exact equalUpTo_eq (.inl h.nestedUpTo) hsize

/-! ## Symmetry and transitivity -/

/-- Among these values equality is symmetric and transitive. -/
structure PartialEquiv (s : Store) (P : Value → Prop) : Prop where
  symm {v w : Value} : P v → P w → s.equal v w = true → s.equal w v = true
  trans {v w u : Value} : P v → P w → P u → s.equal v w = true → s.equal w u = true → s.equal v u = true

namespace PartialEquiv

variable {P : Value → Prop} (h : s.PartialEquiv P) {zs : List Value} (hx : ∀ x ∈ xs, P x) (hy : ∀ y ∈ ys, P y)

include h hx hy

/-- If `y` equals two values, these are equal. -/
theorem joins : ∀ x ∈ xs, ∀ x' ∈ xs, ∀ y ∈ ys, s.equal y x = true → s.equal y x' = true → s.equal x x' = true :=
  fun _ hx₁ _ hx₂ _ hy₁ first second =>
    h.trans (hx _ hx₁) (hy _ hy₁) (hx _ hx₂) (h.symm (hy _ hy₁) (hx _ hx₁) first) second

theorem sameElements_symm (distinct : kind = .set → xs.Pairwise fun x x' => s.equal x x' = false)
    (same : sameElements s.equal kind xs ys = true) : sameElements s.equal kind ys xs = true := by
  by_cases hk : kind = .set
  · subst hk
    rw [sameElements_set] at same ⊢
    have apart : xs.Pairwise fun x x' => ¬s.equal x x' = true := (distinct rfl).imp fun h => by simp [h]
    have covers := covers_of_length_le apart (h.joins hx hy) same.2 same.1.ge
    refine ⟨same.1.symm, fun y hy' => ?_⟩
    obtain ⟨x, hx', hyx⟩ := covers y hy'
    exact ⟨x, hx', h.symm (hy y hy') (hx x hx') hyx⟩
  · rw [sameElements_ordered hk, List.forall₂_iff_get] at same ⊢
    refine ⟨same.1.symm, fun i hi hi' => ?_⟩
    exact h.symm (hx _ (List.get_mem ..)) (hy _ (List.get_mem ..)) (same.2 i hi' hi)

theorem sameElements_trans (hz : ∀ z ∈ zs, P z) (first : sameElements s.equal kind xs ys = true)
    (second : sameElements s.equal kind ys zs = true) : sameElements s.equal kind xs zs = true := by
  by_cases hk : kind = .set
  · subst hk
    rw [sameElements_set] at first second ⊢
    refine ⟨first.1.trans second.1, fun x hx' => ?_⟩
    obtain ⟨y, hy', hyx⟩ := first.2 x hx'
    obtain ⟨z, hz', hzy⟩ := second.2 y hy'
    exact ⟨z, hz', h.trans (hz z hz') (hy y hy') (hx x hx') hzy hyx⟩
  · rw [sameElements_ordered hk, List.forall₂_iff_get] at first second ⊢
    refine ⟨first.1.trans second.1, fun i hi hi' => ?_⟩
    have hi'' : i < ys.length := first.1 ▸ hi
    exact h.trans (hx _ (List.get_mem ..)) (hy _ (List.get_mem ..)) (hz _ (List.get_mem ..)) (first.2 i hi hi'')
      (second.2 i hi'' hi')

end PartialEquiv

/-- The value has no cycles, and no set in it has two equal elements. -/
structure Orderly (s : Store) (v : Value) : Prop where
  acyclic : s.Acyclic v
  distinct (w : Value) : s.Part v w → w.type = .set → (s.inside w).Pairwise fun x y => s.equal x y = false

theorem Orderly.part (h : s.Orderly v) (hw : s.Part v w) : s.Orderly w :=
  ⟨h.acyclic.part hw, fun u hu => h.distinct u (hw.trans hu)⟩

theorem Orderly.element (h : s.Orderly v) (he : w ∈ s.inside v) : s.Orderly w := h.part (part_of_mem he)

theorem orderly_iff : s.Orderly v ↔ s.Acyclic v ∧ ∀ w ∈ s.partsUpTo s.collections.size v, w.type = .set →
    (s.inside w).Pairwise fun x y => s.equal x y = false := by
  constructor
  · exact fun h => ⟨h.acyclic, h.acyclic.forall_part_iff.1 h.distinct⟩
  · rintro ⟨acyclic, distinct⟩
    exact ⟨acyclic, acyclic.forall_part_iff.2 distinct⟩

instance : Decidable (s.Orderly v) := decidable_of_iff _ orderly_iff.symm

/-- What equality is among the elements of values, it is among the values. -/
theorem PartialEquiv.of_elements {P Q : Value → Prop} (h : s.PartialEquiv P) (hQ : ∀ v, Q v → s.Orderly v)
    (hP : ∀ v, Q v → ∀ e ∈ s.inside v, P e) : s.PartialEquiv Q where
  symm {v w} hv hw same := by
    rw [equal_unfold (.inl (hQ v hv).acyclic), equalWith_iff] at same
    rw [equal_unfold (.inl (hQ w hw).acyclic), equalWith_iff]
    refine same.symm ?_
    rintro kind a rfl
    refine h.sameElements_symm (hP _ hv) (hP w hw) ?_
    rintro rfl
    exact (hQ _ hv).distinct _ .self rfl
  trans {v w u} hv hw hu first second := by
    rw [equal_unfold (.inl (hQ v hv).acyclic), equalWith_iff] at first ⊢
    rw [equal_unfold (.inl (hQ w hw).acyclic), equalWith_iff] at second
    exact first.trans second fun _ => h.sameElements_trans (hP v hv) (hP w hw) (hP u hu)

/-- The elements of a value are nested less deep. -/
theorem partialEquiv_upTo (s : Store) (n : Nat) : s.PartialEquiv fun v => s.Orderly v ∧ s.NestedUpTo n v := by
  induction n with
  | zero =>
    have none : s.PartialEquiv fun _ => False := ⟨False.elim, False.elim⟩
    refine none.of_elements (fun v hv => hv.1) fun v hv e he => ?_
    obtain ⟨_, hn, -⟩ := hv.2.element he
    cases hn
  | succ n ih => exact ih.of_elements (fun v hv => hv.1) fun v hv e he => ⟨hv.1.element he, hv.2 e he⟩

theorem partialEquiv_orderly (s : Store) : s.PartialEquiv s.Orderly := by
  have h := s.partialEquiv_upTo s.collections.size
  exact ⟨fun hv hw => h.symm ⟨hv, hv.acyclic.nestedUpTo⟩ ⟨hw, hw.acyclic.nestedUpTo⟩,
    fun hv hw hu => h.trans ⟨hv, hv.acyclic.nestedUpTo⟩ ⟨hw, hw.acyclic.nestedUpTo⟩ ⟨hu, hu.acyclic.nestedUpTo⟩⟩

/-! ## Reflexivity -/

/-- No part of the value is a NaN. -/
def NoNaN (s : Store) (v : Value) : Prop := ∀ w, s.Part v w → w.isNaN = false

theorem NoNaN.part (h : s.NoNaN v) (hw : s.Part v w) : s.NoNaN w := fun u hu => h u (hw.trans hu)

theorem NoNaN.element (h : s.NoNaN v) (he : w ∈ s.inside v) : s.NoNaN w := h.part (part_of_mem he)

/-- Every value but a NaN equals itself: a collection has the same storage as itself. -/
theorem EqualBy.refl (h : v.isNaN = false) : s.EqualBy f v v := by
  cases v with
  | undefined => exact .undefined
  | null => exact .null
  | bool b => exact .bool b
  | number x =>
    rw [Value.isNaN, Float.isNaN_eq_decide_eq_nan, decide_eq_false_iff_not] at h
    exact .number (Float.beq_self_iff.2 h)
  | string text => exact .string text
  | native id f => exact .native id f f
  | function f => exact .function rfl
  | classObject c => exact .classObject rfl
  | object id c => exact .object id c c
  | collection kind a => exact .collection (.inl rfl)
  | file path => exact .file rfl

theorem equal_self (h : v.isNaN = false) : s.equal v v = true := by
  obtain ⟨equal, eq⟩ := Builtin.equal_eq s
  rw [eq, equalWith_iff]
  exact .refl h

theorem NoNaN.equal_self (h : s.NoNaN v) : s.equal v v = true := Store.equal_self (h v .self)

/-- The elements of a collection equal themselves as well. -/
theorem NoNaN.sameElements_self (h : ∀ x ∈ xs, s.NoNaN x) : sameElements s.equal kind xs xs = true := by
  by_cases hk : kind = .set
  · subst hk
    exact sameElements_set.2 ⟨rfl, fun x hx => ⟨x, hx, (h x hx).equal_self⟩⟩
  · exact (sameElements_ordered hk).2 (List.forall₂_same.2 fun x hx => (h x hx).equal_self)

/-! ## Equality by elements alone -/

/-- Equality that never asks whether collections have the same storage. -/
inductive Same (s : Store) : Value → Value → Prop where
  | plain {v w : Value} : (∀ kind id, v ≠ .collection kind id) → s.EqualBy (fun _ _ => false) v w → s.Same v w
  | ordered {kind : CollectionKind} {a b : StorageId} : kind ≠ .set →
    List.Forall₂ s.Same (s.elements a).toList (s.elements b).toList →
    s.Same (.collection kind a) (.collection kind b)
  | set {a b : StorageId} (partner : Value → Value) :
    (s.elements a).toList.length = (s.elements b).toList.length →
    (∀ x ∈ (s.elements a).toList, partner x ∈ (s.elements b).toList) →
    (∀ x ∈ (s.elements a).toList, s.Same (partner x) x) →
    s.Same (.collection .set a) (.collection .set b)

/-- If the storages of two collections need not be compared, equality of elements is what is left. -/
theorem same_collection_iff (h : ∀ x ∈ (s.elements a).toList, ∀ y ∈ (s.elements b).toList,
    (s.equal x y = true ↔ s.Same x y) ∧ (s.equal y x = true ↔ s.Same y x)) :
    s.Same (.collection kind a) (.collection kind b) ↔
      sameElements s.equal kind (s.elements a).toList (s.elements b).toList = true := by
  constructor
  · intro same
    cases same with
    | plain hv _ => exact absurd rfl (hv kind a)
    | ordered hk same =>
      rw [sameElements_ordered hk]
      rw [List.forall₂_iff_zip] at same ⊢
      refine ⟨same.1, fun hxy => ?_⟩
      obtain ⟨hx, hy⟩ := List.of_mem_zip hxy
      exact (h _ hx _ hy).1.2 (same.2 hxy)
    | set partner length there same =>
      exact sameElements_set.2 ⟨length, fun x hx => ⟨_, there x hx, (h x hx _ (there x hx)).2.2 (same x hx)⟩⟩
  · intro same
    by_cases hk : kind = .set
    · subst hk
      obtain ⟨length, covered⟩ := sameElements_set.1 same
      choose! partner there equal using covered
      exact .set partner length there fun x hx => (h x hx _ (there x hx)).2.1 (equal x hx)
    · rw [sameElements_ordered hk, List.forall₂_iff_zip] at same
      refine .ordered hk (List.forall₂_iff_zip.2 ⟨same.1, fun hxy => ?_⟩)
      obtain ⟨hx, hy⟩ := List.of_mem_zip hxy
      exact (h _ hx _ hy).1.1 (same.2 hxy)

/-- The storages of collections may be left out of account where every element equals itself. -/
theorem equal_collection (hv : s.Acyclic (.collection kind a)) (hn : s.NoNaN (.collection kind a)) :
    s.equal (.collection kind a) (.collection kind b) =
      sameElements s.equal kind (s.elements a).toList (s.elements b).toList := by
  rw [equal_unfold (.inl hv), equalWith_collection, beq_self_eq_true, Bool.true_and]
  by_cases hab : a = b
  · subst hab
    rw [beq_self_eq_true, Bool.true_or]
    exact (NoNaN.sameElements_self fun x hx => hn.element hx).symm
  · rw [beq_false_of_ne hab, Bool.false_or]

theorem equal_iff_same_of_elements (hv : s.Acyclic v) (hn : s.NoNaN v)
    (h : ∀ x ∈ s.inside v, ∀ y ∈ s.inside w,
      (s.equal x y = true ↔ s.Same x y) ∧ (s.equal y x = true ↔ s.Same y x)) :
    s.equal v w = true ↔ s.Same v w := by
  by_cases hc : ∃ kind a, v = .collection kind a
  · obtain ⟨kind, a, rfl⟩ := hc
    constructor
    · intro same
      have cases := same
      rw [equal_unfold (.inl hv), equalWith_iff] at cases
      cases cases with
      | collection _ => exact (same_collection_iff h).2 (equal_collection hv hn ▸ same)
    · intro same
      have cases := same
      cases cases with
      | plain hv _ => exact absurd rfl (hv kind a)
      | ordered _ _ => exact (equal_collection hv hn).trans ((same_collection_iff h).1 same)
      | set _ _ _ _ => exact (equal_collection hv hn).trans ((same_collection_iff h).1 same)
  · have plain : ∀ kind id, v ≠ .collection kind id := fun kind id hv => hc ⟨kind, id, hv⟩
    rw [equal_unfold (.inl hv), equalWith_plain plain (g := fun _ _ => false), equalWith_iff]
    constructor
    · exact .plain plain
    · intro same
      cases same with
      | plain _ same => exact same
      | ordered _ _ => exact absurd rfl (plain _ _)
      | set _ _ _ _ => exact absurd rfl (plain _ _)

theorem equal_iff_same_upTo (hv : s.NestedUpTo n v) (hw : s.NestedUpTo n w) (hn : s.NoNaN v) (hn' : s.NoNaN w) :
    s.equal v w = true ↔ s.Same v w := by
  induction n generalizing v w with
  | zero =>
    refine equal_iff_same_of_elements hv.acyclic hn fun x hx => ?_
    obtain ⟨_, hz, -⟩ := hv.element hx
    cases hz
  | succ n ih =>
    refine equal_iff_same_of_elements hv.acyclic hn fun x hx y hy => ⟨?_, ?_⟩
    · exact ih (hv x hx) (hw y hy) (hn.element hx) (hn'.element hy)
    · exact ih (hw y hy) (hv x hx) (hn'.element hy) (hn.element hx)

/-- Equality compares values all the way down. It is symmetric and transitive where sets are sets and nothing is inside
of itself, reflexive where there is no NaN, and then the storages that it looks at make no difference: neither for the
two collections at hand nor for those inside of them. -/
theorem equal_is_equivalence (s : Store) :
    (∀ v w, s.Acyclic v ∨ s.Acyclic w → s.equal v w = s.equalWith s.equal v w) ∧
    (∀ v w, s.Orderly v → s.Orderly w → s.equal v w = s.equal w v) ∧
    (∀ v w u, s.Orderly v → s.Orderly w → s.Orderly u →
      s.equal v w = true → s.equal w u = true → s.equal v u = true) ∧
    (∀ v, s.NoNaN v → s.equal v v = true) ∧
    (∀ kind a b, s.Acyclic (.collection kind a) → s.NoNaN (.collection kind a) →
      s.equal (.collection kind a) (.collection kind b) =
        sameElements s.equal kind (s.elements a).toList (s.elements b).toList) ∧
    ∀ v w, s.Acyclic v → s.Acyclic w → s.NoNaN v → s.NoNaN w → (s.equal v w = true ↔ s.Same v w) := by
  have equiv := s.partialEquiv_orderly
  refine ⟨fun _ _ => equal_unfold, fun v w hv hw => ?_, fun v w u => equiv.trans, fun v => NoNaN.equal_self,
    fun kind a b => equal_collection, fun v w hv hw => equal_iff_same_upTo hv.nestedUpTo hw.nestedUpTo⟩
  exact Bool.eq_iff_iff.2 ⟨equiv.symm hv hw, equiv.symm hw hv⟩

end Store

namespace TwoOrders

/-- The sets 2, 4 and 5 have equal lists as elements; the list 1 is shared. -/
def store : Store where
  frames := #[]
  collections := #[#[.number (Number.ofInt 1), .string "a"], #[.number (Number.ofInt 2)],
    #[.collection .list 0, .collection .list 1], #[.number (Number.ofInt 1), .string "a"],
    #[.collection .list 1, .collection .list 3], #[.collection .list 1, .collection .list 0]]
  instances := #[]
  nextIdentity := 0

def first : Value := .collection .set 2

def second : Value := .collection .set 4

def third : Value := .collection .set 5

theorem equal_is_equivalence_in_store :
    store.Orderly first ∧ store.Orderly second ∧ store.Orderly third ∧ store.NoNaN first ∧ store.NoNaN second ∧
      store.equal first second = store.equal second first ∧ store.equal first third = true ∧
      store.equal first first = true ∧ store.Same first second := by
  have orderly₁ : store.Orderly first := by decide +kernel
  have orderly₂ : store.Orderly second := by decide +kernel
  have orderly₃ : store.Orderly third := by decide +kernel
  have number₁ : store.NoNaN first := orderly₁.acyclic.forall_part_iff.2 (by decide +kernel)
  have number₂ : store.NoNaN second := orderly₂.acyclic.forall_part_iff.2 (by decide +kernel)
  have same₁ : store.equal first second = true := by decide +kernel
  have same₂ : store.equal second third = true := by decide +kernel
  obtain ⟨-, symm, trans, refl, -, same⟩ := Store.equal_is_equivalence store
  exact ⟨orderly₁, orderly₂, orderly₃, number₁, number₂, symm _ _ orderly₁ orderly₂,
    trans _ _ _ orderly₁ orderly₂ orderly₃ same₁ same₂, refl _ number₁,
    (same _ _ orderly₁.acyclic orderly₂.acyclic number₁ number₂).1 same₁⟩

/-- A set with two equal elements may equal another one, and that one not it. -/
example :
    let repeated := store.updateElements 1 fun _ => #[.number (Number.ofInt 1), .string "a"]
    let s := (repeated.allocate #[.collection .list 0, .string "b"]).2
    s.equal first (.collection .set 6) = true ∧ s.equal (.collection .set 6) first = false := by decide +kernel

end TwoOrders

end Scriptlet
