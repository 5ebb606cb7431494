import Scriptlet.Proofs.Builtins

/-!
# Storages of native functions

A native function changes the elements of the collection it belongs to and of no other one. The methods that yield a
collection yield a new one, with a storage that no value had before.
-/
namespace Scriptlet

variable {α β : Type}

/-- The native function belongs to the collection with this storage. -/
def Native.Owns (f : Native) (id : StorageId) : Prop := ∃ kind, f.receiver? = some (kind, id)

/-- All storages are still there, with their elements, except for those that may be changed. -/
structure Store.Spares (own : StorageId → Prop) (s s' : Store) : Prop where
  size : s.collections.size ≤ s'.collections.size
  elements (id : StorageId) : id < s.collections.size → ¬own id → s'.elements id = s.elements id

namespace Store

variable {own : StorageId → Prop} {s s' s'' : Store}

theorem Spares.refl (s : Store) : s.Spares own s := ⟨Nat.le_refl _, fun _ _ _ => rfl⟩

theorem Spares.trans (h : s.Spares own s') (h' : s'.Spares own s'') : s.Spares own s'' := by
  refine ⟨Nat.le_trans h.size h'.size, fun id hid hown => ?_⟩
  rw [h'.elements id (Nat.lt_of_lt_of_le hid h.size) hown, h.elements id hid hown]

theorem spares_of_collections (h : s'.collections = s.collections) : s.Spares own s' := by
  refine ⟨Nat.le_of_eq (by rw [h]), fun id _ _ => ?_⟩
  unfold Store.elements
  rw [h]

theorem spares_allocate (s : Store) (elements : Array Value) : s.Spares own (s.allocate elements).2 := by
  refine ⟨?_, fun id hid _ => ?_⟩
  · rw [allocate, Array.size_push]
    exact Nat.le_succ _
  · rw [elements_allocate, if_neg (Nat.ne_of_lt hid)]

theorem spares_updateElements {id : StorageId} (h : own id) (f : Array Value → Array Value) :
    s.Spares own (s.updateElements id f) := by
  refine ⟨?_, fun id' _ hown => ?_⟩
  · exact Nat.le_of_eq Array.size_modify.symm
  · have other : ¬id = id' := fun same => hown (same ▸ h)
    unfold Store.elements updateElements
    rw [Array.getD_eq_getD_getElem?, Array.getD_eq_getD_getElem?, Array.getElem?_modify, if_neg other]

end Store

namespace Builtin

/-- No storage but those in `own` is changed since `s`. -/
def sparing (own : StorageId → Prop) (s : Store) : Tracking Unit where
  Ghost := Unit
  le _ _ := True
  value _ _ := True
  receiver _ _ id := own id
  state _ s' _ := s.Spares own s'
  vacant _ _ _ := True
  refl _ := trivial
  trans _ _ := trivial
  mono _ _ := trivial

theorem sparing_lawful (own : StorageId → Prop) (s : Store) : (sparing own s).LawfulData where
  null _ := trivial
  bool _ _ := trivial
  number _ _ := trivial
  string _ _ := trivial
  file _ _ := trivial
  native _ := trivial
  receiver _ := trivial
  elements _ _ _ _ := trivial
  identity h := .here (h.trans (Store.spares_of_collections rfl))
  allocate {_ s' _} _ {elements} h _ _ := ⟨(), trivial, h.trans (s'.spares_allocate elements), trivial⟩
  change {_ _ _ _ _ f} h hid _ _ _ := .here (h.trans (Store.spares_updateElements hid f))

/-- The evaluation changes data only, and of the storages that are there only those in `own`. -/
def Spares (own : StorageId → Prop) (x : Eval α) : Prop :=
  ∀ m, Meets x m (fun _ m' => m.SameButData m' ∧ m.store.Spares own m'.store)
    (fun _ m' => m.SameButData m' ∧ m.store.Spares own m'.store)

theorem Spares.of_tracked {own : StorageId → Prop} {x : Eval α}
    (hx : ∀ (m : Machine) (s : Store), s.Spares own m.store → (sparing own s).Carries () m () x fun _ _ => True) :
    Spares own x := by
  intro m
  refine Meets.mono (hx m m.store (.refl _)) ?_ ?_
  · rintro a m' ⟨same, _, _, spared, -⟩
    exact ⟨same, spared⟩
  · rintro halt m' ⟨-, same, _, _, spared⟩
    exact ⟨same, spared⟩

theorem callNative_spares (line : Nat) (f : Native) (args : List Value) :
    Spares f.Owns (callNative line f args) :=
  .of_tracked fun _ s h => tracked_callNative (sparing_lawful f.Owns s) h line
    (fun kind _ receiver => ⟨kind, receiver⟩) fun _ _ => trivial

/-- Reading a property changes no collection, although it may yield a method of one. -/
theorem property?_spares {receiver : Value} {name : Name} {read : Eval Value}
    (heq : property? receiver name = some read) : Spares (fun _ => False) read :=
  .of_tracked fun _ s h => tracked_property? (sparing_lawful _ s) h trivial heq

theorem binaryOp_spares (op : BinaryOp) (line : Nat) (left right : Value) :
    Spares (fun _ => False) (op.apply line left right) :=
  .of_tracked fun _ s h => tracked_binaryOp (sparing_lawful _ s) h op line left right

theorem unaryOp_spares (op : UnaryOp) (line : Nat) (operand : Value) :
    Spares (fun _ => False) (op.apply line operand) :=
  .of_tracked fun _ s h => tracked_unaryOp (sparing_lawful _ s) h op line operand

/-! ## New collections -/

/-- From `m` the evaluation yields a new collection and changes nothing else. -/
def Yields (kind : CollectionKind) (m : Machine) (x : Eval Value) : Prop :=
  Meets x m
    (fun v m' => v = .collection kind m.store.collections.size ∧
      ∃ elements, m' = { m with store := (m.store.allocate elements).2 })
    fun _ m' => m' = m

namespace Yields

variable {kind : CollectionKind} {m : Machine}

theorem newCollection (elements : Array Value) : Yields kind m (Eval.newCollection kind elements) :=
  ⟨rfl, elements, rfl⟩

theorem newSet (elements : List Value) : Yields .set m (Eval.newSet elements) := ⟨rfl, _, rfl⟩

theorem fail (line : Nat) (f : Fault) : Yields kind m (Eval.fail line f) := rfl

theorem bindReads {x : Eval α} {Q : α → Prop} {f : α → Eval Value} (hx : Eval.Reads m x Q)
    (hf : ∀ a, Yields kind m (f a)) : Yields kind m (x >>= f) := by
  refine Meets.bind (Meets.mono hx (fun _ _ h => h) fun _ _ h => h.2) ?_
  rintro a m' ⟨rfl, -⟩
  exact hf a

theorem concatenate (line : Nat) (storage : StorageId) (other : Value) :
    Yields kind m (concatenate line kind storage other) := by
  unfold Builtin.concatenate
  split
  · exact Eval.meets_guard (fun _ => rfl) fun _ => bindReads (reads_elementsOf storage) fun _ =>
      bindReads (reads_elementsOf _) fun _ => newCollection _
  · exact fail _ _

theorem reversed (storage : StorageId) : Yields kind m (reversed kind storage) :=
  bindReads (reads_elementsOf storage) fun _ => newCollection _

end Yields

end Builtin

/-- The kind of collection that a method makes out of other ones. -/
def Native.yields? : Native → Option CollectionKind
  | .array .concat _ | .array .reverse _ | .set .toArray _ => some .array
  | .list .concat _ | .list .reverse _ | .set .toList _ => some .list
  | .set .union _ | .set .intersection _ | .set .difference _ => some .set
  | _ => none

namespace Builtin

variable {kind : CollectionKind} {m : Machine}

theorem callArray_yields (line : Nat) {method : ArrayMethod} {storage : StorageId}
    (hf : (Native.array method storage).yields? = some kind) (args : List Value) :
    Yields kind m (callArray line method storage args) := by
  unfold callArray
  split
  · cases hf
  · cases hf
  · cases hf
  · cases hf
    exact .concatenate line storage _
  · cases hf
  · cases hf
  · cases hf
    exact .reversed storage
  · cases hf
  · exact .fail _ _

theorem callList_yields (line : Nat) {method : ListMethod} {storage : StorageId}
    (hf : (Native.list method storage).yields? = some kind) (args : List Value) :
    Yields kind m (callList line method storage args) := by
  unfold callList
  split
  · cases hf
  · cases hf
  · cases hf
  · cases hf
  · cases hf
    exact .concatenate line storage _
  · cases hf
  · cases hf
  · cases hf
    exact .reversed storage
  · cases hf
  · cases hf
  · exact .fail _ _

theorem callSet_yields (line : Nat) {method : SetMethod} {storage : StorageId}
    (hf : (Native.set method storage).yields? = some kind) (args : List Value) :
    Yields kind m (callSet line method storage args) := by
  unfold callSet
  split
  · cases hf
  · cases hf
  · cases hf
  · cases hf
  · cases hf
  · cases hf
    exact .bindReads (reads_elementsOf storage) fun _ => .newCollection _
  · cases hf
    exact .bindReads (reads_elementsOf storage) fun _ => .newCollection _
  · cases hf
    exact .bindReads (reads_otherSet line _ _) fun _ => .bindReads (reads_elementsOf storage) fun _ => .newSet _
  · cases hf
    exact .bindReads (reads_otherSet line _ _) fun _ => .bindReads .getStore fun _ =>
      .bindReads (reads_elementsOf storage) fun _ => .newSet _
  · cases hf
    exact .bindReads (reads_otherSet line _ _) fun _ => .bindReads .getStore fun _ =>
      .bindReads (reads_elementsOf storage) fun _ => .newSet _
  · exact .fail _ _

theorem callNative_yields (line : Nat) {f : Native} (hf : f.yields? = some kind) (args : List Value) :
    Yields kind m (callNative line f args) := by
  unfold callNative
  split
  · cases hf
  · exact callArray_yields line hf args
  · exact callList_yields line hf args
  · exact callSet_yields line hf args
  · cases hf
  · cases hf

end Builtin

end Scriptlet
