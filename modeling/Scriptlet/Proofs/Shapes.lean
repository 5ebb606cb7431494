import Scriptlet.Proofs.TrackedRules

/-!
# Shapes of collections

The elements of a collection are kept in a storage. It never changes to which kind of collection a storage belongs,
and an array keeps its length. An element is put into a set only if no other one equals it. So the storages have
shapes, and a run does no more than to add new ones.
-/
namespace Scriptlet

/-- The collection that the value is, or to which the native function belongs. -/
def Value.storage? : Value → Option (CollectionKind × StorageId)
  | .collection kind id => some (kind, id)
  | .native _ f => f.receiver?
  | _ => none

/-- The storage of the value belongs to a collection of this kind. -/
def Value.Fits (kinds : List CollectionKind) (v : Value) : Prop :=
  ∀ kind id, v.storage? = some (kind, id) → kinds[id]? = some kind

/-- What is fixed of a collection. -/
inductive Shape where
  | array (length : Nat)
  | list
  | set

namespace Shape

def kind : Shape → CollectionKind
  | .array _ => .array
  | .list => .list
  | .set => .set

/-- The shape of a new collection. -/
def of (kind : CollectionKind) (elements : Array Value) : Shape :=
  match kind with
  | .array => .array elements.size
  | .list => .list
  | .set => .set

/-- A collection of this shape may have these elements. -/
def Admits : Shape → Array Value → Prop
  | .array length, elements => elements.size = length
  | .list, _ => True
  | .set, elements => elements.toList.Pairwise Value.Apart

theorem kind_of (kind : CollectionKind) (elements : Array Value) : (of kind elements).kind = kind := by
  cases kind <;> rfl

theorem admits_of {kind : CollectionKind} {elements : Array Value}
    (h : kind = .set → elements.toList.Pairwise Value.Apart) : (of kind elements).Admits elements := by
  cases kind with
  | array => rfl
  | list => trivial
  | set => exact h rfl

/-- A change of the elements that suits the kind of the collection. -/
theorem Admits.change {shape : Shape} {elements elements' : Array Value} (h : shape.Admits elements)
    (array : shape.kind = .array → elements'.size = elements.size)
    (set : shape.kind = .set → elements.toList.Pairwise Value.Apart → elements'.toList.Pairwise Value.Apart) :
    shape.Admits elements' := by
  cases shape with
  | array length => exact (array rfl).trans h
  | list => trivial
  | set => exact set rfl h

end Shape

/-- All storages have these shapes, and all values go along with them. -/
structure Store.Shaped (shapes : List Shape) (s : Store) : Prop where
  size : shapes.length = s.collections.size
  fits : s.All (Value.Fits (shapes.map Shape.kind))
  admits (id : StorageId) (shape : Shape) : shapes[id]? = some shape → shape.Admits (s.elements id)

theorem Value.Fits.mono {kinds kinds' : List CollectionKind} {v : Value} (h : v.Fits kinds) (le : kinds <+: kinds') :
    v.Fits kinds' := by
  intro kind id storage
  obtain ⟨more, rfl⟩ := le
  have there := h kind id storage
  rwa [List.getElem?_append_left (List.getElem?_eq_some_iff.1 there).1]

theorem Value.fits_collection {kinds : List CollectionKind} {kind : CollectionKind} {id : StorageId} :
    (Value.collection kind id).Fits kinds ↔ kinds[id]? = some kind := by
  constructor
  · exact fun h => h kind id rfl
  · rintro h _ _ ⟨⟩
    exact h

namespace Store.Shaped

variable {shapes : List Shape} {s : Store}

/-- Changes outside of the storages. -/
theorem of_all (h : s.Shaped shapes) {s' : Store} (same : s'.collections = s.collections)
    (fits : s'.All (Value.Fits (shapes.map Shape.kind))) : s'.Shaped shapes := by
  refine ⟨same ▸ h.size, fits, fun id shape hshape => ?_⟩
  unfold Store.elements
  rw [same]
  exact h.admits id shape hshape

theorem allocate (h : s.Shaped shapes) (kind : CollectionKind) {elements : Array Value}
    (hv : ∀ v ∈ elements, v.Fits (shapes.map Shape.kind))
    (hs : kind = .set → elements.toList.Pairwise Value.Apart) :
    (s.allocate elements).2.Shaped (shapes ++ [.of kind elements]) := by
  have grown : shapes.map Shape.kind <+: (shapes ++ [Shape.of kind elements]).map Shape.kind :=
    (List.prefix_append ..).map _
  have old := h.fits.mono fun v hv => hv.mono grown
  refine ⟨?_, old.allocate fun v hmem => (hv v hmem).mono grown, fun id shape hshape => ?_⟩
  · rw [List.length_append, Store.allocate, Array.size_push, h.size]
    rfl
  · rw [elements_allocate]
    split
    · next last =>
      subst last
      rw [← h.size, List.getElem?_concat_length] at hshape
      cases hshape
      exact Shape.admits_of hs
    · next older =>
      rw [← h.size] at older
      obtain ⟨bound, -⟩ := List.getElem?_eq_some_iff.1 hshape
      rw [List.length_append, List.length_singleton] at bound
      rw [List.getElem?_append_left (Nat.lt_of_le_of_ne (Nat.le_of_lt_succ bound) older)] at hshape
      exact h.admits id shape hshape

theorem change (h : s.Shaped shapes) {kind : CollectionKind} {id : StorageId} {f : Array Value → Array Value}
    (hid : (Value.collection kind id).Fits (shapes.map Shape.kind))
    (hv : ∀ v ∈ f (s.elements id), v.Fits (shapes.map Shape.kind))
    (array : kind = .array → (f (s.elements id)).size = (s.elements id).size)
    (set : kind = .set → (s.elements id).toList.Pairwise Value.Apart →
      (f (s.elements id)).toList.Pairwise Value.Apart) :
    (s.updateElements id f).Shaped shapes := by
  rw [Value.fits_collection, List.getElem?_map] at hid
  obtain ⟨shape, hshape, rfl⟩ := Option.map_eq_some_iff.1 hid
  have bound : id < s.collections.size := h.size ▸ (List.getElem?_eq_some_iff.1 hshape).1
  refine ⟨?_, h.fits.updateElements hv, fun id' shape' hshape' => ?_⟩
  · rw [Store.updateElements, Array.size_modify, h.size]
  · rw [elements_updateElements s bound]
    split
    · next same =>
      subst same
      cases hshape.symm.trans hshape'
      exact (h.admits id shape hshape).change array set
    · exact h.admits id' shape' hshape'

end Store.Shaped

/-! ## Tracking shapes -/

/-- Storages keep their shapes, from the first visit on. -/
def storageShapes : Tracking (List Visit) where
  Ghost := List Shape
  le shapes shapes' := shapes <+: shapes'
  value shapes v := v.Fits (shapes.map Shape.kind)
  receiver shapes kind id := (Value.collection kind id).Fits (shapes.map Shape.kind)
  state shapes s seen := s.Shaped shapes ∧ ∀ v ∈ seen, ∃ older, older <+: shapes ∧ v.machine.store.Shaped older
  vacant _ _ _ := True
  refl _ := List.prefix_rfl
  trans h h' := h.trans h'
  mono le h := h.mono (le.map _)

section Lawful

variable {shapes : List Shape} {s s' : Store} {seen : List Visit}

theorem storageShapes_next (h : storageShapes.state shapes s seen) (h' : s'.Shaped shapes) :
    storageShapes.Next shapes s' seen :=
  .here ⟨h', h.2⟩

theorem storageShapes_allocate (h : storageShapes.state shapes s seen) (kind : CollectionKind)
    {elements : Array Value} (hv : ∀ v ∈ elements, v.Fits (shapes.map Shape.kind))
    (hs : kind = .set → elements.toList.Pairwise Value.Apart) :
    ∃ more, shapes <+: more ∧ storageShapes.state more (s.allocate elements).2 seen ∧
      (Value.collection kind s.collections.size).Fits (more.map Shape.kind) := by
  refine ⟨shapes ++ [.of kind elements], List.prefix_append .., ⟨h.1.allocate kind hv hs, fun v hmem => ?_⟩, ?_⟩
  · obtain ⟨older, le, shaped⟩ := h.2 v hmem
    exact ⟨older, le.trans (List.prefix_append ..), shaped⟩
  · refine Value.fits_collection.2 ?_
    rw [List.getElem?_map, ← h.1.size, List.getElem?_concat_length, Option.map_some, Shape.kind_of]

theorem storageShapes_data : storageShapes.LawfulData where
  null _ := nofun
  bool _ _ := nofun
  number _ _ := nofun
  string _ _ := nofun
  file _ _ := nofun
  native h kind id receiver := Value.fits_collection.1 (h kind id receiver)
  receiver h := h
  elements id h v hv := by
    obtain ⟨elements, he, hv⟩ := Store.mem_elements hv
    exact h.1.fits.elements elements he v hv
  identity h := storageShapes_next h (h.1.of_all rfl ⟨h.1.fits.bindings, h.1.fits.elements, h.1.fits.fields⟩)
  allocate {_ _ _} kind {_} h hv hs := storageShapes_allocate h kind hv hs
  change h hid hv array set := storageShapes_next h (h.1.change hid hv array set)

theorem storageShapes_byDeclaration : storageShapes.ByDeclaration Regime.free.declaration .recorder where
  toLawfulData := storageShapes_data
  function := iff_of_true nofun trivial
  method := .rfl
  classObject := iff_of_true nofun fun _ _ _ _ _ => trivial
  object := iff_of_true nofun fun _ _ _ _ _ => trivial
  called h receiver := Value.fits_collection.2 (h _ _ receiver)
  binding h hb _ := h.1.fits.bindings _ _ _ hb
  field h hv := h.1.fits.fields _ _ _ hv
  tell event h := by
    refine ⟨h.1, fun v hv => ?_⟩
    rcases List.mem_cons.1 hv with rfl | hv
    · exact ⟨_, List.prefix_rfl, h.1⟩
    · exact h.2 v hv
  told _ _ _ := trivial
  child f h := storageShapes_next h (h.1.of_all rfl (h.1.fits.child f))
  bind constant h _ hv := storageShapes_next h (h.1.of_all rfl (h.1.fits.bind hv _ _ constant))
  bindMissing h _ _ := storageShapes_next h (h.1.of_all rfl (h.1.fits.bind (v := .undefined) nofun _ _ false))
  store h _ hv := storageShapes_next h (h.1.of_all rfl (h.1.fits.store hv _ _))
  newInstance h := storageShapes_next h (h.1.of_all rfl h.1.fits.newInstance)
  setField id name h hv := storageShapes_next h (h.1.of_all rfl (h.1.fits.setField hv id name))

theorem storageShapes_lawful : storageShapes.Lawful Regime.free.declaration .recorder :=
  storageShapes_byDeclaration.lawful

end Lawful

/-! ## Sessions -/

/-- From a machine with shapes on, every evaluation adds shapes at most. -/
theorem Store.Shaped.evaluate {m : Machine} {shapes : List Shape} (h : m.store.Shaped shapes) (fuel : Nat) (e : Expr) :
    Meets (evaluate fuel e) m
      (fun v m' => ∃ more, shapes <+: more ∧ m'.store.Shaped more ∧ v.Fits (more.map Shape.kind))
      fun _ m' => ∃ more, shapes <+: more ∧ m'.store.Shaped more := by
  have here : storageShapes.state shapes m.store [] := ⟨h, fun _ hv => nomatch hv⟩
  refine Meets.mono (storageShapes_lawful.evaluate here fuel e trivial) ?_ ?_
  · rintro v m' ⟨more, _, after, fits⟩
    exact ⟨more, after.le, after.state.1, fits⟩
  · rintro halt m' ⟨-, more, _, after⟩
    exact ⟨more, after.le, after.state.1⟩

/-- A new machine has no storages. -/
theorem Session.shaped_initial (settings : Settings) (sink : Sink) (files : FileTree) (clock : Nat) :
    storageShapes.Next [] (Session.initial (.initial settings sink files clock)).machine.store [] := by
  have first : storageShapes.state [] ⟨#[⟨∅, none⟩], #[], #[], 0⟩ [] :=
    ⟨⟨rfl, .first _, fun _ _ hshape => nomatch hshape⟩, fun _ hv => nomatch hv⟩
  exact storageShapes_lawful.initial first

/-- A session on a new machine ends with storages of certain shapes, and every machine that was seen had some of them
already. -/
theorem Session.shaped_after (settings : Settings) (sink : Sink) (files : FileTree) (clock fuel : Nat)
    (items : List Item) :
    ∃ shapes, (after fuel items (.initial (.initial settings sink files clock))).machine.store.Shaped shapes ∧
      ∀ v ∈ visits fuel items (.initial (.initial settings sink files clock)) [],
        ∃ older, older <+: shapes ∧ v.machine.store.Shaped older := by
  have initial := shaped_initial settings sink files clock
  obtain ⟨shapes, -, ended, seen⟩ := initial.step fun _ _ start => tracked_after storageShapes_lawful start fuel items
  exact ⟨shapes, ended, seen⟩

end Scriptlet
