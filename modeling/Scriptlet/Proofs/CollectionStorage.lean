import Scriptlet.Proofs.Histories
import Scriptlet.Proofs.Shapes

/-!
# Storages of collections

Throughout a session a storage belongs to collections of one kind, and that of an array keeps its length. Its elements
change only when a native function is called that belongs to it. The collections that methods make out of other ones
get new storages. So changing such a collection never changes the ones it was made of, nor the other way round.
-/
namespace Scriptlet

/-! ## Shapes along a session -/

/-- The storages of the machine have the first of these shapes. -/
def Machine.Shaped (shapes : List Shape) (m : Machine) : Prop := ∃ first, first <+: shapes ∧ m.store.Shaped first

theorem Machine.Shaped.mono {m : Machine} {shapes more : List Shape} (h : m.Shaped shapes) (le : shapes <+: more) :
    m.Shaped more := by
  obtain ⟨first, hfirst, shaped⟩ := h
  exact ⟨first, hfirst.trans le, shaped⟩

namespace Session

variable {s : Session} {shapes : List Shape}

theorem shaped_runItem (h : s.machine.store.Shaped shapes) (fuel : Nat) (item : Item) :
    ∃ more, shapes <+: more ∧ (final (runItem fuel item s)).machine.store.Shaped more ∧
      ∀ v ∈ watchItem fuel item s [], v.machine.Shaped more := by
  have start : storageShapes.state shapes s.machine.store [] := ⟨h, fun _ hv => nomatch hv⟩
  obtain ⟨more, le, ended, seen⟩ := tracked_runItem storageShapes_lawful start fuel item
  exact ⟨more, le, ended, seen⟩

theorem shaped_history {older : List Machine} (h : s.machine.store.Shaped shapes)
    (hold : ∀ m ∈ older, m.Shaped shapes) (fuel : Nat) (items : List Item) :
    ∃ all, ∀ m ∈ history fuel items s older, m.Shaped all := by
  induction items generalizing s shapes older with
  | nil =>
    refine ⟨shapes, fun m hm => ?_⟩
    rcases List.mem_cons.1 hm with rfl | hm
    · exact ⟨shapes, List.prefix_rfl, h⟩
    · exact hold m hm
  | cons item items ih =>
    obtain ⟨more, le, ended, seen⟩ := shaped_runItem h fuel item
    refine ih ended fun m hm => ?_
    -- the machines so far: those seen in the item, the one at its start, and the older ones
    rcases List.mem_append.1 hm with hm | hm
    · obtain ⟨v, hv, rfl⟩ := List.mem_map.1 hm
      exact seen v hv
    · rcases List.mem_cons.1 hm with rfl | hm
      · exact ⟨shapes, le, h⟩
      · exact (hold m hm).mono le

theorem initial_shaped (settings : Settings) (sink : Sink) (files : FileTree) (clock fuel : Nat)
    (items : List Item) :
    ∃ shapes, ∀ m ∈ history fuel items (.initial (.initial settings sink files clock)) [], m.Shaped shapes := by
  obtain ⟨shapes, -, shaped, -⟩ := shaped_initial settings sink files clock
  exact shaped_history shaped (by simp) fuel items

end Session

/-! ## Changes of elements -/

namespace Machine

/-- The machine comes from the other one by single changes of a session. -/
abbrev Changes : Machine → Machine → Prop := Relation.ReflTransGen Change

/-- Between the machines a native function was called that belongs to the collection with this storage. -/
def CallsFor (id : StorageId) (earlier later : Machine) : Prop :=
  ∃ m line f args, Native.Owns f id ∧ earlier.Changes m ∧
    (finalMachine (Builtin.callNative line f args m)).Changes later

/-- The later machine has all storages of the earlier one, and has other elements only in those for which native
functions were called. -/
structure KeepsElements (earlier later : Machine) : Prop where
  changes : earlier.Changes later
  size : earlier.store.collections.size ≤ later.store.collections.size
  elements (id : StorageId) : id < earlier.store.collections.size →
    later.store.elements id = earlier.store.elements id ∨ CallsFor id earlier later

theorem CallsFor.before {id : StorageId} {m m' m'' : Machine} (h : CallsFor id m' m'') (hc : m.Changes m') :
    CallsFor id m m'' := by
  obtain ⟨called, line, f, args, owns, first, last⟩ := h
  exact ⟨called, line, f, args, owns, hc.trans first, last⟩

theorem CallsFor.after {id : StorageId} {m m' m'' : Machine} (h : CallsFor id m m') (hc : m'.Changes m'') :
    CallsFor id m m'' := by
  obtain ⟨called, line, f, args, owns, first, last⟩ := h
  exact ⟨called, line, f, args, owns, first, last.trans hc⟩

namespace KeepsElements

variable {m m' m'' : Machine}

theorem refl (m : Machine) : m.KeepsElements m := ⟨.refl, Nat.le_refl _, fun _ _ => .inl rfl⟩

theorem trans (h : m.KeepsElements m') (h' : m'.KeepsElements m'') : m.KeepsElements m'' := by
  refine ⟨h.changes.trans h'.changes, Nat.le_trans h.size h'.size, fun id hid => ?_⟩
  rcases h.elements id hid with same | called
  · rcases h'.elements id (Nat.lt_of_lt_of_le hid h.size) with same' | called
    · exact .inl (same'.trans same)
    · exact .inr (called.before h.changes)
  · exact .inr (called.after h'.changes)

/-- A change that leaves the storages alone, or all but those of a native function that is called. -/
theorem of_spares {own : StorageId → Prop} (hc : m.Change m') (hs : m.store.Spares own m'.store)
    (called : ∀ id, own id → CallsFor id m m') : m.KeepsElements m' := by
  refine ⟨.single hc, hs.size, fun id hid => ?_⟩
  by_cases howns : own id
  · exact .inr (called id howns)
  · exact .inl (hs.elements id hid howns)

theorem of_collections (hc : m.Change m') (same : m'.store.collections = m.store.collections) :
    m.KeepsElements m' := by
  have spares : m.store.Spares (fun _ => False) m'.store := Store.spares_of_collections same
  exact of_spares hc spares fun _ howns => howns.elim

end KeepsElements

theorem finalMachine_spares (line : Nat) (f : Native) (args : List Value) (m : Machine) :
    m.store.Spares f.Owns (finalMachine (Builtin.callNative line f args m)).store :=
  (meets_iff_finalMachine.1 (Builtin.callNative_spares line f args m)).2

theorem Step.keepsElements {m m' : Machine} (h : m.Step m') : m.KeepsElements m' := by
  have change := Change.step h
  cases h with
  | data same spares => exact .of_spares change spares fun _ howns => howns.elim
  | native line f args same =>
    exact .of_spares change (finalMachine_spares line f args m) fun id howns =>
      ⟨m, line, f, args, howns, .refl, .refl⟩
  | reported same => exact .of_collections change (by rw [same])
  | loaded loads => exact .of_collections change (by rw [loads.same])
  | _ => exact .of_collections change rfl

end Machine

/-- Later machines keep the elements of earlier ones, except where native functions were called. -/
def Evolution.elements : Evolution where
  Good _ := True
  Keeps := Machine.KeepsElements
  refl := .refl
  trans := .trans

theorem elements_closed : Evolution.elements.Closed := by
  intro m m' change _
  refine ⟨trivial, ?_⟩
  have kept := change
  cases change with
  | step h => exact h.keepsElements
  | context _ | imported _ | script _ => exact .of_collections kept rfl

/-! ## Sessions -/

/-- The value is a collection with a storage that was not there, so no value that fits has it. Besides that the machine
is the same. -/
structure Machine.Makes (kind : CollectionKind) (shapes : List Shape) (m : Machine) (v : Value) (m' : Machine) :
    Prop where
  collection : v = .collection kind shapes.length
  others (w : Value) : w.Fits (shapes.map Shape.kind) → ∀ kind', w.storage? ≠ some (kind', shapes.length)
  same : ∃ elements, m' = { m with store := (m.store.allocate elements).2 }

theorem Store.Shaped.callNative_makes {m : Machine} {shapes : List Shape} (h : m.store.Shaped shapes) (line : Nat)
    {f : Native} {kind : CollectionKind} (hf : f.yields? = some kind) (args : List Value) :
    Meets (Builtin.callNative line f args) m (fun v m' => m.Makes kind shapes v m') fun _ m' => m' = m := by
  refine Meets.mono (Builtin.callNative_yields line hf args) ?_ fun _ _ same => same
  rintro v m' ⟨rfl, same⟩
  refine ⟨by rw [h.size], fun w fits kind' storage => ?_, same⟩
  -- a storage that fits is one of those that have a shape
  have bound := (List.getElem?_eq_some_iff.1 (fits kind' _ storage)).1
  simp at bound

/-- In every session on a new machine there is one list of shapes that all states share. A storage has one kind of
collection for good, so that arrays, lists and sets never share it, and the length of an array is fixed. This is so
for all values of a state, and whatever is evaluated from there on keeps it. Of the methods, those that make
collections make them with storages of their own, and none changes another storage than that of its collection. From
any state to any later one the elements of a storage differ only if such a method was called in between. -/
theorem collections_keep_storages (settings : Settings) (sink : Sink) (files : FileTree) (clock fuel : Nat)
    (items : List Session.Item) :
    let states := Session.history fuel items (.initial (.initial settings sink files clock)) []
    (∃ shapes : List Shape, ∀ m ∈ states, ∃ first, first <+: shapes ∧ m.store.Shaped first ∧
      (∀ n e, Meets (evaluate n e) m
        (fun v m' => ∃ more, first <+: more ∧ m'.store.Shaped more ∧ v.Fits (more.map Shape.kind))
        fun _ m' => ∃ more, first <+: more ∧ m'.store.Shaped more) ∧
      ∀ line f args kind, f.yields? = some kind →
        Meets (Builtin.callNative line f args) m (fun v m' => m.Makes kind first v m') fun _ m' => m' = m) ∧
    (∀ (m : Machine) line f args, m.store.Spares f.Owns (finalMachine (Builtin.callNative line f args m)).store) ∧
    states.Pairwise fun later earlier => earlier.KeepsElements later := by
  intro states
  obtain ⟨shapes, shaped⟩ := Session.initial_shaped settings sink files clock fuel items
  refine ⟨⟨shapes, fun m hm => ?_⟩, fun m line f args => Machine.finalMachine_spares line f args m, ?_⟩
  · obtain ⟨first, le, now⟩ := shaped m hm
    exact ⟨first, le, now, now.evaluate, fun line f args kind hf => now.callNative_makes line hf args⟩
  · have start : Evolution.elements.Holds [(Session.initial (.initial settings sink files clock)).machine] :=
      ⟨fun _ _ => trivial, List.pairwise_singleton ..⟩
    exact (elements_closed.followed.history start fuel items).keeps

end Scriptlet
