import Scriptlet.Proofs.BindingTables
import Scriptlet.Proofs.Histories

/-!
# Bindings are kept

A name that is bound in a frame stays bound there. A constant keeps its value. The type of the first concrete
value stays with the binding for good, also while the value is `null`. Every single step of a run keeps this,
and so do whole sessions.
-/
namespace Scriptlet

/-! ## Later bindings and frames -/

/-- What a binding has in common with its later states. -/
structure Binding.Lasts (b b' : Binding) : Prop where
  constant : b.constant = true → b'.constant = true ∧ b'.value = b.value
  type (t : ValueType) : b.type = some t → b'.type = some t

/-- The type of a concrete value is recorded with the binding. -/
def Binding.Typed (b : Binding) : Prop := ∀ t, b.value.fixedType? = some t → b.type = some t

namespace Binding

theorem Lasts.refl (b : Binding) : b.Lasts b := ⟨fun h => ⟨h, rfl⟩, fun _ h => h⟩

theorem Lasts.trans {a b c : Binding} (h : a.Lasts b) (h' : b.Lasts c) : a.Lasts c := by
  constructor
  · intro hc
    obtain ⟨hb, hv⟩ := h.constant hc
    obtain ⟨hc', hv'⟩ := h'.constant hb
    exact ⟨hc', hv'.trans hv⟩
  · intro t ht
    exact h'.type t (h.type t ht)

/-- Concrete values of one binding have one type. -/
theorem Lasts.same_type {b b' : Binding} (h : b.Lasts b') (hb : b.Typed) (hb' : b'.Typed)
    (hv : b.value.isConcrete = true) (hv' : b'.value.isConcrete = true) : b'.value.type = b.value.type := by
  have recorded := h.type _ (hb b.value.type (by simp [Value.fixedType?, hv]))
  have later := hb' b'.value.type (by simp [Value.fixedType?, hv'])
  exact Option.some.inj (later.symm.trans recorded)

end Binding

namespace Frames

/-- Every binding is still there in the later frames. -/
def Last (fs fs' : Frames) : Prop :=
  ∀ f name b, fs.bindingAt? f name = some b → ∃ b', fs'.bindingAt? f name = some b' ∧ b.Lasts b'

variable {fs fs' fs'' : Frames}

theorem Consistent.typed (h : fs.Consistent) {f : FrameId} {name : String} {b : Binding}
    (hb : fs.bindingAt? f name = some b) : b.Typed := by
  obtain ⟨frame, there, found⟩ := Option.bind_eq_some_iff.1 hb
  obtain ⟨value, held, rfl⟩ := Option.map_eq_some_iff.1 found
  exact fun _ concrete => (h f frame there).values held concrete

theorem Last.refl (fs : Frames) : fs.Last fs := fun _ _ b hb => ⟨b, hb, .refl b⟩

theorem Last.trans (h : fs.Last fs') (h' : fs'.Last fs'') : fs.Last fs'' := by
  intro f name b hb
  obtain ⟨b', hb', hl⟩ := h f name b hb
  obtain ⟨b'', hb'', hl'⟩ := h' f name b' hb'
  exact ⟨b'', hb'', hl.trans hl'⟩

/-- A new frame has no bindings. -/
theorem last_child (fs : Frames) (enclosing : FrameId) : fs.Last (fs.child enclosing) := by
  intro f name b hb
  exact ⟨b, by rw [bindingAt?_child, hb], .refl b⟩

/-- Only names that are not bound yet are bound. -/
theorem last_bind {f : FrameId} {name : String} (hb : fs.bindingAt? f name = none) (value : Value)
    (constant : Bool) : fs.Last (fs.bind f name value constant) := by
  intro g other b hfound
  have hne : ¬(f = g ∧ name = other) := by
    rintro ⟨rfl, rfl⟩
    cases hb.symm.trans hfound
  refine ⟨b, ?_, .refl b⟩
  rw [bindingAt?_bind, if_neg hne, hfound]

/-- A value is stored only if it has the type of the binding, and never in a constant. -/
theorem last_store {f : FrameId} {name : String} {value : Value}
    (hs : fs.storeError? f name value = none) : fs.Last (fs.store f name value) := by
  obtain ⟨old, hold, hconstant, -⟩ := binding_of_storeError? hs
  intro g other b hfound
  rw [bindingAt?_store _ _ _ _ _ _ hold]
  split
  · next heq =>
    obtain ⟨rfl, rfl⟩ := heq
    cases hold.symm.trans hfound
    refine ⟨_, rfl, ?_, ?_⟩
    · intro h
      cases hconstant.symm.trans h
    · intro t h
      simp [h]
  · exact ⟨b, hfound, .refl b⟩

end Frames

/-! ## Steps and runs -/

/-- No single step removes a binding, changes a constant or lets go of a type. -/
theorem Machine.Step.last {m m' : Machine} (h : m.Step m') (ht : m.store.frames.Consistent) :
    m'.store.frames.Consistent ∧ m.store.frames.Last m'.store.frames := by
  cases h with
  | data hs | native line f args hs => rw [hs]; exact ⟨ht, .refl _⟩
  | reported hs => rw [hs]; exact ⟨ht, .refl _⟩
  | loaded hs => rw [hs.same]; exact ⟨ht, .refl _⟩
  | frame enclosing => exact ⟨ht.child enclosing, Frames.last_child _ enclosing⟩
  | binding f name value constant hb => exact ⟨ht.bind hb value constant, Frames.last_bind hb value constant⟩
  | assignment f name value hs => exact ⟨ht.store hs, Frames.last_store hs⟩
  | _ => exact ⟨ht, .refl _⟩

/-- In later machines every binding is still there. -/
def Evolution.bindings : Evolution where
  Good m := m.store.frames.Consistent
  Keeps earlier later := earlier.store.frames.Last later.store.frames
  refl _ := .refl _
  trans := .trans

/-- The machines of a run, the latest first, keep the bindings of those before them. -/
def Lasting (machines : List Machine) : Prop := Evolution.bindings.Holds machines

namespace Lasting

variable {machines : List Machine}

theorem consistent (h : Lasting machines) : ∀ m ∈ machines, m.store.frames.Consistent := h.good

theorem last (h : Lasting machines) :
    machines.Pairwise fun later earlier => earlier.store.frames.Last later.store.frames :=
  h.keeps

end Lasting

/-! ## Sessions -/

theorem bindings_closed : Evolution.bindings.Closed := by
  intro m m' change ht
  cases change with
  | step hs => exact hs.last ht
  | context _ => exact ⟨ht, .refl _⟩
  | imported _ => exact ⟨ht, .refl _⟩
  | script _ => exact ⟨ht, .refl _⟩

theorem bindings_followed : Evolution.bindings.Followed := bindings_closed.followed

namespace Session

theorem consistent_initial : Store.initial.frames.Consistent :=
  Store.initial_induction (P := fun s => s.frames.Consistent) .first fun _ _ unbound h => h.bind unbound _ false

theorem initial_lasting (settings : Settings) (sink : Sink) (files : FileTree) (clock fuel : Nat)
    (items : List Item) :
    Lasting (history fuel items (.initial (.initial settings sink files clock)) []) :=
  bindings_followed.history (s := .initial (.initial settings sink files clock)) (.first consistent_initial) fuel items

end Session

/-- Over a whole session from a new machine, and from any state of it to any later one, every name that is bound
in a frame stays bound there. If the binding is constant it keeps its value. If its value was neither `null` nor
missing, any such value that it has later is of the same type, whatever it was in between. -/
theorem bindings_last (settings : Settings) (sink : Sink) (files : FileTree) (clock fuel : Nat)
    (items : List Session.Item) :
    (Session.history fuel items (.initial (.initial settings sink files clock)) []).Pairwise fun later earlier =>
      ∀ f name b, earlier.store.frames.bindingAt? f name = some b →
        ∃ b', later.store.frames.bindingAt? f name = some b' ∧
          (b.constant = true → b'.constant = true ∧ b'.value = b.value) ∧
          (b.value.isConcrete = true → b'.value.isConcrete = true → b'.value.type = b.value.type) := by
  have lasting := Session.initial_lasting settings sink files clock fuel items
  refine lasting.last.imp_of_mem ?_
  intro later earlier hlater hearlier hlast f name b hb
  obtain ⟨b', hb', h⟩ := hlast f name b hb
  refine ⟨b', hb', h.constant, ?_⟩
  exact h.same_type ((lasting.consistent earlier hearlier).typed hb) ((lasting.consistent later hlater).typed hb')

end Scriptlet
