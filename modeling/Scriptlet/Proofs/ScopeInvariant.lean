import Scriptlet.Proofs.Activation
import Scriptlet.Proofs.Steps

/-!
# Changes that keep frames in scope

The invariant of a run is kept by the single changes of the machine: storing values, opening frames, telling
the observer, taking up a text.
-/
namespace Scriptlet

open World

/-- No frame. -/
def noFrame : FrameId → Prop := fun _ => False

theorem Resolved.mono {n n' : NodeId} {D D' : Distances} {text : List Stmt} (h : Resolved n D text)
    (hn : n ≤ n') (hD : ∀ id < n, D'[id]? = D[id]?) : Resolved n' D' text where
  nodup := h.nodup
  bound id hid := Nat.lt_of_lt_of_le (h.bound id hid) hn
  finds hp := by
    have found := h.finds hp
    exact { found with
      bound := Nat.lt_of_lt_of_le found.bound hn
      distance := (hD _ found.bound).trans found.distance }
  sound := h.sound
  fresh := h.fresh
  params := h.params

/-- The machines have the same frames, collections, fields and distances. -/
structure Machine.Alike (m m' : Machine) : Prop where
  frames : m'.store.frames = m.store.frames
  collections : m'.store.collections = m.store.collections
  instances : m'.store.instances = m.store.instances
  distances : m'.distances = m.distances
  nextNode : m'.nextNode = m.nextNode

theorem Machine.Alike.refl (m : Machine) : m.Alike m := ⟨rfl, rfl, rfl, rfl, rfl⟩

theorem Machine.Alike.trans {m m' m'' : Machine} (h : m.Alike m') (h' : m'.Alike m'') : m.Alike m'' :=
  ⟨h'.frames.trans h.frames, h'.collections.trans h.collections, h'.instances.trans h.instances,
    h'.distances.trans h.distances, h'.nextNode.trans h.nextNode⟩

namespace World

variable {w : World} {changing : FrameId → Prop}

/-- The invariant after a change that the observer was not told of. -/
theorem Inv.step (hi : w.Inv) {m : Machine} (hg : w.Extends (m, w.2) changing) (hv : GoodValues (m, w.2))
    (hu : ∀ id, m.nextNode ≤ id → m.distances[id]? = none) : Inv (m, w.2) where
  values := hv
  texts text ht := (hi.texts text ht).mono hg.nextNode hg.distances
  apart := hi.apart
  unused := hu
  opened region f ho := ⟨Nat.lt_of_lt_of_le (hi.opened region f ho).1 hg.size, (hi.opened region f ho).2⟩
  only := hi.only
  nonempty := Nat.lt_of_lt_of_le hi.nonempty hg.size
  visits := hi.visits
  shown := hi.shown

theorem GoodValues.grow (hv : w.GoodValues) {w' : World} (hg : w.Extends w' changing)
    (hb : ∀ f name b, w'.frames.bindingAt? f name = some b →
      w'.Good b.value ∨ w.frames.bindingAt? f name = some b)
    (he : ∀ elements ∈ w'.1.store.collections, ∀ v ∈ elements,
      w'.Good v ∨ ∃ elements ∈ w.1.store.collections, v ∈ elements)
    (hf : ∀ id name v, w'.1.store.field? id name = some v →
      w'.Good v ∨ w.1.store.field? id name = some v) : w'.GoodValues where
  bindings f name b h := by
    rcases hb f name b h with h | h
    · exact h
    · exact hg.good (hv.bindings f name b h)
  elements elements hmem v hvm := by
    rcases he elements hmem v hvm with h | ⟨old, hold, hvold⟩
    · exact h
    · exact hg.good (hv.elements old hold v hvold)
  fields id name v h := by
    rcases hf id name v h with h | h
    · exact h
    · exact hg.good (hv.fields id name v h)

/-- A machine with another store. -/
def setStore (w : World) (store : Store) : World := ({ w.1 with store }, w.2)

theorem grows_setStore {store : Store} (hsize : w.frames.size ≤ store.frames.size)
    (henclosing : ∀ f < w.frames.size, store.frames.enclosing? f = w.frames.enclosing? f)
    (hkept : ∀ f name, w.Binds f name → (store.frames.bindingAt? f name).isSome)
    (hadded : ∀ f name, f < w.frames.size → f ≠ globalFrame → ¬changing f →
      (store.frames.bindingAt? f name).isSome → w.Binds f name) : w.Grows (w.setStore store) changing :=
  ⟨⟨List.suffix_refl _, Nat.le_refl _, fun _ _ => rfl, hsize, henclosing, hkept, hadded⟩, rfl⟩

/-! ### Binding and assigning names -/

section Binding

variable (f : FrameId) (name : String) (value : Value) (constant : Bool)

/-- The world after binding a name. -/
def bind (w : World) : World := w.setStore (w.1.store.updateFrames (·.bind f name value constant))

theorem frames_bind (w : World) :
    (w.bind f name value constant).frames = w.frames.bind f name value constant := rfl

theorem size_bind (w : World) : (w.bind f name value constant).frames.size = w.frames.size := by
  rw [frames_bind, Frames.bind, Frames.size_update]

theorem enclosing_bind (w : World) (g : FrameId) :
    (w.bind f name value constant).frames.enclosing? g = w.frames.enclosing? g := by
  rw [frames_bind, Frames.bind, Frames.enclosing?_update]

theorem grows_bind (w : World) : w.Grows (w.bind f name value constant) (· = f) := by
  refine grows_setStore ?_ ?_ ?_ ?_
  · exact Nat.le_of_eq (Frames.size_update ..).symm
  · exact fun g _ => Frames.enclosing?_update ..
  · exact fun g n h => (Frames.isSome_bindingAt?_bind ..).2 (.inl h)
  · intro g n _ _ hne h
    rcases (Frames.isSome_bindingAt?_bind ..).1 h with h | ⟨rfl, -⟩
    · exact h
    · exact absurd rfl hne

theorem binds_bind {g : FrameId} {n : String} (hf : f < w.frames.size) :
    (w.bind f name value constant).Binds g n ↔ w.Binds g n ∨ (f = g ∧ name = n) := by
  refine (Frames.isSome_bindingAt?_bind ..).trans (or_congr_right ?_)
  constructor
  · exact fun h => ⟨h.1, h.2.1⟩
  · rintro ⟨rfl, rfl⟩
    exact ⟨rfl, rfl, hf⟩

/-- The value may need the binding, as a function does that calls itself. -/
theorem Inv.bind (hi : w.Inv) (hv : (w.bind f name value constant).Good value) :
    (w.bind f name value constant).Inv := by
  have hg := w.grows_bind f name value constant
  refine hi.step hg.toExtends (hi.values.grow hg.toExtends ?_ ?_ ?_) hi.unused
  · intro g n b hb
    rcases Frames.value_bindingAt?_bind _ _ _ _ _ _ _ hb with h | h
    · exact .inl (h ▸ hv)
    · exact .inr h
  · exact fun elements he v hve => .inr ⟨elements, he, hve⟩
  · exact fun id n v h => .inr h

/-- The world after giving a bound name another value. -/
def assign (w : World) : World := w.setStore (w.1.store.updateFrames (·.store f name value))

theorem grows_assign (w : World) : w.Grows (w.assign f name value) noFrame := by
  have same (g : FrameId) (n : String) := Frames.isSome_bindingAt?_store w.frames f g name n value
  refine grows_setStore ?_ ?_ ?_ ?_
  · exact Nat.le_of_eq (Frames.size_update ..).symm
  · exact fun g _ => Frames.enclosing?_update ..
  · exact fun g n h => (same g n).trans h
  · exact fun g n _ _ _ h => (same g n).symm.trans h

theorem Inv.assign (hi : w.Inv) (hv : w.Good value) : (w.assign f name value).Inv := by
  have hg := w.grows_assign f name value
  refine hi.step hg.toExtends (hi.values.grow hg.toExtends ?_ ?_ ?_) hi.unused
  · intro g n b hb
    rcases Frames.value_bindingAt?_store _ _ _ _ _ _ hb with h | h
    · exact .inl (h ▸ hg.good hv)
    · exact .inr h
  · exact fun elements he v hve => .inr ⟨elements, he, hve⟩
  · exact fun id n v h => .inr h

end Binding

/-! ### Changes that frames have no part in -/

theorem extends_of_frames (w : World) {m : Machine} (hf : m.store.frames = w.frames)
    (hn : w.1.nextNode ≤ m.nextNode) (hd : ∀ id < w.1.nextNode, m.distances[id]? = w.1.distances[id]?) :
    w.Extends (m, w.2) noFrame := by
  have hb (f : FrameId) (name : String) : World.Binds (m, w.2) f name ↔ w.Binds f name := by
    unfold Binds frames
    rw [hf, frames]
  refine ⟨List.suffix_refl _, hn, hd, Nat.le_of_eq ?_, fun f _ => ?_, fun f name => (hb f name).2,
    fun f name _ _ _ => (hb f name).1⟩
  · exact congrArg Array.size hf.symm
  · exact congrArg (Frames.enclosing? · f) hf

/-- Bindings and fields are as good as before, so only elements and distances count. -/
theorem Inv.sameFrames (hi : w.Inv) {m : Machine} (hg : w.Extends (m, w.2) noFrame) (hf : m.store.frames = w.frames)
    (ho : m.store.instances = w.1.store.instances) (he : ∀ elements ∈ m.store.collections, ∀ v ∈ elements,
      World.Good (m, w.2) v ∨ ∃ elements ∈ w.1.store.collections, v ∈ elements)
    (hu : ∀ id, m.nextNode ≤ id → m.distances[id]? = none) : Inv (m, w.2) := by
  refine hi.step hg (hi.values.grow hg ?_ he ?_) hu
  · intro f name b hb
    have same : World.frames (m, w.2) = w.frames := hf
    rw [same] at hb
    exact .inr hb
  · intro id name v hv
    unfold Store.field? at hv ⊢
    rw [ho] at hv
    exact .inr hv

theorem extends_alike (w : World) {m : Machine} (h : w.1.Alike m) : w.Extends (m, w.2) noFrame :=
  w.extends_of_frames h.frames (Nat.le_of_eq h.nextNode.symm) fun id _ => by rw [h.distances]

theorem Inv.alike (hi : w.Inv) {m : Machine} (h : w.1.Alike m) : Inv (m, w.2) := by
  refine hi.sameFrames (w.extends_alike h) h.frames h.instances (fun elements he v hv => ?_) fun id hid => ?_
  · exact .inr ⟨elements, h.collections ▸ he, hv⟩
  · rw [h.nextNode] at hid
    rw [h.distances]
    exact hi.unused id hid

/-! ### Instances -/

theorem grows_setField (w : World) (id : InstanceId) (name : String) (value : Value) :
    w.Grows (w.setStore (w.1.store.setField id name value)) noFrame :=
  ⟨w.extends_of_frames rfl (Nat.le_refl _) fun _ _ => rfl, rfl⟩

theorem grows_newInstance (w : World) : w.Grows (w.setStore w.1.store.newInstance.2) noFrame :=
  ⟨w.extends_of_frames rfl (Nat.le_refl _) fun _ _ => rfl, rfl⟩

theorem Inv.setField (hi : w.Inv) (id : InstanceId) (name : String) {value : Value} (hv : w.Good value) :
    (w.setStore (w.1.store.setField id name value)).Inv := by
  have hg := w.grows_setField id name value
  refine hi.step hg.toExtends (hi.values.grow hg.toExtends ?_ ?_ ?_) hi.unused
  · exact fun f n b hb => .inr hb
  · exact fun elements he v hve => .inr ⟨elements, he, hve⟩
  · intro other n v h
    rcases Store.value_field?_setField h with rfl | there
    · exact .inl (hg.good hv)
    · exact .inr there

theorem Inv.newInstance (hi : w.Inv) : (w.setStore w.1.store.newInstance.2).Inv := by
  have hg := w.grows_newInstance
  refine hi.step hg.toExtends (hi.values.grow hg.toExtends ?_ ?_ ?_) hi.unused
  · exact fun f n b hb => .inr hb
  · exact fun elements he v hve => .inr ⟨elements, he, hve⟩
  · exact fun id n v h => .inr (Store.field?_of_newInstance h)

/-! ### Telling the observer -/

/-- The world after the observer was told of an event. -/
def tell (w : World) (event : Event) : World := (w.1, ⟨event, w.1⟩ :: w.2)

theorem grows_tell (w : World) (event : Event) (changing : FrameId → Prop) :
    w.Grows (w.tell event) changing :=
  ⟨⟨List.suffix_cons _ _, Nat.le_refl _, fun _ _ => rfl, Nat.le_refl _, fun _ _ => rfl, fun _ _ h => h,
    fun _ _ _ _ _ h => h⟩, rfl⟩

theorem started_tell {text : List Stmt} {event : Event} (h : Started text (w.tell event).2) :
    event = .starting text ∨ Started text w.2 := by
  obtain ⟨v, hmem, he⟩ := h
  rcases List.mem_cons.1 hmem with rfl | hmem
  · exact .inl he
  · exact .inr ⟨v, hmem, he⟩

theorem opened_tell {region : Region} {f : FrameId} {event : Event} (h : Opened region f (w.tell event).2) :
    event = .opening region f ∨ Opened region f w.2 := by
  obtain ⟨v, hmem, he⟩ := h
  rcases List.mem_cons.1 hmem with rfl | hmem
  · exact .inl he
  · exact .inr ⟨v, hmem, he⟩

/-- An event may be told if a text that starts is resolved, a frame that is opened is new, a name is used in
scope, and what is shown with it holds. -/
theorem Inv.tell (hi : w.Inv) (event : Event)
    (hs : ∀ text, event = .starting text → w.Prepared text)
    (ho : ∀ region f, event = .opening region f →
      (f < w.frames.size ∧ f ≠ globalFrame) ∧ ∀ region', ¬Opened region' f w.2)
    (hv : Visit.ReadsInScope w.2 ⟨event, w.1⟩ ∧ Visit.AssignsInScope w.2 ⟨event, w.1⟩)
    (hshown : Visit.Shown w.2 ⟨event, w.1⟩) : (w.tell event).Inv where
  values := by
    have hg := (w.grows_tell event noFrame).toExtends
    refine hi.values.grow hg ?_ ?_ ?_
    · exact fun f n b hb => .inr hb
    · exact fun elements he v hve => .inr ⟨elements, he, hve⟩
    · exact fun id n v h => .inr h
  texts text ht := by
    rcases started_tell ht with h | h
    · exact (hs text h).resolved
    · exact hi.texts text h
  apart text text' id ht ht' hid hid' := by
    rcases started_tell ht with h | h
    · rcases started_tell ht' with h' | h'
      · cases h.symm.trans h'
        rfl
      · exact absurd hid ((hs text h).apart text' id h' hid')
    · rcases started_tell ht' with h' | h'
      · exact absurd hid' ((hs text' h').apart text id h hid)
      · exact hi.apart text text' id h h' hid hid'
  unused := hi.unused
  opened region f h := by
    rcases opened_tell h with h | h
    · exact (ho region f h).1
    · exact hi.opened region f h
  only region region' f h h' := by
    rcases opened_tell h with h | h
    · rcases opened_tell h' with h' | h'
      · rw [h] at h'
        cases h'
        rfl
      · exact absurd h' ((ho region f h).2 region')
    · rcases opened_tell h' with h' | h'
      · exact absurd h ((ho region' f h').2 region)
      · exact hi.only region region' f h h'
  nonempty := hi.nonempty
  visits := ⟨hv, hi.visits⟩
  shown := ⟨⟨hshown, hi.toFits⟩, hi.shown⟩

theorem Inv.tellStarting (hi : w.Inv) {text : List Stmt} (hr : w.Prepared text) :
    (w.tell (.starting text)).Inv := by
  refine hi.tell _ (fun _ h => ?_) (fun _ _ h => nomatch h)
    ⟨fun _ _ _ h => (nomatch h), fun _ _ _ h => nomatch h⟩
    ⟨fun _ _ h => (nomatch h), fun _ _ h => (nomatch h), fun _ _ h => (nomatch h), fun _ h => (nomatch h),
      fun _ h => (nomatch h), fun _ _ h => nomatch h⟩
  cases h
  exact hr

theorem Inv.tellEntering (hi : w.Inv) : (w.tell .entering).Inv :=
  hi.tell _ (fun _ h => (nomatch h)) (fun _ _ h => nomatch h)
    ⟨fun _ _ _ h => (nomatch h), fun _ _ _ h => nomatch h⟩
    ⟨fun _ _ h => (nomatch h), fun _ _ h => (nomatch h), fun _ _ h => (nomatch h), fun _ h => (nomatch h),
      fun _ h => (nomatch h), fun _ _ h => nomatch h⟩

theorem Inv.tellExecuting (hi : w.Inv) {s : Stmt} {text : List Stmt} {layers : List Layer}
    (ht : Started text w.2) (hp : Placed text layers (.statement s)) (ha : w.At layers) :
    (w.tell (.executing s)).Inv := by
  refine hi.tell _ (fun _ h => (nomatch h)) (fun _ _ h => nomatch h)
    ⟨fun _ _ _ h => (nomatch h), fun _ _ _ h => nomatch h⟩
    ⟨fun _ _ h => (nomatch h), fun _ _ h => (nomatch h), fun _ _ h => (nomatch h), fun _ h => (nomatch h), ?_,
      fun _ _ h => nomatch h⟩
  rintro _ ⟨⟩
  exact ⟨text, layers, ht, hp, ha⟩

/-! ### Opening frames -/

theorem bindingAt?_size (w : World) (name : String) : w.frames.bindingAt? w.frames.size name = none := by
  unfold Frames.bindingAt?
  rw [Array.getElem?_size]
  rfl

/-- The world with a new frame. -/
def newFrame (w : World) (enclosing : FrameId) : World := w.setStore (w.1.store.newFrame enclosing).2

theorem lt_size_newFrame (w : World) (enclosing : FrameId) :
    w.frames.size < (w.newFrame enclosing).frames.size :=
  Nat.lt_of_lt_of_eq (Nat.lt_succ_self _) (Frames.size_child ..).symm

theorem enclosing_newFrame (w : World) (enclosing : FrameId) :
    (w.newFrame enclosing).frames.enclosing? w.frames.size = some enclosing :=
  Frames.enclosing?_child_new ..

theorem grows_newFrame (w : World) (enclosing : FrameId) : w.Grows (w.newFrame enclosing) noFrame := by
  have same (f : FrameId) (name : String) := Frames.bindingAt?_child w.frames enclosing f name
  refine grows_setStore ?_ ?_ ?_ ?_
  · exact Nat.le_of_lt (Nat.lt_of_lt_of_eq (Nat.lt_succ_self _) (Frames.size_child ..).symm)
  · exact fun f hf => Frames.enclosing?_child _ _ _ hf
  · exact fun f name h => (congrArg Option.isSome (same f name)).trans h
  · exact fun f name _ _ _ h => (congrArg Option.isSome (same f name)).symm.trans h

theorem Inv.newFrame (hi : w.Inv) (enclosing : FrameId) : (w.newFrame enclosing).Inv := by
  have hg := w.grows_newFrame enclosing
  refine hi.step hg.toExtends (hi.values.grow hg.toExtends ?_ ?_ ?_) hi.unused
  · exact fun f name b hb => .inr ((Frames.bindingAt?_child ..).symm.trans hb)
  · exact fun elements he v hve => .inr ⟨elements, he, hve⟩
  · exact fun id n v h => .inr h

/-- The world with a new frame that binds a constant. -/
def newBinding (w : World) (enclosing : FrameId) (name : String) (value : Value) : World :=
  (w.newFrame enclosing).bind w.frames.size name value true

theorem lt_size_newBinding (w : World) (enclosing : FrameId) (name : String) (value : Value) :
    w.frames.size < (w.newBinding enclosing name value).frames.size := by
  rw [newBinding, size_bind]
  exact w.lt_size_newFrame enclosing

theorem enclosing_newBinding (w : World) (enclosing : FrameId) (name : String) (value : Value) :
    (w.newBinding enclosing name value).frames.enclosing? w.frames.size = some enclosing :=
  (enclosing_bind ..).trans (w.enclosing_newFrame enclosing)

theorem bindingAt?_newBinding (w : World) (enclosing : FrameId) (name : String) (value : Value) :
    (w.newBinding enclosing name value).frames.bindingAt? w.frames.size name =
      some ⟨value, true, value.fixedType?⟩ :=
  Frames.bindingAt?_bind_new ..

theorem fixes_newBinding (w : World) (enclosing : FrameId) (name : String) (value : Value) :
    (w.newBinding enclosing name value).frames.Fixes w.frames.size name value :=
  ⟨_, w.bindingAt?_newBinding enclosing name value, rfl, rfl⟩

theorem grows_newBinding (w : World) (enclosing : FrameId) (name : String) (value : Value) :
    w.Grows (w.newBinding enclosing name value) noFrame := by
  have opened : w.Grows (w.newFrame enclosing) (· = w.frames.size) :=
    (w.grows_newFrame enclosing).mono fun _ _ h => h.elim
  have bound := (w.newFrame enclosing).grows_bind w.frames.size name value true
  exact (opened.trans bound).mono fun f hf heq => absurd heq (Nat.ne_of_lt hf)

theorem Inv.newBinding (hi : w.Inv) (enclosing : FrameId) (name : String) (value : Value) (hv : w.Good value) :
    (w.newBinding enclosing name value).Inv :=
  (hi.newFrame enclosing).bind _ _ _ _ ((w.grows_newBinding enclosing name value).good hv)

/-- A frame that a run has just opened for a region. -/
structure IsNew (w : World) (region : Region) (enclosing f : FrameId) : Prop where
  opened : Opened region f w.2
  lies : w.frames.enclosing? f = some enclosing
  lt : f < w.frames.size

/-- Telling of a new frame. -/
theorem Inv.tellOpening (hi : w.Inv) {old : World} {region : Region} {f : FrameId} (hf : f < w.frames.size)
    (hold : old.Inv) (hv : old.2 = w.2) (hnew : old.frames.size ≤ f)
    (hr : Visit.HasReceiver ⟨.opening region f, w.1⟩) (hs : Visit.HasSuperclass w.2 ⟨.opening region f, w.1⟩)
    (hc : Visit.OpensCall ⟨.opening region f, w.1⟩) :
    (w.tell (.opening region f)).Inv := by
  refine hi.tell _ (fun _ h => (nomatch h)) ?_ ⟨fun _ _ _ h => (nomatch h), fun _ _ _ h => nomatch h⟩
    ⟨fun _ _ h => (nomatch h), hr, hs, fun _ h => (nomatch h), fun _ h => (nomatch h), hc⟩
  intro r g h
  cases h
  refine ⟨⟨hf, ?_⟩, fun region' ho => ?_⟩
  · exact Nat.ne_of_gt (Nat.lt_of_lt_of_le hold.nonempty hnew)
  · rw [← hv] at ho
    exact Nat.not_lt.2 hnew (hold.opened region' f ho).1

/-! ### Changing the context -/

/-- The world after the context was changed. -/
def enter (w : World) (change : Context → Context) : World :=
  World.tell (w.1.withContext (change w.1.context), w.2) .entering

/-- The world after a context was put back. -/
def leave (w : World) (context : Context) : World := (w.1.withContext context, w.2)

theorem Inv.leave (hi : w.Inv) (context : Context) : (w.leave context).Inv :=
  hi.alike ⟨rfl, rfl, rfl, rfl, rfl⟩

theorem extends_leave (w : World) (context : Context) : w.Extends (w.leave context) noFrame :=
  w.extends_alike ⟨rfl, rfl, rfl, rfl, rfl⟩

theorem Inv.enter (hi : w.Inv) (change : Context → Context) : (w.enter change).Inv :=
  (hi.leave (change w.1.context)).tellEntering

theorem extends_enter (w : World) (change : Context → Context) : w.Extends (w.enter change) noFrame :=
  (w.extends_leave (change w.1.context)).trans (grows_tell _ _ _).toExtends

/-! ### The place in the text -/

variable {layers : List Layer}

theorem Stack.uncons {f : FrameId} {layer : Layer} (hs : w.Stack f (layer :: layers)) :
    Opened layer.region f w.2 ∧ f < w.frames.size ∧ (∃ g, w.frames.enclosing? f = some g ∧ w.Stack g layers) ∧
      ∀ name, layer.names.find? name = some true → w.Binds f name := by
  cases hs with
  | @inside _ g _ _ ho he hs hb => exact ⟨ho, Frames.lt_size_of_enclosing? he, ⟨g, he, hs⟩, hb⟩

theorem Stack.nil {f : FrameId} (hs : w.Stack f []) : f = globalFrame := by
  cases hs
  rfl

theorem Matches.extend {f : FrameId} (hm : w.Matches f layers) (hi : w.Inv) {w' : World}
    (he : w.Extends w' changing) (hc : ¬changing f) : w'.Matches f layers where
  stack := he.stack hm.stack
  exact := by
    rintro layer outer rfl name hb
    obtain ⟨ho, hlt, -⟩ := hm.stack.uncons
    exact hm.exact rfl name (he.added _ name hlt (hi.opened _ _ ho).2 hc hb)

/-- Outside of all regions the current frame is the global one. -/
theorem at_global (hf : w.1.context.frame = globalFrame) : w.At [] := by
  unfold At
  rw [hf]
  exact ⟨.outermost, fun heq => nomatch heq⟩

/-- The place stays as long as the current frame gets no names. -/
theorem At.grow (ha : w.At layers) (hi : w.Inv) {w' : World} (hg : w.Grows w' noFrame) : w'.At layers := by
  unfold At
  rw [hg.context]
  exact Matches.extend ha hi hg.toExtends fun h => h

/-- A name that is still to be declared in the current region is not bound by its frame. -/
theorem At.unbound (ha : w.At layers) {name : String}
    (hn : Analysis.headMark? name (Layers.scopes layers) = none) (hf : w.1.context.frame ≠ globalFrame) :
    ¬w.Binds w.1.context.frame name := by
  intro hb
  cases layers with
  | nil => exact hf ha.stack.nil
  | cons layer outer => exact nomatch hn.symm.trans (ha.exact rfl name hb)

/-- A name that is only announced need not be bound. -/
theorem At.announce (ha : w.At layers) {name : String}
    (hn : Analysis.headMark? name (Layers.scopes layers) = none) : w.At (Layers.mark name false layers) := by
  cases layers with
  | nil => exact ha
  | cons layer outer =>
    obtain ⟨ho, -, ⟨g, he, hs⟩, hb⟩ := ha.stack.uncons
    refine ⟨.inside ho he hs fun n h => ?_, fun h n hbound => ?_⟩
    · rw [Table.find?_insert] at h
      split at h
      · cases h
      · exact hb n h
    · cases h
      have hdefined := ha.exact rfl n hbound
      rw [Table.find?_insert]
      split
      · next heq =>
        subst heq
        exact nomatch hn.symm.trans hdefined
      · exact hdefined

theorem Stack.define {f : FrameId} (hs : w.Stack f layers) (name : String) (value : Value) (constant : Bool) :
    (w.bind f name value constant).Stack f (Layers.mark name true layers) := by
  have grown := (w.grows_bind f name value constant).stack hs
  cases layers with
  | nil => exact grown
  | cons layer outer =>
    obtain ⟨ho, -, ⟨g, he, hstack⟩, hb⟩ := grown.uncons
    refine .inside ho he hstack fun n h => ?_
    rw [Table.find?_insert] at h
    split at h
    · next heq => exact (binds_bind f name value constant hs.uncons.2.1).2 (.inr ⟨rfl, heq⟩)
    · exact hb n h

theorem At.define (ha : w.At layers) (name : String) (value : Value) (constant : Bool) :
    (w.bind w.1.context.frame name value constant).At (Layers.mark name true layers) := by
  refine ⟨ha.stack.define name value constant, ?_⟩
  cases layers with
  | nil => exact fun h => nomatch h
  | cons layer outer =>
    rintro _ _ h n hbound
    cases h
    rw [Table.find?_insert]
    split
    · rfl
    · next hne =>
      rcases (binds_bind _ name value constant ha.stack.uncons.2.1).1 hbound with h | h
      · exact ha.exact rfl n h
      · exact absurd h.2 hne

end World

/-! ## Taking up a text -/

theorem Machine.SameButReports.alike {m m' : Machine} (h : m.SameButReports m') : m.Alike m' := by
  rw [h]
  exact ⟨rfl, rfl, rfl, rfl, rfl⟩

/-- The statements have new identities, which were given out on the way from `m` to `m'`. -/
structure Machine.Takes (m m' : Machine) (statements : List Stmt) : Prop where
  context : m'.context = m.context
  frames : m'.store.frames = m.store.frames
  collections : m'.store.collections = m.store.collections
  instances : m'.store.instances = m.store.instances
  nextNode : m.nextNode ≤ m'.nextNode
  nodup : (Stmt.listIds statements).Nodup
  ids : ∀ id ∈ Stmt.listIds statements, m.nextNode ≤ id ∧ id < m'.nextNode
  shaped : Stmt.ListShaped statements

theorem Machine.load_takes (m : Machine) (inComment : Bool) (text : String) :
    m.Takes (m.load inComment text).2 (m.load inComment text).1.statements ∧
      (m.load inComment text).2.distances = m.distances := by
  obtain ⟨hnext, hnodup, hids, hshaped⟩ :=
    Parse.numbered m.nextNode (Scan.genuine inComment text)
  obtain ⟨reported, hr, hl⟩ := m.load_same inComment text
  have store := congrArg Machine.store hl
  refine ⟨⟨?_, ?_, ?_, ?_, hnext, hnodup, hids, hshaped⟩, ?_⟩
  · exact (congrArg Machine.context hl).trans hr.context
  · exact (congrArg Store.frames store).trans hr.alike.frames
  · exact (congrArg Store.collections store).trans hr.alike.collections
  · exact (congrArg Store.instances store).trans hr.alike.instances
  · exact (congrArg Machine.distances hl).trans hr.alike.distances

/-- What a text does not declare may be left out of it. -/
theorem Machine.Takes.filter {m m' : Machine} {statements : List Stmt} (h : m.Takes m' statements)
    (p : Stmt → Bool) : m.Takes m' (statements.filter p) := by
  have sub : (Stmt.listIds (statements.filter p)).Sublist (Stmt.listIds statements) := by
    clear h
    induction statements with
    | nil => exact .refl _
    | cons s ss ih =>
      rw [List.filter_cons]
      split
      · exact ih.append_left _
      · exact ih.trans (List.sublist_append_right _ _)
  refine { h with nodup := sub.nodup h.nodup, ids := fun id hid => h.ids id (sub.subset hid), shaped := ?_ }
  rw [Stmt.listShaped_iff]
  exact fun s hs => (Stmt.listShaped_iff _).1 h.shaped s (List.mem_filter.1 hs).1

theorem Machine.analyse_distances (m : Machine) (statements : List Stmt) :
    (m.analyse statements).2.distances = (Analysis.ofStatements m.distances statements).distances :=
  (m.analyse_same statements).alike.distances

theorem Machine.Takes.analyse {m m' : Machine} {statements : List Stmt} (h : m.Takes m' statements) :
    m.Takes (m'.analyse statements).2 statements := by
  have same := m'.analyse_same statements
  have next : (m'.analyse statements).2.nextNode = m'.nextNode := same.alike.nextNode
  refine ⟨same.context.trans h.context, same.alike.frames.trans h.frames,
    same.alike.collections.trans h.collections, same.alike.instances.trans h.instances, ?_, h.nodup, ?_,
    h.shaped⟩
  · rw [next]
    exact h.nextNode
  · rw [next]
    exact h.ids

namespace World

variable {w : World}

/-- New identities and distances for them do not touch the run. -/
theorem Inv.takes (hi : w.Inv) {m : Machine} {statements : List Stmt} (h : w.1.Takes m statements)
    (hd : ∀ id ∉ Stmt.listIds statements, m.distances[id]? = w.1.distances[id]?) :
    World.Inv (m, w.2) ∧ w.Grows (m, w.2) noFrame := by
  have hg : w.Extends (m, w.2) noFrame := w.extends_of_frames h.frames h.nextNode fun id hid =>
    hd id fun hmem => Nat.not_le.2 hid (h.ids id hmem).1
  refine ⟨hi.sameFrames hg h.frames h.instances (fun elements he v hv => ?_) fun id hid => ?_, hg, h.context⟩
  · exact .inr ⟨elements, h.collections ▸ he, hv⟩
  · rw [hd id fun hmem => Nat.not_lt.2 hid (h.ids id hmem).2]
    exact hi.unused id (Nat.le_trans h.nextNode hid)

/-- A text that is analysed without a problem can be started. -/
theorem Inv.analyse (hi : w.Inv) {m : Machine} {statements : List Stmt} (h : w.1.Takes m statements)
    (hd : m.distances = w.1.distances) :
    let analysed := m.analyse statements
    (World.Inv (analysed.2, w.2) ∧ w.Grows (analysed.2, w.2) noFrame) ∧
      (analysed.1 = true → World.Prepared (analysed.2, w.2) statements) := by
  have distances := m.analyse_distances statements
  rw [hd] at distances
  refine ⟨hi.takes h.analyse fun id hid => ?_, fun hsound => ?_⟩
  · rw [distances]
    exact distances_ofStatements h.shaped hid
  · have problems : (Analysis.ofStatements w.1.distances statements).problems = [] := by
      rw [← hd]
      exact List.isEmpty_iff.1 hsound
    constructor
    · dsimp only
      rw [distances]
      refine resolved_of_analysis h.nodup (fun id hid => ?_) h.shaped problems
      exact ⟨(h.analyse.ids id hid).2, hi.unused id (h.ids id hid).1⟩
    · intro text' id ht hid hmem
      exact Nat.not_lt.2 (h.ids id hmem).1 ((hi.texts text' ht).bound id hid)

end World

end Scriptlet
