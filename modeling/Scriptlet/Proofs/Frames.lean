import Scriptlet.Value.Store

/-!
# Bindings and links of frames, fields of instances

What opening a frame and binding or assigning a name do to the names that frames bind and to the frames they
lie in. What setting a field does to the fields of instances.
-/
namespace Scriptlet.Frames

variable (fs : Frames) (f g : FrameId) (name other : String) (value : Value) (constant : Bool)

/-! ## New frames -/

theorem size_child : (fs.child f).size = fs.size + 1 := Array.size_push ..

theorem bindingAt?_child : (fs.child f).bindingAt? g name = fs.bindingAt? g name := by
  unfold bindingAt? child
  rw [Array.getElem?_push]
  split
  · next h => rw [h, Array.getElem?_size]; rfl
  · rfl

/-- A new frame binds nothing. -/
theorem bindingAt?_child_new : (fs.child f).bindingAt? fs.size name = none := by
  rw [bindingAt?_child, bindingAt?, Array.getElem?_size]
  rfl

theorem enclosing?_child (h : g < fs.size) : (fs.child f).enclosing? g = fs.enclosing? g := by
  unfold enclosing? child
  rw [Array.getElem?_push, if_neg (Nat.ne_of_lt h)]

variable {fs f g} in
theorem lt_size_of_enclosing? (h : fs.enclosing? f = some g) : f < fs.size := by
  obtain ⟨frame, there, -⟩ := Option.bind_eq_some_iff.1 h
  exact (Array.getElem?_eq_some_iff.1 there).1

theorem enclosing?_child_new : (fs.child f).enclosing? fs.size = some f := by
  unfold enclosing? child
  rw [Array.getElem?_push, if_pos rfl]
  rfl

/-- The global frame of a new machine binds nothing at first. -/
theorem bindingAt?_first : bindingAt? #[⟨∅, none⟩] f name = none := by cases f <;> rfl

/-! ## Changes of one frame -/

variable (change : Bindings → Bindings)

theorem size_update : (fs.update f change).size = fs.size := Array.size_modify ..

theorem enclosing?_update : (fs.update f change).enclosing? g = fs.enclosing? g := by
  unfold enclosing? update
  rw [Array.getElem?_modify]
  split
  · next h => subst h; cases fs[f]? <;> rfl
  · rfl

theorem bindingAt?_update :
    (fs.update f change).bindingAt? g name =
      if f = g then fs[g]?.bind fun frame => (change frame.bindings).find? name
      else fs.bindingAt? g name := by
  unfold bindingAt? update
  rw [Array.getElem?_modify]
  split
  · cases fs[g]? <;> rfl
  · rfl

/-! ## Binding a name -/

/-- What the tables held of the name before counts, even if it was not bound. -/
theorem bindingAt?_bind :
    (fs.bind f name value constant).bindingAt? g other =
      if f = g ∧ name = other then
        fs[f]?.map fun frame => ⟨value, constant || frame.bindings.constants.contains name,
          frame.bindings.types.find? name <|> value.fixedType?⟩
      else fs.bindingAt? g other := by
  rw [bind, bindingAt?_update]
  by_cases hf : f = g
  · subst hf
    rw [if_pos rfl, bindingAt?]
    cases fs[f]? with
    | none => simp
    | some frame => by_cases hn : name = other <;> simp [hn]
  · simp [hf]

/-- A new frame holds nothing of the name. -/
theorem bindingAt?_bind_new :
    ((fs.child f).bind fs.size name value constant).bindingAt? fs.size name =
      some ⟨value, constant, value.fixedType?⟩ := by
  have new : (fs.child f)[fs.size]? = some ⟨∅, some f⟩ := Array.getElem?_push_size
  rw [bindingAt?_bind, if_pos ⟨rfl, rfl⟩, new]
  exact congrArg (fun constant => some (Binding.mk value constant value.fixedType?)) (Bool.or_false constant)

theorem isSome_bindingAt?_bind :
    ((fs.bind f name value constant).bindingAt? g other).isSome ↔
      (fs.bindingAt? g other).isSome ∨ (f = g ∧ name = other ∧ g < fs.size) := by
  rw [bindingAt?_bind]
  by_cases hsame : f = g ∧ name = other
  · obtain ⟨rfl, rfl⟩ := hsame
    by_cases hf : f < fs.size
    · simp [hf]
    · simp [hf, bindingAt?]
  · rw [if_neg hsame]
    refine ⟨.inl, fun h => h.resolve_right fun new => hsame ⟨new.1, new.2.1⟩⟩

theorem value_bindingAt?_bind {b : Binding}
    (hb : (fs.bind f name value constant).bindingAt? g other = some b) :
    b.value = value ∨ fs.bindingAt? g other = some b := by
  rw [bindingAt?_bind] at hb
  split at hb
  · obtain ⟨frame, -, rfl⟩ := Option.map_eq_some_iff.1 hb
    exact .inl rfl
  · exact .inr hb

/-! ## Assigning to a name -/

theorem bindingAt?_store_eq :
    (fs.store f name value).bindingAt? g other =
      if f = g ∧ name = other then
        (fs.bindingAt? f name).map fun b => { b with value, type := b.type <|> value.fixedType? }
      else fs.bindingAt? g other := by
  rw [store, bindingAt?_update]
  by_cases hf : f = g
  · subst hf
    rw [if_pos rfl, bindingAt?, bindingAt?]
    cases fs[f]? with
    | none => simp
    | some frame => by_cases hn : name = other <;> simp [hn]
  · simp [hf]

theorem isSome_bindingAt?_store :
    ((fs.store f name value).bindingAt? g other).isSome = (fs.bindingAt? g other).isSome := by
  rw [bindingAt?_store_eq]
  split
  · next same =>
    obtain ⟨rfl, rfl⟩ := same
    exact Option.isSome_map ..
  · rfl

/-- Assigning to a bound name changes its binding only. -/
theorem bindingAt?_store {b : Binding} (hb : fs.bindingAt? f name = some b) :
    (fs.store f name value).bindingAt? g other =
      if f = g ∧ name = other then some { b with value, type := b.type <|> value.fixedType? }
      else fs.bindingAt? g other := by
  rw [bindingAt?_store_eq, hb]
  rfl

theorem value_bindingAt?_store {b : Binding} (hb : (fs.store f name value).bindingAt? g other = some b) :
    b.value = value ∨ fs.bindingAt? g other = some b := by
  rw [bindingAt?_store_eq] at hb
  split at hb
  · obtain ⟨old, -, rfl⟩ := Option.map_eq_some_iff.1 hb
    exact .inl rfl
  · exact .inr hb

/-! ## Access at a distance -/

variable {fs f g name value}

/-- An assignment is made where the value may be stored. -/
theorem storeError?_of_assignTarget (h : fs.assignTarget f name value = .ok g) :
    fs.storeError? g name value = none := by
  unfold assignTarget at h
  split at h
  · cases h
  · split at h
    · cases h
    · next he =>
      cases h
      exact he

theorem storeError?_of_assignTargetAt {d : Nat} (h : fs.assignTargetAt f d name value = .ok g) :
    fs.storeError? g name value = none := by
  unfold assignTargetAt at h
  split at h
  · cases h
  · split at h
    · cases h
    · next he =>
      cases h
      exact he

/-- A value may be stored only if the name is bound, not constant, and not of another type. -/
theorem binding_of_storeError? (h : fs.storeError? f name value = none) :
    ∃ b, fs.bindingAt? f name = some b ∧ b.constant = false ∧
      ∀ given fixed, value.fixedType? = some given → b.type = some fixed → given = fixed := by
  unfold storeError? at h
  split at h
  · cases h
  · next b hb =>
    split at h
    · cases h
    · next hc =>
      refine ⟨b, hb, by simpa using hc, ?_⟩
      intro given fixed hgiven hfixed
      rw [hgiven, hfixed] at h
      simpa using h

/-- A value that is read was bound, and is not missing. -/
theorem binding_of_readAt (h : fs.readAt f name = .ok value) :
    ∃ b, fs.bindingAt? f name = some b ∧ b.value = value ∧ value ≠ .undefined := by
  unfold readAt at h
  split at h
  · cases h
  · next b hb =>
    split at h
    · cases h
    · next hv =>
      cases h
      exact ⟨b, hb, rfl, fun missing => hv missing⟩

theorem binding_of_getAt {d : Nat} (h : fs.getAt f d name = .ok value) :
    ∃ g b, fs.bindingAt? g name = some b ∧ b.value = value ∧ value ≠ .undefined := by
  unfold getAt at h
  split at h
  · cases h
  · exact ⟨_, binding_of_readAt h⟩

theorem binding_of_get (h : fs.get f name = .ok value) :
    ∃ g b, fs.bindingAt? g name = some b ∧ b.value = value ∧ value ≠ .undefined := by
  unfold get at h
  split at h
  · cases h
  · exact ⟨_, binding_of_readAt h⟩

/-- Reading a bound name fails only while it has no value. -/
theorem error_of_getAt {d : Nat} {e : BindingError} (hg : fs.ancestor? d f = some g)
    (hb : (fs.bindingAt? g name).isSome) (h : fs.getAt f d name = .error e) : e = .uninitialized name := by
  obtain ⟨b, hb⟩ := Option.isSome_iff_exists.1 hb
  rw [getAt, ancestor, hg] at h
  dsimp only at h
  rw [readAt, hb] at h
  dsimp only at h
  split at h
  · cases h
    rfl
  · cases h

/-- Assigning to a bound name fails only if it is constant or has another type. -/
theorem error_of_assignTargetAt {d : Nat} {e : BindingError} (hg : fs.ancestor? d f = some g)
    (hb : (fs.bindingAt? g name).isSome) (h : fs.assignTargetAt f d name value = .error e) :
    e = .constant name ∨ ∃ given fixed, e = .typeMismatch name given fixed := by
  obtain ⟨b, hb⟩ := Option.isSome_iff_exists.1 hb
  rw [assignTargetAt, ancestor, hg] at h
  dsimp only at h
  split at h
  · next e' he =>
    cases h
    rw [storeError?, hb] at he
    dsimp only at he
    split at he
    · cases he
      exact .inl rfl
    · split at he
      · split at he
        · cases he
        · cases he
          exact .inr ⟨_, _, rfl⟩
      · cases he
  · cases h

theorem assignTargetAt_of_unbound {d : Nat} (hg : fs.ancestor? d f = some g)
    (hb : fs.bindingAt? g name = none) : fs.assignTargetAt f d name value = .error (.undefined name) := by
  rw [assignTargetAt, ancestor, hg]
  dsimp only
  rw [storeError?, hb]

/-! ## Frames that lie in the same frames -/

section Links

variable {fs' : Frames} (same : ∀ f, fs'.enclosing? f = fs.enclosing? f)

include same

theorem ancestor?_congr (d : Nat) (f : FrameId) : fs'.ancestor? d f = fs.ancestor? d f := by
  induction d generalizing f with
  | zero => rfl
  | succ d ih =>
    rw [ancestor?, ancestor?, same]
    cases fs.enclosing? f with
    | none => rfl
    | some outer => exact ih outer

/-- A name is found in the same frame if the same frames bind it. -/
theorem holder?_congr (bound : ∀ f, (fs'.bindingAt? f name).isSome = (fs.bindingAt? f name).isSome)
    (f : FrameId) : fs'.holder? name f = fs.holder? name f := by
  induction f using Nat.strongRecOn with
  | ind f ih =>
    rw [holder?, holder?, same, bound]
    cases fs.enclosing? f with
    | none => rfl
    | some outer =>
      by_cases older : outer < f
      · simp only [if_pos older, ih outer older]
      · simp only [if_neg older]

end Links

end Scriptlet.Frames

namespace Scriptlet.Store

variable {s : Store} {id id' : InstanceId} {name name' : String} {v v' : Value}

/-- A field that is found has the new value or was there before. -/
theorem value_field?_setField (h : (s.setField id name v).field? id' name' = some v') :
    v' = v ∨ s.field? id' name' = some v' := by
  have found : ((s.instances.modify id (·.insert name v))[id']?.bind (·.find? name')) = some v' := h
  rw [Array.getElem?_modify] at found
  split at found
  · next heq =>
    subst heq
    unfold field?
    cases hobj : s.instances[id]? with
    | none => rw [hobj] at found; cases found
    | some fields =>
      rw [hobj] at found
      have inserted : (fields.insert name v).find? name' = some v' := found
      rw [Table.find?_insert] at inserted
      split at inserted
      · cases inserted
        exact .inl rfl
      · exact .inr inserted
  · exact .inr found

/-- A new instance has no fields. -/
theorem field?_of_newInstance (h : s.newInstance.2.field? id name = some v) : s.field? id name = some v := by
  have found : ((s.instances.push ∅)[id]?.bind (·.find? name)) = some v := h
  rw [Array.getElem?_push] at found
  split at found
  · cases found
  · exact found

/-! ## New stores -/

/-- The native functions are declared one by one, and no two of them have the same name. -/
theorem initial_induction {P : Store → Prop} (first : P ⟨#[⟨∅, none⟩], #[], #[], 0⟩)
    (declare : ∀ (s : Store) (f : GlobalNative), s.frames.bindingAt? 0 f.name = none → P s →
      P (s.freshIdentity.2.updateFrames (·.bind 0 f.name (.native s.freshIdentity.1 (.global f)) false))) :
    P .initial := by
  have declared (natives : List GlobalNative) (different : natives.Pairwise fun f g => f.name ≠ g.name) (s : Store)
      (unbound : ∀ f ∈ natives, s.frames.bindingAt? 0 f.name = none) (hs : P s) :
      P (natives.foldl (fun s f =>
        s.freshIdentity.2.updateFrames (·.bind 0 f.name (.native s.freshIdentity.1 (.global f)) false)) s) := by
    induction natives generalizing s with
    | nil => exact hs
    | cons f natives ih =>
      obtain ⟨others, different⟩ := List.pairwise_cons.1 different
      refine ih different _ ?_ (declare s f (unbound f (List.mem_cons_self ..)) hs)
      intro g hg
      refine (Frames.bindingAt?_bind ..).trans ?_
      rw [if_neg fun same => others g hg same.2]
      exact unbound g (List.mem_cons_of_mem _ hg)
  exact declared GlobalNative.all (by decide) _ (fun f _ => Frames.bindingAt?_first 0 f.name) first

/-! ## All values of a store -/

/-- All values in the store have the property. -/
structure All (Q : Value → Prop) (s : Store) : Prop where
  bindings (f : FrameId) (name : String) (b : Binding) : s.frames.bindingAt? f name = some b → Q b.value
  elements : ∀ elements ∈ s.collections, ∀ v ∈ elements, Q v
  fields (id : InstanceId) (name : String) (v : Value) : s.field? id name = some v → Q v

namespace All

variable {Q : Value → Prop}

theorem first (Q : Value → Prop) : All Q ⟨#[⟨∅, none⟩], #[], #[], 0⟩ := by
  refine ⟨fun f name b hb => ?_, fun _ he => (nomatch he), fun _ _ _ hv => nomatch hv⟩
  cases (Frames.bindingAt?_first f name).symm.trans hb

theorem mono {Q' : Value → Prop} (h : s.All Q) (hq : ∀ v, Q v → Q' v) : s.All Q' where
  bindings f name b hb := hq _ (h.bindings f name b hb)
  elements elements he v hv := hq _ (h.elements elements he v hv)
  fields id name v hv := hq _ (h.fields id name v hv)

/-- A change of frames that brings in one value only. -/
theorem changeFrames (h : s.All Q) (hv : Q v) {fs : Frames}
    (value : ∀ f name b, fs.bindingAt? f name = some b → b.value = v ∨ s.frames.bindingAt? f name = some b) :
    All Q { s with frames := fs } := by
  refine ⟨fun f name b hb => ?_, h.elements, h.fields⟩
  rcases value f name b hb with new | old
  · exact new ▸ hv
  · exact h.bindings f name b old

theorem child (h : s.All Q) (f : FrameId) : All Q { s with frames := s.frames.child f } := by
  refine ⟨fun g name b hb => h.bindings g name b ?_, h.elements, h.fields⟩
  rwa [Frames.bindingAt?_child] at hb

theorem bind (h : s.All Q) (hv : Q v) (f : FrameId) (name : String) (constant : Bool) :
    (s.updateFrames (·.bind f name v constant)).All Q :=
  h.changeFrames hv fun g other _ => Frames.value_bindingAt?_bind _ f g name other v constant

theorem store (h : s.All Q) (hv : Q v) (f : FrameId) (name : String) :
    (s.updateFrames (·.store f name v)).All Q :=
  h.changeFrames hv fun g other _ => Frames.value_bindingAt?_store _ f g name other v

theorem newInstance (h : s.All Q) : s.newInstance.2.All Q :=
  ⟨h.bindings, h.elements, fun id name v hv => h.fields id name v (field?_of_newInstance hv)⟩

theorem setField (h : s.All Q) (hv : Q v) (id : InstanceId) (name : String) : (s.setField id name v).All Q := by
  refine ⟨h.bindings, h.elements, fun id' name' v' hv' => ?_⟩
  rcases value_field?_setField hv' with rfl | there
  · exact hv
  · exact h.fields id' name' v' there

end All

end Scriptlet.Store
