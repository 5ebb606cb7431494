import Scriptlet.Proofs.Frames

/-!
# Tables of bindings

The three tables of a frame belong together: only bound names are constant or have a type, and the type of a concrete
value is the one that is recorded. Opening frames, declaring, assigning and removing names keep it so. Where a name is
bound without a look at what was there, the first half is kept.
-/
namespace Scriptlet

/-- What comes out where a name is bound over an older binding, if there is one. -/
def Binding.over (value : Value) (constant : Bool) (old : Option Binding) : Binding where
  value := value
  constant := constant || old.any (·.constant)
  type := old.bind (·.type) <|> value.fixedType?

namespace Bindings

variable {t : Bindings} {name other : String} {value : Value} {constant : Bool} {type : ValueType}

theorem find?_eq_none_iff : t.find? name = none ↔ t.contains name = false := by
  unfold find? contains Table.contains
  cases t.values.find? name <;> simp

theorem contains_bind :
    (t.bind name value constant).contains other = true ↔ name = other ∨ t.contains other = true := by
  by_cases same : name = other <;> simp [bind, contains, Table.contains, same]

theorem mem_constants_bind :
    other ∈ (t.bind name value constant).constants ↔ (constant = true ∧ other = name) ∨ other ∈ t.constants := by
  cases constant <;> simp [bind]

theorem contains_store : (t.store name value).contains other = t.contains other := by
  unfold store
  split
  · next bound =>
    by_cases same : name = other
    · rw [← same, bound]
      simp [contains, Table.contains]
    · simp [contains, Table.contains, same]
  · rfl

theorem contains_erase : (t.erase name).contains other = true ↔ name ≠ other ∧ t.contains other = true := by
  by_cases same : name = other <;> simp [erase, contains, Table.contains, same]

/-! ## Only bound names -/

/-- Only bound names are constant or have a type. -/
structure Tidy (t : Bindings) : Prop where
  constants {name : String} : name ∈ t.constants → t.contains name = true
  types {name : String} {type : ValueType} : t.types.find? name = some type → t.contains name = true

namespace Tidy

theorem empty : (∅ : Bindings).Tidy := ⟨fun h => (nomatch h), fun h => nomatch h⟩

theorem types_eq (h : t.Tidy) (name : String) : t.types.find? name = (t.find? name).bind (·.type) := by
  cases held : t.values.find? name with
  | some value => simp [find?, held]
  | none =>
    have unbound : t.contains name = false := by simp [Bindings.contains, Table.contains, held]
    cases recorded : t.types.find? name with
    | none => simp [find?, held]
    | some type => cases unbound.symm.trans (h.types recorded)

theorem constants_eq (h : t.Tidy) (name : String) : t.constants.contains name = (t.find? name).any (·.constant) := by
  cases held : t.values.find? name with
  | some value => simp [find?, held]
  | none =>
    have unbound : t.contains name = false := by simp [Bindings.contains, Table.contains, held]
    cases marked : t.constants.contains name with
    | false => simp [find?, held]
    | true => cases unbound.symm.trans (h.constants (List.contains_iff_mem.1 marked))

/-- A name may be bound over and over. -/
theorem bind (h : t.Tidy) (name : String) (value : Value) (constant : Bool) : (t.bind name value constant).Tidy where
  constants {other} marked := by
    rcases mem_constants_bind.1 marked with ⟨-, rfl⟩ | old
    · exact contains_bind.2 (.inl rfl)
    · exact contains_bind.2 (.inr (h.constants old))
  types {other type} recorded := by
    refine contains_bind.2 ?_
    have found : (t.recordType name value).find? other = some type := recorded
    rw [find?_recordType] at found
    split at found
    · next same => exact .inl same
    · exact .inr (h.types found)

theorem store (h : t.Tidy) (name : String) (value : Value) : (t.store name value).Tidy := by
  constructor
  · intro other marked
    rw [contains_store]
    unfold Bindings.store at marked
    split at marked
    · exact h.constants marked
    · exact h.constants marked
  · intro other type recorded
    rw [contains_store]
    unfold Bindings.store at recorded
    split at recorded
    · next bound =>
      have found : (t.recordType name value).find? other = some type := recorded
      rw [find?_recordType] at found
      split at found
      · next same => exact same ▸ bound
      · exact h.types found
    · exact h.types recorded

/-- All three tables forget the name. -/
theorem erase (h : t.Tidy) (name : String) : (t.erase name).Tidy where
  constants {other} marked := by
    obtain ⟨old, differs⟩ := List.mem_filter.1 marked
    exact contains_erase.2 ⟨Ne.symm (of_decide_eq_true differs), h.constants old⟩
  types {other type} recorded := by
    have found : (t.types.erase name).find? other = some type := recorded
    rw [Table.find?_erase] at found
    split at found
    · cases found
    · next differs => exact contains_erase.2 ⟨differs, h.types found⟩

end Tidy

/-! ## Types of values -/

/-- The type of a concrete value is recorded as well. -/
structure Consistent (t : Bindings) : Prop extends t.Tidy where
  values {name : String} {value : Value} {type : ValueType} : t.values.find? name = some value →
    value.fixedType? = some type → t.types.find? name = some type

namespace Consistent

theorem empty : (∅ : Bindings).Consistent := ⟨.empty, fun h => nomatch h⟩

theorem bind (h : t.Consistent) (unbound : t.contains name = false) (value : Value) (constant : Bool) :
    (t.bind name value constant).Consistent := by
  refine ⟨h.toTidy.bind name value constant, ?_⟩
  intro other value' type found concrete
  have held : (t.values.insert name value).find? other = some value' := found
  change (t.recordType name value).find? other = some type
  rw [Table.find?_insert] at held
  rw [find?_recordType]
  split at held
  · next same =>
    cases held
    rw [if_pos same, h.types_eq, find?_eq_none_iff.2 unbound]
    exact concrete
  · next differs =>
    rw [if_neg differs]
    exact h.values held concrete

theorem store (h : t.Consistent)
    (fits : ∀ given fixed, value.fixedType? = some given → t.types.find? name = some fixed → given = fixed) :
    (t.store name value).Consistent := by
  refine ⟨h.toTidy.store name value, ?_⟩
  unfold Bindings.store
  split
  · intro other value' type found concrete
    have held : (t.values.insert name value).find? other = some value' := found
    change (t.recordType name value).find? other = some type
    rw [Table.find?_insert] at held
    rw [find?_recordType]
    split at held
    · next same =>
      cases held
      rw [if_pos same, concrete]
      cases recorded : t.types.find? name with
      | none => rfl
      | some fixed => exact congrArg some (fits type fixed concrete recorded).symm
    · next differs =>
      rw [if_neg differs]
      exact h.values held concrete
  · exact h.values

theorem erase (h : t.Consistent) (name : String) : (t.erase name).Consistent := by
  refine ⟨h.toTidy.erase name, ?_⟩
  intro other value type found concrete
  have held : (t.values.erase name).find? other = some value := found
  change (t.types.erase name).find? other = some type
  rw [Table.find?_erase] at held ⊢
  split at held
  · cases held
  · next differs =>
    rw [if_neg differs]
    exact h.values held concrete

end Consistent

end Bindings

/-! ## All frames -/

namespace Frames

variable {P : Bindings → Prop} {fs : Frames} {f g : FrameId} {name other : String} {value : Value}

/-- The bindings of every frame have the property. -/
def Each (P : Bindings → Prop) (fs : Frames) : Prop :=
  ∀ (f : FrameId) (frame : Frame), fs[f]? = some frame → P frame.bindings

def Tidy (fs : Frames) : Prop := fs.Each Bindings.Tidy

def Consistent (fs : Frames) : Prop := fs.Each Bindings.Consistent

theorem Each.first (empty : P ∅) : Each P #[⟨∅, none⟩] := by
  intro f frame found
  cases f with
  | zero => cases found; exact empty
  | succ f => cases found

theorem Each.child (h : fs.Each P) (empty : P ∅) (enclosing : FrameId) : (fs.child enclosing).Each P := by
  intro f frame found
  unfold Frames.child at found
  rw [Array.getElem?_push] at found
  split at found
  · cases found
    exact empty
  · exact h f frame found

/-- Only the bindings that are changed have to be looked at. -/
theorem Each.update (h : fs.Each P) {change : Bindings → Bindings}
    (keeps : ∀ frame, fs[f]? = some frame → P (change frame.bindings)) : (fs.update f change).Each P := by
  intro g frame found
  unfold Frames.update at found
  rw [Array.getElem?_modify] at found
  split at found
  · next same =>
    subst same
    obtain ⟨old, there, rfl⟩ := Option.map_eq_some_iff.1 found
    exact keeps old there
  · exact h g frame found

theorem contains_of_bindingAt? {frame : Frame} (there : fs[f]? = some frame) :
    frame.bindings.contains name = (fs.bindingAt? f name).isSome := by
  rw [bindingAt?, there, Option.bind_some, Bindings.find?, Option.isSome_map]
  rfl

theorem Consistent.tidy (h : fs.Consistent) : fs.Tidy := fun f frame there => (h f frame there).toTidy

/-- A name that is bound once more keeps its type and stays constant. -/
theorem Tidy.bindingAt?_bind (h : fs.Tidy) (f g : FrameId) (name other : String) (value : Value) (constant : Bool) :
    (fs.bind f name value constant).bindingAt? g other =
      if f = g ∧ name = other ∧ f < fs.size then some (.over value constant (fs.bindingAt? f name))
      else fs.bindingAt? g other := by
  rw [Frames.bindingAt?_bind]
  by_cases hsame : f = g ∧ name = other
  · obtain ⟨rfl, rfl⟩ := hsame
    cases there : fs[f]? with
    | none =>
      have outside : ¬f < fs.size := Nat.not_lt.2 (Array.getElem?_eq_none_iff.1 there)
      simp [outside, bindingAt?]
    | some frame =>
      have inside : f < fs.size := (Array.getElem?_eq_some_iff.1 there).1
      have tidy := h f frame there
      rw [if_pos ⟨rfl, rfl⟩, if_pos ⟨rfl, rfl, inside⟩, Option.map_some, tidy.types_eq, tidy.constants_eq, bindingAt?,
        there]
      rfl
  · rw [if_neg hsame, if_neg fun new => hsame ⟨new.1, new.2.1⟩]

/-- Binding a name that was not bound before adds this binding only. -/
theorem Tidy.bindingAt?_bind_of_unbound (h : fs.Tidy) (hb : fs.bindingAt? f name = none) (value : Value)
    (constant : Bool) :
    (fs.bind f name value constant).bindingAt? g other =
      if f = g ∧ name = other ∧ f < fs.size then some ⟨value, constant, value.fixedType?⟩
      else fs.bindingAt? g other := by
  rw [h.bindingAt?_bind, hb]
  simp [Binding.over]

namespace Consistent

theorem first : Consistent #[⟨∅, none⟩] := Each.first .empty

theorem child (h : fs.Consistent) (enclosing : FrameId) : (fs.child enclosing).Consistent :=
  Each.child h .empty enclosing

theorem bind (h : fs.Consistent) (hb : fs.bindingAt? f name = none) (value : Value) (constant : Bool) :
    (fs.bind f name value constant).Consistent := by
  refine Each.update h fun frame there => (h f frame there).bind ?_ value constant
  rw [contains_of_bindingAt? there, hb]
  rfl

theorem store (h : fs.Consistent) (hs : fs.storeError? f name value = none) : (fs.store f name value).Consistent := by
  refine Each.update h fun frame there => (h f frame there).store ?_
  intro given fixed concrete recorded
  obtain ⟨b, hb, -, fits⟩ := binding_of_storeError? hs
  rw [bindingAt?, there] at hb
  obtain ⟨old, -, rfl⟩ := Option.map_eq_some_iff.1 hb
  exact fits given fixed concrete recorded

theorem unbind (h : fs.Consistent) (f : FrameId) (name : String) : (fs.unbind f name).Consistent :=
  Each.update h fun frame there => (h f frame there).erase name

end Consistent

end Frames

end Scriptlet
