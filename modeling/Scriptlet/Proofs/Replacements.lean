import Scriptlet.Proofs.FrameRequests

/-!
# Binding over a binding

A name can be bound without a look at what was there. This is not the same as removing the name and declaring it anew,
for the tables keep what they hold: a constant stays constant, and a type stays. The two can be told apart by later
requests, unless the new binding is constant, or the old one is neither constant nor of another type.
-/
namespace Scriptlet

/-- The type of a constant does not show. -/
structure Binding.Alike (b b' : Binding) : Prop where
  value : b'.value = b.value
  constant : b'.constant = b.constant
  type : b.constant = false → b'.type = b.type

theorem Binding.Alike.refl (b : Binding) : b.Alike b := ⟨rfl, rfl, fun _ => rfl⟩

theorem Binding.Alike.over {old old' : Option Binding} (h : Option.Rel Binding.Alike old old') (value : Value)
    (constant : Bool) : (Binding.over value constant old).Alike (Binding.over value constant old') := by
  cases h with
  | none => exact ⟨rfl, rfl, fun _ => rfl⟩
  | some h =>
    refine ⟨rfl, by simp [Binding.over, h.constant], fun variable_ => ?_⟩
    have type := h.type (by simpa [Binding.over] using (Bool.or_eq_false_iff.1 variable_).2)
    simp [Binding.over, type]

namespace Frames

/-- Frames that hold the same bindings, but for the types of constants. -/
structure Alike (fs fs' : Frames) : Prop where
  tidy : fs.Tidy
  tidy' : fs'.Tidy
  size : fs'.size = fs.size
  enclosing? (f : FrameId) : fs'.enclosing? f = fs.enclosing? f
  bindingAt? (f : FrameId) (name : String) : Option.Rel Binding.Alike (fs.bindingAt? f name) (fs'.bindingAt? f name)

namespace Alike

variable {fs fs' : Frames} (h : fs.Alike fs')

include h

/-! ## The same answers -/

theorem bindingAt?_cases (f : FrameId) (name : String) :
    (fs.bindingAt? f name = none ∧ fs'.bindingAt? f name = none) ∨
      ∃ b b', fs.bindingAt? f name = some b ∧ fs'.bindingAt? f name = some b' ∧ b.Alike b' := by
  have rel := h.bindingAt? f name
  generalize fs.bindingAt? f name = old, fs'.bindingAt? f name = new at rel
  cases rel with
  | none => exact .inl ⟨rfl, rfl⟩
  | some alike => exact .inr ⟨_, _, rfl, rfl, alike⟩

theorem valueAt? (f : FrameId) (name : String) : fs'.valueAt? f name = fs.valueAt? f name := by
  rcases h.bindingAt?_cases f name with ⟨hb, hb'⟩ | ⟨b, b', hb, hb', alike⟩
  · simp [Frames.valueAt?, hb, hb']
  · simp [Frames.valueAt?, hb, hb', alike.value]

theorem isSome_bindingAt? (f : FrameId) (name : String) :
    (fs'.bindingAt? f name).isSome = (fs.bindingAt? f name).isSome := by
  rcases h.bindingAt?_cases f name with ⟨hb, hb'⟩ | ⟨b, b', hb, hb', -⟩ <;> simp [hb, hb']

theorem holder? (name : String) (f : FrameId) : fs'.holder? name f = fs.holder? name f :=
  holder?_congr h.enclosing? (fun f => h.isSome_bindingAt? f name) f

theorem ancestor? (d : Nat) (f : FrameId) : fs'.ancestor? d f = fs.ancestor? d f :=
  ancestor?_congr h.enclosing? d f

theorem readAt (f : FrameId) (name : String) : fs'.readAt f name = fs.readAt f name := by
  rcases h.bindingAt?_cases f name with ⟨hb, hb'⟩ | ⟨b, b', hb, hb', alike⟩
  · simp [Frames.readAt, hb, hb']
  · simp [Frames.readAt, hb, hb', alike.value]

/-- A constant is refused before its type is looked at. -/
theorem storeError? (f : FrameId) (name : String) (value : Value) :
    fs'.storeError? f name value = fs.storeError? f name value := by
  rcases h.bindingAt?_cases f name with ⟨hb, hb'⟩ | ⟨b, b', hb, hb', alike⟩
  · simp [Frames.storeError?, hb, hb']
  · cases marked : b.constant with
    | true => simp [Frames.storeError?, hb, hb', alike.constant, marked]
    | false => simp [Frames.storeError?, hb, hb', alike.constant, marked, alike.type marked]

theorem get (f : FrameId) (name : String) : fs'.get f name = fs.get f name := by
  unfold Frames.get
  rw [h.holder?]
  cases fs.holder? name f with
  | none => rfl
  | some g => exact h.readAt g name

theorem getAt (f : FrameId) (d : Nat) (name : String) : fs'.getAt f d name = fs.getAt f d name := by
  unfold Frames.getAt Frames.ancestor
  rw [h.ancestor?]
  cases fs.ancestor? d f with
  | none => rfl
  | some g => exact h.readAt g name

theorem assignTarget (f : FrameId) (name : String) (value : Value) :
    fs'.assignTarget f name value = fs.assignTarget f name value := by
  unfold Frames.assignTarget
  rw [h.holder?]
  cases fs.holder? name f with
  | none => rfl
  | some g => simp only [h.storeError?]

theorem assignTargetAt (f : FrameId) (d : Nat) (name : String) (value : Value) :
    fs'.assignTargetAt f d name value = fs.assignTargetAt f d name value := by
  unfold Frames.assignTargetAt Frames.ancestor
  rw [h.ancestor?]
  cases fs.ancestor? d f with
  | none => rfl
  | some g => simp only [h.storeError?]

theorem defineError? (f : FrameId) (name : String) : fs'.defineError? f name = fs.defineError? f name := by
  unfold Frames.defineError?
  rw [h.isSome_bindingAt?]

/-! ## Alike after a request -/

theorem child (enclosing : FrameId) : (fs.child enclosing).Alike (fs'.child enclosing) where
  tidy := Each.child h.tidy .empty enclosing
  tidy' := Each.child h.tidy' .empty enclosing
  size := by simp [size_child, h.size]
  enclosing? f := by
    have known := h.enclosing? f
    unfold Frames.enclosing? Frames.child at *
    rw [Array.getElem?_push, Array.getElem?_push, h.size]
    by_cases new : f = fs.size
    · simp [new]
    · simpa [new] using known
  bindingAt? f name := by
    rw [bindingAt?_child, bindingAt?_child]
    exact h.bindingAt? f name

/-- The tables of one frame change in both. -/
theorem update {f : FrameId} {change : Bindings → Bindings} (tidy : (fs.update f change).Tidy)
    (tidy' : (fs'.update f change).Tidy)
    (bindings : ∀ g name, Option.Rel Binding.Alike ((fs.update f change).bindingAt? g name)
      ((fs'.update f change).bindingAt? g name)) :
    (fs.update f change).Alike (fs'.update f change) where
  tidy := tidy
  tidy' := tidy'
  size := by simp [size_update, h.size]
  enclosing? g := by simp [enclosing?_update, h.enclosing?]
  bindingAt? := bindings

theorem bind (f : FrameId) (name : String) (value : Value) (constant : Bool) :
    (fs.bind f name value constant).Alike (fs'.bind f name value constant) := by
  apply h.update (Effect.tidy (.replace f name value constant) h.tidy)
    (Effect.tidy (.replace f name value constant) h.tidy')
  intro g other
  change Option.Rel _ ((fs.bind f name value constant).bindingAt? g other)
    ((fs'.bind f name value constant).bindingAt? g other)
  rw [h.tidy.bindingAt?_bind, h.tidy'.bindingAt?_bind, h.size]
  split
  · exact .some (.over (h.bindingAt? f name) value constant)
  · exact h.bindingAt? g other

theorem store (f : FrameId) (name : String) {value : Value} (fits : fs.storeError? f name value = none) :
    (fs.store f name value).Alike (fs'.store f name value) := by
  have fits' : fs'.storeError? f name value = none := (h.storeError? f name value).trans fits
  apply h.update (Effect.tidy (.store (.assign f name value) fits) h.tidy)
    (Effect.tidy (.store (.assign f name value) fits') h.tidy')
  intro g other
  change Option.Rel _ ((fs.store f name value).bindingAt? g other) ((fs'.store f name value).bindingAt? g other)
  rw [bindingAt?_store_eq, bindingAt?_store_eq]
  split
  · rcases h.bindingAt?_cases f name with ⟨hb, hb'⟩ | ⟨b, b', hb, hb', alike⟩
    · simp [hb, hb']
    · rw [hb, hb']
      exact .some ⟨rfl, alike.constant, fun variable_ => by simp [alike.type variable_]⟩
  · exact h.bindingAt? g other

theorem unbind (f : FrameId) (name : String) : (fs.unbind f name).Alike (fs'.unbind f name) := by
  apply h.update (Effect.tidy (.remove f name) h.tidy) (Effect.tidy (.remove f name) h.tidy')
  intro g other
  change Option.Rel _ ((fs.unbind f name).bindingAt? g other) ((fs'.unbind f name).bindingAt? g other)
  rw [bindingAt?_unbind, bindingAt?_unbind]
  split
  · exact .none
  · exact h.bindingAt? g other

/-- The step: the same answer, and frames that are alike again. -/
theorem run (r : Request) : (r.run fs').1 = (r.run fs).1 ∧ (r.run fs).2.Alike (r.run fs').2 := by
  cases r with
  | child enclosing =>
    by_cases inside : enclosing < fs.size
    · simpa [Request.run, h.size, inside] using h.child enclosing
    · simpa [Request.run, h.size, inside] using h
  | define f name value constant =>
    simp only [Request.run, Frames.define, h.defineError?]
    cases fs.defineError? f name with
    | none => exact ⟨rfl, h.bind f name value constant⟩
    | some e => exact ⟨rfl, h⟩
  | replace f name value constant => exact ⟨rfl, h.bind f name value constant⟩
  | assign f name value =>
    simp only [Request.run, Frames.assign, h.assignTarget]
    cases target : fs.assignTarget f name value with
    | ok g => exact ⟨rfl, h.store g name (storeError?_of_assignTarget target)⟩
    | error e => exact ⟨rfl, h⟩
  | assignAt f d name value =>
    simp only [Request.run, Frames.assignAt, h.assignTargetAt]
    cases target : fs.assignTargetAt f d name value with
    | ok g => exact ⟨rfl, h.store g name (storeError?_of_assignTargetAt target)⟩
    | error e => exact ⟨rfl, h⟩
  | remove f name => exact ⟨congrArg Answer.removed (h.valueAt? f name), h.unbind f name⟩
  | get f name =>
    simp only [Request.run, h.get]
    cases fs.get f name with
    | ok value => exact ⟨rfl, h⟩
    | error e => exact ⟨rfl, h⟩
  | getAt f d name =>
    simp only [Request.run, h.getAt]
    cases fs.getAt f d name with
    | ok value => exact ⟨rfl, h⟩
    | error e => exact ⟨rfl, h⟩
  | contains f name =>
    simp only [Request.run, h.valueAt?, true_and]
    exact h

theorem answers (requests : List Request) : fs'.answers requests = fs.answers requests := by
  induction requests generalizing fs fs' with
  | nil => rfl
  | cons r requests ih =>
    obtain ⟨same, alike⟩ := h.run r
    rw [Frames.answers, Frames.answers, same, ih alike]

end Alike

/-! ## Replacing and declaring anew -/

/-- A value can be stored in a binding that is not constant and has no other type. -/
theorem storeError?_of_binding {fs : Frames} {f : FrameId} {name : String} {value : Value} {b : Binding}
    (hb : fs.bindingAt? f name = some b) (variable_ : b.constant = false)
    (fits : ∀ given fixed, value.fixedType? = some given → b.type = some fixed → given = fixed) :
    fs.storeError? f name value = none := by
  cases hgiven : value.fixedType? with
  | none => simp [storeError?, hb, variable_, hgiven]
  | some given =>
    cases hfixed : b.type with
    | none => simp [storeError?, hb, variable_, hgiven, hfixed]
    | some fixed => simp [storeError?, hb, variable_, hgiven, hfixed, fits given fixed hgiven hfixed]

/-- An assignment in the frame itself shows whether the value can be stored. -/
theorem storeError?_of_answers {fs fs' : Frames} {f : FrameId} {name : String} {value : Value}
    (same : fs.answers [.assignAt f 0 name value] = fs'.answers [.assignAt f 0 name value])
    (fits : fs'.storeError? f name value = none) : fs.storeError? f name value = none := by
  cases e : fs.storeError? f name value with
  | none => rfl
  | some e => simp [answers, Request.run, assignAt, assignTargetAt, ancestor, ancestor?, e, fits, commit] at same

theorem exists_value_of_other_type (type : ValueType) : ∃ (value : Value) (other : ValueType),
    value.fixedType? = some other ∧ other ≠ type := by
  by_cases boolean : type = .boolean
  · exact ⟨.string "", .string, rfl, by simp [boolean]⟩
  · exact ⟨.bool true, .boolean, rfl, Ne.symm boolean⟩

section Replacement

variable {fs : Frames} (f : FrameId) (name : String) (value : Value) (constant : Bool)

/-- A removed name can be declared. -/
theorem after_removed : fs.after [.remove f name, .define f name value constant] =
    (fs.unbind f name).bind f name value constant := by
  have unbound : (fs.unbind f name).bindingAt? f name = none := by simp [bindingAt?_unbind]
  simp [after, Request.run, define_of_unbound unbound, commit]

theorem bindingAt?_renewed (tidy : fs.Tidy) (g : FrameId) (other : String) :
    ((fs.unbind f name).bind f name value constant).bindingAt? g other =
      if f = g ∧ name = other ∧ f < fs.size then some ⟨value, constant, value.fixedType?⟩
      else fs.bindingAt? g other := by
  have tidy' : (fs.unbind f name).Tidy := Effect.tidy (.remove f name) tidy
  have unbound : (fs.unbind f name).bindingAt? f name = none := by simp [bindingAt?_unbind]
  rw [tidy'.bindingAt?_bind_of_unbound unbound, bindingAt?_unbind, unbind, size_update]
  by_cases same : f = g ∧ name = other
  · obtain ⟨rfl, rfl⟩ := same
    by_cases inside : f < fs.size
    · simp [inside]
    · simp [inside, bindingAt?]
  · rw [if_neg same]

variable {f name value constant}

/-- The old binding leaves nothing behind that shows. -/
theorem alike_renewed (tidy : fs.Tidy)
    (hidden : constant = true ∨ ∀ b, fs.bindingAt? f name = some b →
      b.constant = false ∧ (b.type = none ∨ b.type = value.fixedType?)) :
    (fs.bind f name value constant).Alike ((fs.unbind f name).bind f name value constant) where
  tidy := Effect.tidy (.replace f name value constant) tidy
  tidy' := Effect.tidy (.replace f name value constant) (Effect.tidy (.remove f name) tidy)
  size := by simp [Frames.bind, unbind, size_update]
  enclosing? g := by simp [Frames.bind, unbind, enclosing?_update]
  bindingAt? g other := by
    rw [bindingAt?_renewed f name value constant tidy, tidy.bindingAt?_bind]
    split
    · refine .some ?_
      rcases hidden with rfl | hidden
      · exact ⟨rfl, rfl, fun variable_ => by cases variable_⟩
      · cases hb : fs.bindingAt? f name with
        | none => exact ⟨rfl, by simp [Binding.over], fun _ => rfl⟩
        | some b =>
          obtain ⟨variable_, type⟩ := hidden b hb
          refine ⟨rfl, by simp [Binding.over, variable_], fun _ => ?_⟩
          rcases type with type | type
          · simp [Binding.over, type]
          · cases fixed : value.fixedType? <;> simp [Binding.over, type, fixed]
    · cases fs.bindingAt? g other with
      | none => exact .none
      | some b => exact .some (.refl b)

/-- If nothing shows, then an assignment of a value of another type does not either. -/
theorem hidden_of_answers (tidy : fs.Tidy)
    (same : ∀ later, (fs.bind f name value constant).answers later =
      ((fs.unbind f name).bind f name value constant).answers later)
    {b : Binding} (hb : fs.bindingAt? f name = some b) (variable_ : constant = false) :
    b.constant = false ∧ (b.type = none ∨ b.type = value.fixedType?) := by
  subst variable_
  have inside : f < fs.size := by
    obtain ⟨frame, there, -⟩ := Option.bind_eq_some_iff.1 hb
    exact (Array.getElem?_eq_some_iff.1 there).1
  have replaced := tidy.bindingAt?_bind f f name name value false
  have renewed := bindingAt?_renewed f name value false tidy f name
  rw [if_pos ⟨rfl, rfl, inside⟩] at replaced renewed
  -- Whatever the new binding takes, the replaced one takes as well.
  have takes (given : Value)
      (fits : ∀ type fixed, given.fixedType? = some type → value.fixedType? = some fixed → type = fixed) :
      b.constant = false ∧
        ∀ type fixed, given.fixedType? = some type → (b.type <|> value.fixedType?) = some fixed → type = fixed := by
    have stored := storeError?_of_answers (same [.assignAt f 0 name given]) (storeError?_of_binding renewed rfl fits)
    obtain ⟨b', hb', variable_, fits'⟩ := binding_of_storeError? stored
    rw [replaced, hb] at hb'
    cases hb'
    exact ⟨variable_, fits'⟩
  obtain ⟨variable_, own⟩ := takes value fun type fixed given held => Option.some.inj (given.symm.trans held)
  refine ⟨variable_, ?_⟩
  cases old : b.type with
  | none => exact .inl rfl
  | some type =>
    right
    cases new : value.fixedType? with
    | some fixed => rw [own fixed type new (by simp [old])]
    | none =>
      obtain ⟨given, other, concrete, differs⟩ := exists_value_of_other_type type
      have fits := (takes given fun _ _ _ held => by cases new.symm.trans held).2
      exact absurd (fits other type concrete (by simp [old])) differs

end Replacement

/-- After any requests, binding a name over what was there is the same to all later requests as removing the name and
declaring it anew, just if the new binding is constant or the old one, if there was one, is neither constant nor of
another type than the new value gives. -/
theorem replacement_shows_iff (requests : List Request) (f : FrameId) (name : String) (value : Value)
    (constant : Bool) :
    (∀ later, (global.after (requests ++ [.replace f name value constant])).answers later =
        (global.after (requests ++ [.remove f name, .define f name value constant])).answers later) ↔
      constant = true ∨ ∀ b, (global.after requests).bindingAt? f name = some b →
        b.constant = false ∧ (b.type = none ∨ b.type = value.fixedType?) := by
  have tidy := tidy_after requests
  have replaced : global.after (requests ++ [.replace f name value constant]) =
      (global.after requests).bind f name value constant := after_concat ..
  have renewed : global.after (requests ++ [.remove f name, .define f name value constant]) =
      ((global.after requests).unbind f name).bind f name value constant :=
    List.foldl_append.trans (after_removed f name value constant)
  rw [replaced, renewed]
  constructor
  · intro same
    cases constant with
    | true => exact .inl rfl
    | false => exact .inr fun b hb => hidden_of_answers tidy same hb rfl
  · intro hidden later
    exact ((alike_renewed tidy hidden).answers later).symm

/-- A constant that was replaced by a variable cannot be assigned, and one that was removed and declared anew can. -/
theorem replaced_constant_stays_constant :
    (global.after [.define 0 "x" (.number 1) true, .replace 0 "x" (.string "a") false]).answers
        [.assign 0 "x" (.string "b")] = [.refused (.constant "x")] ∧
      (global.after [.define 0 "x" (.number 1) true, .remove 0 "x", .define 0 "x" (.string "a") false]).answers
        [.assign 0 "x" (.string "b")] = [.done] := by
  constructor
  · have held : holder? (global.after [.define 0 "x" (.number 1) true, .replace 0 "x" (.string "a") false]) "x" 0 =
        some 0 := by
      rw [holder?]
      rfl
    rw [answers, Request.run, assign, assignTarget, held]
    rfl
  · have held : holder? (global.after [.define 0 "x" (.number 1) true, .remove 0 "x",
        .define 0 "x" (.string "a") false]) "x" 0 = some 0 := by
      rw [holder?]
      rfl
    rw [answers, Request.run, assign, assignTarget, held]
    rfl

end Frames

end Scriptlet
