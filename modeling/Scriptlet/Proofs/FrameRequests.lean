import Mathlib.Data.List.Induction
import Scriptlet.Proofs.BindingTables

/-!
# Requests to frames

What can be asked of frames, and what a sequence of requests leaves behind. Whatever is asked, refused requests
included, only bound names are constant or have a type. As long as no name is bound over an older binding, the type of
a bound name is that of the first concrete value it has had since it was declared.
-/
namespace Scriptlet.Frames

/-- The global frame alone. -/
def global : Frames := #[⟨∅, none⟩]

/-- What can be asked of frames. -/
inductive Request where
  | child (enclosing : FrameId)
  | define (f : FrameId) (name : String) (value : Value) (constant : Bool)
  /-- The name is bound whatever was bound before. -/
  | replace (f : FrameId) (name : String) (value : Value) (constant : Bool)
  | assign (f : FrameId) (name : String) (value : Value)
  | assignAt (f : FrameId) (distance : Nat) (name : String) (value : Value)
  | remove (f : FrameId) (name : String)
  | get (f : FrameId) (name : String)
  | getAt (f : FrameId) (distance : Nat) (name : String)
  | contains (f : FrameId) (name : String)

inductive Answer where
  | done
  | refused (error : BindingError)
  | value (value : Value)
  | removed (value : Option Value)
  | bound (bound : Bool)

/-- A request that fails leaves the frames as they are. -/
def commit (fs : Frames) : Except BindingError Frames → Answer × Frames
  | .ok changed => (.done, changed)
  | .error e => (.refused e, fs)

def report (fs : Frames) : Except BindingError Value → Answer × Frames
  | .ok value => (.value value, fs)
  | .error e => (.refused e, fs)

def valueAt? (fs : Frames) (f : FrameId) (name : String) : Option Value := (fs.bindingAt? f name).map (·.value)

namespace Request

/-- The answer to a request, and the frames after it. -/
def run (fs : Frames) : Request → Answer × Frames
  -- A frame is opened in one that is there.
  | .child enclosing => (.done, if enclosing < fs.size then fs.child enclosing else fs)
  | .define f name value constant => fs.commit (fs.define f name value constant)
  | .replace f name value constant => (.done, fs.bind f name value constant)
  | .assign f name value => fs.commit (fs.assign f name value)
  | .assignAt f distance name value => fs.commit (fs.assignAt f distance name value)
  | .remove f name => (.removed (fs.valueAt? f name), fs.unbind f name)
  | .get f name => fs.report (fs.get f name)
  | .getAt f distance name => fs.report (fs.getAt f distance name)
  | .contains f name => (.bound (fs.valueAt? f name).isSome, fs)

def isReplacement : Request → Bool
  | .replace .. => true
  | _ => false

end Request

/-- The frames after some requests. -/
def after (fs : Frames) (requests : List Request) : Frames := requests.foldl (fun fs r => (r.run fs).2) fs

def answers (fs : Frames) : List Request → List Answer
  | [] => []
  | r :: requests => (r.run fs).1 :: answers (r.run fs).2 requests

/-- The frames before, between and after requests. -/
def moments (fs : Frames) : List Request → List Frames
  | [] => [fs]
  | r :: requests => fs :: moments (r.run fs).2 requests

theorem after_concat (fs : Frames) (requests : List Request) (r : Request) :
    fs.after (requests ++ [r]) = (r.run (fs.after requests)).2 :=
  List.foldl_append ..

theorem after_declared {fs opened : Frames} {f : FrameId} {name : String} {value : Value} {constant : Bool}
    {earlier : List Request} (opens : (fs.after earlier).define f name value constant = .ok opened)
    (later : List Request) :
    fs.after (earlier ++ .define f name value constant :: later) = opened.after later := by
  have declares : (Request.run (fs.after earlier) (.define f name value constant)).2 = opened := by
    rw [Request.run, opens]
    rfl
  rw [after, List.foldl_append]
  exact congrArg (·.after later) declares

theorem moments_concat (fs : Frames) (requests : List Request) (r : Request) :
    fs.moments (requests ++ [r]) = fs.moments requests ++ [fs.after (requests ++ [r])] := by
  induction requests generalizing fs with
  | nil => rfl
  | cons r' requests ih => exact congrArg (fs :: ·) (ih _)

/-! ## What one request does -/

/-- The frames after a request. -/
inductive Effect (fs : Frames) : Request → Frames → Prop where
  | none (r : Request) : Effect fs r fs
  | child {enclosing : FrameId} : enclosing < fs.size → Effect fs (.child enclosing) (fs.child enclosing)
  | define {f : FrameId} {name : String} (value : Value) (constant : Bool) : fs.bindingAt? f name = .none →
    Effect fs (.define f name value constant) (fs.bind f name value constant)
  | replace (f : FrameId) (name : String) (value : Value) (constant : Bool) :
    Effect fs (.replace f name value constant) (fs.bind f name value constant)
  | store (r : Request) {f : FrameId} {name : String} {value : Value} : fs.storeError? f name value = .none →
    Effect fs r (fs.store f name value)
  | remove (f : FrameId) (name : String) : Effect fs (.remove f name) (fs.unbind f name)

variable {fs fs' : Frames} {r : Request} {f g : FrameId} {name : String} {value : Value} {constant : Bool}

theorem define_of_unbound (hb : fs.bindingAt? f name = none) :
    fs.define f name value constant = .ok (fs.bind f name value constant) := by
  rw [define, defineError?, hb]
  rfl

theorem define_of_bound (hb : (fs.bindingAt? f name).isSome) :
    fs.define f name value constant = .error (.redeclared name) := by
  rw [define, defineError?, if_pos hb]

theorem define_eq_ok (h : fs.define f name value constant = .ok fs') :
    fs.bindingAt? f name = none ∧ fs' = fs.bind f name value constant := by
  cases hb : fs.bindingAt? f name with
  | none =>
    rw [define_of_unbound hb] at h
    cases h
    exact ⟨rfl, rfl⟩
  | some b =>
    rw [define_of_bound (Option.isSome_of_eq_some hb)] at h
    cases h

theorem assign_eq_ok (h : fs.assign f name value = .ok fs') :
    ∃ g, fs.assignTarget f name value = .ok g ∧ fs' = fs.store g name value := by
  unfold assign at h
  split at h
  · cases h
  · next g target =>
    cases h
    exact ⟨g, target, rfl⟩

theorem assignAt_eq_ok {distance : Nat} (h : fs.assignAt f distance name value = .ok fs') :
    ∃ g, fs.assignTargetAt f distance name value = .ok g ∧ fs' = fs.store g name value := by
  unfold assignAt at h
  split at h
  · cases h
  · next g target =>
    cases h
    exact ⟨g, target, rfl⟩

theorem Effect.commit {result : Except BindingError Frames} (h : ∀ fs', result = .ok fs' → fs.Effect r fs') :
    fs.Effect r (fs.commit result).2 := by
  cases result with
  | error e => exact .none r
  | ok fs' => exact h fs' rfl

theorem report_snd (fs : Frames) (result : Except BindingError Value) : (fs.report result).2 = fs := by
  cases result <;> rfl

theorem Request.effect (fs : Frames) (r : Request) : Effect fs r (r.run fs).2 := by
  cases r with
  | child enclosing =>
    by_cases inside : enclosing < fs.size
    · simpa [run, inside] using Effect.child inside
    · simpa [run, inside] using Effect.none _
  | define f name value constant =>
    refine Effect.commit fun fs' h => ?_
    obtain ⟨unbound, rfl⟩ := define_eq_ok h
    exact .define value constant unbound
  | replace f name value constant => exact .replace f name value constant
  | assign f name value =>
    refine Effect.commit fun fs' h => ?_
    obtain ⟨g, target, rfl⟩ := assign_eq_ok h
    exact .store _ (storeError?_of_assignTarget target)
  | assignAt f distance name value =>
    refine Effect.commit fun fs' h => ?_
    obtain ⟨g, target, rfl⟩ := assignAt_eq_ok h
    exact .store _ (storeError?_of_assignTargetAt target)
  | remove f name => exact .remove f name
  | get f name => simpa [run, report_snd] using Effect.none _
  | getAt f distance name => simpa [run, report_snd] using Effect.none _
  | contains f name => exact .none _

/-- Whatever is asked, only bound names are constant or have a type. -/
theorem Effect.tidy (e : fs.Effect r fs') (h : fs.Tidy) : fs'.Tidy := by
  cases e with
  | none => exact h
  | child _ => exact Each.child h .empty _
  | define value constant _ => exact Each.update h fun frame there => (h _ frame there).bind _ value constant
  | replace f name value constant => exact Each.update h fun frame there => (h f frame there).bind name value constant
  | store _ _ => exact Each.update h fun frame there => (h _ frame there).store _ _
  | remove f name => exact Each.update h fun frame there => (h f frame there).erase name

/-- If no binding is replaced, the types of values are the recorded ones. -/
theorem Effect.consistent (e : fs.Effect r fs') (hr : r.isReplacement = false) (h : fs.Consistent) :
    fs'.Consistent := by
  cases e with
  | none => exact h
  | child _ => exact h.child _
  | define value constant unbound => exact h.bind unbound value constant
  | replace => cases hr
  | store _ fits => exact h.store fits
  | remove f name => exact h.unbind f name

theorem bindingAt?_unbind (fs : Frames) (f g : FrameId) (name other : String) :
    (fs.unbind f name).bindingAt? g other = if f = g ∧ name = other then none else fs.bindingAt? g other := by
  rw [unbind, bindingAt?_update]
  by_cases hf : f = g
  · subst hf
    rw [if_pos rfl, bindingAt?]
    cases fs[f]? with
    | none => simp
    | some frame => by_cases hn : name = other <;> simp [hn]
  · simp [hf]

/-- A name that is bound after a request was declared by it, or it was bound before and keeps its type. If it had no
type, the value that it has now may give it one. -/
theorem Effect.binding (e : fs.Effect r fs') (hr : r.isReplacement = false) (h : fs.Consistent) {b : Binding}
    (hb : fs'.bindingAt? g name = some b) :
    (∃ constant, r = .define g name b.value constant ∧ fs.define g name b.value constant = .ok fs' ∧
        b.type = b.value.fixedType?) ∨
      ∃ old, fs.bindingAt? g name = some old ∧ b.type = (old.type <|> b.value.fixedType?) := by
  -- A binding that stays as it is has the type of its value already.
  have same (there : fs.bindingAt? g name = some b) :
      ∃ old, fs.bindingAt? g name = some old ∧ b.type = (old.type <|> b.value.fixedType?) := by
    refine ⟨b, there, ?_⟩
    obtain ⟨frame, at?, found⟩ := Option.bind_eq_some_iff.1 there
    obtain ⟨value, held, rfl⟩ := Option.map_eq_some_iff.1 found
    cases concrete : value.fixedType? with
    | none => simp
    | some type => simp [(h g frame at?).values held concrete]
  cases e with
  | none => exact .inr (same hb)
  | child _ => exact .inr (same (by rwa [bindingAt?_child] at hb))
  | @define f other value constant unbound =>
    have old := hb
    rw [h.tidy.bindingAt?_bind_of_unbound unbound] at old
    split at old
    · next new =>
      obtain ⟨rfl, rfl, -⟩ := new
      cases old
      exact .inl ⟨constant, rfl, define_of_unbound unbound, rfl⟩
    · exact .inr (same old)
  | replace => cases hr
  | @store _ f other value fits =>
    obtain ⟨old, hold, -⟩ := binding_of_storeError? fits
    rw [bindingAt?_store _ _ _ _ _ _ hold] at hb
    split at hb
    · next written =>
      obtain ⟨rfl, rfl⟩ := written
      cases hb
      exact .inr ⟨old, hold, rfl⟩
    · exact .inr (same hb)
  | remove f other =>
    rw [bindingAt?_unbind] at hb
    split at hb
    · cases hb
    · exact .inr (same hb)

/-! ## Whole histories -/

theorem tidy_after (requests : List Request) : (global.after requests).Tidy := by
  induction requests using List.reverseRecOn with
  | nil => exact Each.first .empty
  | append_singleton requests r ih =>
    rw [after_concat]
    exact (r.effect _).tidy ih

section Plain

variable {requests : List Request} (plain : ∀ r ∈ requests, r.isReplacement = false)

include plain

theorem consistent_after : (global.after requests).Consistent := by
  induction requests using List.reverseRecOn with
  | nil => exact .first
  | append_singleton requests r ih =>
    rw [after_concat]
    exact (r.effect _).consistent (plain r (by simp)) (ih fun r' hr => plain r' (by simp [hr]))

/-- A bound name was declared, has been bound ever since, and has the type of the first concrete value of that time. -/
theorem declaration_of_binding {b : Binding} (hb : (global.after requests).bindingAt? g name = some b) :
    ∃ earlier value constant opened later,
      requests = earlier ++ .define g name value constant :: later ∧
      (global.after earlier).define g name value constant = .ok opened ∧
      (∀ fs ∈ opened.moments later, (fs.valueAt? g name).isSome) ∧
      b.type = ((opened.moments later).filterMap (·.valueAt? g name)).findSome? Value.fixedType? := by
  induction requests using List.reverseRecOn generalizing b with
  | nil => cases (bindingAt?_first g name).symm.trans hb
  | append_singleton requests r ih =>
    have before : ∀ r' ∈ requests, r'.isReplacement = false := fun r' hr => plain r' (by simp [hr])
    have now := after_concat global requests r
    have held : (global.after (requests ++ [r])).valueAt? g name = some b.value := by simp [valueAt?, hb]
    have e := r.effect (global.after requests)
    rw [← now] at e
    rcases e.binding (plain r (by simp)) (consistent_after before) hb with
      ⟨constant, rfl, opens, type⟩ | ⟨old, hold, type⟩
    · refine ⟨requests, b.value, constant, _, [], rfl, opens, ?_, ?_⟩
      · simp [moments, held]
      · simp [moments, held, type]
    · obtain ⟨earlier, value, constant, opened, later, rfl, opens, bound, typeBefore⟩ := ih before hold
      have last := after_declared opens (later ++ [r])
      rw [← List.cons_append, ← List.append_assoc] at last
      rw [last] at held
      refine ⟨earlier, value, constant, opened, later ++ [r], by simp, opens, ?_, ?_⟩
      · intro fs hfs
        rw [moments_concat] at hfs
        rcases List.mem_append.1 hfs with old | new
        · exact bound fs old
        · rw [List.mem_singleton.1 new, held]
          rfl
      · rw [moments_concat, List.filterMap_append, List.findSome?_append, ← typeBefore, type]
        simp [held]

end Plain

/-- Frames that grow from the global one by opening, declaring, assigning and removing: only bound names are constant
or have a type, a concrete value has the type that is recorded for its name, and a bound name has a type just if it has
had a concrete value since it was declared last. The first such value fixed it. -/
theorem types_since_declaration {requests : List Request} (plain : ∀ r ∈ requests, r.isReplacement = false)
    {g : FrameId} {frame : Frame} (there : (global.after requests)[g]? = some frame) :
    (∀ name ∈ frame.bindings.constants, frame.contains name = true) ∧
    (∀ name type, frame.bindings.types.find? name = some type → frame.contains name = true) ∧
    ∀ name value, frame.bindings.values.find? name = some value →
      (value.isConcrete = true → frame.bindings.types.find? name = some value.type) ∧
      ∃ earlier declared constant opened later,
        requests = earlier ++ .define g name declared constant :: later ∧
        (global.after earlier).define g name declared constant = .ok opened ∧
        -- The name has been bound ever since, so this declaration is the last one that was not refused.
        (∀ fs ∈ opened.moments later, (fs.valueAt? g name).isSome) ∧
        frame.bindings.types.find? name =
          ((opened.moments later).filterMap (·.valueAt? g name)).findSome? Value.fixedType? := by
  have tables := consistent_after plain g frame there
  refine ⟨fun name marked => tables.constants marked, fun name type recorded => tables.types recorded, ?_⟩
  intro name value held
  constructor
  · intro concrete
    exact tables.values held (by simp [Value.fixedType?, concrete])
  · have bound : (global.after requests).bindingAt? g name =
        some ⟨value, frame.bindings.constants.contains name, frame.bindings.types.find? name⟩ := by
      simp [bindingAt?, there, Bindings.find?, held]
    exact declaration_of_binding plain bound

/-- A variable is removed, declared again without a value and assigned from an inner frame, after an attempt to declare
it twice. -/
def Request.reassignments : List Request :=
  [.define 0 "x" (.bool true) true, .remove 0 "x", .define 0 "x" .undefined false, .child 0,
    .define 0 "x" .null true, .assignAt 1 1 "x" (.string "a"), .assignAt 1 1 "x" .null]

theorem types_since_declaration_reassigned :
    (global.after Request.reassignments)[0]? = some ⟨⟨⟨[("x", .null)]⟩, [], ⟨[("x", .string)]⟩⟩, none⟩ ∧
    ∃ earlier declared constant opened later,
      Request.reassignments = earlier ++ .define 0 "x" declared constant :: later ∧
      (global.after earlier).define 0 "x" declared constant = .ok opened ∧
      (∀ fs ∈ opened.moments later, (fs.valueAt? 0 "x").isSome) ∧
      some ValueType.string = ((opened.moments later).filterMap (·.valueAt? 0 "x")).findSome? Value.fixedType? := by
  have there : (global.after Request.reassignments)[0]? = some ⟨⟨⟨[("x", .null)]⟩, [], ⟨[("x", .string)]⟩⟩, none⟩ := rfl
  exact ⟨there, ((types_since_declaration (by decide) there).2.2 "x" .null rfl).2⟩

end Scriptlet.Frames
