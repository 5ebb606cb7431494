import Scriptlet.Proofs.TrackedRules

/-!
# Missing values stay where they are

A variable that is declared without a value holds a missing one until it is assigned. No expression yields the
missing value, so that it never gets anywhere else: it is the value of such a variable and of nothing else.
-/
namespace Scriptlet

/-- Names stay bound, and what has a value keeps having one. -/
def Frames.Settles (fs fs' : Frames) : Prop :=
  ∀ f name b, fs.bindingAt? f name = some b →
    ∃ b', fs'.bindingAt? f name = some b' ∧ (b.value ≠ .undefined → b'.value ≠ .undefined)

/-- The visit shows that a variable is about to be declared without a value in the current frame. -/
def Visit.Declares (v : Visit) (f : FrameId) (name : String) : Prop :=
  v.machine.context.frame = f ∧ ∃ n : Name, n.text = name ∧ v.event = .executing (.letDecl n none)

/-- Only variables that were declared without a value have a missing one; before that declaration the name was not
bound. -/
structure Store.Settled (s : Store) (seen : List Visit) : Prop where
  bindings (f : FrameId) (name : String) (b : Binding) : s.frames.bindingAt? f name = some b →
    b.value = .undefined →
    ∃ v ∈ seen, v.Declares f name ∧ v.machine.store.frames.bindingAt? f name = none
  fields (id : InstanceId) (name : String) (v : Value) : s.field? id name = some v → v ≠ .undefined
  elements : ∀ elements ∈ s.collections, ∀ v ∈ elements, v ≠ .undefined

/-- The store is settled, and so was every one that was seen. -/
structure Settling (s : Store) (seen : List Visit) : Prop where
  settled : s.Settled seen
  visit {newer older : List Visit} {v : Visit} : seen = newer ++ v :: older → v.machine.store.Settled older
  since : ∀ v ∈ seen, v.machine.store.frames.Settles s.frames
  between : seen.Pairwise fun later earlier => earlier.machine.store.frames.Settles later.machine.store.frames

namespace Frames.Settles

variable {fs fs' fs'' : Frames} {v : Value}

theorem refl (fs : Frames) : fs.Settles fs := fun _ _ b hb => ⟨b, hb, fun h => h⟩

theorem trans (h : fs.Settles fs') (h' : fs'.Settles fs'') : fs.Settles fs'' := by
  intro f name b hb
  obtain ⟨b', hb', hv⟩ := h f name b hb
  obtain ⟨b'', hb'', hv'⟩ := h' f name b' hb'
  exact ⟨b'', hb'', fun there => hv' (hv there)⟩

/-- A name that is bound stays so, with a new value or its old binding. -/
theorem of_value (hv : v ≠ .undefined)
    (bound : ∀ f name, (fs.bindingAt? f name).isSome → (fs'.bindingAt? f name).isSome)
    (value : ∀ f name b, fs'.bindingAt? f name = some b → b.value = v ∨ fs.bindingAt? f name = some b) :
    fs.Settles fs' := by
  intro f name b hb
  obtain ⟨b', hb'⟩ := Option.isSome_iff_exists.1 (bound f name (Option.isSome_of_eq_some hb))
  refine ⟨b', hb', fun there => ?_⟩
  rcases value f name b' hb' with new | old
  · exact new ▸ hv
  · cases hb.symm.trans old
    exact there

end Frames.Settles

namespace Settling

variable {s s' : Store} {seen : List Visit} {v : Value}

theorem change (h : Settling s seen) (frames : s.frames.Settles s'.frames) (settled : s'.Settled seen) :
    Settling s' seen :=
  ⟨settled, h.visit, fun v hv => (h.since v hv).trans frames, h.between⟩

/-- The present store may be shown. -/
theorem tell {m : Machine} (h : Settling m.store seen) (event : Event) : Settling m.store (⟨event, m⟩ :: seen) := by
  refine ⟨⟨fun f name b hb missing => ?_, h.settled.fields, h.settled.elements⟩, ?_, ?_, ?_⟩
  · obtain ⟨v, hv, declared⟩ := h.settled.bindings f name b hb missing
    exact ⟨v, List.mem_cons_of_mem _ hv, declared⟩
  · intro newer older v heq
    cases newer with
    | nil =>
      cases heq
      exact h.settled
    | cons latest newer =>
      cases heq
      exact h.visit rfl
  · intro v hv
    rcases List.mem_cons.1 hv with rfl | hv
    · exact .refl _
    · exact h.since v hv
  · exact List.pairwise_cons.2 ⟨h.since, h.between⟩

/-- Names of frames get values that are not missing. -/
theorem changeFrames (h : Settling s seen) {fs : Frames} (hv : v ≠ .undefined)
    (bound : ∀ f name, (s.frames.bindingAt? f name).isSome → (fs.bindingAt? f name).isSome)
    (value : ∀ f name b, fs.bindingAt? f name = some b → b.value = v ∨ s.frames.bindingAt? f name = some b) :
    Settling { s with frames := fs } seen := by
  refine h.change (.of_value hv bound value) ⟨fun f name b hb missing => ?_, h.settled.fields, h.settled.elements⟩
  rcases value f name b hb with new | old
  · exact absurd (new.symm.trans missing) hv
  · exact h.settled.bindings f name b old missing

/-- A name that was not bound before the visit is bound without a value. -/
theorem bindMissing (h : Settling s seen) {f : FrameId} {name : String} (unbound : s.frames.bindingAt? f name = none)
    (declared : ∃ v ∈ seen, v.Declares f name) :
    Settling (s.updateFrames (·.bind f name .undefined false)) seen := by
  obtain ⟨v, hv, declares⟩ := declared
  -- Names stay bound, so one that is not bound now was not bound at the visit either.
  have before : v.machine.store.frames.bindingAt? f name = none := by
    cases hb : v.machine.store.frames.bindingAt? f name with
    | none => rfl
    | some b =>
      obtain ⟨b', hb', -⟩ := h.since v hv f name b hb
      cases unbound.symm.trans hb'
  have bind := fun g other => s.frames.bindingAt?_bind f g name other .undefined false
  refine h.change (fun g other b hb => ⟨b, ?_, fun there => there⟩) ⟨?_, h.settled.fields, h.settled.elements⟩
  · refine (bind g other).trans ?_
    rw [if_neg, hb]
    rintro ⟨rfl, rfl⟩
    cases unbound.symm.trans hb
  · intro g other b hb missing
    rw [Store.updateFrames, bind] at hb
    split at hb
    · next same =>
      obtain ⟨rfl, rfl⟩ := same
      exact ⟨v, hv, declares, before⟩
    · exact h.settled.bindings g other b hb missing

end Settling

/-! ## Tracking missing values -/

/-- No value is missing, except in variables that were declared so. -/
def missingValues : Tracking (List Visit) where
  Ghost := Unit
  le _ _ := True
  value _ v := v ≠ .undefined
  receiver _ _ _ := True
  state _ s seen := Settling s seen
  vacant seen f name := ∃ v ∈ seen, v.Declares f name
  refl _ := trivial
  trans _ _ := trivial
  mono _ h := h

theorem plain_defined : Builtin.Plain (· ≠ .undefined) := by
  constructor <;> intros <;> nofun

theorem missingValues_next {s : Store} {seen : List Visit} (h : Settling s seen) : missingValues.Next () s seen :=
  ⟨(), trivial, h⟩

theorem missingValues_byDeclaration : missingValues.ByDeclaration Regime.free.declaration .recorder where
  toLawfulData := plain_defined.lawfulData (fun _ _ => .rfl) (fun h => h.settled.elements)
    fun _ _ h elements => h.change (.refl _) ⟨h.settled.bindings, h.settled.fields, elements⟩
  function := iff_of_true nofun trivial
  method := .rfl
  classObject := iff_of_true nofun fun _ _ _ _ _ => trivial
  object := iff_of_true nofun fun _ _ _ _ _ => trivial
  called _ _ := trivial
  binding _ _ there := there
  field h hv := h.settled.fields _ _ _ hv
  tell event h := h.tell event
  told m n name := ⟨_, List.mem_cons_self .., rfl, name, rfl, rfl⟩
  child f h := by
    refine missingValues_next (h.changeFrames (v := .null) nofun (fun g name hb => ?_) fun g name b hb => .inr ?_)
    · rwa [Frames.bindingAt?_child]
    · rwa [Frames.bindingAt?_child] at hb
  bind {_ _ _ f name _} constant h _ hv := missingValues_next (h.changeFrames hv
    (fun g other hb => (Frames.isSome_bindingAt?_bind _ f g name other _ constant).2 (.inl hb))
    fun g other _ => Frames.value_bindingAt?_bind _ f g name other _ constant)
  bindMissing h unbound declared := missingValues_next (h.bindMissing unbound declared)
  store {_ _ _ f name _} h _ hv := by
    refine missingValues_next (h.changeFrames hv (fun g other hb => ?_) fun g other _ => ?_)
    · rwa [Frames.isSome_bindingAt?_store]
    · exact Frames.value_bindingAt?_store _ f g name other _
  newInstance h := missingValues_next (h.change (.refl _)
    ⟨h.settled.bindings, fun id name v hv => h.settled.fields id name v (Store.field?_of_newInstance hv),
      h.settled.elements⟩)
  setField id name h hv := by
    refine missingValues_next (h.change (.refl _) ⟨h.settled.bindings, fun id' name' u hu => ?_, h.settled.elements⟩)
    rcases Store.value_field?_setField hu with rfl | there
    · exact hv
    · exact h.settled.fields id' name' u there

theorem missingValues_lawful : missingValues.Lawful Regime.free.declaration .recorder :=
  missingValues_byDeclaration.lawful

/-! ## Sessions -/

/-- The store of a new machine is settled. -/
theorem settling_initial : Settling Store.initial [] := by
  have start : missingValues.state () ⟨#[⟨∅, none⟩], #[], #[], 0⟩ [] := by
    refine ⟨⟨?_, ?_, ?_⟩, fun heq => ?_, fun _ hv => (nomatch hv), .nil⟩
    · intro f name b hb
      cases (Frames.bindingAt?_first f name).symm.trans hb
    · exact fun _ _ _ hv => nomatch hv
    · exact fun _ he => nomatch he
    · cases List.append_eq_nil_iff.1 heq.symm |>.2
  obtain ⟨_, _, settling⟩ := missingValues_lawful.initial start
  exact settling

theorem Session.settling_after (settings : Settings) (sink : Sink) (files : FileTree) (clock fuel : Nat)
    (items : List Item) :
    Settling (after fuel items (.initial (.initial settings sink files clock))).machine.store
      (visits fuel items (.initial (.initial settings sink files clock)) []) := by
  have start : missingValues.state () (Session.initial (.initial settings sink files clock)).machine.store [] :=
    settling_initial
  obtain ⟨_, _, settling⟩ := tracked_after missingValues_lawful start fuel items
  exact settling

/-- What was seen so far could go on from any visit. -/
theorem Settling.resume {s : Store} {newer older : List Visit} {v : Visit}
    (h : Settling s (newer ++ v :: older)) : Settling v.machine.store (v :: older) := by
  have chain := List.pairwise_cons.1 (List.pairwise_append.1 h.between).2.1
  have earlier : Settling v.machine.store older := by
    refine ⟨h.visit rfl, ?_, chain.1, chain.2⟩
    rintro newer' older' v' rfl
    exact h.visit (List.append_assoc newer (v :: newer') (v' :: older')).symm
  exact earlier.tell v.event

/-- From a visit on, no expression yields a missing value, no statement returns one and no call gets one. -/
theorem Settling.defined {s : Store} {newer older : List Visit} {v : Visit} (h : Settling s (newer ++ v :: older))
    (fuel : Nat) :
    (∀ e, Meets (evaluate fuel e) v.machine (fun value _ => value ≠ .undefined) fun _ _ => True) ∧
    (∀ t, Meets (execute fuel t) v.machine (fun flow _ => flow ≠ .returning .undefined) fun _ _ => True) ∧
    ∀ callee args,
      Meets (do
          let _ ← watchExpr .recorder fuel callee
          (innerAt .recorder fuel).evaluateAll args)
        (v.machine, v :: older) (fun values _ => .undefined ∉ values) fun _ _ => True := by
  have resume : missingValues.state () v.machine.store (v :: older) := h.resume
  refine ⟨?_, ?_, fun callee args => ?_⟩
  · intro e
    refine Meets.mono (missingValues_lawful.evaluate resume fuel e trivial) ?_ fun _ _ _ => trivial
    rintro value m ⟨_, _, _, there⟩
    exact there
  · intro t
    refine Meets.mono (missingValues_lawful.execute resume fuel t trivial) ?_ fun _ _ _ => trivial
    rintro flow m ⟨_, _, _, there⟩ rfl
    exact there rfl
  · have parts := missingValues_lawful.tracked fuel
    have run : missingValues.Keeps .free () (v.machine, v :: older)
        (do
          let _ ← watchExpr .recorder fuel callee
          (innerAt .recorder fuel).evaluateAll args)
        fun _ values => ∀ value ∈ values, value ≠ .undefined :=
      .bind (parts.evaluate resume trivial) fun _ _ _ after _ => parts.evaluateAll after.state fun _ _ => trivial
    refine Meets.mono run ?_ fun _ _ _ => trivial
    rintro values w ⟨-, -, there⟩ missing
    exact there _ missing rfl

/-- Over a whole session from a new machine no expression yields a missing value, no statement returns one, and no
call gets one as an argument. At any moment, and at the end, only names whose declaration without a value was seen
before have a missing value, in the frame where they were declared; no field of an instance and no element of a
collection has one. A name that has a value never loses it again. -/
theorem missing_values_stay (settings : Settings) (sink : Sink) (files : FileTree) (clock fuel : Nat)
    (items : List Session.Item) :
    let start := Session.initial (.initial settings sink files clock)
    let seen := Session.visits fuel items start []
    let last := (Session.after fuel items start).machine
    (∀ newer v older, seen = newer ++ v :: older →
      v.machine.store.Settled older ∧ v.machine.store.frames.Settles last.store.frames ∧
      ∀ n, (∀ e, v.event = .evaluating e →
          Meets (evaluate n e) v.machine (fun value _ => value ≠ .undefined) fun _ _ => True) ∧
        (∀ t, v.event = .executing t →
          Meets (execute n t) v.machine (fun flow _ => flow ≠ .returning .undefined) fun _ _ => True) ∧
        ∀ callee line args, v.event = .evaluating (.call callee line args) →
          Meets (do
              let _ ← watchExpr .recorder n callee
              (innerAt .recorder n).evaluateAll args)
            (v.machine, v :: older) (fun values _ => .undefined ∉ values) fun _ _ => True) ∧
    last.store.Settled seen ∧
    seen.Pairwise fun later earlier => earlier.machine.store.frames.Settles later.machine.store.frames := by
  intro start seen last
  have settling := Session.settling_after settings sink files clock fuel items
  refine ⟨fun newer v older hv => ?_, settling.settled, settling.between⟩
  have here : v ∈ seen := by
    rw [hv]
    exact List.mem_append_right _ (List.mem_cons_self ..)
  refine ⟨settling.visit hv, settling.since v here, fun n => ?_⟩
  have there : Settling last.store (newer ++ v :: older) := by
    rw [← hv]
    exact settling
  obtain ⟨evaluated, executed, called⟩ := there.defined n
  exact ⟨fun e _ => evaluated e, fun t _ => executed t, fun callee _ args _ => called callee args⟩

/-- A variable that was declared without a value, and one that got a value since. -/
example :
    let last := (Session.after 9 [.text "let x; let y; y = null;"] .new).machine.store.frames
    (last.bindingAt? globalFrame "x").map (·.value.type) = some .undefined ∧
      (last.bindingAt? globalFrame "y").map (·.value.type) = some .null := by
  decide +kernel

end Scriptlet
