import Scriptlet.Proofs.FrameRequests
import Scriptlet.Proofs.Outcome
import Scriptlet.Run.Class
import Scriptlet.Run.Expression

/-!
# Frames as a tree

Every frame lies in an older one. So a name is found by going outward frame by frame, and the frame where the search
ends is the one at the smallest distance that binds the name. Access by name and access at that distance are the same.
A declaration or an assignment that succeeds changes one name of one frame, and one that fails changes nothing.
-/
namespace Scriptlet

namespace Frames

def IsTree (fs : Frames) : Prop := ∀ f outer, fs.enclosing? f = some outer → outer < f

/-- The frame `d` steps outward binds the name, and no nearer one does. -/
structure NearestAt (fs : Frames) (f : FrameId) (name : String) (d : Nat) (g : FrameId) : Prop where
  ancestor : fs.ancestor? d f = some g
  bound : (fs.bindingAt? g name).isSome
  nearest : ∀ k < d, ∀ h, fs.ancestor? k f = some h → fs.bindingAt? h name = none

/-- No frame from `f` outward binds the name. -/
def Unbound (fs : Frames) (f : FrameId) (name : String) : Prop :=
  ∀ k h, fs.ancestor? k f = some h → fs.bindingAt? h name = none

/-- The frames differ in what is known of one name in one frame, where the name has the given value now. -/
structure Rebinds (fs fs' : Frames) (g : FrameId) (name : String) (value : Value) : Prop where
  size : fs'.size = fs.size
  value : fs'.valueAt? g name = some value
  enclosing : fs'.enclosing? g = fs.enclosing? g
  names {frame frame' : Frame} : fs[g]? = some frame → fs'[g]? = some frame' → ∀ other ≠ name,
    frame'.bindings.values.find? other = frame.bindings.values.find? other ∧
    frame'.bindings.constants.contains other = frame.bindings.constants.contains other ∧
    frame'.bindings.types.find? other = frame.bindings.types.find? other
  frames : ∀ h ≠ g, fs'[h]? = fs[h]?

variable {fs fs' : Frames} {r : Request} {f g : FrameId} {name : String} {value : Value} {constant : Bool} {d : Nat}

/-! ## Growing trees -/

theorem Effect.isTree (e : fs.Effect r fs') (tree : fs.IsTree) : fs'.IsTree := by
  cases e with
  | none => exact tree
  | @child enclosing inside =>
    intro f outer lies
    by_cases new : f = fs.size
    · rw [new, enclosing?_child_new] at lies
      cases lies
      exact new ▸ inside
    · have older : f < fs.size := by
        have bound := lt_size_of_enclosing? lies
        rw [size_child] at bound
        exact Nat.lt_of_le_of_ne (Nat.le_of_lt_succ bound) new
      rw [enclosing?_child _ _ _ older] at lies
      exact tree f outer lies
  | define | replace | store | remove =>
    intro f outer lies
    exact tree f outer ((enclosing?_update ..).symm.trans lies)

theorem isTree_after (requests : List Request) : (global.after requests).IsTree := by
  induction requests using List.reverseRecOn with
  | nil =>
    intro f outer lies
    cases f with
    | zero => cases lies
    | succ f => cases lies
  | append_singleton requests r ih =>
    rw [after_concat]
    exact (r.effect _).isTree ih

/-! ## Going outward -/

theorem ancestor?_succ {outer : FrameId} (lies : fs.enclosing? f = some outer) :
    fs.ancestor? (d + 1) f = fs.ancestor? d outer := by
  rw [ancestor?, lies]

theorem ancestor?_succ_of_outermost (last : fs.enclosing? f = none) : fs.ancestor? (d + 1) f = none := by
  rw [ancestor?, last]

/-- One frame further in, the frame itself has to be looked at as well. -/
theorem nearestAt_succ {outer : FrameId} (lies : fs.enclosing? f = some outer) :
    fs.NearestAt f name (d + 1) g ↔ fs.bindingAt? f name = none ∧ fs.NearestAt outer name d g := by
  constructor
  · intro h
    refine ⟨h.nearest 0 (Nat.zero_lt_succ d) f rfl, ?_, h.bound, ?_⟩
    · rw [← ancestor?_succ lies, h.ancestor]
    · intro k near h' at?
      exact h.nearest (k + 1) (Nat.succ_lt_succ near) h' ((ancestor?_succ lies).trans at?)
  · rintro ⟨unbound, h⟩
    refine ⟨(ancestor?_succ lies).trans h.ancestor, h.bound, ?_⟩
    intro k near h' at?
    cases k with
    | zero => cases at?; exact unbound
    | succ k => exact h.nearest k (Nat.lt_of_succ_lt_succ near) h' ((ancestor?_succ lies).symm.trans at?)

theorem unbound_iff_of_enclosing {outer : FrameId} (lies : fs.enclosing? f = some outer) :
    fs.Unbound f name ↔ fs.bindingAt? f name = none ∧ fs.Unbound outer name := by
  constructor
  · intro h
    exact ⟨h 0 f rfl, fun k h' at? => h (k + 1) h' ((ancestor?_succ lies).trans at?)⟩
  · rintro ⟨unbound, h⟩ k h' at?
    cases k with
    | zero => cases at?; exact unbound
    | succ k => exact h k h' ((ancestor?_succ lies).symm.trans at?)

theorem holder?_of_bound (hb : (fs.bindingAt? f name).isSome) : fs.holder? name f = some f := by
  rw [holder?, if_pos hb]

theorem holder?_of_enclosing (tree : fs.IsTree) {outer : FrameId} (hb : fs.bindingAt? f name = none)
    (lies : fs.enclosing? f = some outer) : fs.holder? name f = fs.holder? name outer := by
  rw [holder?, hb, lies]
  simp [tree f outer lies]

/-- The search by name ends at the smallest distance where the name is bound. -/
theorem holder?_of_nearestAt (tree : fs.IsTree) (h : fs.NearestAt f name d g) : fs.holder? name f = some g := by
  induction d generalizing f with
  | zero =>
    cases h.ancestor
    exact holder?_of_bound h.bound
  | succ d ih =>
    cases lies : fs.enclosing? f with
    | none => cases (ancestor?_succ_of_outermost lies).symm.trans h.ancestor
    | some outer =>
      obtain ⟨unbound, further⟩ := (nearestAt_succ lies).1 h
      rw [holder?_of_enclosing tree unbound lies]
      exact ih further

theorem holder?_cases (tree : fs.IsTree) (f : FrameId) (name : String) :
    (fs.holder? name f = none ∧ fs.Unbound f name) ∨ ∃ d g, fs.holder? name f = some g ∧ fs.NearestAt f name d g := by
  induction f using Nat.strongRecOn with
  | ind f ih =>
    cases hb : fs.bindingAt? f name with
    | some b =>
      have bound := Option.isSome_of_eq_some hb
      exact .inr ⟨0, f, holder?_of_bound bound, rfl, bound, fun k near => absurd near (Nat.not_lt_zero k)⟩
    | none =>
      cases lies : fs.enclosing? f with
      | none =>
        refine .inl ⟨by simp [holder?, hb, lies], ?_⟩
        intro k h at?
        cases k with
        | zero => cases at?; exact hb
        | succ k => cases (ancestor?_succ_of_outermost lies).symm.trans at?
      | some outer =>
        rw [holder?_of_enclosing tree hb lies]
        rcases ih outer (tree f outer lies) with ⟨nowhere, unbound⟩ | ⟨d, g, found, nearest⟩
        · exact .inl ⟨nowhere, (unbound_iff_of_enclosing lies).2 ⟨hb, unbound⟩⟩
        · exact .inr ⟨d + 1, g, found, (nearestAt_succ lies).2 ⟨hb, nearest⟩⟩

theorem holder?_of_unbound (tree : fs.IsTree) (h : fs.Unbound f name) : fs.holder? name f = none := by
  rcases holder?_cases tree f name with ⟨nowhere, -⟩ | ⟨d, g, -, nearest⟩
  · exact nowhere
  · have bound := nearest.bound
    rw [h d g nearest.ancestor] at bound
    cases bound

/-! ## Access by name and at a distance -/

theorem get_of_nearestAt (tree : fs.IsTree) (h : fs.NearestAt f name d g) : fs.get f name = fs.getAt f d name := by
  rw [get, getAt, holder?_of_nearestAt tree h, ancestor, h.ancestor]

theorem assignTarget_of_nearestAt (tree : fs.IsTree) (h : fs.NearestAt f name d g) (value : Value) :
    fs.assignTarget f name value = fs.assignTargetAt f d name value := by
  rw [assignTarget, assignTargetAt, holder?_of_nearestAt tree h, ancestor, h.ancestor]

theorem assign_of_nearestAt (tree : fs.IsTree) (h : fs.NearestAt f name d g) (value : Value) :
    fs.assign f name value = fs.assignAt f d name value := by
  rw [assign, assignAt, assignTarget_of_nearestAt tree h]

theorem assign_eq_map : fs.assign f name value = (fs.assignTarget f name value).map (fs.store · name value) := by
  unfold assign
  cases fs.assignTarget f name value <;> rfl

theorem assignAt_eq_map :
    fs.assignAt f d name value = (fs.assignTargetAt f d name value).map (fs.store · name value) := by
  unfold assignAt
  cases fs.assignTargetAt f d name value <;> rfl

theorem get_of_unbound (tree : fs.IsTree) (h : fs.Unbound f name) : fs.get f name = .error (.undefined name) := by
  rw [get, holder?_of_unbound tree h]

theorem assign_of_unbound (tree : fs.IsTree) (h : fs.Unbound f name) (value : Value) :
    fs.assign f name value = .error (.undefined name) := by
  rw [assign, assignTarget, holder?_of_unbound tree h]

/-! ## One name of one frame -/

theorem getElem?_update_of_ne {change : Bindings → Bindings} {h : FrameId} (differs : h ≠ g) :
    (fs.update g change)[h]? = fs[h]? := by
  rw [update, Array.getElem?_modify, if_neg (Ne.symm differs)]

/-- A change of the tables that concerns one name. -/
theorem rebinds_update {change : Bindings → Bindings} (now : (fs.update g change).valueAt? g name = some value)
    (values : ∀ (t : Bindings) (other : String), other ≠ name → (change t).values.find? other = t.values.find? other)
    (constants : ∀ (t : Bindings) (other : String), other ≠ name →
      (change t).constants.contains other = t.constants.contains other)
    (types : ∀ (t : Bindings) (other : String), other ≠ name → (change t).types.find? other = t.types.find? other) :
    fs.Rebinds (fs.update g change) g name value where
  size := size_update ..
  value := now
  enclosing := enclosing?_update ..
  frames h differs := getElem?_update_of_ne differs
  names {frame frame'} there there' other differs := by
    rw [update, Array.getElem?_modify, if_pos rfl, there] at there'
    cases there'
    exact ⟨values _ _ differs, constants _ _ differs, types _ _ differs⟩

theorem rebinds_bind (inside : f < fs.size) (name : String) (value : Value) (constant : Bool) :
    fs.Rebinds (fs.bind f name value constant) f name value := by
  apply rebinds_update
  · obtain ⟨frame, there⟩ : ∃ frame, fs[f]? = some frame := ⟨_, Array.getElem?_eq_getElem inside⟩
    have bound := bindingAt?_bind fs f f name name value constant
    rw [if_pos ⟨rfl, rfl⟩, there] at bound
    exact congrArg (Option.map (·.value)) bound
  · intro t other differs
    exact (Table.find?_insert ..).trans (if_neg (Ne.symm differs))
  · intro t other differs
    exact (t.contains_constants_bind name other value constant).trans (if_neg (Ne.symm differs))
  · intro t other differs
    exact (t.find?_recordType name other value).trans (if_neg (Ne.symm differs))

theorem rebinds_store (fits : fs.storeError? g name value = none) :
    fs.Rebinds (fs.store g name value) g name value := by
  obtain ⟨b, hb, -⟩ := binding_of_storeError? fits
  apply rebinds_update
  · have bound := bindingAt?_store fs g g name name value hb
    rw [if_pos ⟨rfl, rfl⟩] at bound
    exact congrArg (Option.map (·.value)) bound
  · intro t other differs
    unfold Bindings.store
    split
    · exact (Table.find?_insert ..).trans (if_neg (Ne.symm differs))
    · rfl
  · intro t other differs
    unfold Bindings.store
    split <;> rfl
  · intro t other differs
    unfold Bindings.store
    split
    · exact (t.find?_recordType name other value).trans (if_neg (Ne.symm differs))
    · rfl

theorem rebinds_of_define (inside : f < fs.size) (h : fs.define f name value constant = .ok fs') :
    fs.Rebinds fs' f name value := by
  obtain ⟨-, rfl⟩ := define_eq_ok h
  exact rebinds_bind inside name value constant

theorem rebinds_of_assignAt (h : fs.assignAt f d name value = .ok fs') :
    ∃ g, fs.ancestor? d f = some g ∧ fs.Rebinds fs' g name value := by
  obtain ⟨g, target, rfl⟩ := assignAt_eq_ok h
  refine ⟨g, ?_, rebinds_store (storeError?_of_assignTargetAt target)⟩
  unfold assignTargetAt ancestor at target
  cases at? : fs.ancestor? d f with
  | none => simp [at?] at target
  | some h =>
    simp only [at?] at target
    split at target
    · cases target
    · cases target
      rfl

theorem rebinds_of_assign (tree : fs.IsTree) (h : fs.assign f name value = .ok fs') :
    ∃ d g, fs.NearestAt f name d g ∧ fs.Rebinds fs' g name value := by
  rcases holder?_cases tree f name with ⟨-, unbound⟩ | ⟨d, g, -, nearest⟩
  · cases (assign_of_unbound tree unbound value).symm.trans h
  · rw [assign_of_nearestAt tree nearest] at h
    obtain ⟨g', at?, rebinds⟩ := rebinds_of_assignAt h
    cases nearest.ancestor.symm.trans at?
    exact ⟨d, g, nearest, rebinds⟩

end Frames

/-! ## Runs -/

/-- A run goes on with other frames, or it stops and keeps those it has. -/
def Machine.commit (m : Machine) (line : Nat) : Except BindingError Frames → EStateM.Result Halt Machine Unit
  | .ok fs => .ok () { m with store := { m.store with frames := fs } }
  | .error e => .error (.fault line (.binding e)) m

namespace Eval

variable (m : Machine) (f : FrameId) (name : Name) (value : Value) (constant : Bool)

theorem define_eq_commit :
    define f name value constant m = m.commit name.line (m.store.frames.define f name.text value constant) := by
  refine (bind_of_ok rfl).trans ?_
  unfold Frames.define
  cases m.store.frames.defineError? f name.text with
  | none => rfl
  | some e => rfl

variable {m name value} in
/-- An assignment is made in the frame that was found for it. -/
theorem store_eq_commit {x : Eval FrameId} {target : Except BindingError FrameId}
    (finds : x m = liftBinding name.line target m) :
    (x >>= fun g => modifyStore (·.updateFrames (·.store g name.text value))) m =
      m.commit name.line (target.map (m.store.frames.store · name.text value)) := by
  cases target with
  | ok g => exact bind_of_ok finds
  | error e => exact bind_of_error finds

theorem assignFrom_eq_commit :
    assignFrom f name value m = m.commit name.line (m.store.frames.assign f name.text value) := by
  have finds : holder f name value m = liftBinding name.line (m.store.frames.assignTarget f name.text value) m :=
    bind_of_ok rfl
  rw [Frames.assign_eq_map]
  exact store_eq_commit finds

variable {m value} (target : Variable)

theorem assignName_of_distance {d : Nat} (resolved : m.distances[target.id]? = some d) :
    assignName target value m =
      m.commit target.name.line (m.store.frames.assignAt m.context.frame d target.name.text value) := by
  have finds : assignmentFrame target value m =
      liftBinding target.name.line (m.store.frames.assignTargetAt m.context.frame d target.name.text value) m := by
    refine (bind_of_ok rfl).trans ?_
    rw [resolved]
  rw [Frames.assignAt_eq_map]
  exact store_eq_commit finds

theorem assignName_of_global (unresolved : m.distances[target.id]? = none) :
    assignName target value m =
      m.commit target.name.line (m.store.frames.assign globalFrame target.name.text value) := by
  have finds : assignmentFrame target value m =
      liftBinding target.name.line (m.store.frames.assignTarget globalFrame target.name.text value) m := by
    refine (bind_of_ok rfl).trans ?_
    rw [unresolved]
  rw [Frames.assign_eq_map]
  exact store_eq_commit finds

end Eval

/-- A frame `f` of a tree, a name and a value. Access by name is access at the smallest distance where the name is
bound, and fails where it is bound nowhere. A declaration or an assignment that succeeds changes this one name in one
frame: `f` itself, the frame at the distance, or the nearest one that binds the name. A run takes the changed frames
over, or it fails and nothing of it changes. -/
theorem access_by_name_and_distance {fs : Frames} (tree : fs.IsTree) {f : FrameId} (inside : f < fs.size) (name : Name)
    (value : Value) :
    (∀ d g, fs.NearestAt f name.text d g →
      fs.get f name.text = fs.getAt f d name.text ∧
      fs.assign f name.text value = fs.assignAt f d name.text value) ∧
    (fs.Unbound f name.text →
      fs.get f name.text = .error (.undefined name.text) ∧
      fs.assign f name.text value = .error (.undefined name.text) ∧
      (BindingError.undefined name.text).message = "Undefined variable " ++ name.text ++ ".") ∧
    (fs.Unbound f name.text ∨ ∃ d g, fs.NearestAt f name.text d g) ∧
    (∀ constant fs', fs.define f name.text value constant = .ok fs' → fs.Rebinds fs' f name.text value) ∧
    (∀ d fs', fs.assignAt f d name.text value = .ok fs' →
      ∃ g, fs.ancestor? d f = some g ∧ fs.Rebinds fs' g name.text value) ∧
    (∀ fs', fs.assign f name.text value = .ok fs' →
      ∃ d g, fs.NearestAt f name.text d g ∧ fs.Rebinds fs' g name.text value) ∧
    ∀ m : Machine, m.store.frames = fs →
      (∀ constant, Eval.define f name value constant m =
        m.commit name.line (fs.define f name.text value constant)) ∧
      Eval.assignFrom f name value m = m.commit name.line (fs.assign f name.text value) ∧
      ∀ node, m.context.frame = f →
        (∀ d, m.distances[node]? = some d →
          Eval.assignName ⟨node, name⟩ value m = m.commit name.line (fs.assignAt f d name.text value)) ∧
        (m.distances[node]? = none →
          Eval.assignName ⟨node, name⟩ value m = m.commit name.line (fs.assign globalFrame name.text value)) := by
  refine ⟨?_, ?_, ?_, ?_, ?_, ?_, ?_⟩
  · intro d g nearest
    exact ⟨Frames.get_of_nearestAt tree nearest, Frames.assign_of_nearestAt tree nearest value⟩
  · intro unbound
    exact ⟨Frames.get_of_unbound tree unbound, Frames.assign_of_unbound tree unbound value, rfl⟩
  · rcases Frames.holder?_cases tree f name.text with ⟨-, unbound⟩ | ⟨d, g, -, nearest⟩
    · exact .inl unbound
    · exact .inr ⟨d, g, nearest⟩
  · intro constant fs' declares
    exact Frames.rebinds_of_define inside declares
  · intro d fs' assigns
    exact Frames.rebinds_of_assignAt assigns
  · intro fs' assigns
    exact Frames.rebinds_of_assign tree assigns
  · rintro m rfl
    refine ⟨Eval.define_eq_commit m f name value, Eval.assignFrom_eq_commit m f name value, ?_⟩
    rintro node rfl
    exact ⟨fun d resolved => Eval.assignName_of_distance ⟨node, name⟩ resolved, Eval.assignName_of_global ⟨node, name⟩⟩

/-- The global frame of a tree of two binds the name, one step out from the inner frame. -/
theorem access_by_name_and_distance_global :
    Frames.get (Frames.global.after [.child 0, .define 0 "x" (.bool true) false]) 1 "x" = .ok (.bool true) ∧
    Frames.get (Frames.global.after [.child 0, .define 0 "x" (.bool true) false]) 1 "x" =
      Frames.getAt (Frames.global.after [.child 0, .define 0 "x" (.bool true) false]) 1 1 "x" := by
  have tree := Frames.isTree_after [.child 0, .define 0 "x" (.bool true) false]
  have nearest : Frames.NearestAt (Frames.global.after [.child 0, .define 0 "x" (.bool true) false]) 1 "x" 1 0 := by
    refine ⟨rfl, rfl, fun k near h at? => ?_⟩
    cases Nat.lt_one_iff.1 near
    cases at?
    rfl
  have same := ((access_by_name_and_distance tree (f := 1) (by decide) ⟨"x", 1⟩ .null).1 1 0 nearest).1
  exact ⟨same, same⟩

end Scriptlet
