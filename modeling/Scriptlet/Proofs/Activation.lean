import Scriptlet.Proofs.Builtins
import Scriptlet.Proofs.Frames
import Scriptlet.Proofs.Scoping
import Scriptlet.Run.Expression

/-!
# Frames as activations of regions

A run opens a frame for a region each time it enters the region. Here the frames of a machine are compared with
the layers around a part of a text: the current frame and those it lies in are activations of the layers, one
by one, and bind what the layers declare. Functions and classes keep the frames that their bodies need.
-/
namespace Scriptlet

/-- A machine with what was seen of the run, the latest first. -/
abbrev World := Machine × List Visit

/-- The run of the text has begun. -/
def Started (text : List Stmt) (visits : List Visit) : Prop := ∃ v ∈ visits, v.event = .starting text

/-- The frame was opened for the region. -/
def Opened (region : Region) (f : FrameId) (visits : List Visit) : Prop :=
  ∃ v ∈ visits, v.event = .opening region f

theorem Started.mono {text : List Stmt} {visits visits' : List Visit} (h : Started text visits)
    (hv : visits <:+ visits') : Started text visits' := by
  obtain ⟨v, hmem, he⟩ := h
  exact ⟨v, hv.subset hmem, he⟩

theorem Opened.mono {region : Region} {f : FrameId} {visits visits' : List Visit}
    (h : Opened region f visits) (hv : visits <:+ visits') : Opened region f visits' := by
  obtain ⟨v, hmem, he⟩ := h
  exact ⟨v, hv.subset hmem, he⟩

namespace World

variable (w w' : World)

def frames : Frames := w.1.store.frames

/-- The frame itself binds the name. -/
def Binds (f : FrameId) (name : String) : Prop := (w.frames.bindingAt? f name).isSome

/-- The frame and those it lies in are activations of the layers and bind the names defined there. -/
inductive Stack : FrameId → List Layer → Prop where
  | outermost : Stack globalFrame []
  | inside {f g : FrameId} {layer : Layer} {layers : List Layer} :
    Opened layer.region f w.2 → w.frames.enclosing? f = some g → Stack g layers →
    (∀ name, layer.names.find? name = some true → w.Binds f name) → Stack f (layer :: layers)

/-! ## Functions and classes with their frames -/

/-- The body of the function stands in a text of the run, and its frame is that of its surroundings. -/
def GoodFunction (f : FunctionObject) : Prop :=
  ∃ text layers, Started text w.2 ∧
    Placed text (.routine f.declaration :: layers) (.statements f.declaration.body) ∧ w.Stack f.frame layers

/-- As before, for a method that is not bound to its receiver yet. -/
def GoodMethod (f : FunctionObject) : Prop :=
  ∃ text layers, Started text w.2 ∧
    Placed text (.routine f.declaration :: .receiver f.declaration :: layers)
      (.statements f.declaration.body) ∧
    w.Stack f.frame layers

def GoodClass (c : ClassObject) : Prop :=
  ∀ layer ∈ c.layers, (∀ name f, layer.methods.find? name = some f → w.GoodMethod f) ∧
    (∀ name f, layer.statics.find? name = some f → w.GoodFunction f)

def Good : Value → Prop
  | .function f => w.GoodFunction f
  | .classObject c => w.GoodClass c
  | .object _ c => w.GoodClass c
  | _ => True

/-! ## Growth -/

/-- What a run leaves as it is. Names are added to frames in `changing` only, and to the global frame. -/
structure Extends (changing : FrameId → Prop) : Prop where
  visits : w.2 <:+ w'.2
  nextNode : w.1.nextNode ≤ w'.1.nextNode
  distances : ∀ id < w.1.nextNode, w'.1.distances[id]? = w.1.distances[id]?
  size : w.frames.size ≤ w'.frames.size
  enclosing : ∀ f < w.frames.size, w'.frames.enclosing? f = w.frames.enclosing? f
  kept : ∀ f name, w.Binds f name → w'.Binds f name
  added : ∀ f name, f < w.frames.size → f ≠ globalFrame → ¬changing f → w'.Binds f name → w.Binds f name

/-- At the end of an evaluation the context is also as before. -/
structure Grows (changing : FrameId → Prop) : Prop extends w.Extends w' changing where
  context : w'.1.context = w.1.context

end World

open World

namespace World.Extends

variable {w w' w'' : World} {changing changing' : FrameId → Prop}

theorem refl (w : World) (changing : FrameId → Prop) : Extends w w changing :=
  ⟨List.suffix_refl _, Nat.le_refl _, fun _ _ => rfl, Nat.le_refl _, fun _ _ => rfl, fun _ _ h => h,
    fun _ _ _ _ _ h => h⟩

theorem trans (h : Extends w w' changing) (h' : Extends w' w'' changing) : Extends w w'' changing where
  visits := h.visits.trans h'.visits
  nextNode := Nat.le_trans h.nextNode h'.nextNode
  distances id hid := (h'.distances id (Nat.lt_of_lt_of_le hid h.nextNode)).trans (h.distances id hid)
  size := Nat.le_trans h.size h'.size
  enclosing f hf := (h'.enclosing f (Nat.lt_of_lt_of_le hf h.size)).trans (h.enclosing f hf)
  kept f name hb := h'.kept f name (h.kept f name hb)
  added f name hf hg hc hb :=
    h.added f name hf hg hc (h'.added f name (Nat.lt_of_lt_of_le hf h.size) hg hc hb)

theorem mono (h : Extends w w' changing) (hc : ∀ f < w.frames.size, changing f → changing' f) :
    Extends w w' changing' :=
  { h with added := fun f name hf hg hn hb => h.added f name hf hg (fun hx => hn (hc f hf hx)) hb }

theorem stack (h : Extends w w' changing) {f : FrameId} {layers : List Layer} (hs : w.Stack f layers) :
    w'.Stack f layers := by
  induction hs with
  | outermost => exact .outermost
  | inside ho he _ hb ih =>
    refine .inside (ho.mono h.visits) ?_ ih fun name hn => h.kept _ name (hb name hn)
    rw [h.enclosing _ (Frames.lt_size_of_enclosing? he), he]

theorem goodFunction (h : Extends w w' changing) {f : FunctionObject} (hf : w.GoodFunction f) :
    w'.GoodFunction f := by
  obtain ⟨text, layers, hs, hp, hstack⟩ := hf
  exact ⟨text, layers, hs.mono h.visits, hp, h.stack hstack⟩

theorem goodMethod (h : Extends w w' changing) {f : FunctionObject} (hf : w.GoodMethod f) :
    w'.GoodMethod f := by
  obtain ⟨text, layers, hs, hp, hstack⟩ := hf
  exact ⟨text, layers, hs.mono h.visits, hp, h.stack hstack⟩

theorem goodClass (h : Extends w w' changing) {c : ClassObject} (hc : w.GoodClass c) : w'.GoodClass c := by
  intro layer hl
  obtain ⟨hm, hs⟩ := hc layer hl
  exact ⟨fun name f hf => h.goodMethod (hm name f hf), fun name f hf => h.goodFunction (hs name f hf)⟩

theorem good (h : Extends w w' changing) {v : Value} (hv : w.Good v) : w'.Good v := by
  cases v with
  | function f => exact h.goodFunction hv
  | classObject c => exact h.goodClass hv
  | object id c => exact h.goodClass hv
  | _ => trivial

end World.Extends

namespace World.Grows

variable {w w' w'' : World} {changing changing' : FrameId → Prop}

theorem refl (w : World) (changing : FrameId → Prop) : Grows w w changing := ⟨.refl w changing, rfl⟩

theorem trans (h : Grows w w' changing) (h' : Grows w' w'' changing) : Grows w w'' changing :=
  ⟨h.toExtends.trans h'.toExtends, h'.context.trans h.context⟩

theorem mono (h : Grows w w' changing) (hc : ∀ f < w.frames.size, changing f → changing' f) :
    Grows w w' changing' :=
  ⟨h.toExtends.mono hc, h.context⟩

end World.Grows

/-! ## Uses of names at run time -/

/-- A use of a name at distance `d`, in an expression of the statement `s`, reaches the frame `f`. This frame is
the activation of just that region of the text in which the name is declared nearest to the use. -/
structure Reaches (older : List Visit) (m : Machine) (u : Use) (s : Stmt) (d : Nat) (f : FrameId)
    (layer : Layer) : Prop where
  frame : m.store.frames.ancestor? d m.context.frame = some f
  scope : ∃ text layers, Started text older ∧ Placed text layers (.statement s) ∧ u ∈ s.uses ∧
    Layers.Nearest u.name (Layers.inside s layers) d layer
  opened : Opened layer.region f older
  only (region : Region) : Opened region f older → region = layer.region

/-- Where a name with a distance is about to be read, the frame reached binds it. -/
def Visit.ReadsInScope (older : List Visit) (v : Visit) : Prop :=
  ∀ e u d, v.event = .evaluating e → e.reading? = some u → v.machine.distances[u.id]? = some d →
    ∃ s f layer, Reaches older v.machine u s d f layer ∧ (v.machine.store.frames.bindingAt? f u.name).isSome

/-- Where a name with a distance is about to be assigned, the frame reached binds it, unless this happens in
the initializer of the name. -/
def Visit.AssignsInScope (older : List Visit) (v : Visit) : Prop :=
  ∀ target value d, v.event = .assigning target value → v.machine.distances[target.id]? = some d →
    ∃ s f layer, Reaches older v.machine target.assigning s d f layer ∧
      ((v.machine.store.frames.bindingAt? f target.name.text).isSome ↔ ¬s.Initializes target.name.text)

/-- Every visit reads and assigns in scope. -/
def AllInScope : List Visit → Prop
  | [] => True
  | v :: older => (v.ReadsInScope older ∧ v.AssignsInScope older) ∧ AllInScope older

/-! ## The invariant of a run -/

namespace World

variable (w : World)

/-- The frame and those it lies in are activations of the layers. The frame itself binds just what the innermost
layer defines. -/
structure Matches (f : FrameId) (layers : List Layer) : Prop where
  stack : w.Stack f layers
  exact {layer : Layer} {outer : List Layer} (h : layers = layer :: outer) (name : String) :
    w.Binds f name → layer.names.find? name = some true

/-- The layers are those around the part of the text that is being run. -/
def At (layers : List Layer) : Prop := w.Matches w.1.context.frame layers

/-- All values in the store keep the frames that they need. -/
structure GoodValues : Prop where
  bindings (f : FrameId) (name : String) (b : Binding) : w.frames.bindingAt? f name = some b → w.Good b.value
  elements : Builtin.Stored w.Good w.1
  fields (id : InstanceId) (name : String) (v : Value) : w.1.store.field? id name = some v → w.Good v

end World

/-! ### Places of names, receivers and superclasses -/

/-- The frame binds the name to the value for good. -/
def Frames.Fixes (fs : Frames) (f : FrameId) (name : String) (value : Value) : Prop :=
  ∃ b, fs.bindingAt? f name = some b ∧ b.value = value ∧ b.constant = true

namespace Visit

variable (older : List Visit) (v : Visit)

/-- Where a name is about to be read, the run is at the place of the name in a text that was resolved. -/
def Stands : Prop :=
  ∀ e u, v.event = .evaluating e → e.reading? = some u → ∃ text layers, Started text older ∧
    Resolved v.machine.nextNode v.machine.distances text ∧ Placed text layers (.use u) ∧
    World.At (v.machine, older) layers

/-- A frame that is opened for a method has a receiver. -/
def HasReceiver : Prop :=
  ∀ method f, v.event = .opening (.receiver method) f →
    ∃ id c, v.machine.store.frames.Fixes f thisName (.object id c)

/-- The clause of the declaration names the class, in the machine at the moment when the clause is evaluated. -/
def NamesSuperclass (declaration : Stmt) (c : ClassObject) : Prop :=
  ∃ name use methods statics, declaration = .classDecl name (some use) methods statics ∧
    v.event = .evaluating (.variable use) ∧
    Eval.readName use.id use.name v.machine = .ok (.classObject c) v.machine

/-- A frame that is opened for the methods of a subclass binds the class that the clause named just before. -/
def HasSuperclass : Prop :=
  ∀ declaration f, v.event = .opening (.superclass declaration) f →
    ∃ clause rest c, older = clause :: rest ∧ clause.NamesSuperclass declaration c ∧
      v.machine.store.frames.Fixes f superName (.classObject c)

/-- Where an expression is about to be evaluated, the run is at a place for the names in it. -/
def StandsAtExpr : Prop :=
  ∀ e, v.event = .evaluating e → ∃ text layers, Started text older ∧
    (∀ u ∈ e.uses, Placed text layers (.use u)) ∧ World.At (v.machine, older) layers

/-- Where a statement is about to be executed, the run is at its place. -/
def StandsAtStmt : Prop :=
  ∀ s, v.event = .executing s → ∃ text layers, Started text older ∧
    Placed text layers (.statement s) ∧ World.At (v.machine, older) layers

/-- A frame that is opened for a call is a local one and binds nothing yet. The parameters that it is opened for have
names of their own. -/
def OpensCall : Prop :=
  ∀ d f, v.event = .opening (.routine d) f →
    f ≠ globalFrame ∧ (∀ name, v.machine.store.frames.bindingAt? f name = none) ∧
      (d.params.map Name.text).Nodup

/-- What holds whenever something is shown. -/
structure Shown : Prop where
  stands : v.Stands older
  receiver : v.HasReceiver
  superclass : v.HasSuperclass older
  expression : v.StandsAtExpr older
  statement : v.StandsAtStmt older
  call : v.OpensCall

end Visit

namespace World

variable (w : World)

/-- The text can be started. Its nodes are those of no text before it. -/
structure Prepared (text : List Stmt) : Prop where
  resolved : Resolved w.1.nextNode w.1.distances text
  apart (text' : List Stmt) (id : NodeId) : Started text' w.2 → id ∈ Stmt.listIds text' → id ∉ Stmt.listIds text

/-- The machine fits the texts that were started and the frames that were opened. -/
structure Fits : Prop where
  values : w.GoodValues
  texts (text : List Stmt) : Started text w.2 → Resolved w.1.nextNode w.1.distances text
  apart (text text' : List Stmt) (id : NodeId) : Started text w.2 → Started text' w.2 →
    id ∈ Stmt.listIds text → id ∈ Stmt.listIds text' → text' = text
  unused (id : NodeId) : w.1.nextNode ≤ id → w.1.distances[id]? = none
  opened (region : Region) (f : FrameId) : Opened region f w.2 → f < w.frames.size ∧ f ≠ globalFrame
  only (region region' : Region) (f : FrameId) : Opened region f w.2 → Opened region' f w.2 → region' = region
  nonempty : 0 < w.frames.size

end World

/-- Whenever something was shown, it held, and the machine fitted what had been shown before. -/
def AllShown : List Visit → Prop
  | [] => True
  | v :: older => (v.Shown older ∧ World.Fits (v.machine, older)) ∧ AllShown older

namespace World

variable (w : World)

structure Inv : Prop extends w.Fits where
  visits : AllInScope w.2
  shown : AllShown w.2

variable {w : World}

theorem Stack.ancestor {f : FrameId} {layers : List Layer} (hs : w.Stack f layers) {d : Nat} {layer : Layer}
    (hl : layers[d]? = some layer) :
    ∃ g, w.frames.ancestor? d f = some g ∧ Opened layer.region g w.2 ∧
      ∀ name, layer.names.find? name = some true → w.Binds g name := by
  induction hs generalizing d with
  | outermost => cases hl
  | @inside f g _ _ ho he _ hb ih =>
    cases d with
    | zero =>
      cases hl
      exact ⟨f, rfl, ho, hb⟩
    | succ d =>
      obtain ⟨g', hg, hrest⟩ := ih hl
      refine ⟨g', ?_, hrest⟩
      rw [Frames.ancestor?, he]
      exact hg

theorem Inv.reaches (hi : w.Inv) {layers : List Layer} (ha : w.At layers) {text : List Stmt}
    (ht : Started text w.2) {u : Use} (hp : Placed text layers (.use u)) {d : Nat}
    (hd : w.1.distances[u.id]? = some d) :
    ∃ s f layer, Reaches w.2 w.1 u s d f layer ∧
      (w.Binds f u.name ↔ ¬s.Initializes u.name) ∧ (u.access ≠ .assign → w.Binds f u.name) := by
  have resolved := hi.texts text ht
  have found := resolved.finds hp
  have outer := resolved.defined_tail hp
  obtain ⟨layer, nearest⟩ := Layers.nearest_of_distance? (found.distance.symm.trans hd)
  obtain ⟨f, hf, hopened, hbinds⟩ := ha.stack.ancestor nearest.1
  obtain ⟨b, hb⟩ := Option.isSome_iff_exists.1 nearest.2.1
  cases hp with
  | @use outermost s _ hs hu =>
  have reached : Reaches w.2 w.1 u s d f layer :=
    ⟨hf, ⟨text, outermost, ht, hs, hu, nearest⟩, hopened, fun r hr => hi.only _ _ f hopened hr⟩
  have defined := resolved.defined_iff hs nearest
  refine ⟨s, f, layer, reached, ?_⟩
  rw [← defined]
  generalize Layers.inside s outermost = layers at *
  cases d with
  | zero =>
    obtain ⟨rest, rfl⟩ : ∃ rest, layers = layer :: rest := by
      cases layers with
      | nil => cases nearest.1
      | cons l rest => cases nearest.1; exact ⟨rest, rfl⟩
    cases hf
    refine ⟨⟨ha.exact rfl u.name, hbinds u.name⟩, fun hr => hbinds u.name ?_⟩
    have hdef := found.defined hr
    rw [Layers.scopes, List.map_cons, Analysis.headMark?_cons, hb] at hdef
    cases b with
    | true => exact hb
    | false => exact absurd rfl hdef
  | succ d =>
    have hmem : layer ∈ layers.tail := by
      cases layers with
      | nil => cases nearest.1
      | cons l rest => exact List.mem_of_getElem? nearest.1
    have htrue : layer.names.find? u.name = some true := by
      cases b with
      | true => exact hb
      | false => exact absurd hb (outer layer hmem u.name)
    exact ⟨⟨fun _ => htrue, hbinds u.name⟩, fun _ => hbinds u.name htrue⟩

end World

end Scriptlet
