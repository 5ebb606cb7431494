import Scriptlet.Proofs.BindingsKept
import Scriptlet.Proofs.Members
import Scriptlet.Proofs.NamesInScope
import Scriptlet.Proofs.Places

/-!
# Receivers and superclasses

In a method, `this` is the instance that the method was bound to, and `super` is the class that was named in the
declaration of the class of the method. Both are constants of frames that the run opened for this purpose: they
are right when the frame is opened, and they last.
-/
namespace Scriptlet

open World Layers

/-! ## Constants of frames -/

namespace Frames.Fixes

variable {fs fs' : Frames} {f g : FrameId} {name : String} {value : Value}

theorem last (h : fs.Fixes f name value) (hl : fs.Last fs') : fs'.Fixes f name value := by
  obtain ⟨b, hb, rfl, hc⟩ := h
  obtain ⟨b', hb', hlasts⟩ := hl f name b hb
  obtain ⟨hc', hv⟩ := hlasts.constant hc
  exact ⟨b', hb', hv, hc'⟩

theorem getAt (h : fs.Fixes g name value) (hv : value ≠ .undefined) {d : Nat}
    (ha : fs.ancestor? d f = some g) : fs.getAt f d name = .ok value := by
  obtain ⟨b, hb, rfl, -⟩ := h
  simp only [Frames.getAt, Frames.ancestor, ha, Frames.readAt, hb]

end Frames.Fixes

/-- The function is the method, bound to the instance. -/
structure FunctionObject.BoundTo (f method : FunctionObject) (fs : Frames) (id : InstanceId) (c : ClassObject) :
    Prop where
  declaration : f.declaration = method.declaration
  initializer : f.isInitializer = method.isInitializer
  encloses : fs.enclosing? f.frame = some method.frame
  receiver : fs.Fixes f.frame thisName (.object id c)

/-- Binding a method never fails. -/
theorem Eval.meets_bindMethod (method : FunctionObject) (id : InstanceId) (c : ClassObject) (m : Machine) :
    Meets (Eval.bindMethod method id c) m (fun f m' => f.BoundTo method m'.store.frames id c)
      fun _ _ => False := by
  refine ⟨rfl, rfl, ?_, ?_⟩
  · exact World.enclosing_newBinding (m, []) method.frame thisName (.object id c)
  · exact World.fixes_newBinding (m, []) method.frame thisName (.object id c)

/-! ## Evaluating keywords -/

theorem Eval.get_bind {α : Type} (f : Machine → Eval α) (m : Machine) : (get >>= f) m = f m m := rfl

theorem Watched.unseen_bind_of_ok {α β ν : Type} {x : Eval α} {f : α → Watched ν β} {m m' : Machine} {a : α}
    (h : x m = .ok a m') (notes : ν) : ((liftM x : Watched ν α) >>= f) (m, notes) = f a (m', notes) := by
  change EStateM.bind (unseen x) f (m, notes) = f a (m', notes)
  rw [EStateM.bind, unseen, h]

/-- The outcome of reading a method of a superclass: the method, bound to the instance, if there is one. -/
def Eval.YieldsMethod (x : Eval Value) (m : Machine) (parent : ClassObject) (method : Name) (id : InstanceId)
    (c : ClassObject) : Prop :=
  Meets x m
    (fun value m' => ∃ found f, parent.method? method.text = some found ∧ value = .function f ∧
      f.BoundTo found m'.store.frames id c)
    (fun halt m' => parent.method? method.text = none ∧
      halt = .fault method.line (.undefinedProperty method.text) ∧ m' = m)

theorem Eval.YieldsMethod.eq_of_error {x : Eval Value} {m m' : Machine} {parent c : ClassObject} {method : Name}
    {id : InstanceId} {halt : Halt} (h : x.YieldsMethod m parent method id c) (hx : x m = .error halt m') :
    halt = .fault method.line (.undefinedProperty method.text) := by
  unfold YieldsMethod Meets at h
  rw [hx] at h
  exact h.2.1

section Evaluate

variable {m : Machine} {node : NodeId} {d : Nat} {id : InstanceId} {c : ClassObject}

theorem evaluate_this (hd : m.distances[node]? = some d) {value : Value}
    (hv : m.store.frames.getAt m.context.frame d thisName = .ok value) (n line : Nat) :
    evaluate (n + 1) (.this node line) m = .ok value m := by
  have read : Eval.readName node ⟨thisName, line⟩ m = .ok value m := by
    rw [Eval.readName, Eval.get_bind, hd]
    dsimp only
    rw [hv]
    rfl
  have evaluated : evaluate (n + 1) (.this node line) m =
      Watched.unwatched (Watched.unseen (Eval.readName node ⟨thisName, line⟩)) m := rfl
  rw [evaluated, Watched.unwatched, Watched.unseen, read]

theorem readSuperclass_eq (hd : m.distances[node]? = some (d + 1)) {parent : ClassObject}
    (hs : m.store.frames.getAt m.context.frame (d + 1) superName = .ok (.classObject parent))
    (ht : m.store.frames.getAt m.context.frame d thisName = .ok (.object id c)) (line : Nat) :
    Eval.readSuperclass node line m = .ok (parent, id, c) m := by
  rw [Eval.readSuperclass, Eval.get_bind, hd]
  dsimp only
  rw [hs, Nat.add_sub_cancel, ht]
  rfl

theorem evaluate_super (hd : m.distances[node]? = some (d + 1)) {parent : ClassObject}
    (hs : m.store.frames.getAt m.context.frame (d + 1) superName = .ok (.classObject parent))
    (ht : m.store.frames.getAt m.context.frame d thisName = .ok (.object id c)) (n line : Nat)
    (method : Name) :
    (evaluate (n + 1) (.super node line method)).YieldsMethod m parent method id c := by
  have step : watchExpr Observer.silent (n + 1) (.super node line method) (m, ()) =
      (innerAt .silent n).readSuper node line method (m, ()) := rfl
  unfold Eval.YieldsMethod Meets
  rw [evaluate, Watched.unwatched_eq, step, Inner.readSuper,
    Watched.unseen_bind_of_ok (readSuperclass_eq hd hs ht line)]
  dsimp only
  cases parent.method? method.text with
  | none => exact ⟨rfl, rfl, rfl⟩
  | some found => exact ⟨found, _, rfl, rfl, Eval.meets_bindMethod found id c m⟩

end Evaluate

/-! ## Moments of a session -/

/-- The frame was opened for the method when it was bound to the instance. -/
def OpenedFor (older : List Visit) (d : FunctionDecl) (f : FrameId) (id : InstanceId) (c : ClassObject) : Prop :=
  ∃ opening ∈ older, opening.event = .opening (.receiver d) f ∧
    opening.machine.store.frames.Fixes f thisName (.object id c)

/-- The frame was opened for the methods of the declared class, just after its clause had named the
superclass. -/
def OpenedUnder (older : List Visit) (declaration : Stmt) (f : FrameId) (parent : ClassObject) : Prop :=
  ∃ newer opening clause rest, older = newer ++ opening :: clause :: rest ∧
    opening.event = .opening (.superclass declaration) f ∧ clause.NamesSuperclass declaration parent

/-- What is known at a moment of a session. -/
structure Seen (older : List Visit) (v : Visit) : Prop where
  stands : v.Stands older
  shown : AllShown older
  lasting : Lasting (v.machine :: older.map Visit.machine)
  apart (text text' : List Stmt) (id : NodeId) : Started text older → Started text' older →
    id ∈ Stmt.listIds text → id ∈ Stmt.listIds text' → text' = text

namespace Seen

variable {older : List Visit} {v : Visit} (h : Seen older v)
include h

theorem last {earlier : Visit} (he : earlier ∈ older) :
    earlier.machine.store.frames.Last v.machine.store.frames :=
  (List.pairwise_cons.1 h.lasting.last).1 _ (List.mem_map.2 ⟨earlier, he, rfl⟩)

/-- The run is at the place of the name, wherever that is. -/
theorem place {e : Expr} {u : Use} (he : v.event = .evaluating e) (hu : e.reading? = some u)
    {text : List Stmt} {layers : List Layer} (ht : Started text older) (hp : Placed text layers (.use u)) :
    Resolved v.machine.nextNode v.machine.distances text ∧ World.At (v.machine, older) layers := by
  obtain ⟨text', layers', ht', resolved, hp', hat⟩ := h.stands e u he hu
  obtain rfl := h.apart text' text u.id ht' ht hp'.mem_ids hp.mem_ids
  obtain ⟨rfl, -⟩ := hp.unique resolved.nodup hp' rfl
  exact ⟨resolved, hat⟩

variable {layers : List Layer} (hat : World.At (v.machine, older) layers) {k : Nat} {layer : Layer}
  (hl : layers[k]? = some layer)
include hat hl

theorem receiver {d : FunctionDecl} (hr : layer.region = .receiver d) :
    ∃ f id c, v.machine.store.frames.ancestor? k v.machine.context.frame = some f ∧
      OpenedFor older d f id c ∧
      v.machine.store.frames.getAt v.machine.context.frame k thisName = .ok (.object id c) := by
  obtain ⟨f, hf, ⟨opening, hmem, hopening⟩, -⟩ := hat.stack.ancestor hl
  obtain ⟨newer, earlier, rfl⟩ := List.append_of_mem hmem
  rw [hr] at hopening
  obtain ⟨id, c, fixed⟩ := h.shown.visit.1.1.receiver d f hopening
  exact ⟨f, id, c, hf, ⟨opening, hmem, hopening, fixed⟩, (fixed.last (h.last hmem)).getAt nofun hf⟩

theorem superclass {declaration : Stmt} (hr : layer.region = .superclass declaration) :
    ∃ f parent, v.machine.store.frames.ancestor? k v.machine.context.frame = some f ∧
      OpenedUnder older declaration f parent ∧
      v.machine.store.frames.getAt v.machine.context.frame k superName = .ok (.classObject parent) := by
  obtain ⟨f, hf, ⟨opening, hmem, hopening⟩, -⟩ := hat.stack.ancestor hl
  obtain ⟨newer, earlier, hsplit⟩ := List.append_of_mem hmem
  rw [hr] at hopening
  have shown : AllShown (newer ++ opening :: earlier) := hsplit ▸ h.shown
  obtain ⟨clause, rest, parent, rfl, names, fixed⟩ := shown.visit.1.1.superclass declaration f hopening
  exact ⟨f, parent, hf, ⟨newer, opening, clause, rest, hsplit, hopening, names⟩,
    (fixed.last (h.last hmem)).getAt nofun hf⟩

end Seen

/-- The layers around a use are sound. -/
theorem Resolved.keyworded {n : NodeId} {D : Distances} {text : List Stmt} (h : Resolved n D text)
    {layers : List Layer} {u : Use} (hp : Placed text layers (.use u)) : Keyworded layers := by
  cases hp with
  | use hs hu => exact (h.sound hs).2.keyworded.inside (h.sound hs).1

/-- The analysis accepts `this` and `super` in members of classes, but not right in a static method. -/
theorem Resolved.keyword_place {n : NodeId} {D : Distances} {text : List Stmt} (h : Resolved n D text)
    {layers : List Layer} {u : Use} (hp : Placed text layers (.use u)) (hk : u.access = .keyword) :
    (∃ k region, Member layers k region) ∧ inStaticBody layers = false := by
  have found := h.finds hp
  apply hp.nested.keyword_place
  rcases hp.named hk with hn | hn
  · exact .inl (found.this hk hn)
  · exact .inr (found.super hk hn)

/-- The method is being run for the instance: `k` frames out is the frame that was opened when the method was
bound to the instance, and right inside is that of the call. -/
def RunsFor (older : List Visit) (m : Machine) (k : Nat) (d : FunctionDecl) (id : InstanceId) (c : ClassObject) :
    Prop :=
  ∃ j call receiver, k = j + 1 ∧ m.store.frames.ancestor? j m.context.frame = some call ∧
    Opened (.routine d) call older ∧ m.store.frames.ancestor? k m.context.frame = some receiver ∧
    OpenedFor older d receiver id c

/-- The class around the method was declared with the superclass: right outside the receiver is the frame that
was opened when the declaration had named it. -/
def DeclaredUnder (older : List Visit) (m : Machine) (layers : List Layer) (k : Nat) (d : FunctionDecl)
    (parent : ClassObject) : Prop :=
  ∃ layer name use methods statics f, layers[k + 1]? = some layer ∧
    layer.region = .superclass (.classDecl name (some use) methods statics) ∧ d ∈ methods ∧
    m.store.frames.ancestor? (k + 1) m.context.frame = some f ∧
    OpenedUnder older (.classDecl name (some use) methods statics) f parent

namespace Seen

variable {older : List Visit} {v : Visit} (h : Seen older v) {text : List Stmt} {layers : List Layer}
  (ht : Started text older) {node : NodeId} {line k : Nat} {d : FunctionDecl}
include h ht

theorem evaluate_this (he : v.event = .evaluating (.this node line))
    (hp : Placed text layers (.use ⟨node, thisName, .keyword⟩)) {layer : Layer}
    (hn : Nearest thisName layers k layer) (hr : layer.region = .receiver d) :
    ∃ f id c, v.machine.store.frames.ancestor? k v.machine.context.frame = some f ∧
      OpenedFor older d f id c ∧
      ∀ n, evaluate (n + 1) (.this node line) v.machine = .ok (.object id c) v.machine := by
  obtain ⟨resolved, hat⟩ := h.place he rfl ht hp
  obtain ⟨f, id, c, hf, hopened, hthis⟩ := h.receiver hat hn.1 hr
  have distance := (resolved.finds hp).distance.trans hn.distance
  exact ⟨f, id, c, hf, hopened, fun n => Scriptlet.evaluate_this distance hthis n line⟩

/-- If `this` fails, then no method is around it. -/
theorem no_method_of_error (he : v.event = .evaluating (.this node line))
    (hp : Placed text layers (.use ⟨node, thisName, .keyword⟩)) {n : Nat} {halt : Halt} {m : Machine}
    (herror : evaluate (n + 1) (.this node line) v.machine = .error halt m) :
    ∀ layer ∈ layers, ∀ d, layer.region ≠ .receiver d := by
  intro layer hl d hr
  obtain ⟨resolved, -⟩ := h.place he rfl ht hp
  obtain ⟨k, receiver, method, near, hmethod⟩ := (resolved.keyworded hp).this_nearest hl hr
  obtain ⟨_, _, _, _, _, hthis⟩ := h.evaluate_this ht he hp near hmethod
  cases herror.symm.trans (hthis n)

theorem evaluate_super {method : Name} (he : v.event = .evaluating (.super node line method))
    (hp : Placed text layers (.use ⟨node, superName, .keyword⟩)) (hm : Member layers k (.receiver d)) :
    ∃ receiver id c parent, v.machine.store.frames.ancestor? k v.machine.context.frame = some receiver ∧
      OpenedFor older d receiver id c ∧ DeclaredUnder older v.machine layers k d parent ∧
      ∀ n, (evaluate (n + 1) (.super node line method)).YieldsMethod v.machine parent method id c := by
  obtain ⟨resolved, hat⟩ := h.place he rfl ht hp
  have found := resolved.finds hp
  have derived := derived_of_accepted (found.super rfl rfl)
  obtain ⟨layer, name, use, methods, statics, near, hr, hd⟩ :=
    hp.nested.super_nearest (resolved.keyworded hp) hm derived
  obtain ⟨receiver, hreceiver, hregion⟩ := hm.1
  obtain ⟨f, id, c, hf, hopened, hthis⟩ := h.receiver hat hreceiver hregion
  obtain ⟨g, parent, hg, hunder, hsuper⟩ := h.superclass hat near.1 hr
  have distance := found.distance.trans near.distance
  refine ⟨f, id, c, parent, hf, hopened, ⟨layer, name, use, methods, statics, g, near.1, hr, hd, hg, hunder⟩, ?_⟩
  exact fun n => Scriptlet.evaluate_super distance hsuper hthis n line method

end Seen

namespace Session

variable {s : Session} {seen : List Visit}

theorem lasting_visits (h : Lasting (machines [] (s.machine, seen))) (fuel : Nat) (items : List Item) :
    ∃ m, Lasting (machines [] (m, visits fuel items s seen)) := by
  induction items generalizing s seen with
  | nil => exact ⟨s.machine, h⟩
  | cons item items ih => exact ih (bindings_followed.runItem h fuel item)

theorem seen_of_visits (settings : Settings) (sink : Sink) (files : FileTree) (clock fuel : Nat)
    (items : List Item) {newer older : List Visit} {v : Visit}
    (hv : visits fuel items (.initial (.initial settings sink files clock)) [] = newer ++ v :: older) :
    Seen older v := by
  obtain ⟨s, hscope⟩ := (initial_inScope settings sink files clock).runItems fuel items
  have start : Lasting (machines [] ((initial (.initial settings sink files clock)).machine, [])) :=
    initial_lasting settings sink files clock fuel []
  obtain ⟨m, hlasting⟩ := lasting_visits start fuel items
  rw [hv] at hscope hlasting
  have shown := hscope.inv.shown.visit
  have suffix : older <:+ newer ++ v :: older := ⟨newer ++ [v], by simp⟩
  refine ⟨shown.1.1.stands, shown.2, hlasting.sublist ?_, ?_⟩
  · simp [machines]
  · intro text text' id hs hs'
    exact hscope.inv.apart text text' id (hs.mono suffix) (hs'.mono suffix)

end Session

/-! ## Checks of sessions -/

/-- The innermost member of a class around the part is a method, with `k` layers inside its surroundings. -/
def Layers.inMethod (k : Nat) (layers : List Layer) : Bool :=
  layers[k]?.any (·.region.isReceiver) && (layers.take k).all fun layer => !layer.region.isMember

theorem Layers.member_of_inMethod {k : Nat} {layers : List Layer} (h : inMethod k layers = true) :
    ∃ d, Member layers k (.receiver d) := by
  obtain ⟨hk, hinner⟩ := Bool.and_eq_true_iff.1 h
  obtain ⟨layer, hl, hr⟩ := (Option.any_eq_true _ _).1 hk
  obtain ⟨d, hd⟩ := Region.isReceiver_iff.1 hr
  refine ⟨d, ⟨layer, hl, hd⟩, rfl, ?_⟩
  intro j hj inner hi
  have taken : inner ∈ layers.take k := List.mem_of_getElem? ((List.getElem?_take_of_lt hj).trans hi)
  simpa using List.all_eq_true.1 hinner inner taken

namespace Visit

/-- In a text that is about to be run, `this` and `super` stand in methods, with `k` layers inside. -/
def startsInMethods (k : Nat) (v : Visit) : Bool :=
  match v.event with
  | .starting text => (Stmt.listPlaces [] text).all fun p => p.2.access != .keyword || inMethod k p.1
  | _ => true

theorem member_of_startsInMethods {k : Nat} {older : List Visit} (h : older.all (·.startsInMethods k) = true)
    {text : List Stmt} {layers : List Layer} {u : Use} (ht : Started text older)
    (hp : Placed text layers (.use u)) (hk : u.access = .keyword) : ∃ d, Member layers k (.receiver d) := by
  obtain ⟨start, hmem, hstart⟩ := ht
  have checked := List.all_eq_true.1 h start hmem
  unfold startsInMethods at checked
  rw [hstart] at checked
  have here := List.all_eq_true.1 checked (layers, u) (hp.places_subset (List.mem_singleton.2 rfl))
  exact member_of_inMethod (by simpa [hk] using here)

/-- The name of the keyword that is about to be evaluated. -/
def keyword? (v : Visit) : Option String :=
  match v.event with
  | .evaluating (.this ..) => some thisName
  | .evaluating (.super ..) => some superName
  | _ => none

theorem of_keyword? {v : Visit} {name : String} (h : v.keyword? = some name) :
    (name = thisName ∧ ∃ node line, v.event = .evaluating (.this node line)) ∨
      (name = superName ∧ ∃ node line method, v.event = .evaluating (.super node line method)) := by
  unfold keyword? at h
  split at h
  · next node line he => exact .inl ⟨(Option.some.inj h).symm, node, line, he⟩
  · next node line method he => exact .inr ⟨(Option.some.inj h).symm, node, line, method, he⟩
  · cases h

end Visit

/-- Functions inside methods use `this` and `super`. -/
def nestedKeywords : String :=
  "class A { f() { fun g() { return this; } return g(); } }
  class B : A { f() { fun g() { return super.f(); } return g(); } }
  B().f();"

theorem nestedKeywords_seen (name : String) (hn : name = thisName ∨ name = superName) :
    ∃ newer older v, Session.visits 12 [.text nestedKeywords] .new [] = newer ++ v :: older ∧
      v.keyword? = some name ∧ older.all (·.startsInMethods 2) = true := by
  have checked : (let seen := Session.visits 12 [.text nestedKeywords] .new []
      [thisName, superName].all (fun name => seen.any (·.keyword? == some name)) &&
        seen.all (·.startsInMethods 2)) = true := by decide +kernel
  obtain ⟨keywords, inMethods⟩ := Bool.and_eq_true_iff.1 checked
  have found := List.all_eq_true.1 keywords name (by simpa using hn)
  obtain ⟨v, hmem, hv⟩ := List.any_eq_true.1 found
  obtain ⟨newer, older, hsplit⟩ := List.append_of_mem hmem
  rw [hsplit, List.all_append, List.all_cons, Bool.and_eq_true, Bool.and_eq_true] at inMethods
  exact ⟨newer, older, v, hsplit, beq_iff_eq.1 hv, inMethods.2.2⟩

/-! ## `this` and `super` in sessions -/

/-- In every text that a session runs, `this` and `super` stand in members of classes, and never right in the
body of a static method. When one of them is evaluated, this fails only if the superclass does not have the
method, or if the expression stands in a function that is declared inside a static method. In the latter case
`this` is evaluated well if the class stands inside a method of another class. -/
theorem keywords_have_receivers (settings : Settings) (sink : Sink) (files : FileTree) (clock fuel : Nat)
    (items : List Session.Item) :
    let seen := Session.visits fuel items (.initial (.initial settings sink files clock)) []
    (∀ text layers u, Started text seen → Placed text layers (.use u) → u.access = .keyword →
      (∃ k region, Member layers k region) ∧ inStaticBody layers = false) ∧
    ∀ newer v older e u, seen = newer ++ v :: older → v.event = .evaluating e → e.reading? = some u →
      u.access = .keyword →
      (∃ text layers, Started text older ∧ Placed text layers (.use u)) ∧
      ∀ text layers, Started text older → Placed text layers (.use u) →
        ∀ n halt m, evaluate (n + 1) e v.machine = .error halt m →
          (∃ node line method, e = .super node line method ∧
            halt = .fault method.line (.undefinedProperty method.text)) ∨
          ((∃ k declaration, Member layers k (.statics declaration)) ∧
            ∀ node line, e = .this node line → ∀ layer ∈ layers, ∀ d, layer.region ≠ .receiver d) := by
  intro all
  constructor
  · intro text layers u ht hp hk
    obtain ⟨s, hscope⟩ := (Session.initial_inScope settings sink files clock).runItems fuel items
    exact (hscope.inv.texts text ht).keyword_place hp hk
  · intro newer v older e u hv he hu hk
    have seen := Session.seen_of_visits settings sink files clock fuel items hv
    obtain ⟨text, layers, ht, -, hp, -⟩ := seen.stands e u he hu
    refine ⟨⟨text, layers, ht, hp⟩, ?_⟩
    intro text layers ht hp n halt m herror
    obtain ⟨resolved, -⟩ := seen.place he hu ht hp
    obtain ⟨⟨k, region, hm⟩, -⟩ := resolved.keyword_place hp hk
    cases e with
    | this node line =>
      cases hu
      have outside := seen.no_method_of_error ht he hp herror
      rcases hm.cases with ⟨d, rfl⟩ | ⟨declaration, rfl⟩
      · obtain ⟨layer, hl, hr⟩ := hm.mem
        exact absurd hr (outside layer hl d)
      · exact .inr ⟨⟨k, declaration, hm⟩, fun _ _ _ => outside⟩
    | super node line method =>
      cases hu
      rcases hm.cases with ⟨d, rfl⟩ | ⟨declaration, rfl⟩
      · obtain ⟨_, _, _, _, _, _, _, hsuper⟩ := seen.evaluate_super ht he hp hm
        exact .inl ⟨node, line, method, rfl, (hsuper n).eq_of_error herror⟩
      · exact .inr ⟨⟨k, declaration, hm⟩, nofun⟩
    | «variable» use =>
      cases hu
      cases hk
    | _ => cases hu

/-- In a function inside a method, `this` is evaluated well. -/
theorem keywords_have_receivers_method :
    ∃ (newer older : List Visit) (v : Visit) (node : NodeId) (line : Nat),
      Session.visits 12 [.text nestedKeywords] .new [] = newer ++ v :: older ∧
      v.event = .evaluating (.this node line) ∧
      ∃ value m, evaluate 1 (.this node line) v.machine = .ok value m := by
  obtain ⟨newer, older, v, hv, hkeyword, inMethods⟩ := nestedKeywords_seen thisName (.inl rfl)
  obtain ⟨-, node, line, he⟩ | ⟨hname, -⟩ := Visit.of_keyword? hkeyword
  · obtain ⟨⟨text, layers, ht, hp⟩, hfails⟩ := (keywords_have_receivers _ _ _ _ _ _).2 _ _ _ _ _ hv he rfl rfl
    refine ⟨newer, older, v, node, line, hv, he, ?_⟩
    obtain ⟨d, hm⟩ := Visit.member_of_startsInMethods inMethods ht hp rfl
    cases hrun : evaluate 1 (.this node line) v.machine with
    | ok value m => exact ⟨value, m, rfl⟩
    | error halt m =>
      rcases hfails text layers ht hp 0 halt m hrun with ⟨_, _, _, h, _⟩ | ⟨⟨k, declaration, hstatic⟩, -⟩
      · cases h
      · cases (hm.unique hstatic).2
  · exact absurd hname Analysis.thisName_ne_superName

/-- A function that is declared inside a static method may use `this` and `super` as far as the analysis is
concerned, but when they are evaluated there is no receiver, and the run stops. -/
theorem keywords_in_static_function_unbound :
    let this := "class A { static m() { fun g() { return this; } return g(); } } A.m();"
    let super :=
      "class P { f() {} } class A : P { static m() { fun g() { return super.f; } return g(); } } A.m();"
    ((Session.final (Session.runText 12 this .new)).hadError = false ∧
      (Session.final (Session.runText 12 this .new)).machine.reporter.diagnostics =
        [.ofFault 0 (.binding (.undefined "this"))]) ∧
    (Session.final (Session.runText 12 super .new)).hadError = false ∧
      (Session.final (Session.runText 12 super .new)).machine.reporter.diagnostics =
        [.ofFault 0 (.binding (.undefined "this"))] := by
  decide +kernel

/-- In a method, however deep in blocks and functions, `this` is the instance that the running call of the method
was bound to. `super` gives the method of the superclass with which the class of the method was declared, bound
to the same instance, and fails only if the superclass has no such method. -/
theorem keywords_bound (settings : Settings) (sink : Sink) (files : FileTree) (clock fuel : Nat)
    (items : List Session.Item) {newer older : List Visit} {v : Visit} {e : Expr} {u : Use} {text : List Stmt}
    {layers : List Layer} {k : Nat} {d : FunctionDecl}
    (hv : Session.visits fuel items (.initial (.initial settings sink files clock)) [] = newer ++ v :: older)
    (he : v.event = .evaluating e) (hu : e.reading? = some u) (hk : u.access = .keyword)
    (ht : Started text older) (hp : Placed text layers (.use u)) (hm : Member layers k (.receiver d)) :
    ∃ id c, RunsFor older v.machine k d id c ∧
      (∀ node line, e = .this node line →
        ∀ n, evaluate (n + 1) e v.machine = .ok (.object id c) v.machine) ∧
      (∀ node line method, e = .super node line method →
        ∃ parent, DeclaredUnder older v.machine layers k d parent ∧
          ∀ n, (evaluate (n + 1) e).YieldsMethod v.machine parent method id c) := by
  have seen := Session.seen_of_visits settings sink files clock fuel items hv
  obtain ⟨resolved, hat⟩ := seen.place he hu ht hp
  obtain ⟨j, routine, hj, hroutine, hregion⟩ := hp.nested.routine_of_member hm
  obtain ⟨call, hcall, hopened, -⟩ := hat.stack.ancestor hroutine
  rw [hregion] at hopened
  have runs {receiver : FrameId} {id : InstanceId} {c : ClassObject}
      (hr : v.machine.store.frames.ancestor? k v.machine.context.frame = some receiver)
      (hf : OpenedFor older d receiver id c) : RunsFor older v.machine k d id c :=
    ⟨j, call, receiver, hj, hcall, hopened, hr, hf⟩
  cases e with
  | this node line =>
    cases hu
    obtain ⟨layer, near, hr⟩ := hm.this_nearest (resolved.keyworded hp)
    obtain ⟨f, id, c, hf, hfor, hthis⟩ := seen.evaluate_this ht he hp near hr
    exact ⟨id, c, runs hf hfor, fun _ _ _ => hthis, nofun⟩
  | super node line method =>
    cases hu
    obtain ⟨f, id, c, parent, hf, hfor, hunder, hsuper⟩ := seen.evaluate_super ht he hp hm
    refine ⟨id, c, runs hf hfor, nofun, ?_⟩
    rintro _ _ _ ⟨⟩
    exact ⟨parent, hunder, hsuper⟩
  | «variable» use =>
    cases hu
    cases hk
  | _ => cases hu

/-- In a function inside a method of a subclass, `super` gives the method of the superclass. -/
theorem keywords_bound_super :
    ∃ (newer older : List Visit) (v : Visit) (node : NodeId) (line : Nat) (method : Name) (layers : List Layer)
        (d : FunctionDecl) (id : InstanceId) (c parent : ClassObject),
      Session.visits 12 [.text nestedKeywords] .new [] = newer ++ v :: older ∧
      v.event = .evaluating (.super node line method) ∧ Member layers 2 (.receiver d) ∧
      RunsFor older v.machine 2 d id c ∧ DeclaredUnder older v.machine layers 2 d parent ∧
      (evaluate 1 (.super node line method)).YieldsMethod v.machine parent method id c := by
  obtain ⟨newer, older, v, hv, hkeyword, inMethods⟩ := nestedKeywords_seen superName (.inr rfl)
  obtain ⟨hname, -⟩ | ⟨-, node, line, method, he⟩ := Visit.of_keyword? hkeyword
  · exact absurd hname.symm Analysis.thisName_ne_superName
  · obtain ⟨text, layers, ht, -, hp, -⟩ :=
      (Session.seen_of_visits _ _ _ _ _ _ hv).stands (.super node line method) _ he rfl
    obtain ⟨d, hm⟩ := Visit.member_of_startsInMethods inMethods ht hp rfl
    obtain ⟨id, c, hruns, -, hsuper⟩ := keywords_bound _ _ _ _ _ _ hv he rfl rfl ht hp hm
    obtain ⟨parent, hunder, hyields⟩ := hsuper node line method rfl
    exact ⟨newer, older, v, node, line, method, layers, d, id, c, parent, hv, he, hm, hruns, hunder, hyields 0⟩

end Scriptlet
