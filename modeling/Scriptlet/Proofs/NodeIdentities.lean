import Scriptlet.Proofs.AnalysisMoves
import Scriptlet.Proofs.ImportChains
import Scriptlet.Proofs.ScopeInvariant

/-!
# Nodes and their distances

Every node of every text has an identity of its own: each text takes identities that were not given out before, also
if it is imported while another text is run. The analysis comes to each node of a text once. What it records there
stays: no later text, import or run changes or removes a distance, and frames stay where they lie, so a function finds
the same frames whenever it is called.
-/
namespace Scriptlet

variable {α β : Type}

/-! ## Distances are kept -/

/-- Nodes that are still to come have no distance. -/
def Machine.Unrecorded (m : Machine) : Prop := ∀ id, m.nextNode ≤ id → m.distances[id]? = none

/-- Distances are recorded for new nodes only, and frames stay where they lie. -/
structure Machine.Remembers (m m' : Machine) : Prop where
  nextNode : m.nextNode ≤ m'.nextNode
  distances (id : NodeId) : id < m.nextNode ∨ m'.nextNode ≤ id → m'.distances[id]? = m.distances[id]?
  enclosing (f g : FrameId) : m.store.frames.enclosing? f = some g → m'.store.frames.enclosing? f = some g

namespace Machine.Remembers

variable {m m' m'' : Machine}

theorem same (hn : m'.nextNode = m.nextNode) (hd : m'.distances = m.distances)
    (hf : ∀ f g, m.store.frames.enclosing? f = some g → m'.store.frames.enclosing? f = some g) : m.Remembers m' :=
  ⟨Nat.le_of_eq hn.symm, fun _ _ => by rw [hd], hf⟩

theorem refl (m : Machine) : m.Remembers m := same rfl rfl fun _ _ h => h

theorem trans (h : m.Remembers m') (h' : m'.Remembers m'') : m.Remembers m'' where
  nextNode := Nat.le_trans h.nextNode h'.nextNode
  distances id hid := by
    have first : id < m.nextNode ∨ m'.nextNode ≤ id := hid.imp_right (Nat.le_trans h'.nextNode)
    have second : id < m'.nextNode ∨ m''.nextNode ≤ id := hid.imp_left fun hlt => Nat.lt_of_lt_of_le hlt h.nextNode
    exact (h'.distances id second).trans (h.distances id first)
  enclosing f g hf := h'.enclosing f g (h.enclosing f g hf)

theorem unrecorded (h : m.Remembers m') (hm : m.Unrecorded) : m'.Unrecorded :=
  fun id hid => (h.distances id (.inr hid)).trans (hm id (Nat.le_trans h.nextNode hid))

theorem distance (h : m.Remembers m') (hm : m.Unrecorded) {id : NodeId} {d : Nat} (hd : m.distances[id]? = some d) :
    m'.distances[id]? = some d := by
  have known : id < m.nextNode := Nat.lt_of_not_le fun hle => nomatch (hm id hle).symm.trans hd
  exact (h.distances id (.inl known)).trans hd

theorem ancestor (h : m.Remembers m') {d : Nat} {f g : FrameId} (hg : m.store.frames.ancestor? d f = some g) :
    m'.store.frames.ancestor? d f = some g := by
  induction d generalizing f with
  | zero => exact hg
  | succ d ih =>
    rw [Frames.ancestor?] at hg ⊢
    cases hf : m.store.frames.enclosing? f with
    | none => rw [hf] at hg; cases hg
    | some outer =>
      rw [hf] at hg
      rw [h.enclosing f outer hf]
      exact ih hg

end Machine.Remembers

/-- Taking up a text gives out identities, and records distances for these at most. -/
theorem Machine.Loads.remembers {m m' : Machine} (h : m.Loads m') : m.Remembers m' := by
  have taken {statements : List Stmt} (takes : m.Takes m' statements)
      (others : ∀ id ∉ Stmt.listIds statements, m'.distances[id]? = m.distances[id]?) : m.Remembers m' := by
    refine ⟨takes.nextNode, fun id hid => others id fun hmem => ?_, fun f g hf => takes.frames ▸ hf⟩
    obtain ⟨low, high⟩ := takes.ids id hmem
    exact hid.elim (Nat.not_lt.2 low) (Nat.not_le.2 high)
  cases h with
  | parsed inComment text =>
    obtain ⟨takes, distances⟩ := m.load_takes inComment text
    exact taken takes fun id _ => by rw [distances]
  | analysed inComment text p =>
    obtain ⟨takes, distances⟩ := m.load_takes inComment text
    have chosen := takes.filter p
    refine taken chosen.analyse fun id hid => ?_
    rw [Machine.analyse_distances, distances]
    exact distances_ofStatements chosen.shaped hid

theorem Machine.Step.remembers {m m' : Machine} (h : m.Step m') : m.Remembers m' := by
  cases h with
  | data hs | native line f args hs => rw [hs]; exact .same rfl rfl fun _ _ h => h
  | reported hs => rw [hs]; exact .same rfl rfl fun _ _ h => h
  | loaded hs => exact hs.remembers
  | frame enclosing =>
    exact .same rfl rfl fun f g hf => (Frames.enclosing?_child _ _ _ (Frames.lt_size_of_enclosing? hf)).trans hf
  | binding | assignment => exact .same rfl rfl fun f g hf => (Frames.enclosing?_update ..).trans hf
  | _ => exact .same rfl rfl fun _ _ h => h

theorem Machine.Steps.remembers {m m' : Machine} (h : m.Steps m') : m.Remembers m' := by
  induction h with
  | refl => exact .refl m
  | tail _ step ih => exact ih.trans step.remembers

/-- Later machines remember the distances of earlier ones. -/
def Evolution.distances : Evolution where
  Good := Machine.Unrecorded
  Keeps := Machine.Remembers
  refl := .refl
  trans := .trans

/-- The text of a file that is neither being run nor imported yet. -/
def Machine.newText? (m : Machine) (place : Place) : Option String :=
  if place ∈ m.context.importChain ∨ place ∈ m.imported then none
  else (m.files.readSource (Path.ofNames place)).toOption

/-- The text that an import takes up, if it comes to that. -/
def Machine.importText? (m : Machine) (path : String) : Option String :=
  (m.importTarget path).toOption.bind m.newText?

theorem Machine.importText?_of_missing {m : Machine} {path : String} {e : FileError}
    (h : m.importTarget path = .error e) : m.importText? path = none := by
  rw [importText?, h]
  rfl

theorem Machine.importText?_of_target {m : Machine} {path : String} {place : Place}
    (h : m.importTarget path = .ok place) : m.importText? path = m.newText? place := by
  rw [importText?, h]
  rfl

/-- The tree that comes of an import which is about to be executed. -/
def Visit.tree? (v : Visit) : Option (List Stmt) :=
  match v.event with
  | .executing (.importFile _ path) =>
    (v.machine.importText? path).map fun text => (v.machine.load false text).1.statements
  | _ => none

/-- The nodes of all trees. -/
def Stmt.treeIds (trees : List (List Stmt)) : List NodeId := trees.flatMap Stmt.listIds

/-- The identities are different, and were given out between two moments. -/
structure FreshBetween (ids : List NodeId) (low high : NodeId) : Prop where
  le : low ≤ high
  nodup : ids.Nodup
  bounds : ∀ id ∈ ids, low ≤ id ∧ id < high

namespace FreshBetween

variable {i j : List NodeId} {a b c : NodeId}

theorem nothing (h : a ≤ b) : FreshBetween [] a b := ⟨h, List.nodup_nil, fun _ hid => nomatch hid⟩

theorem append (h : FreshBetween i a b) (h' : FreshBetween j b c) : FreshBetween (j ++ i) a c := by
  refine ⟨Nat.le_trans h.le h'.le, List.nodup_append.2 ⟨h'.nodup, h.nodup, ?_⟩, fun id hid => ?_⟩
  · rintro x hx _ hy rfl
    exact Nat.not_lt.2 (h'.bounds x hx).1 (h.bounds x hy).2
  · rcases List.mem_append.1 hid with hid | hid
    · exact ⟨Nat.le_trans h.le (h'.bounds id hid).1, (h'.bounds id hid).2⟩
    · exact ⟨(h.bounds id hid).1, Nat.lt_of_lt_of_le (h.bounds id hid).2 h'.le⟩

theorem of_takes {m m' : Machine} {statements : List Stmt} (h : m.Takes m' statements) :
    FreshBetween (Stmt.listIds statements) m.nextNode m'.nextNode :=
  ⟨h.nextNode, h.nodup, h.ids⟩

end FreshBetween

/-- The nodes of the files that were imported on the way from `w` to `w'` are new. -/
def Numbered (w w' : Machine × List Visit) : Prop :=
  ∃ newer, w'.2 = newer ++ w.2 ∧
    FreshBetween (Stmt.treeIds (newer.filterMap Visit.tree?)) w.1.nextNode w'.1.nextNode

namespace Numbered

variable {w w' w'' : Machine × List Visit}

theorem quiet {v : Visit} {m : Machine} (hv : v.tree? = none) (hm : w.1.nextNode ≤ m.nextNode) :
    Numbered w (m, v :: w.2) := by
  refine ⟨[v], rfl, ?_⟩
  rw [List.filterMap_cons_none hv]
  exact .nothing hm

/-- After an import was shown, its file was parsed. -/
theorem parsed {v : Visit} {m : Machine} {statements : List Stmt} (hv : v.tree? = some statements)
    (h : FreshBetween (Stmt.listIds statements) w.1.nextNode m.nextNode) : Numbered w (m, v :: w.2) := by
  refine ⟨[v], rfl, ?_⟩
  rwa [List.filterMap_cons_some hv, List.filterMap_nil, Stmt.treeIds, List.flatMap_singleton]

theorem steps {m : Machine} (hm : w.1.nextNode ≤ m.nextNode) : Numbered w (m, w.2) := ⟨[], rfl, .nothing hm⟩

theorem refl (w : Machine × List Visit) : Numbered w w := steps (Nat.le_refl _)

theorem trans (h : Numbered w w') (h' : Numbered w' w'') : Numbered w w'' := by
  obtain ⟨newer, seen, fresh⟩ := h
  obtain ⟨newest, seen', fresh'⟩ := h'
  refine ⟨newest ++ newer, ?_, ?_⟩
  · rw [seen', seen, List.append_assoc]
  · rw [Stmt.treeIds, List.filterMap_append, List.flatMap_append]
    exact fresh.append fresh'

end Numbered

/-- The files that are imported by the evaluation have new nodes. -/
def Watched.Numbers (x : Watched (List Visit) α) : Prop :=
  ∀ w, Meets x w (fun _ => Numbered w) (fun _ => Numbered w)

namespace Watched.Numbers

theorem lift {x : Eval α} (hx : x.Stepwise) : Numbers (liftM x : Watched (List Visit) α) := by
  intro w
  apply Watched.meets_unseen
  exact (hx w.1).mono (fun _ _ h => .steps h.remembers.nextNode) fun _ _ h => .steps h.remembers.nextNode

/-- An evaluation that goes on where another one ended. -/
theorem rest {x : Watched (List Visit) α} (hx : Numbers x) {w w' : Machine × List Visit} (h : Numbered w w') :
    Meets x w' (fun _ => Numbered w) (fun _ => Numbered w) :=
  (hx w').mono (fun _ _ h' => h.trans h') fun _ _ h' => h.trans h'

theorem bind {x : Watched (List Visit) α} {f : α → Watched (List Visit) β} (hx : Numbers x)
    (hf : ∀ a, Numbers (f a)) : Numbers (x >>= f) :=
  fun w => Meets.bind (hx w) fun a _ h => (hf a).rest h

theorem tell {event : Event} (h : ∀ m, Visit.tree? ⟨event, m⟩ = none) :
    Numbers (Watched.tell .recorder event) :=
  fun w => .quiet (h w.1) (Nat.le_refl _)

theorem inContext (change : Context → Context) {x : Watched (List Visit) α} (hx : Numbers x) :
    Numbers (Watched.inContext .recorder change x) := by
  intro w
  let entered := w.1.withContext (change w.1.context)
  have start : Numbered w (entered, ⟨.entering, entered⟩ :: w.2) := .quiet rfl (Nat.le_refl _)
  have left {w' : Machine × List Visit} (h : Numbered w w') : Numbered w (w'.1.withContext w.1.context, w'.2) := h
  exact Watched.meets_inContext ((hx.rest start).mono (fun _ _ => left) fun _ _ => left)

theorem recovers :
    Recovers (fun _ x (_ : Watched (List Visit) _) => Numbers x) .recorder .recorder where
  pure _ _ := .refl _
  throw _ _ := .refl _
  lift hx := lift hx.stepwise
  bind hx hf := bind hx hf
  tell {event} he := by
    refine tell fun m => ?_
    cases event with
    | executing s => exact absurd rfl (he s)
    | _ => rfl
  inContext _ hx := inContext _ hx
  steps hx := lift hx
  tryCatch _ hx hf w := Meets.tryCatch (hx w) fun e _ h => (hf e).rest h
  markImported _ _ := .steps (Nat.le_refl _)

theorem recovers_inner (n : Nat) : Recovers (fun _ x (_ : Watched (List Visit) _) => Numbers x)
    (innerAt .recorder n).observer (innerAt .recorder n).observer :=
  recovers

section Parts

variable {n : Nat} (he : ∀ s, Numbers (watchStmt .recorder n s))
include he

theorem runAll (ss : List Stmt) : Numbers ((innerAt .recorder n).runAll ss) :=
  (recovers_inner n).runAll fun s _ => he s

theorem runImported (place : Place) (declarations : List Stmt) :
    Numbers ((innerAt .recorder n).runImported place declarations) :=
  inContext (·.enterFile place) (runAll he declarations)

theorem parts (hv : ∀ e, Numbers (watchExpr .recorder n e)) :
    Inner.Parts (fun _ x (_ : Watched (List Visit) _) => Numbers x) (fun _ => True)
      (innerAt .recorder n) (innerAt .recorder n) where
  toComposes := recovers.toComposes
  turns {_ _ y} hx := recovers.loop (y := y) hx n
  evaluate := hv
  execute s _ := he s
  runBody f args :=
    bind (recovers.lift (.checkDepth _)) fun _ => bind ((recovers_inner n).openCall f args) fun _ =>
      inContext _ (runAll he _)

omit he in
theorem readDeclarations (line : Nat) (path text : String) (m : Machine) :
    Meets (Eval.readDeclarations line path text) m (fun _ m' => m'.nextNode = (m.load false text).2.nextNode)
      (fun _ m' => m'.nextNode = (m.load false text).2.nextNode) := by
  refine Meets.bind (Q := fun p m' => p = (m.load false text).1 ∧ m' = (m.load false text).2) ⟨rfl, rfl⟩ ?_
  rintro _ _ ⟨rfl, rfl⟩
  refine Eval.meets_guard (fun _ => rfl) fun _ => ?_
  refine Meets.bind (Q := fun _ m' => m'.nextNode = (m.load false text).2.nextNode) ?_ ?_
  · exact (Machine.analyse_same _ _).alike.nextNode
  · exact fun _ _ same => Eval.meets_guard (fun _ => same) fun _ => same

/-- The tree of the file is new, and so are those of the files that are imported meanwhile. -/
theorem importFile (line : Nat) (path : String) (w : Machine × List Visit) :
    Meets ((innerAt .recorder n).importFile line path) (w.1, ⟨.executing (.importFile line path), w.1⟩ :: w.2)
      (fun _ => Numbered w) (fun _ => Numbered w) := by
  let v : Visit := ⟨.executing (.importFile line path), w.1⟩
  have nothing (h : w.1.importText? path = none) : Numbered w (w.1, v :: w.2) := by
    refine .quiet ?_ (Nat.le_refl _)
    exact congrArg (Option.map fun text => (w.1.load false text).1.statements) h
  refine Inner.meets_importFile _ line path ?_ ?_ ?_ ?_
  · exact fun e target => nothing (Machine.importText?_of_missing target)
  · exact fun place target hchain => nothing ((Machine.importText?_of_target target).trans (if_pos (.inl hchain)))
  · exact fun place target _ himported =>
      nothing ((Machine.importText?_of_target target).trans (if_pos (.inr himported)))
  · intro place target hchain himported
    have text : w.1.importText? path = (w.1.files.readSource (Path.ofNames place)).toOption :=
      (Machine.importText?_of_target target).trans (if_neg (not_or.2 ⟨hchain, himported⟩))
    dsimp only
    cases source : w.1.files.readSource (Path.ofNames place) with
    | error e =>
      rw [source] at text
      exact nothing text
    | ok content =>
      rw [source] at text
      have tree : v.tree? = some (w.1.load false content).1.statements :=
        congrArg (Option.map fun text => (w.1.load false text).1.statements) text
      have fresh := FreshBetween.of_takes (w.1.load_takes false content).1
      have parsed {m : Machine} (h : m.nextNode = (w.1.load false content).2.nextNode) :
          Numbered w (m, v :: w.2) := .parsed tree (h ▸ fresh)
      refine Meets.bind (Q := fun _ => Numbered w) (Watched.meets_unseen ?_) fun declarations w' h => ?_
      · exact (readDeclarations line path content w.1).mono (fun _ _ => parsed) fun _ _ => parsed
      · exact ((recovers_inner n).runDeclarations (runImported he place declarations) line path).rest h

end Parts

theorem watch (fuel : Nat) :
    (∀ e, Numbers (watchExpr .recorder fuel e)) ∧ (∀ s, Numbers (watchStmt .recorder fuel s)) := by
  induction fuel with
  | zero => exact ⟨fun _ => recovers.throw _, fun _ => recovers.throw _⟩
  | succ n ih =>
    have inner := parts ih.2 ih.1
    refine ⟨fun e => bind (tell fun _ => rfl) fun _ => inner.evaluateExpr e, fun s => ?_⟩
    cases s with
    | importFile line path =>
      -- that the import begins is shown before the text is parsed, so both are taken together
      intro w
      refine Meets.bind (Q := fun _ w' => w' = (w.1, ⟨.executing (.importFile line path), w.1⟩ :: w.2)) rfl ?_
      rintro _ _ rfl
      exact Meets.bind (importFile ih.2 line path w) fun _ _ h => Meets.pure h
    | _ => exact bind (tell fun _ => rfl) fun _ => inner.executeStmt (fun _ _ => trivial) nofun

theorem watchText (fuel : Nat) (statements : List Stmt) : Numbers (watchText .recorder fuel statements) := by
  refine bind (tell fun _ => rfl) fun _ => ?_
  induction statements with
  | nil => exact recovers.pure _
  | cons s ss ih => exact bind ((watch fuel).2 s) fun _ => ih

end Watched.Numbers

/-! ## Trees of sessions -/

namespace Session

/-- The trees that come of a text: its own, and those of the files that are imported when it is run. The latest is
first. -/
def textTrees (fuel : Nat) (source : String) (s : Session) : List (List Stmt) :=
  (watchSource fuel source s []).filterMap Visit.tree? ++ [(s.machine.load s.inComment source).1.statements]

def itemTrees (fuel : Nat) (item : Item) (s : Session) : List (List Stmt) :=
  match item with
  | .text source => textTrees fuel source s
  | .script path =>
    match s.machine.files.readSource path with
    | .error _ => []
    | .ok source => textTrees fuel source { s with machine := enterScript path s.machine }

/-- All trees that are parsed in a session, sound or not. -/
def trees (fuel : Nat) : List Item → Session → List (List Stmt)
  | [], _ => []
  | item :: items, s => trees fuel items (final (runItem fuel item s)) ++ itemTrees fuel item s

variable {s : Session}

end Session

-- a text, then the file that it imports, then another text
example :
    (Session.trees 20 [.text "let b = 2; import \"lib.ypl\"; f();", .text "b = a;"]
      (.initial (.initial ⟨false, Machine.defaultCallDepth⟩ .collected
        ⟨[(["lib.ypl"], .file "let a = 1; fun f() \x7b a = a; \x7d".toUTF8)], []⟩ 0))).map Stmt.listIds =
      [[5, 6], [2, 3], [0]] := by
  decide +kernel

end Scriptlet
