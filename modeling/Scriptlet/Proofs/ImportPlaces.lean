import Scriptlet.Proofs.ImportChains

/-!
# Where imports start

A relative import starts in the directory of the file that is being run, which is the last one of the chain. Outside of
functions this is the file that the import is written in: while the statements of a file are run, only these and their
parts are executed in this file and in the call it was begun in. The body of a function is executed in a deeper call,
but in the file that calls it, wherever it was written; so are the imports in it.
-/
namespace Scriptlet

variable {α β : Type}

/-! ## What is seen of an evaluation -/

/-- The run is back in the context it began in, and every visit since then meets `P`. -/
structure SeenSince (P : Visit → Prop) (m : Machine) (older : List Visit) (w : Machine × List Visit) : Prop where
  context : w.1.context = m.context
  visits : ∃ newer, w.2 = newer ++ older ∧ ∀ v ∈ newer, P v

namespace SeenSince

variable {P : Visit → Prop} {m : Machine} {older : List Visit} {w w' : Machine × List Visit}

theorem nothing {m' : Machine} (h : m'.context = m.context) : SeenSince P m older (m', older) :=
  ⟨h, [], rfl, fun _ hv => nomatch hv⟩

theorem trans (h : SeenSince P m older w) (h' : SeenSince P w.1 w.2 w') : SeenSince P m older w' := by
  obtain ⟨newer, hseen, hn⟩ := h.visits
  obtain ⟨latest, hseen', hl⟩ := h'.visits
  refine ⟨h'.context.trans h.context, latest ++ newer, by rw [hseen', hseen, List.append_assoc], fun v hv => ?_⟩
  exact (List.mem_append.1 hv).elim (hl v) (hn v)

end SeenSince

/-- From every machine the evaluation comes back to the context it began in, and the visits on the way are seen from
there as `P` says. -/
def Watched.Sees (P : Context → Visit → Prop) (x : Watched (List Visit) α) : Prop :=
  ∀ m older, Meets x (m, older) (fun _ => SeenSince (P m.context) m older) fun _ => SeenSince (P m.context) m older

namespace Watched.Sees

variable {P P' : Context → Visit → Prop}

/-- An evaluation that goes on where another one came back. -/
theorem rest {x : Watched (List Visit) α} (hx : Sees P x) {m : Machine} {older : List Visit}
    {w : Machine × List Visit} (hw : SeenSince (P m.context) m older w) :
    Meets x w (fun _ => SeenSince (P m.context) m older) fun _ => SeenSince (P m.context) m older := by
  have same : P w.1.context = P m.context := congrArg P hw.context
  refine (hx w.1 w.2).mono (fun _ _ h => hw.trans ?_) fun _ _ h => hw.trans ?_
  · exact same ▸ h
  · exact same ▸ h

theorem lift {x : Eval α} (hx : x.Stepwise) : Sees P (liftM x : Watched (List Visit) α) := by
  intro m older
  apply Watched.meets_unseen
  exact (hx m).mono (fun _ _ h => .nothing h.context.1) fun _ _ h => .nothing h.context.1

theorem bind {x : Watched (List Visit) α} {f : α → Watched (List Visit) β} (hx : Sees P x)
    (hf : ∀ a, Sees P (f a)) : Sees P (x >>= f) :=
  fun m older => Meets.bind (hx m older) fun a _ hw => (hf a).rest hw

theorem tryCatch {x : Watched (List Visit) α} {f : Halt → Watched (List Visit) α} (hx : Sees P x)
    (hf : ∀ e, Sees P (f e)) : Sees P (MonadExcept.tryCatch x f : Watched (List Visit) α) :=
  fun m older => Meets.tryCatch (hx m older) fun e _ hw => (hf e).rest hw

theorem tell {event : Event} (h : ∀ m, P m.context ⟨event, m⟩) : Sees P (Watched.tell .recorder event) :=
  fun m _ => ⟨rfl, [⟨event, m⟩], rfl, fun _ hv => List.mem_singleton.1 hv ▸ h m⟩

/-- Visits inside a changed context are seen from outside. -/
theorem inContext {change : Context → Context} {x : Watched (List Visit) α} (hx : Sees P' x)
    (entering : ∀ m, P' m.context ⟨.entering, m⟩) (outward : ∀ c v, P' (change c) v → P c v) :
    Sees P (Watched.inContext .recorder change x) := by
  intro m older
  apply Watched.meets_inContext
  have entered : SeenSince (P' (change m.context)) (m.withContext (change m.context)) older
      (m.withContext (change m.context), ⟨.entering, m.withContext (change m.context)⟩ :: older) :=
    ⟨rfl, [⟨.entering, m.withContext (change m.context)⟩], rfl,
      fun _ hv => List.mem_singleton.1 hv ▸ entering (m.withContext (change m.context))⟩
  have after {w : Machine × List Visit}
      (hw : SeenSince (P' (change m.context)) (m.withContext (change m.context)) older w) :
      SeenSince (P m.context) m older (w.1.withContext m.context, w.2) := by
    obtain ⟨newer, hseen, hn⟩ := hw.visits
    exact ⟨rfl, newer, hseen, fun v hv => outward _ v (hn v hv)⟩
  exact (hx.rest (m := m.withContext (change m.context)) entered).mono (fun _ _ => after) fun _ _ => after

theorem recovers (here : ∀ m event, (∀ s, event ≠ .executing s) → P m.context ⟨event, m⟩)
    (outward : ∀ c c' v, c.SameCall c' → P c' v → P c v) :
    Recovers (fun _ x (_ : Watched (List Visit) _) => Sees P x) .recorder .recorder where
  pure _ _ _ := .nothing rfl
  throw _ _ _ := .nothing rfl
  lift hx := lift hx.stepwise
  bind hx hf := bind hx hf
  tell h := tell fun m => here m _ h
  inContext hc hx := inContext hx (fun m => here m _ nofun) fun c v => outward c _ v (hc c)
  steps hx := lift hx
  tryCatch _ hx hf := tryCatch hx hf
  markImported _ _ _ := .nothing rfl

end Watched.Sees

/-! ## Inside one file -/

/-- A statement of a text, outside of functions and classes. -/
inductive Stmt.Direct (text : List Stmt) : Stmt → Prop where
  | top {s : Stmt} : s ∈ text → Direct text s
  | part {s t : Stmt} : Direct text s → t ∈ s.parts → Direct text t

/-- Seen from the context, the visit is made in a file that is run from there, and at least as deep in calls. In the
same file it finds the same directory, and in the same call only statements that meet `S` are executed. -/
structure Visit.Confined (S : Stmt → Prop) (c : Context) (v : Visit) : Prop where
  chain : c.importChain <+: v.machine.context.importChain
  depth : c.callDepth ≤ v.machine.context.callDepth
  directory : v.machine.context.importChain = c.importChain →
    v.machine.context.scriptDirectory = c.scriptDirectory
  statement : v.machine.context.importChain = c.importChain → v.machine.context.callDepth = c.callDepth →
    ∀ s, v.event = .executing s → S s

namespace Visit.Confined

variable {S S' : Stmt → Prop} {c c' : Context} {v : Visit}

theorem here {event : Event} (m : Machine) (h : ∀ s, event = .executing s → S s) :
    Visit.Confined S m.context ⟨event, m⟩ :=
  ⟨List.prefix_refl _, Nat.le_refl _, fun _ => rfl, fun _ _ => h⟩

/-- A visit in a context that was entered from another one. Other statements may be executed in it if it is in another
call or another file. -/
theorem outward (h : v.Confined S' c') (hchain : c.importChain <+: c'.importChain)
    (hdepth : c.callDepth ≤ c'.callDepth)
    (hdirectory : c'.importChain = c.importChain → c'.scriptDirectory = c.scriptDirectory)
    (hstatement : c'.importChain = c.importChain → c'.callDepth = c.callDepth → ∀ s, S' s → S s) :
    v.Confined S c := by
  have between (hv : v.machine.context.importChain = c.importChain) : c'.importChain = c.importChain := by
    refine (hchain.eq_of_length (Nat.le_antisymm hchain.length_le ?_)).symm
    rw [← hv]
    exact h.chain.length_le
  refine ⟨hchain.trans h.chain, Nat.le_trans hdepth h.depth, fun hv => ?_, fun hv hd s hs => ?_⟩
  · have same := between hv
    exact (h.directory (hv.trans same.symm)).trans (hdirectory same)
  · have same := between hv
    have level : c'.callDepth = c.callDepth := Nat.le_antisymm (hd ▸ h.depth) hdepth
    exact hstatement same level s (h.statement (hv.trans same.symm) (hd.trans level.symm) s hs)

theorem of_sameCall (hc : c.SameCall c') (h : v.Confined S c') : v.Confined S c :=
  h.outward (hc.importChain ▸ List.prefix_refl _) (Nat.le_of_eq hc.callDepth.symm) (fun _ => hc.scriptDirectory)
    fun _ _ _ hs => hs

theorem of_enterCall {frame : FrameId} (h : v.Confined S' (c.enterCall frame)) : v.Confined S c :=
  h.outward (List.prefix_refl _) (Nat.le_succ _) (fun _ => rfl) fun _ hd => absurd hd (Nat.succ_ne_self _)

theorem of_enterFile {place : Place} (h : v.Confined S' (c.enterFile place)) : v.Confined S c := by
  have longer : (c.enterFile place).importChain ≠ c.importChain := by
    intro same
    have lengths := congrArg List.length same
    rw [Context.enterFile, List.length_append] at lengths
    exact absurd lengths (Nat.succ_ne_self _)
  exact h.outward (List.prefix_append _ _) (Nat.le_refl _) (fun same => absurd same longer)
    fun same => absurd same longer

end Visit.Confined

/-- The visits of the evaluation are confined. -/
def Watched.Confined (S : Stmt → Prop) (x : Watched (List Visit) α) : Prop := Sees (Visit.Confined S) x

namespace Watched.Confined

variable {S S' : Stmt → Prop}

theorem recovers : Recovers (fun _ x (_ : Watched (List Visit) _) => Confined S x) .recorder .recorder :=
  Sees.recovers (fun m _ h => .here m fun s hs => absurd hs (h s)) fun _ _ _ hc hv => hv.of_sameCall hc

theorem recovers_inner (n : Nat) : Recovers (fun _ x (_ : Watched (List Visit) _) => Confined S x)
    (innerAt .recorder n).observer (innerAt .recorder n).observer :=
  recovers

/-- Statements that are executed one after another. -/
theorem runAll {n : Nat} {ss : List Stmt} (he : ∀ s ∈ ss, Confined S (watchStmt .recorder n s)) :
    Confined S ((innerAt .recorder n).runAll ss) :=
  (recovers_inner n).runAll he

section Anything

variable {n : Nat} (he : ∀ s, Confined (fun _ => True) (watchStmt .recorder n s))
include he

theorem runBody (f : FunctionObject) (args : List Value) :
    Confined S ((innerAt .recorder n).runBody f args) := by
  refine Sees.bind (recovers.lift (.checkDepth _)) fun _ => Sees.bind ((recovers_inner n).openCall f args) fun frame => ?_
  exact Sees.inContext (runAll fun s _ => he s) (fun m => .here m nofun) fun _ _ hv => hv.of_enterCall

theorem importFile (line : Nat) (path : String) : Confined S ((innerAt .recorder n).importFile line path) := by
  refine (recovers_inner n).importFile (fun place declarations => ?_) line path
  exact Sees.inContext (runAll fun s _ => he s) (fun m => .here m nofun) fun _ _ hv => hv.of_enterFile

end Anything

theorem watch (fuel : Nat) (hS : ∀ s, S s → ∀ t ∈ s.parts, S t) :
    (∀ e, Confined S (watchExpr .recorder fuel e)) ∧ (∀ s, S s → Confined S (watchStmt .recorder fuel s)) := by
  induction fuel generalizing S with
  | zero => exact ⟨fun _ => recovers.throw _, fun _ _ => recovers.throw _⟩
  | succ n ih =>
    -- A body or an imported file may hold any statement: its deeper call or longer chain sets it apart.
    have anything (s : Stmt) : Confined (fun _ => True) (watchStmt .recorder n s) :=
      (ih fun _ _ _ _ => trivial).2 s trivial
    have parts : Inner.Parts (fun _ x (_ : Watched (List Visit) _) => Confined S x) S (innerAt .recorder n)
        (innerAt .recorder n) :=
      { toComposes := recovers.toComposes
        turns := fun {_ _ y} hx => recovers.loop (y := y) hx n
        evaluate := (ih hS).1
        execute := (ih hS).2
        runBody := runBody anything }
    refine ⟨fun e => Sees.bind (Sees.tell fun m => .here m nofun) fun _ => parts.evaluateExpr e, fun s hs => ?_⟩
    have told : Confined S (Watched.tell .recorder (.executing s)) :=
      Sees.tell fun m => .here m fun t ht => Event.executing.inj ht ▸ hs
    exact Sees.bind told fun _ => parts.executeStmt (hS s hs) fun line path _ => importFile anything line path

/-- The statements of a file and their parts. -/
theorem watchDirect (fuel : Nat) {text : List Stmt} {s : Stmt} (hs : s ∈ text) :
    Confined (Stmt.Direct text) (watchStmt .recorder fuel s) :=
  (watch fuel fun _ h _ ht => .part h ht).2 s (.top hs)

theorem watchText (fuel : Nat) (text : List Stmt) : Confined (Stmt.Direct text) (watchText .recorder fuel text) := by
  have all (ss : List Stmt) (hss : ss ⊆ text) : Confined (Stmt.Direct text) (watchAll .recorder fuel ss) := by
    induction ss with
    | nil => exact recovers.pure _
    | cons s ss ih =>
      obtain ⟨hs, hrest⟩ := List.cons_subset.1 hss
      exact Sees.bind (watchDirect fuel hs) fun _ => ih hrest
  exact Sees.bind (Sees.tell fun m => .here m nofun) fun _ => all text (List.Subset.refl text)

end Watched.Confined

/-! ## Imported files -/

/-- Seen from the context, the visit is made in the same file or while a file at `place` is imported from it. -/
def Visit.Entering (place : Place) (c : Context) (v : Visit) : Prop :=
  v.machine.context.importChain = c.importChain ∨ (c.enterFile place).importChain <+: v.machine.context.importChain

namespace Watched.Sees

/-- The declarations of an imported file are confined to it. -/
theorem runImported (n : Nat) (place : Place) (declarations : List Stmt) :
    Sees (fun c => Visit.Confined (Stmt.Direct declarations) (c.enterFile place))
      ((innerAt .recorder n).runImported place declarations) :=
  inContext (Confined.runAll fun _ => Confined.watchDirect n) (fun m => .here m nofun) fun _ _ hv => hv

theorem recovers_entering (place : Place) :
    Recovers (fun _ x (_ : Watched (List Visit) _) => Sees (Visit.Entering place) x) .recorder .recorder := by
  refine recovers (fun _ _ _ => .inl rfl) fun c c' v hc hv => ?_
  unfold Visit.Entering Context.enterFile at hv ⊢
  rw [hc.importChain] at hv
  exact hv

theorem importSource (n line : Nat) (path : String) (place : Place) (source : Except SourceError String) :
    Sees (Visit.Entering place) ((innerAt .recorder n).importSource line path place source) := by
  have composed : Recovers (fun _ x (_ : Watched (List Visit) _) => Sees (Visit.Entering place) x)
    (innerAt .recorder n).observer (innerAt .recorder n).observer := recovers_entering place
  refine composed.importSource (fun declarations m older => ?_) line path source
  have outward {w : Machine × List Visit}
      (hw : SeenSince (Visit.Confined (Stmt.Direct declarations) (m.context.enterFile place)) m older w) :
      SeenSince (Visit.Entering place m.context) m older w := by
    obtain ⟨newer, hseen, hn⟩ := hw.visits
    exact ⟨hw.context, newer, hseen, fun v hv => .inr (hn v hv).chain⟩
  exact (runImported n place declarations m older).mono (fun _ _ => outward) fun _ _ => outward

/-- An import enters the file it means and no other one, unless from there. -/
theorem watchImport {m : Machine} {path : String} {place : Place} (ht : m.importTarget path = .ok place)
    (fuel line : Nat) :
    Meets (watchStmt .recorder fuel (.importFile line path)) (m, [])
      (fun _ => SeenSince (Visit.Entering place m.context) m [])
      fun _ => SeenSince (Visit.Entering place m.context) m [] := by
  cases fuel with
  | zero => exact .nothing rfl
  | succ n =>
    have told : SeenSince (Visit.Entering place m.context) m [] (m, [⟨.executing (.importFile line path), m⟩]) :=
      ⟨rfl, [⟨.executing (.importFile line path), m⟩], rfl, fun _ hv => .inl (List.mem_singleton.1 hv ▸ rfl)⟩
    refine meets_watchStmt_importFile (Inner.meets_importFile _ line path ?_ ?_ ?_ ?_)
    · exact fun _ _ => told
    · exact fun _ _ _ => told
    · exact fun _ _ _ _ => told
    · intro place' ht' _ _
      cases ht.symm.trans ht'
      exact (importSource n line path place _).rest told

end Watched.Sees

/-- What a recorder sees from a fresh start. -/
theorem SeenSince.notes {P : Visit → Prop} {m : Machine} {x : Watched (List Visit) α}
    (h : Meets x (m, []) (fun _ => SeenSince P m []) fun _ => SeenSince P m []) :
    ∀ v ∈ Watched.notes (x (m, [])), P v := by
  have all {w : Machine × List Visit} (hw : SeenSince P m [] w) : ∀ v ∈ w.2, P v := by
    obtain ⟨newer, hseen, hn⟩ := hw.visits
    rw [hseen, List.append_nil]
    exact hn
  unfold Meets at h
  cases hr : x (m, []) with
  | ok a w => rw [hr] at h; exact all h
  | error e w => rw [hr] at h; exact all h

/-- A path of a file that is not there. -/
theorem execute_import_unreadable {m : Machine} {path : String} {e : FileError}
    (ht : m.importTarget path = .error e) (n line : Nat) :
    execute (n + 1) (.importFile line path) m = .error (.fault line (.importUnreadable path (.file e))) m := by
  refine Meets.eq_error (meets_execute_importFile (Inner.meets_importFile _ line path ?_ ?_ ?_ ?_))
  · intro e' he
    cases ht.symm.trans he
    exact ⟨rfl, rfl⟩
  · intro place hp
    cases ht.symm.trans hp
  · intro place hp
    cases ht.symm.trans hp
  · intro place hp
    cases ht.symm.trans hp

/-- Imports start in the directory of the file that is being run, the last one of the chain. At every moment of a session
an import means a path seen from there: if there is no such file the import fails, and otherwise it enters this file and
no other one, unless from there, and records it if it succeeds.

While the statements of a text or of an imported file are run, every moment in this file finds its directory, however
deep in calls. In the call in which the file is run only its own statements are executed, those outside of functions
and classes. So imports outside of functions start where they are written, and those in functions start where the
function is called. -/
theorem imports_start_in_running_file (fuel : Nat) :
    (∀ settings sink files clock items,
      ∀ m ∈ Session.history fuel items (.initial (.initial settings sink files clock)) [],
        m.context.scriptDirectory = Context.directoryOf m.context.importChain ∧
        ∀ n line path,
          (∀ e, m.files.resolve (Path.join (Context.directoryOf m.context.importChain) path) = .error e →
            execute (n + 1) (.importFile line path) m = .error (.fault line (.importUnreadable path (.file e))) m) ∧
          ∀ place, m.files.resolve (Path.join (Context.directoryOf m.context.importChain) path) = .ok place →
            (∀ v ∈ Watched.notes (watchStmt .recorder n (.importFile line path) (m, [])),
              v.Entering place m.context) ∧
            Meets (execute n (.importFile line path)) m (fun _ m' => place ∈ m'.imported) fun _ _ => True) ∧
    (∀ m text, ∀ v ∈ Watched.notes (watchText .recorder fuel text (m, [])),
      v.Confined (Stmt.Direct text) m.context) ∧
    (∀ m place text, ∀ v ∈ Watched.notes ((innerAt .recorder fuel).runImported place text (m, [])),
      v.Confined (Stmt.Direct text) (m.context.enterFile place)) := by
  refine ⟨fun settings sink files clock items m hm => ?_, fun m text => ?_, fun m place text => ?_⟩
  · have chained : m.Chained := (Session.history_imports settings sink files clock fuel items).good m hm
    refine ⟨chained.directory, fun n line path => ?_⟩
    rw [← chained.directory]
    refine ⟨fun e he => execute_import_unreadable he n line, fun place ht => ⟨?_, ?_⟩⟩
    · exact SeenSince.notes (Watched.Sees.watchImport ht n line)
    · exact execute_import_records ht n line chained
  · exact SeenSince.notes (Watched.Confined.watchText fuel text m [])
  · exact SeenSince.notes (Watched.Sees.runImported fuel place text m [])

namespace CalledImport

/-- A script calls a function of a file in another directory, and the function imports a file from there. -/
def files : FileTree :=
  ⟨[(["main.ypl"], .file "import \"sub/lib.ypl\"; load(); print value;".toUTF8),
    (["sub"], .directory),
    (["sub", "lib.ypl"], .file "fun load() \x7b import \"helper.ypl\"; \x7d".toUTF8),
    (["sub", "helper.ypl"], .file "let value = 1;".toUTF8)], []⟩

def start : Session := .initial (.initial ⟨false, Machine.defaultCallDepth⟩ .collected files 0)

/-- The session after the script. -/
def finish : Session := Session.final (Session.runItem 16 (.script "main.ypl") start)

/-- The import is sought beside the script. -/
theorem sought_beside_script : execute 1 (.importFile 0 "helper.ypl") finish.machine =
    .error (.fault 0 (.importUnreadable "helper.ypl" (.file .notFound))) finish.machine := by
  have moment := (imports_start_in_running_file 16).1 ⟨false, Machine.defaultCallDepth⟩ .collected files 0
    [.script "main.ypl"] finish.machine (List.mem_cons_self ..)
  exact (moment.2 0 0 "helper.ypl").1 .notFound (by decide +kernel)

/-- The script fails, although the file that is imported stands beside the one that the import is written in. -/
theorem import_misses :
    files.resolve (Path.join (Path.ofNames ["sub"]) "helper.ypl") = .ok ["sub", "helper.ypl"] ∧
    finish.machine.output = "" ∧
    finish.machine.reporter.diagnostics = [.ofFault 0 (.importUnreadable "helper.ypl" (.file .notFound))] := by
  decide +kernel

end CalledImport

end Scriptlet
