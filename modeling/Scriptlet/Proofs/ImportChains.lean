import Mathlib.Data.List.Nodup
import Scriptlet.Proofs.Histories

/-!
# Imports happen once

The files that are being run form a chain, and the files whose declarations were taken over are recorded. No file is
twice on the chain or in the record: an import of a file on the chain fails, and one of a recorded file does nothing.
The record is written after a body was run, so it matters that no file on the chain is recorded meanwhile. Relative
imports start in the directory of the last file of the chain.
-/
namespace Scriptlet

variable {α β : Type}

/-- Where relative imports start in the last file of a chain. -/
def Context.directoryOf (chain : List Place) : String :=
  (chain.getLast?.map fun place => Path.ofNames place.dropLast).getD "."

/-- The file that an import means. -/
def Machine.importTarget (m : Machine) (path : String) : Except FileError Place :=
  m.files.resolve (Path.join m.context.scriptDirectory path)

/-- No file is twice on the chain or in the record of imported files, and imports start at the end of the chain. -/
structure Machine.Chained (m : Machine) : Prop where
  chain : m.context.importChain.Nodup
  directory : m.context.scriptDirectory = Context.directoryOf m.context.importChain
  imported : m.imported.Nodup

/-- The record of imported files grows at its front. -/
def Evolution.imports : Evolution where
  Good := Machine.Chained
  Keeps earlier later := earlier.imported <:+ later.imported
  refl _ := List.suffix_refl _
  trans h h' := List.IsSuffix.trans h h'

theorem Machine.Steps.imported {m m' : Machine} (h : m.Steps m') : m'.imported = m.imported := h.context.2.2.1

theorem Machine.Steps.record {m m' : Machine} (h : m.Steps m') : m.imported <:+ m'.imported :=
  h.imported ▸ List.suffix_refl _

theorem Machine.Steps.chained {m m' : Machine} (h : m.Steps m') (hm : m.Chained) : m'.Chained := by
  obtain ⟨hchain, hdirectory, himported⟩ := hm
  constructor
  · rw [h.context.1]
    exact hchain
  · rw [h.context.1]
    exact hdirectory
  · rw [h.imported]
    exact himported

/-! ## Single imports -/

/-- An import is told by the file it means, the chain and the record. -/
theorem Inner.meets_importFile {ν : Type} (inner : Inner ν) (line : Nat) (path : String) {w : Machine × ν}
    {Q : Unit → Machine × ν → Prop} {E : Halt → Machine × ν → Prop}
    (unreadable : ∀ e, w.1.importTarget path = .error e → E (.fault line (.importUnreadable path (.file e))) w)
    (circular : ∀ place, w.1.importTarget path = .ok place → place ∈ w.1.context.importChain →
      E (.fault line (.circularImport path)) w)
    (again : ∀ place, w.1.importTarget path = .ok place → place ∉ w.1.context.importChain →
      place ∈ w.1.imported → Q () w)
    (fresh : ∀ place, w.1.importTarget path = .ok place → place ∉ w.1.context.importChain →
      place ∉ w.1.imported →
      Meets (inner.importSource line path place (w.1.files.readSource (Path.ofNames place))) w Q E) :
    Meets (inner.importFile line path) w Q E := by
  refine Meets.bind (Q := fun m w' => m = w.1 ∧ w' = w) (Watched.meets_unseen ⟨rfl, rfl⟩) ?_
  rintro _ w' ⟨rfl, rfl⟩
  split
  · next e he => exact unreadable e he
  · next place hplace =>
    by_cases hchain : place ∈ w'.1.context.importChain
    · rw [if_pos (List.contains_iff_mem.2 hchain)]
      exact circular place hplace hchain
    · rw [if_neg (mt List.contains_iff_mem.1 hchain)]
      by_cases himported : place ∈ w'.1.imported
      · rw [if_pos (List.contains_iff_mem.2 himported)]
        exact again place hplace hchain himported
      · rw [if_neg (mt List.contains_iff_mem.1 himported)]
        exact fresh place hplace hchain himported

/-- An import statement does what the import does. -/
theorem meets_watchStmt_importFile {n line : Nat} {path : String} {m : Machine}
    {Q : Flow → Machine × List Visit → Prop} {E : Halt → Machine × List Visit → Prop}
    (h : Meets ((innerAt .recorder n).importFile line path) (m, [⟨.executing (.importFile line path), m⟩])
      (fun _ => Q .normal) E) :
    Meets (watchStmt .recorder (n + 1) (.importFile line path)) (m, []) Q E := by
  have told : Meets (Watched.tell .recorder (.executing (.importFile line path))) (m, [])
      (fun _ w => w = (m, [⟨.executing (.importFile line path), m⟩])) E := rfl
  refine Meets.bind told ?_
  rintro _ _ rfl
  exact Meets.bind h fun _ _ hq => Meets.pure hq

theorem meets_execute_importFile {n line : Nat} {path : String} {m : Machine} {Q : Flow → Machine → Prop}
    {E : Halt → Machine → Prop}
    (h : Meets ((innerAt .recorder n).importFile line path) (m, [⟨.executing (.importFile line path), m⟩])
      (fun _ w => Q .normal w.1) fun e w => E e w.1) :
    Meets (execute (n + 1) (.importFile line path)) m Q E :=
  meets_execute .recorder [] (meets_watchStmt_importFile h)

/-! ## The rules -/

/-- Since `m` files were imported once, and the run is back in its context. The record has grown, but not by the files
of the chain. -/
structure ImportsSince (older : List Machine) (chain : List Place) (m : Machine) (w : Machine × List Visit) :
    Prop where
  evolved : Evolution.imports.Holds (machines older w)
  context : w.1.context = m.context
  record : m.imported <:+ w.1.imported
  spares : ∀ place ∈ chain, place ∈ w.1.imported → place ∈ m.imported

namespace ImportsSince

variable {older : List Machine} {chain chain' : List Place} {m : Machine} {w w' : Machine × List Visit}

theorem start (h : Evolution.imports.Holds (machines older w)) : ImportsSince older chain w.1 w :=
  ⟨h, rfl, List.suffix_refl _, fun _ _ hp => hp⟩

theorem trans (h : ImportsSince older chain m w) (h' : ImportsSince older chain w.1 w') :
    ImportsSince older chain m w' :=
  ⟨h'.evolved, h'.context.trans h.context, h.record.trans h'.record,
    fun place hp hmem => h.spares place hp (h'.spares place hp hmem)⟩

theorem steps (h : ImportsSince older chain m w) {m' : Machine} (hs : w.1.Steps m') :
    ImportsSince older chain m (m', w.2) := by
  have chained := hs.chained h.evolved.latest
  exact ⟨h.evolved.change chained hs.record, hs.context.1.trans h.context, h.record.trans hs.record,
    fun place hp hmem => h.spares place hp (hs.imported ▸ hmem)⟩

theorem subset (h : ImportsSince older chain m w) (hc : chain' ⊆ chain) : ImportsSince older chain' m w :=
  ⟨h.evolved, h.context, h.record, fun place hp => h.spares place (hc hp)⟩

/-- A file that was not recorded still is not. -/
theorem unrecorded (h : ImportsSince older chain m w) {place : Place} (hp : place ∈ chain) (hm : place ∉ m.imported) :
    place ∉ w.1.imported :=
  mt (h.spares place hp) hm

/-- The file that was last on the chain is recorded. -/
theorem mark {place : Place} (h : ImportsSince older (chain ++ [place]) m w) (hchain : place ∉ chain)
    (himported : place ∉ m.imported) :
    ImportsSince older chain m ({ w.1 with imported := place :: w.1.imported }, w.2) := by
  have unrecorded := h.unrecorded (List.mem_append_right _ (List.mem_singleton_self _)) himported
  have chained : Machine.Chained { w.1 with imported := place :: w.1.imported } :=
    ⟨h.evolved.latest.chain, h.evolved.latest.directory,
      List.nodup_cons.2 ⟨unrecorded, h.evolved.latest.imported⟩⟩
  refine ⟨h.evolved.change chained (List.suffix_cons _ _), h.context, h.record.trans (List.suffix_cons _ _), ?_⟩
  intro p hp hmem
  rcases List.mem_cons.1 hmem with rfl | hmem
  · exact absurd hp hchain
  · exact h.spares p (List.mem_append_left _ hp) hmem

end ImportsSince

/-- The evaluation comes back to where it began, and files are imported once on the way. -/
def Watched.Imports (older : List Machine) (x : Watched (List Visit) α) : Prop :=
  ∀ w, Evolution.imports.Holds (machines older w) →
    Meets x w (fun _ => ImportsSince older w.1.context.importChain w.1)
      (fun _ => ImportsSince older w.1.context.importChain w.1)

namespace Watched.Imports

variable {older : List Machine}

/-- An evaluation that goes on where another one came back. -/
theorem rest {x : Watched (List Visit) α} (hx : Imports older x) {m : Machine} {w : Machine × List Visit}
    (hw : ImportsSince older m.context.importChain m w) :
    Meets x w (fun _ => ImportsSince older m.context.importChain m)
      (fun _ => ImportsSince older m.context.importChain m) := by
  have run := hx w hw.evolved
  rw [hw.context] at run
  exact run.mono (fun _ _ h => hw.trans h) fun _ _ h => hw.trans h

theorem lift {x : Eval α} (hx : x.Stepwise) : Imports older (liftM x : Watched (List Visit) α) := by
  intro w hw
  apply Watched.meets_unseen
  have start : ImportsSince older w.1.context.importChain w.1 w := .start hw
  exact (hx w.1).mono (fun _ _ h => start.steps h) fun _ _ h => start.steps h

theorem bind {x : Watched (List Visit) α} {f : α → Watched (List Visit) β} (hx : Imports older x)
    (hf : ∀ a, Imports older (f a)) : Imports older (x >>= f) :=
  fun w hw => Meets.bind (hx w hw) fun a _ hw' => (hf a).rest hw'

theorem tell (event : Event) : Imports older (Watched.tell .recorder event) :=
  fun _ hw => ⟨hw.again, rfl, List.suffix_refl _, fun _ _ hp => hp⟩

/-- In a changed context, the files of its chain are spared. -/
theorem meets_inContext (change : Context → Context) {x : Watched (List Visit) α} (hx : Imports older x)
    {w : Machine × List Visit} (hw : Evolution.imports.Holds (machines older w))
    (hchain : (change w.1.context).importChain.Nodup)
    (hdirectory : (change w.1.context).scriptDirectory =
      Context.directoryOf (change w.1.context).importChain) :
    Meets (Watched.inContext .recorder change x) w
      (fun _ => ImportsSince older (change w.1.context).importChain w.1)
      (fun _ => ImportsSince older (change w.1.context).importChain w.1) := by
  obtain ⟨m, seen⟩ := w
  have entered : Evolution.imports.Holds (machines older (m.withContext (change m.context), seen)) :=
    hw.change ⟨hchain, hdirectory, hw.latest.imported⟩ (List.suffix_refl _)
  have left {w' : Machine × List Visit}
      (h : ImportsSince older (change m.context).importChain (m.withContext (change m.context)) w') :
      ImportsSince older (change m.context).importChain m (w'.1.withContext m.context, w'.2) := by
    have chained : (w'.1.withContext m.context).Chained :=
      ⟨hw.latest.chain, hw.latest.directory, h.evolved.latest.imported⟩
    exact ⟨h.evolved.change chained (List.suffix_refl _), rfl, h.record, h.spares⟩
  have inside := hx (m.withContext (change m.context), ⟨.entering, m.withContext (change m.context)⟩ :: seen)
    entered.again
  exact Watched.meets_inContext (inside.mono (fun _ _ => left) fun _ _ => left)

theorem inContext {change : Context → Context} {x : Watched (List Visit) α} (hx : Imports older x)
    (hchain : ∀ c, (change c).importChain = c.importChain)
    (hdirectory : ∀ c, (change c).scriptDirectory = c.scriptDirectory) :
    Imports older (Watched.inContext .recorder change x) := by
  intro w hw
  have run := meets_inContext change hx hw
  rw [hchain, hdirectory] at run
  exact run hw.latest.chain hw.latest.directory

theorem composes :
    Composes (fun _ x (_ : Watched (List Visit) _) => Imports older x) .recorder .recorder where
  pure _ _ hw := .start hw
  throw _ _ hw := .start hw
  lift hx := lift hx.stepwise
  bind hx hf := bind hx hf
  tell _ := tell _
  inContext hc hx := inContext hx (fun c => (hc c).importChain) fun c => (hc c).scriptDirectory

theorem composes_inner (n : Nat) : Composes (fun _ x (_ : Watched (List Visit) _) => Imports older x)
    (innerAt .recorder n).observer (innerAt .recorder n).observer :=
  composes

section Importing

variable {n : Nat} (he : ∀ s, Imports older (watchStmt .recorder n s))
include he

theorem runAll (ss : List Stmt) : Imports older ((innerAt .recorder n).runAll ss) :=
  (composes_inner n).runAll fun s _ => he s

theorem runBody (f : FunctionObject) (args : List Value) :
    Imports older ((innerAt .recorder n).runBody f args) := by
  refine bind (composes.lift (.checkDepth _)) fun _ => bind ((composes_inner n).openCall f args) fun _ => ?_
  exact inContext (runAll he _) (fun _ => rfl) fun _ => rfl

section Fresh

variable {w : Machine × List Visit} (hw : Evolution.imports.Holds (machines older w)) {place : Place}
  (hchain : place ∉ w.1.context.importChain)
include hw hchain

/-- While the declarations of a file are run, the file is on the chain as well. -/
theorem runImported (declarations : List Stmt) :
    Meets ((innerAt .recorder n).runImported place declarations) w
      (fun _ => ImportsSince older (w.1.context.importChain ++ [place]) w.1)
      (fun _ => ImportsSince older (w.1.context.importChain ++ [place]) w.1) := by
  have chain : (w.1.context.importChain ++ [place]).Nodup := by
    refine List.nodup_append.2 ⟨hw.latest.chain, List.nodup_singleton _, ?_⟩
    rintro p hp _ (_ | ⟨_, ⟨⟩⟩) rfl
    exact hchain hp
  have directory : Path.ofNames place.dropLast = Context.directoryOf (w.1.context.importChain ++ [place]) := by
    unfold Context.directoryOf
    rw [List.getLast?_concat]
    rfl
  exact meets_inContext (·.enterFile place) (runAll he declarations) hw chain directory

variable (himported : place ∉ w.1.imported) (line : Nat) (path : String)
include himported

/-- The import of a file that is neither on the chain nor recorded is recorded if its declarations could be run. -/
theorem runDeclarations (declarations : List Stmt) :
    Meets ((innerAt .recorder n).runDeclarations line path place declarations) w
      (fun _ w' => ImportsSince older w.1.context.importChain w.1 w' ∧
        ∃ inside, w'.1.imported = place :: (inside ++ w.1.imported))
      (fun _ => ImportsSince older (w.1.context.importChain ++ [place]) w.1) := by
  have start : Evolution.imports.Holds (machines older (w.1, ⟨.starting declarations, w.1⟩ :: w.2)) := hw.again
  have run : Meets (do let _ ← (innerAt .recorder n).runImported place declarations)
      (w.1, ⟨.starting declarations, w.1⟩ :: w.2)
      (fun _ => ImportsSince older (w.1.context.importChain ++ [place]) w.1)
      (fun _ => ImportsSince older (w.1.context.importChain ++ [place]) w.1) :=
    Meets.bind (runImported he start hchain declarations) fun _ _ h => Meets.pure h
  refine Meets.bind (Q := fun _ w' => w' = (w.1, ⟨.starting declarations, w.1⟩ :: w.2)) rfl ?_
  rintro _ _ rfl
  refine Meets.bind (Meets.tryCatch run ?_) ?_
  · rintro (⟨line', f⟩ | _) w' since
    · exact since.steps (.single (.reported (w'.1.report_same _)))
    · exact since
  · -- The file was on the chain up to here, so nothing that ran inside has recorded it.
    intro _ w' since
    obtain ⟨inside, hinside⟩ := since.record
    exact ⟨since.mark hchain himported, inside, congrArg (place :: ·) hinside.symm⟩

theorem importSource (source : Except SourceError String) :
    Meets ((innerAt .recorder n).importSource line path place source) w
      (fun _ w' => ImportsSince older w.1.context.importChain w.1 w' ∧
        ∃ inside, w'.1.imported = place :: (inside ++ w.1.imported))
      (fun _ => ImportsSince older (w.1.context.importChain ++ [place]) w.1) := by
  have start : ImportsSince older (w.1.context.importChain ++ [place]) w.1 w := .start hw
  cases source with
  | error e => exact start
  | ok text =>
    have read : Meets (liftM (Eval.readDeclarations line path text) : Watched (List Visit) _) w
        (fun _ w' => w.1.Steps w'.1 ∧ ImportsSince older (w.1.context.importChain ++ [place]) w.1 w')
        (fun _ => ImportsSince older (w.1.context.importChain ++ [place]) w.1) :=
      Watched.meets_unseen ((Eval.Stepwise.readDeclarations line path text w.1).mono
        (fun _ _ h => ⟨h, start.steps h⟩) fun _ _ h => start.steps h)
    refine Meets.bind read ?_
    rintro declarations w' ⟨steps, since⟩
    have chain : place ∉ w'.1.context.importChain := by rwa [since.context]
    have unrecorded : place ∉ w'.1.imported := by rwa [steps.imported]
    have run := runDeclarations he since.evolved chain unrecorded line path declarations
    rw [since.context, steps.imported] at run
    refine run.mono (fun _ w'' h => ⟨?_, h.2⟩) fun _ w'' h => since.trans h
    exact (since.subset (List.subset_append_left _ _)).trans h.1

end Fresh

theorem importFile (line : Nat) (path : String) :
    Imports older ((innerAt .recorder n).importFile line path) := by
  intro w hw
  refine Inner.meets_importFile _ line path ?_ ?_ ?_ ?_
  · exact fun _ _ => .start hw
  · exact fun _ _ _ => .start hw
  · exact fun _ _ _ _ => .start hw
  · intro place _ hchain himported
    refine (importSource he hw hchain himported line path _).mono (fun _ _ h => h.1) fun _ _ h => ?_
    exact h.subset (List.subset_append_left _ _)

theorem parts (hv : ∀ e, Imports older (watchExpr .recorder n e)) :
    Inner.Parts (fun _ x (_ : Watched (List Visit) _) => Imports older x) (fun _ => True)
      (innerAt .recorder n) (innerAt .recorder n) where
  toComposes := composes
  turns {_ _ y} hx := composes.loop (y := y) hx n
  evaluate := hv
  execute s _ := he s
  runBody := runBody he

end Importing

theorem watch (fuel : Nat) :
    (∀ e, Imports older (watchExpr .recorder fuel e)) ∧ (∀ s, Imports older (watchStmt .recorder fuel s)) := by
  induction fuel with
  | zero => exact ⟨fun _ => composes.throw _, fun _ => composes.throw _⟩
  | succ n ih =>
    have inner := parts ih.2 ih.1
    exact ⟨fun e => bind (tell _) fun _ => inner.evaluateExpr e,
      fun s => bind (tell _) fun _ => inner.executeStmt (fun _ _ => trivial) fun line path _ => importFile ih.2 line path⟩

theorem watchAll (fuel : Nat) (statements : List Stmt) :
    Imports older (watchAll .recorder fuel statements) := by
  induction statements with
  | nil => exact composes.pure _
  | cons s ss ih => exact bind ((watch fuel).2 s) fun _ => ih

end Watched.Imports

/-! ## Sessions -/

theorem imports_followed : Evolution.imports.Followed where
  steps hs hm := ⟨hs.chained hm, hs.record⟩
  enterScript _ _ hm := ⟨⟨List.nodup_singleton _, rfl, hm.imported⟩, List.suffix_refl _⟩
  watchText fuel statements older w hw := by
    have run : Watched.Imports older (watchText .recorder fuel statements) :=
      .bind (.tell _) fun _ => .watchAll fuel statements
    exact (run w hw).mono (fun _ _ h => h.evolved) fun _ _ h => h.evolved

theorem Session.history_imports (settings : Settings) (sink : Sink) (files : FileTree) (clock fuel : Nat)
    (items : List Item) :
    Evolution.imports.Holds (history fuel items (.initial (.initial settings sink files clock)) []) :=
  imports_followed.history (.first ⟨List.nodup_nil, rfl, List.nodup_nil⟩) fuel items

/-! ## Import statements -/

section Imports

variable {m : Machine} {path : String} {place : Place} (ht : m.importTarget path = .ok place) (n line : Nat)
include ht

/-- A file that is being run is not imported. -/
theorem execute_import_circular (hchain : place ∈ m.context.importChain) :
    execute (n + 1) (.importFile line path) m = .error (.fault line (.circularImport path)) m := by
  refine Meets.eq_error (meets_execute_importFile (Inner.meets_importFile _ line path ?_ ?_ ?_ ?_))
  · intro e he
    cases ht.symm.trans he
  · exact fun _ _ _ => ⟨rfl, rfl⟩
  · intro place' ht' hnot
    cases ht.symm.trans ht'
    exact absurd hchain hnot
  · intro place' ht' hnot
    cases ht.symm.trans ht'
    exact absurd hchain hnot

/-- A file whose import is recorded is not imported again. -/
theorem execute_import_again (hchain : place ∉ m.context.importChain) (himported : place ∈ m.imported) :
    execute (n + 1) (.importFile line path) m = .ok .normal m := by
  refine Meets.eq_ok (meets_execute_importFile (Inner.meets_importFile _ line path ?_ ?_ ?_ ?_))
  · intro e he
    cases ht.symm.trans he
  · intro place' ht' hmem
    cases ht.symm.trans ht'
    exact absurd hmem hchain
  · exact fun _ _ _ _ => ⟨rfl, rfl⟩
  · intro place' ht' _ hnot
    cases ht.symm.trans ht'
    exact absurd himported hnot

/-- Any other import is recorded if and only if it succeeds. -/
theorem execute_import_fresh (hm : m.Chained) (hchain : place ∉ m.context.importChain)
    (himported : place ∉ m.imported) :
    Meets (execute (n + 1) (.importFile line path)) m
      (fun _ m' => ∃ inside, m'.imported = place :: (inside ++ m.imported))
      (fun _ m' => ∃ inside, m'.imported = inside ++ m.imported ∧ place ∉ inside) := by
  have start : Evolution.imports.Holds (machines [] (m, [⟨.executing (.importFile line path), m⟩])) :=
    Evolution.Holds.again (.first hm)
  have body : ∀ s, Watched.Imports [] (watchStmt .recorder n s) := (Watched.Imports.watch n).2
  refine meets_execute_importFile (Inner.meets_importFile _ line path ?_ ?_ ?_ ?_)
  · intro e he
    cases ht.symm.trans he
  · intro place' ht' hmem
    cases ht.symm.trans ht'
    exact absurd hmem hchain
  · intro place' ht' _ hmem
    cases ht.symm.trans ht'
    exact absurd hmem himported
  · intro place' ht' _ _
    cases ht.symm.trans ht'
    refine (Watched.Imports.importSource body start hchain himported line path _).mono (fun _ _ h => h.2) ?_
    intro _ w since
    obtain ⟨inside, hinside⟩ := since.record
    have unrecorded := since.unrecorded (List.mem_append_right _ (List.mem_singleton_self _)) himported
    exact ⟨inside, hinside.symm, fun hmem => unrecorded (hinside ▸ List.mem_append_left _ hmem)⟩

/-- An import that succeeds is in the record. -/
theorem execute_import_records (hm : m.Chained) :
    Meets (execute n (.importFile line path)) m (fun _ m' => place ∈ m'.imported) fun _ _ => True := by
  cases n with
  | zero => exact trivial
  | succ n =>
    by_cases hchain : place ∈ m.context.importChain
    · rw [Meets, execute_import_circular ht n line hchain]
      exact trivial
    · by_cases himported : place ∈ m.imported
      · rw [Meets, execute_import_again ht n line hchain himported]
        exact himported
      · refine (execute_import_fresh ht n line hm hchain himported).mono ?_ fun _ _ _ => trivial
        rintro _ m' ⟨inside, hinside⟩
        rw [hinside]
        exact List.mem_cons_self ..

end Imports

/-- Files are imported once. At every moment of a session from a new machine no file is twice on the chain of files
being run, and none twice in the record of imported files, which only grows. An import of a file on the chain fails
and changes nothing; so does an import of a recorded file, except that it succeeds. Any other import puts its file in
the record, after the files imported meanwhile, if and only if it succeeds. -/
theorem files_imported_once (settings : Settings) (sink : Sink) (files : FileTree) (clock fuel : Nat)
    (items : List Session.Item) :
    (Session.history fuel items (.initial (.initial settings sink files clock)) []).Pairwise
      (fun later earlier => earlier.imported <:+ later.imported) ∧
    ∀ m ∈ Session.history fuel items (.initial (.initial settings sink files clock)) [],
      m.context.importChain.Nodup ∧ m.imported.Nodup ∧
      ∀ n line path place, m.importTarget path = .ok place →
        (place ∈ m.context.importChain →
          execute (n + 1) (.importFile line path) m = .error (.fault line (.circularImport path)) m ∧
          (Fault.circularImport path).message = "Circular import of " ++ path ++ ".") ∧
        (place ∉ m.context.importChain → place ∈ m.imported →
          execute (n + 1) (.importFile line path) m = .ok .normal m) ∧
        (place ∉ m.context.importChain → place ∉ m.imported →
          Meets (execute (n + 1) (.importFile line path)) m
            (fun _ m' => ∃ inside, m'.imported = place :: (inside ++ m.imported))
            (fun _ m' => ∃ inside, m'.imported = inside ++ m.imported ∧ place ∉ inside)) := by
  have evolved := Session.history_imports settings sink files clock fuel items
  refine ⟨evolved.keeps, fun m hm => ?_⟩
  have chained : m.Chained := evolved.good m hm
  refine ⟨chained.chain, chained.imported, fun n line path place ht => ⟨fun hchain => ?_, ?_, ?_⟩⟩
  · exact ⟨execute_import_circular ht n line hchain, rfl⟩
  · exact execute_import_again ht n line
  · exact execute_import_fresh ht n line chained

namespace SelfImport

/-- The only file is a script that imports itself. -/
def files : FileTree := ⟨[(["main.ypl"], .file "import \"main.ypl\";".toUTF8)], []⟩

def start : Session := .initial (.initial ⟨false, Machine.defaultCallDepth⟩ .collected files 0)

/-- The machine after the script. -/
def machine : Machine := (Session.final (Session.runItem 4 (.script "main.ypl") start)).machine

theorem imported_once : execute 1 (.importFile 0 "main.ypl") machine =
    .error (.fault 0 (.circularImport "main.ypl")) machine := by
  have moment := (files_imported_once ⟨false, Machine.defaultCallDepth⟩ .collected files 0 4
    [.script "main.ypl"]).2 machine (List.mem_cons_self ..)
  have target : machine.importTarget "main.ypl" = .ok ["main.ypl"] := by decide +kernel
  exact ((moment.2.2 0 0 "main.ypl" ["main.ypl"] target).1 (by decide +kernel)).1

end SelfImport

end Scriptlet
