import Scriptlet.Proofs.ImportChains
import Scriptlet.Proofs.StaticErrors
import Scriptlet.Proofs.Trails

/-!
# Failures inside imported files

An import that cannot take over a file reports what stopped it and fails itself. So a failure inside nested imports is
reported once by each of them, from the innermost to the outermost, and the last report is made by the session. Until
the first failure nothing is reported; after it nothing is run.
-/
namespace Scriptlet

variable {α β : Type}

/-- What is reported of an import whose file has problems or could not be run. -/
def Import.broken (i : Import) : Diagnostic := .ofFault i.line (.importBroken i.path)

theorem Import.message_broken (i : Import) :
    i.broken.message = "Error while interpreting file " ++ i.path ++ "'s content." := rfl

namespace Machine

variable {m : Machine} {text : String}

theorem report_withContext (m : Machine) (c : Context) (d : Diagnostic) :
    (m.withContext c).report d = (m.report d).withContext c := by
  unfold report withContext
  dsimp only
  split
  · rfl
  · rfl
  · split <;> rfl

/-! ## Problems of files -/

/-- The problems of a file that is imported. Of a file without lexical and syntactic problems the declarations are
looked at. -/
def fileProblems (m : Machine) (text : String) : List Diagnostic :=
  let found := (Session.initial m).problems text
  let program := (m.load false text).1
  let declarations := program.statements.filter Stmt.isDeclaration
  let scoping := (Analysis.ofStatements m.distances declarations).problems.map .ofScoping
  found.lexical ++ found.syntactic ++ if program.isSound then scoping else []

theorem load_takesUp_file (h : (m.load false text).1.isSound = false) :
    m.fileProblems text ≠ [] ∧ m.TakesUp (m.fileProblems text) (m.load false text).2 := by
  have only : m.fileProblems text =
      ((Session.initial m).problems text).lexical ++ ((Session.initial m).problems text).syntactic := by
    simp [fileProblems, h]
  rw [only]
  refine ⟨fun none => ?_, Session.load_takesUp (.initial m) text⟩
  have sound := (Session.isSound_iff (.initial m) text).2 (List.append_eq_nil_iff.1 none)
  cases h.symm.trans sound

theorem analyse_takesUp_file (h : (m.load false text).1.isSound = true) :
    let analysed := (m.load false text).2.analyse ((m.load false text).1.statements.filter Stmt.isDeclaration)
    (analysed.1 = true ↔ m.fileProblems text = []) ∧ m.TakesUp (m.fileProblems text) analysed.2 := by
  intro analysed
  obtain ⟨hlexical, hsyntactic⟩ := (Session.isSound_iff (.initial m) text).1 h
  have distances : (m.load false text).2.distances = m.distances := Session.load_distances (.initial m) text
  have only : m.fileProblems text = (Analysis.ofStatements (m.load false text).2.distances
      ((m.load false text).1.statements.filter Stmt.isDeclaration)).problems.map .ofScoping := by
    simp [fileProblems, h, hlexical, hsyntactic, distances]
  rw [only]
  constructor
  · rw [List.map_eq_nil_iff, ← List.isEmpty_iff]
    rfl
  · have loaded := Session.load_takesUp (.initial m) text
    rw [hlexical, hsyntactic] at loaded
    exact loaded.trans (.analysed _ _)

end Machine

/-- A file with problems is not taken over, and all its problems are reported. -/
theorem Eval.meets_readDeclarations (line : Nat) (path text : String) (m : Machine) :
    Meets (Eval.readDeclarations line path text) m (fun _ m' => m.TakesUp [] m')
      (fun h m' => h = .fault line (.importBroken path) ∧ m.fileProblems text ≠ [] ∧
        m.TakesUp (m.fileProblems text) m') := by
  refine Meets.bind (Q := fun p m' => p = (m.load false text).1 ∧ m' = (m.load false text).2) ⟨rfl, rfl⟩ ?_
  rintro _ _ ⟨rfl, rfl⟩
  refine Eval.meets_guard (fun unsound => ?_) fun sound => ?_
  · exact ⟨rfl, Machine.load_takesUp_file (by simpa using unsound)⟩
  · have sound : (m.load false text).1.isSound = true := by simpa using sound
    obtain ⟨clean, takes⟩ := Machine.analyse_takesUp_file sound
    refine Meets.bind (Q := fun b m' => (b = true ↔ m.fileProblems text = []) ∧
      m.TakesUp (m.fileProblems text) m') ⟨clean, takes⟩ ?_
    rintro b m' ⟨hb, htakes⟩
    refine Eval.meets_guard (fun hb' => ⟨rfl, ?_, htakes⟩) fun hb' => Meets.pure ?_
    · simpa [← hb] using hb'
    · rw [← hb.1 (by simpa using hb')]
      exact htakes

/-! ## Failures and what they report -/

/-- The statement was executed and meant the file at `place`. -/
def Import.Meant (seen : List Visit) (i : Import) (place : Place) : Prop :=
  ∃ v ∈ seen, v.event = .executing (.importFile i.line i.path) ∧ v.machine.importTarget i.path = .ok place

/-- Where a failure comes from. `base` is the machine before anything was reported of it, `ds` is what is reported of
the failure itself, and `active` are the imports that are broken off by it, innermost first. -/
inductive Failure.Origin (F : Failure) : (base : Machine) → (ds : List Diagnostic) → (active : List Import) → Prop where
  | fault {line : Nat} {f : Fault} : F.halt = .fault line f →
    (∀ path, F.statement = .importFile line path → f ≠ .importBroken path) →
    F.Origin F.machine [.ofFault line f] F.imports
  /-- The innermost import finds a file with problems. -/
  | problems {line : Nat} {path text : String} {place : Place} {m : Machine} :
    F.statement = .importFile line path → F.halt = .fault line (.importBroken path) →
    ⟨.executing (.importFile line path), m⟩ ∈ F.seen → m.importTarget path = .ok place →
    m.files.readSource (Path.ofNames place) = .ok text → m.fileProblems text ≠ [] →
    m.TakesUp (m.fileProblems text) F.machine →
    F.Origin m (m.fileProblems text) (⟨line, path⟩ :: F.imports)

namespace Trail

/-- Nothing failed or was reported so far, and the run stands where it stood. -/
structure Calm (w w' : Machine × Trail) : Prop where
  context : w'.1.context = w.1.context
  reporter : w'.1.reporter = w.1.reporter
  seen : w.2.seen <:+ w'.2.seen
  imports : w'.2.imports = w.2.imports
  failure : w'.2.failure = none

/-- The run was broken off by the failure `F` inside the imports `between`. What they have to report of it was
reported, except for the fault that is still on its way out. -/
structure Raised (w : Machine × Trail) (h : Halt) (w' : Machine × Trail) (F : Failure) (between : List Import) :
    Prop where
  context : w'.1.context = w.1.context
  failure : w'.2.failure = some F
  imports : F.imports = between ++ w.2.imports
  seen : w'.2.seen = F.seen
  earlier : w.2.seen <:+ F.seen
  origin : ∀ line f, F.halt = .fault line f → ∃ base ds active, F.Origin base ds active ∧
    base.reporter = w.1.reporter
  chain : ∃ places, F.machine.context.importChain = w.1.context.importChain ++ places ∧
    List.Forall₂ (Import.Meant F.seen) between places.reverse
  exhausted : F.halt = .outOfFuel → h = .outOfFuel
  pending : ∀ line f, F.halt = .fault line f → ∃ line' f', h = .fault line' f' ∧
    w'.1.report (.ofFault line' f') =
      (F.machine.reportAll (.ofFault line f :: between.map Import.broken)).withContext w.1.context

variable {w w' w'' : Machine × Trail} {h : Halt} {F : Failure} {between : List Import}

theorem Calm.refl (hw : w.2.failure = none) : Calm w w := ⟨rfl, rfl, List.suffix_refl _, rfl, hw⟩

theorem Calm.trans (hw : Calm w w') (hw' : Calm w' w'') : Calm w w'' :=
  ⟨hw'.context.trans hw.context, hw'.reporter.trans hw.reporter, hw.seen.trans hw'.seen,
    hw'.imports.trans hw.imports, hw'.failure⟩

theorem Calm.quiet {m : Machine} (hw : Calm w w') (steps : w'.1.QuietSteps m) : Calm w (m, w'.2) :=
  ⟨steps.steps.context.1.trans hw.context, steps.reporter.trans hw.reporter, hw.seen, hw.imports, hw.failure⟩

/-- A failure after a calm beginning. -/
theorem Calm.raised (hw : Calm w w') (hr : Raised w' h w'' F between) : Raised w h w'' F between := by
  obtain ⟨context, failure, imports, seen, earlier, origin, chain, exhausted, pending⟩ := hr
  rw [hw.context] at context chain pending
  rw [hw.imports] at imports
  rw [hw.reporter] at origin
  exact ⟨context, failure, imports, seen, hw.seen.trans earlier, origin, chain, exhausted, pending⟩

/-! ## Evaluations -/

/-- Until it fails the evaluation is calm, and a failure of a statement inside was noted. -/
def Unwinds (x : Watched Trail α) : Prop := ∀ w : Machine × Trail, w.2.failure = none →
  Meets x w (fun _ => Calm w) fun h w' => Calm w w' ∨ ∃ F between, Raised w h w' F between

/-- All failures of the evaluation are failures of statements. -/
def Records (x : Watched Trail α) : Prop := ∀ w : Machine × Trail, w.2.failure = none →
  Meets x w (fun _ => Calm w) fun h w' => ∃ F between, Raised w h w' F between

theorem Records.unwinds {x : Watched Trail α} (hx : Records x) : Unwinds x :=
  fun w hw => (hx w hw).mono (fun _ _ h => h) fun _ _ h => .inr h

/-- A sequence, whatever is known of its failures. -/
theorem meets_bind {E : Machine × Trail → Halt → Machine × Trail → Prop}
    (later : ∀ {w w' h w''}, Calm w w' → E w' h w'' → E w h w'') {x : Watched Trail α} {f : α → Watched Trail β}
    (hx : ∀ w : Machine × Trail, w.2.failure = none → Meets x w (fun _ => Calm w) (E w))
    (hf : ∀ a, ∀ w : Machine × Trail, w.2.failure = none → Meets (f a) w (fun _ => Calm w) (E w))
    (w : Machine × Trail) (hw : w.2.failure = none) : Meets (x >>= f) w (fun _ => Calm w) (E w) :=
  Meets.bind (hx w hw) fun a w' calm =>
    (hf a w' calm.failure).mono (fun _ _ calm' => calm.trans calm') fun _ _ => later calm

theorem Records.bind {x : Watched Trail α} {f : α → Watched Trail β} (hx : Records x) (hf : ∀ a, Records (f a)) :
    Records (x >>= f) :=
  meets_bind (fun calm raised => raised.imp fun _ => Exists.imp fun _ => calm.raised) hx hf

namespace Unwinds

theorem bind {x : Watched Trail α} {f : α → Watched Trail β} (hx : Unwinds x) (hf : ∀ a, Unwinds (f a)) :
    Unwinds (x >>= f) :=
  meets_bind (fun calm => .imp calm.trans fun raised => raised.imp fun _ => Exists.imp fun _ => calm.raised) hx hf

theorem lift {x : Eval α} (hx : x.Quiet) : Unwinds (liftM x) := by
  intro w hw
  have start := Calm.refl hw
  exact Watched.meets_unseen ((hx w.1).mono (fun _ _ => start.quiet) fun _ _ steps => .inl (start.quiet steps))

theorem tell (event : Event) : Unwinds (Watched.tell observer event) :=
  fun _ hw => ⟨rfl, rfl, List.suffix_cons _ _, rfl, hw⟩

end Unwinds

/-- A changed context is put back. -/
theorem Calm.leave {c : Context} (hw : Calm (w.1.withContext c, w.2) w') :
    Calm w (w'.1.withContext w.1.context, w'.2) :=
  ⟨rfl, hw.reporter, hw.seen, hw.imports, hw.failure⟩

theorem Raised.leave {c : Context} (hr : Raised (w.1.withContext c, w.2) h w' F between)
    (hc : c.importChain = w.1.context.importChain) : Raised w h (w'.1.withContext w.1.context, w'.2) F between := by
  obtain ⟨-, failure, imports, seen, earlier, origin, chain, exhausted, pending⟩ := hr
  refine ⟨rfl, failure, imports, seen, earlier, origin, ?_, exhausted, fun line f hf => ?_⟩
  · rw [← hc]
    exact chain
  · obtain ⟨line', f', rfl, reported⟩ := pending line f hf
    refine ⟨line', f', rfl, ?_⟩
    rw [Machine.report_withContext, reported]
    rfl

theorem Unwinds.inContext {x : Watched Trail α} (hx : Unwinds x) {change : Context → Context}
    (hc : ∀ c, (change c).importChain = c.importChain) : Unwinds (Watched.inContext observer change x) := by
  intro w hw
  let w₁ : Machine × Trail := (w.1, observer ⟨.entering, w.1.withContext (change w.1.context)⟩ w.2)
  have entered : Calm w w₁ := ⟨rfl, rfl, List.suffix_cons _ _, rfl, hw⟩
  apply Watched.meets_inContext
  refine (hx (w₁.1.withContext (change w.1.context), w₁.2) hw).mono (fun _ w' calm => ?_) fun h w' ends => ?_
  · exact entered.trans calm.leave
  · rcases ends with calm | ⟨F, between, raised⟩
    · exact .inl (entered.trans calm.leave)
    · exact .inr ⟨F, between, entered.raised (raised.leave (hc _))⟩

/-! ## The rules -/

theorem composes : Composes (fun _ x (_ : Watched Trail _) => Unwinds x) observer observer where
  pure _ _ hw := .refl hw
  throw _ _ hw := .inl (.refl hw)
  lift hx := .lift hx
  bind hx hf := hx.bind hf
  tell _ := .tell _
  inContext hc hx := Unwinds.inContext hx fun c => (hc c).importChain

theorem composes_inner (n : Nat) :
    Composes (fun _ x (_ : Watched Trail _) => Unwinds x) (inner n).observer (inner n).observer :=
  composes

theorem meets_within {s : Stmt} {x : Watched Trail α} {Q : α → Machine × Trail → Prop}
    {E : Halt → Machine × Trail → Prop}
    (hx : Meets x (w.1, w.2.enter s) (fun a w' => Q a (w'.1, w.2.leave w'.2))
      fun h w' => E h (w'.1, w.2.breakOff w'.2 s h w'.1)) :
    Meets (within s x) w Q E := by
  unfold Meets at hx ⊢
  unfold within
  dsimp only
  cases hr : x (w.1, w.2.enter s) with
  | ok a w' => rw [hr] at hx; exact hx
  | error h w' => rw [hr] at hx; exact hx

/-- A statement is broken off, and no statement in it was. -/
theorem raised_here {s : Stmt} {h : Halt} (w' : Machine × Trail) (hfailure : w'.2.failure = none)
    (hcontext : w'.1.context = w.1.context) (hseen : w.2.seen <:+ w'.2.seen)
    (horigin : ∀ line f, h = .fault line f → ∃ base ds active,
      Failure.Origin ⟨h, s, w.2.imports, w'.1, w'.2.seen⟩ base ds active ∧ base.reporter = w.1.reporter) :
    ∃ F between, Raised w h (w'.1, w.2.breakOff w'.2 s h w'.1) F between := by
  refine ⟨⟨h, s, w.2.imports, w'.1, w'.2.seen⟩, [], hcontext, ?_, rfl, rfl, hseen, horigin, ?_, fun hh => hh, ?_⟩
  · simp [Trail.breakOff, Trail.leave, hfailure]
  · exact ⟨[], by rw [hcontext, List.append_nil], .nil⟩
  · intro line f hf
    refine ⟨line, f, hf, ?_⟩
    rw [← hcontext]
    exact Machine.report_withContext w'.1 w'.1.context _

/-- A statement is broken off by one in it. -/
theorem Raised.breakOff {s : Stmt} (hr : Raised w h (w'.1, w.2.leave w'.2) F between) :
    Raised w h (w'.1, w.2.breakOff w'.2 s h w'.1) F between := by
  have noted : w'.2.failure = some F := hr.failure
  have kept : w.2.breakOff w'.2 s h w'.1 = w.2.leave w'.2 := by
    simp [Trail.breakOff, Trail.leave, noted]
  rwa [kept]

/-- Other statements than imports. -/
theorem Unwinds.within {s : Stmt} (hs : s.import? = none) {x : Watched Trail α} (hx : Unwinds x) :
    Records (within s x) := by
  intro w hw
  have entered : w.2.enter s = w.2 := by simp [Trail.enter, hs]
  apply meets_within
  rw [entered]
  refine (hx w hw).mono (fun _ w' calm => ?_) fun h w' ends => ?_
  · exact ⟨calm.context, calm.reporter, calm.seen, rfl, calm.failure⟩
  · rcases ends with calm | ⟨F, between, raised⟩
    · refine raised_here _ calm.failure calm.context calm.seen ?_
      rintro line f rfl
      refine ⟨_, _, _, .fault rfl ?_, calm.reporter⟩
      rintro path rfl
      cases hs
    · refine ⟨F, between, Raised.breakOff ?_⟩
      exact { raised with failure := raised.failure }

/-! ## Imports -/

section Importing

variable {n : Nat} {i : Import} {place : Place}

/-- A failure inside an imported file breaks off the import as well, and `h'` goes on its way out. -/
theorem Raised.outward {start : Machine × Trail} {h' : Halt}
    (calm : Calm (w.1, w.2.enter (.importFile i.line i.path)) start) (hmeant : Import.Meant start.2.seen i place)
    (hr : Raised (start.1.withContext (start.1.context.enterFile place), start.2) h w' F between)
    (hcontext : w''.1.context = w.1.context) (hnotes : w''.2 = w.2.leave w'.2)
    (hexhausted : F.halt = .outOfFuel → h' = .outOfFuel)
    (hpending : ∀ line f, F.halt = .fault line f → ∃ line' f', h' = .fault line' f' ∧
      w''.1.report (.ofFault line' f') = (F.machine.reportAll (.ofFault line f ::
        (between ++ [i]).map Import.broken)).withContext w.1.context) :
    Raised w h' w'' F (between ++ [i]) := by
  obtain ⟨places, hchain, himported⟩ := hr.chain
  have longer : start.1.context.importChain ++ [place] = w.1.context.importChain ++ [place] := by rw [calm.context]
  have around : start.2.imports = i :: w.2.imports := calm.imports
  refine ⟨hcontext, hnotes ▸ hr.failure, ?_, hnotes ▸ hr.seen, calm.seen.trans hr.earlier, ?_, ?_,
    hexhausted, hpending⟩
  · rw [hr.imports, List.append_assoc]
    exact congrArg _ around
  · intro line f hf
    obtain ⟨base, ds, active, horigin, hreporter⟩ := hr.origin line f hf
    exact ⟨base, ds, active, horigin, hreporter.trans calm.reporter⟩
  · refine ⟨place :: places, ?_, ?_⟩
    · rw [hchain]
      change (start.1.context.importChain ++ [place]) ++ places = _
      rw [longer, List.append_assoc]
      rfl
    · rw [List.reverse_cons]
      obtain ⟨v, hv, hexecuting⟩ := hmeant
      exact List.rel_append himported (.cons ⟨v, hr.earlier.subset hv, hexecuting⟩ .nil)

section Breaking

variable {start : Machine × Trail} (calm : Calm (w.1, w.2.enter (.importFile i.line i.path)) start)
  (hmeant : Import.Meant start.2.seen i place)
include calm hmeant

/-- The import reports the fault of the file and fails itself. -/
theorem Raised.reported {line : Nat} {f : Fault}
    (hr : Raised (start.1.withContext (start.1.context.enterFile place), start.2) (.fault line f) w' F between) :
    Raised w (.fault i.line (.importBroken i.path))
      ((w'.1.withContext w.1.context).report (.ofFault line f), w.2.leave w'.2) F (between ++ [i]) := by
  refine hr.outward calm hmeant ((Machine.report_same _ _).context) rfl (fun hf => ?_) fun line' f' hf => ?_
  · cases hr.exhausted hf
  · obtain ⟨_, _, ⟨⟩, reported⟩ := hr.pending line' f' hf
    refine ⟨i.line, .importBroken i.path, rfl, ?_⟩
    rw [List.map_append, ← List.cons_append, Machine.reportAll_append, Machine.report_withContext, reported]
    exact Machine.report_withContext (F.machine.reportAll (.ofFault line' f' :: between.map Import.broken)) _ i.broken

/-- That there is no more fuel is passed on. -/
theorem Raised.passed
    (hr : Raised (start.1.withContext (start.1.context.enterFile place), start.2) .outOfFuel w' F between) :
    Raised w .outOfFuel (w'.1.withContext w.1.context, w.2.leave w'.2) F (between ++ [i]) := by
  refine hr.outward calm hmeant rfl rfl (fun _ => rfl) fun line' f' hf => ?_
  obtain ⟨_, _, ⟨⟩, -⟩ := hr.pending line' f' hf

end Breaking

variable (he : ∀ s, Records (execute n s))
include he

theorem runAll (ss : List Stmt) : Records ((inner n).runAll ss) := by
  induction ss with
  | nil => exact fun _ hw => .refl hw
  | cons s ss ih =>
    refine (he s).bind fun flow => ?_
    cases flow with
    | normal => exact ih
    | breaking | continuing | returning => exact fun _ hw => .refl hw

theorem runBody (f : FunctionObject) (args : List Value) : Unwinds ((inner n).runBody f args) := by
  refine (Unwinds.lift (.checkDepth _)).bind fun _ => ((composes_inner n).openCall f args).bind fun _ => ?_
  exact (runAll he _).unwinds.inContext fun _ => rfl

/-- What runs inside a file breaks off in the context of the file, which is then left. -/
theorem runImported {start : Machine × Trail} (hw : start.2.failure = none) (place : Place)
    (declarations : List Stmt) :
    ∃ entered, Calm start entered ∧ Meets ((inner n).runImported place declarations) start (fun _ => Calm start)
      (fun h w' => ∃ F between w'',
        Raised (entered.1.withContext (entered.1.context.enterFile place), entered.2) h w'' F between ∧
        w' = (w''.1.withContext start.1.context, w''.2)) := by
  let inside := start.1.withContext (start.1.context.enterFile place)
  let entered : Machine × Trail := (start.1, observer ⟨.entering, inside⟩ start.2)
  have calm : Calm start entered := ⟨rfl, rfl, List.suffix_cons _ _, rfl, hw⟩
  refine ⟨entered, calm, ?_⟩
  unfold Inner.runImported
  apply Watched.meets_inContext
  refine (runAll he declarations (inside, entered.2) hw).mono (fun _ w' calm' => ?_) fun h w' ends => ?_
  · exact calm.trans (Calm.leave (w := entered) calm')
  · obtain ⟨F, between, raised⟩ := ends
    exact ⟨F, between, w', raised, rfl⟩

/-- The declarations of a file are run. A failure in it is reported, and the import fails. -/
theorem runDeclarations {start : Machine × Trail} (calm : Calm (w.1, w.2.enter (.importFile i.line i.path)) start)
    (hmeant : Import.Meant start.2.seen i place) (declarations : List Stmt) :
    Meets ((inner n).runDeclarations i.line i.path place declarations) start
      (fun _ => Calm (w.1, w.2.enter (.importFile i.line i.path)))
      (fun h w' => ∃ F between, Raised w h (w'.1, w.2.leave w'.2) F between) := by
  let told : Machine × Trail := (start.1, observer ⟨.starting declarations, start.1⟩ start.2)
  have calm' : Calm (w.1, w.2.enter (.importFile i.line i.path)) told :=
    calm.trans ⟨rfl, rfl, List.suffix_cons _ _, rfl, calm.failure⟩
  obtain ⟨entered, entering, run⟩ := runImported he calm'.failure place declarations
  have meant : Import.Meant entered.2.seen i place :=
    hmeant.imp fun _ hv => ⟨entering.seen.subset (.tail _ hv.1), hv.2⟩
  refine Meets.bind (Q := fun _ w' => w' = told) rfl ?_
  rintro _ _ rfl
  refine Meets.bind (Q := fun _ => Calm told) (Meets.tryCatch (Meets.bind run fun _ _ h => Meets.pure h) ?_) ?_
  · rintro (⟨line, f⟩ | _) _ ⟨F, between, w', raised, rfl⟩
    · rw [calm'.context]
      exact ⟨F, _, raised.reported (calm'.trans entering) meant⟩
    · rw [calm'.context]
      exact ⟨F, _, raised.passed (calm'.trans entering) meant⟩
  · intro _ w' h
    exact calm'.trans ⟨h.context, h.reporter, h.seen, h.imports, h.failure⟩

/-- An import statement. It fails by itself, or with what it finds in its file. -/
theorem importStatement (line : Nat) (path : String) : Records (within (.importFile line path) do
    Watched.tell observer (.executing (.importFile line path))
    (inner n).executeStmt (.importFile line path)) := by
  intro w hw
  let s : Stmt := .importFile line path
  let told : Machine × Trail := (w.1, observer ⟨.executing s, w.1⟩ (w.2.enter s))
  have calm : Calm (w.1, w.2.enter s) told := ⟨rfl, rfl, List.suffix_cons _ _, rfl, hw⟩
  have visited : ⟨.executing s, w.1⟩ ∈ told.2.seen := .head _
  have here {f : Fault} (hf : ∀ path, f ≠ .importBroken path) :
      ∃ F between, Raised w (.fault line f) (w.1, w.2.breakOff told.2 s (.fault line f) w.1) F between := by
    refine raised_here told hw rfl calm.seen ?_
    rintro _ _ ⟨⟩
    exact ⟨_, _, _, .fault rfl fun path _ => hf path, rfl⟩
  apply meets_within
  refine Meets.bind (Q := fun _ w' => w' = told) rfl ?_
  rintro _ _ rfl
  refine Meets.bind (Q := fun _ => Calm (w.1, w.2.enter s)) ?_ fun _ w' calm' =>
    Meets.pure ⟨calm'.context, calm'.reporter, calm'.seen, rfl, calm'.failure⟩
  refine Inner.meets_importFile _ line path (fun _ _ => here nofun) (fun _ _ _ => here nofun) (fun _ _ _ _ => calm) ?_
  intro place target _ _
  change Meets ((inner n).importSource line path place (w.1.files.readSource (Path.ofNames place))) told _ _
  cases source : w.1.files.readSource (Path.ofNames place) with
  | error e => exact here nofun
  | ok text =>
    refine Meets.bind (Q := fun _ w' => w.1.TakesUp [] w'.1 ∧ w'.2 = told.2) (Watched.meets_unseen ?_) ?_
    · refine (Eval.meets_readDeclarations line path text w.1).mono (fun _ _ takes => ⟨takes, rfl⟩) ?_
      rintro _ m ⟨rfl, some, takes⟩
      refine raised_here (m, told.2) hw takes.context calm.seen ?_
      rintro _ _ ⟨⟩
      exact ⟨_, _, _, .problems rfl rfl visited target source some takes, rfl⟩
    · rintro declarations ⟨m, _⟩ ⟨takes, rfl⟩
      have taken : Calm (w.1, w.2.enter s) (m, told.2) := ⟨takes.context, takes.reporter, calm.seen, rfl, hw⟩
      refine (runDeclarations he (i := ⟨line, path⟩) taken ⟨_, visited, rfl, target⟩ declarations).mono
        (fun _ _ calm' => calm') ?_
      rintro h w' ⟨F, between, raised⟩
      exact ⟨F, between, raised.breakOff⟩

theorem parts (hv : ∀ e, Unwinds (evaluate n e)) :
    Inner.Parts (fun _ x (_ : Watched Trail _) => Unwinds x) (fun _ => True) (inner n) (inner n) where
  toComposes := composes
  turns {_ _ y} hx := composes.loop (y := y) hx n
  evaluate := hv
  execute s _ := (he s).unwinds
  runBody := runBody he

end Importing

/-! ## Whole runs -/

theorem run_unwinds (fuel : Nat) : (∀ e, Unwinds (evaluate fuel e)) ∧ (∀ s, Records (execute fuel s)) := by
  induction fuel with
  | zero =>
    refine ⟨fun _ => composes.throw _, fun s w hw => meets_within ?_⟩
    exact raised_here (w.1, w.2.enter s) hw rfl (List.suffix_refl _) nofun
  | succ n ih =>
    have inner := parts ih.2 ih.1
    have other {s : Stmt} (hs : s.import? = none) : Records (execute (n + 1) s) := by
      refine Unwinds.within hs ((Unwinds.tell _).bind fun _ => inner.executeStmt (fun _ _ => trivial) ?_)
      rintro line path rfl
      cases hs
    refine ⟨fun e => (Unwinds.tell _).bind fun _ => inner.evaluateExpr e, fun s => ?_⟩
    cases s with
    | importFile line path => exact importStatement ih.2 line path
    | _ => exact other rfl

theorem executeAll_records (fuel : Nat) (statements : List Stmt) : Records (executeAll fuel statements) := by
  induction statements with
  | nil => exact fun _ hw => .refl hw
  | cons s ss ih => exact ((run_unwinds fuel).2 s).bind fun _ => ih

theorem executeText_records (fuel : Nat) (statements : List Stmt) : Records (executeText fuel statements) := by
  have told : Records (Watched.tell observer (.starting statements)) :=
    fun _ hw => ⟨rfl, rfl, List.suffix_cons _ _, rfl, hw⟩
  exact told.bind fun _ => executeAll_records fuel statements

/-- A run ends without a failure and without a report, or it is broken off by its first failure. -/
theorem failure?_cases (fuel : Nat) (statements : List Stmt) (m : Machine) :
    (failure? fuel statements m = none ∧ ∃ m', interpret fuel statements m = .ok () m' ∧ m'.reporter = m.reporter) ∨
      ∃ F h w, failure? fuel statements m = some F ∧ interpret fuel statements m = .error h w.1 ∧
        Watched.notes (watchText .recorder fuel statements (m, [])) = F.seen ∧
        Raised (m, start) h w F F.imports := by
  have run := executeText_records fuel statements (m, start) rfl
  have seen := seen_executeText fuel statements m start
  rw [← outcome_executeText fuel statements m start, failure?]
  unfold Meets at run
  cases hr : executeText fuel statements (m, start) with
  | ok a w =>
    rw [hr] at run
    exact .inl ⟨run.failure, w.1, rfl, run.reporter⟩
  | error h w =>
    rw [hr] at run seen
    obtain ⟨F, between, raised⟩ := run
    have all : F.imports = between := raised.imports.trans (List.append_nil _)
    exact .inr ⟨F, h, w, raised.failure, rfl, seen.symm.trans raised.seen, all ▸ raised⟩

theorem faults_iff (fuel : Nat) (statements : List Stmt) (m : Machine) :
    (∃ line f m', interpret fuel statements m = .error (.fault line f) m') ↔
      ∃ F line f, failure? fuel statements m = some F ∧ F.halt = .fault line f := by
  rcases failure?_cases fuel statements m with ⟨none, m', ended, -⟩ | ⟨F, h, w, failed, ended, -, raised⟩
  · simp [none, ended]
  · simp only [failed, ended, Option.some.injEq, EStateM.Result.error.injEq]
    constructor
    · rintro ⟨line, f, m', rfl, -⟩
      cases hh : F.halt with
      | fault line' f' => exact ⟨F, line', f', rfl, hh⟩
      | outOfFuel => cases raised.exhausted hh
    · rintro ⟨_, line, f, rfl, hf⟩
      obtain ⟨line', f', rfl, -⟩ := raised.pending line f hf
      exact ⟨line', f', w.1, rfl, rfl⟩

/-- The first failure decides how the run ends. -/
theorem raised_of_failure? {fuel : Nat} {statements : List Stmt} {m : Machine}
    (hF : failure? fuel statements m = some F) :
    ∃ h w, interpret fuel statements m = .error h w.1 ∧
      Watched.notes (watchText .recorder fuel statements (m, [])) = F.seen ∧ Raised (m, start) h w F F.imports := by
  rcases failure?_cases fuel statements m with ⟨none, -⟩ | ⟨F', h, w, failed, ended, seen, raised⟩
  · cases none.symm.trans hF
  · cases failed.symm.trans hF
    exact ⟨h, w, ended, seen, raised⟩

end Trail

theorem Failure.Origin.ne_nil {F : Failure} {base : Machine} {ds : List Diagnostic} {active : List Import}
    (h : F.Origin base ds active) : ds ≠ [] := by
  cases h with
  | fault => exact List.cons_ne_nil _ _
  | problems _ _ _ _ _ some => exact some

/-- What is reported of a failure and by the imports around it, starting from before the failure was known. -/
theorem Failure.Origin.reports {F : Failure} {base : Machine} {ds : List Diagnostic} {active : List Import}
    (h : F.Origin base ds active) {line : Nat} {f : Fault} (hf : F.halt = .fault line f) :
    let before := base.reportAll (ds ++ active.map Import.broken)
    let after := F.machine.reportAll (.ofFault line f :: F.imports.map Import.broken)
    after.reporter = before.reporter ∧ after.files = before.files := by
  cases h with
  | fault hf' =>
    cases hf.symm.trans hf'
    exact ⟨rfl, rfl⟩
  | problems _ hf' _ _ _ _ takes =>
    cases hf.symm.trans hf'
    rw [Machine.reportAll_append]
    exact Machine.reportAll_congr takes.reporter takes.files _

open Session in
/-- A text is run and fails. What is reported is what there is to say of the first failure, followed by one message for
each import that was active, from the innermost to the outermost. The failure is a fault, or it is made of the problems
of a file that the innermost import found. The imports are those of the files on the chain. Nothing else happens after
the failure, and the session is marked with a fault and with nothing else. -/
theorem failures_reported_inside_out (fuel : Nat) (text : String) (s : Session) {statements : List Stmt} {p : Session}
    (prepared : prepareText text s = .ok (some statements) p) :
    ((∃ line f m, interpret fuel statements p.machine = .error (.fault line f) m) ↔
      ∃ F line f, Trail.failure? fuel statements p.machine = some F ∧ F.halt = .fault line f) ∧
    ∀ F line f, Trail.failure? fuel statements p.machine = some F → F.halt = .fault line f →
      ∃ base ds active after, F.Origin base ds active ∧ base.reporter = s.machine.reporter ∧ ds ≠ [] ∧
        (∃ places, F.machine.context.importChain = s.machine.context.importChain ++ places ∧
          List.Forall₂ (Import.Meant F.seen) F.imports places.reverse) ∧
        runText fuel text s = .ok () after ∧
        after.machine = (F.machine.reportAll (.ofFault line f :: F.imports.map Import.broken)).withContext
          s.machine.context ∧
        after.machine.reporter = (base.reportAll (ds ++ active.map Import.broken)).reporter ∧
        after.machine.files = (base.reportAll (ds ++ active.map Import.broken)).files ∧
        (s.machine.reporter.sink = .collected → after.machine.reporter.diagnostics =
          s.machine.reporter.diagnostics ++ ds ++ active.map Import.broken) ∧
        (active.map Import.broken).map Diagnostic.message =
          active.map (fun i => "Error while interpreting file " ++ i.path ++ "'s content.") ∧
        watchSource fuel text s [] = F.seen ∧
        after.hadFault = true ∧ after.hadError = s.hadError ∧ (s.hadError = false → after.exitCode = 70) := by
  obtain ⟨takes, hadError⟩ := takesUp_of_prepared prepared
  refine ⟨Trail.faults_iff fuel statements p.machine, fun F line f failed hf => ?_⟩
  obtain ⟨h, w, ended, seen, raised⟩ := Trail.raised_of_failure? failed
  obtain ⟨line', f', rfl, reported⟩ := raised.pending line f hf
  obtain ⟨base, ds, active, origin, reporter⟩ := raised.origin line f hf
  obtain ⟨places, chain, meant⟩ := raised.chain
  let after : Session := { p with machine := w.1.report (.ofFault line' f'), hadFault := true }
  have run : runText fuel text s = .ok () after := by
    rw [runText_eq prepared]
    change runStatements fuel statements p = _
    rw [runStatements, ended]
  have context : p.machine.context = s.machine.context := takes.context
  have machine : after.machine = (F.machine.reportAll (.ofFault line f :: F.imports.map Import.broken)).withContext
      s.machine.context := context ▸ reported
  have unreported : base.reporter = s.machine.reporter := reporter.trans takes.reporter
  obtain ⟨reports, files⟩ := origin.reports hf
  have reports' : after.machine.reporter = (base.reportAll (ds ++ active.map Import.broken)).reporter := by
    rw [machine]
    exact reports
  refine ⟨base, ds, active, after, origin, unreported, origin.ne_nil, ⟨places, context ▸ chain, meant⟩, run, machine,
    reports', ?_, fun sink => ?_, ?_, ?_, rfl, hadError, fun none => ?_⟩
  · rw [machine]
    exact files
  · rw [reports', Machine.reportAll_collected (unreported ▸ sink), unreported, List.append_assoc]
  · simp [Import.message_broken]
  · rw [watchSource, prepared]
    exact seen
  · simp [exitCode, after, hadError, none, faultCode]

namespace BrokenTwice

/-- A file with a fault is imported by a file that is imported. -/
def files : FileTree :=
  ⟨[(["outer.ypl"], .file "import \"inner.ypl\"; let x = 1;".toUTF8),
    (["inner.ypl"], .file "let y = z;".toUTF8)], []⟩

def start : Session := .initial (.initial ⟨false, Machine.defaultCallDepth⟩ .collected files 0)

def text : String := "import \"outer.ypl\"; print x;"

def statements : List Stmt := (start.machine.load false text).1.statements

def prepared : Session := ⟨((start.machine.load false text).2.analyse statements).2, false, false, false⟩

theorem prepareText_eq : Session.prepareText text start = .ok (some statements) prepared := by
  have sound : (start.machine.load start.inComment text).1.isSound = true := by decide +kernel
  have analysed : ((start.machine.load start.inComment text).2.analyse statements).1 = true := by decide +kernel
  have closed : (start.machine.load start.inComment text).1.inComment = false := by decide +kernel
  rcases Session.prepareText_cases text start with ⟨hsound, -⟩ | ⟨-, hanalysed, -⟩ | ⟨-, -, ends⟩
  · cases sound.symm.trans hsound
  · cases analysed.symm.trans hanalysed
  · rw [ends, closed]
    rfl

/-- The fault and both imports are reported. -/
theorem failures_reported_inside_out_twice : ∃ F after,
    Trail.failure? 20 statements prepared.machine = some F ∧ F.imports = [⟨0, "inner.ypl"⟩, ⟨0, "outer.ypl"⟩] ∧
    Session.runText 20 text start = .ok () after ∧ after.exitCode = 70 ∧
    after.machine.reporter.diagnostics.map Diagnostic.message =
      ["Undefined variable z.", "Error while interpreting file inner.ypl's content.",
        "Error while interpreting file outer.ypl's content."] := by
  have found : (Trail.failure? 20 statements prepared.machine).map
      (fun F => (F.halt, F.imports, F.statement.import?)) =
        some (.fault 0 (.binding (.undefined "z")), [⟨0, "inner.ypl"⟩, ⟨0, "outer.ypl"⟩], none) := by
    decide +kernel
  obtain ⟨F, failed, parts⟩ := Option.map_eq_some_iff.1 found
  obtain ⟨halt, imports, other⟩ : F.halt = _ ∧ F.imports = _ ∧ F.statement.import? = none := by
    simpa only [Prod.mk.injEq] using parts
  obtain ⟨base, ds, active, after, origin, -, -, -, run, -, -, -, diagnostics, -, -, -, -, code⟩ :=
    (failures_reported_inside_out 20 text start prepareText_eq).2 F 0 _ failed halt
  refine ⟨F, after, failed, imports, run, code rfl, ?_⟩
  rw [diagnostics rfl]
  cases origin with
  | fault hf _ =>
    cases halt.symm.trans hf
    rw [imports]
    decide +kernel
  | problems hs =>
    rw [hs] at other
    cases other

end BrokenTwice

end Scriptlet
