import Scriptlet.Proofs.Sessions

/-!
# Texts with problems are not run

A text is scanned and parsed, and if there were no problems its scopes are looked at. Every problem is reported. A text
with a problem leaves nothing but its reports behind and is marked as an error; a text without problems is run, and only
a fault of the run is reported and marked.
-/
namespace Scriptlet

variable {α β γ ν : Type}

/-! ## Reports -/

namespace Machine

variable {m m' m'' : Machine} {ds ds' : List Diagnostic}

theorem reportAll_congr (hr : m'.reporter = m.reporter) (hf : m'.files = m.files) (ds : List Diagnostic) :
    (m'.reportAll ds).reporter = (m.reportAll ds).reporter ∧ (m'.reportAll ds).files = (m.reportAll ds).files := by
  induction ds generalizing m m' with
  | nil => exact ⟨hr, hf⟩
  | cons d ds ih =>
    obtain ⟨hr', hf'⟩ := report_congr hr hf d
    exact ih hr' hf'

/-- The other machine has taken up a text and reported `ds`. Nothing was run. -/
structure TakesUp (m : Machine) (ds : List Diagnostic) (m' : Machine) : Prop where
  settings : m'.settings = m.settings
  context : m'.context = m.context
  store : m'.store = m.store
  imported : m'.imported = m.imported
  output : m'.output = m.output
  clock : m'.clock = m.clock
  reporter : m'.reporter = (m.reportAll ds).reporter
  files : m'.files = (m.reportAll ds).files

namespace TakesUp

theorem reported (m : Machine) (ds : List Diagnostic) : m.TakesUp ds (m.reportAll ds) := by
  have same := m.reportAll_same ds
  exact ⟨same.settings, same.context, same.store, same.imported, same.output, same.clock, rfl, rfl⟩

theorem trans (h : m.TakesUp ds m') (h' : m'.TakesUp ds' m'') : m.TakesUp (ds ++ ds') m'' := by
  have joined : m.reportAll (ds ++ ds') = (m.reportAll ds).reportAll ds' := List.foldl_append
  obtain ⟨hr, hf⟩ := reportAll_congr h.reporter h.files ds'
  exact ⟨h'.settings.trans h.settings, h'.context.trans h.context, h'.store.trans h.store,
    h'.imported.trans h.imported, h'.output.trans h.output, h'.clock.trans h.clock,
    by rw [h'.reporter, hr, joined], by rw [h'.files, hf, joined]⟩

theorem analysed (m : Machine) (statements : List Stmt) :
    m.TakesUp ((Analysis.ofStatements m.distances statements).problems.map .ofScoping) (m.analyse statements).2 := by
  have resolved : m.TakesUp [] { m with distances := (Analysis.ofStatements m.distances statements).distances } :=
    ⟨rfl, rfl, rfl, rfl, rfl, rfl, rfl, rfl⟩
  exact resolved.trans (.reported _ _)

/-- What is reported is kept, where diagnostics are collected. -/
theorem diagnostics (h : m.TakesUp ds m') (hs : m.reporter.sink = .collected) :
    m'.reporter.diagnostics = m.reporter.diagnostics ++ ds := by
  rw [h.reporter, reportAll_collected hs]

end TakesUp

end Machine

/-! ## Runs -/

/-- The evaluation does not change `f` of the machine. -/
def Watched.Keeps (f : Machine → γ) (x : Watched ν α) : Prop :=
  ∀ w, Meets x w (fun _ w' => f w'.1 = f w.1) fun _ w' => f w'.1 = f w.1

namespace Watched.Keeps

variable {f : Machine → γ}

theorem bind {x : Watched ν α} {g : α → Watched ν β} (hx : Keeps f x) (hg : ∀ a, Keeps f (g a)) :
    Keeps f (x >>= g) := by
  intro w
  refine Meets.bind (hx w) fun a w' h => ?_
  exact (hg a w').mono (fun _ _ h' => h'.trans h) fun _ _ h' => h'.trans h

theorem lift (steps : ∀ {m m'}, Machine.Steps m m' → f m' = f m) {x : Eval α} (hx : x.Stepwise) :
    Keeps f (liftM x : Watched ν α) :=
  fun w => Watched.meets_unseen ((hx w.1).mono (fun _ _ h => steps h) fun _ _ h => steps h)

theorem inContext (context : ∀ m c, f (Machine.withContext m c) = f m) {o : Observer ν}
    {change : Context → Context} {x : Watched ν α} (hx : Keeps f x) :
    Keeps f (Watched.inContext o change x) := by
  intro w
  apply Watched.meets_inContext
  refine (hx _).mono ?_ ?_
  · exact fun _ _ h => (context _ _).trans (h.trans (context _ _))
  · exact fun _ _ h => (context _ _).trans (h.trans (context _ _))

/-- What single steps, changes of the context and imports keep, every run keeps. -/
theorem respects (steps : ∀ {m m'}, Machine.Steps m m' → f m' = f m)
    (context : ∀ m c, f (Machine.withContext m c) = f m)
    (imported : ∀ (m : Machine) places, f { m with imported := places } = f m) (o : Observer ν) :
    Respects (fun _ x (_ : Watched ν _) => Keeps f x) o o where
  pure _ _ := rfl
  throw _ _ := rfl
  lift hx := lift steps hx
  bind hx hg := bind hx hg
  tryCatch _ hx hg w := Meets.tryCatch (hx w) fun e w' h =>
    (hg e w').mono (fun _ _ h' => h'.trans h) fun _ _ h' => h'.trans h
  markImported _ _ := imported _ _
  tell _ _ := rfl
  inContext _ hx := inContext context hx
  enterCall line _ _ _ _ ho hx := bind (lift steps (Eval.Quiet.checkDepth line).stepwise) fun _ => bind ho fun _ => inContext context hx

end Watched.Keeps

/-- What the stages find in a text. -/
structure Session.Problems where
  lexical : List Diagnostic
  syntactic : List Diagnostic
  scoping : List Diagnostic

namespace Session

def Problems.all (p : Problems) : List Diagnostic := p.lexical ++ p.syntactic ++ p.scoping

/-- The problems of a text. The scopes of a text that has other problems are not looked at. -/
def problems (s : Session) (text : String) : Problems :=
  let scan := Scan.ofText s.inComment text
  let parse := Parse.ofTokens s.machine.nextNode scan.tokens
  let analysis := Analysis.ofStatements s.machine.distances parse.statements
  { lexical := scan.errors.map fun (line, e) => .ofLexical line e
    syntactic := parse.problems.map .ofSyntactic
    scoping := if scan.hadError || parse.hadError then [] else analysis.problems.map .ofScoping }

variable (s : Session) (text : String)

theorem scanFailed_iff : (s.machine.load s.inComment text).1.scanFailed = true ↔ (s.problems text).lexical ≠ [] := by
  change (!(Scan.ofText s.inComment text).errors.isEmpty) = true ↔ List.map _ _ ≠ []
  rw [Bool.not_eq_true', ← Bool.not_eq_true, List.isEmpty_iff, Ne, List.map_eq_nil_iff]

theorem parseFailed_iff :
    (s.machine.load s.inComment text).1.parseFailed = true ↔ (s.problems text).syntactic ≠ [] := by
  change (!(Parse.ofTokens _ _).problems.isEmpty) = true ↔ List.map _ _ ≠ []
  rw [Bool.not_eq_true', ← Bool.not_eq_true, List.isEmpty_iff, Ne, List.map_eq_nil_iff]

theorem isSound_iff : (s.machine.load s.inComment text).1.isSound = true ↔
    (s.problems text).lexical = [] ∧ (s.problems text).syntactic = [] := by
  unfold Program.isSound
  rw [Bool.and_eq_true, Bool.not_eq_true', Bool.not_eq_true', ← Bool.not_eq_true, ← Bool.not_eq_true,
    scanFailed_iff, parseFailed_iff, Classical.not_not, Classical.not_not]

/-- Scanning and parsing report what they find. -/
theorem load_takesUp : s.machine.TakesUp ((s.problems text).lexical ++ (s.problems text).syntactic)
    (s.machine.load s.inComment text).2 := by
  have reported := (Machine.TakesUp.reported s.machine (s.problems text).lexical).trans
    (.reported _ (s.problems text).syntactic)
  exact ⟨reported.settings, reported.context, reported.store, reported.imported, reported.output, reported.clock,
    reported.reporter, reported.files⟩

theorem load_distances : (s.machine.load s.inComment text).2.distances = s.machine.distances := by
  obtain ⟨reported, same, loaded⟩ := s.machine.load_same s.inComment text
  rw [loaded, same]

variable {s text}

/-- The scopes of a sound text are looked at, with the distances known so far. -/
theorem scoping_eq_ite : (s.problems text).scoping =
    if (s.machine.load s.inComment text).1.isSound = true then
      (Analysis.ofStatements (s.machine.load s.inComment text).2.distances
        (s.machine.load s.inComment text).1.statements).problems.map .ofScoping
    else [] := by
  have sound : (s.machine.load s.inComment text).1.isSound = !((Scan.ofText s.inComment text).hadError ||
      Parse.hadError (.ofTokens s.machine.nextNode (Scan.ofText s.inComment text).tokens)) := by
    rw [Bool.not_or]
    rfl
  rw [sound, load_distances]
  unfold problems
  dsimp only
  cases (Scan.ofText s.inComment text).hadError ||
    Parse.hadError (.ofTokens s.machine.nextNode (Scan.ofText s.inComment text).tokens) with
  | false => rfl
  | true => rfl

theorem scoping_of_sound (h : (s.machine.load s.inComment text).1.isSound = true) :
    (s.problems text).scoping = (Analysis.ofStatements (s.machine.load s.inComment text).2.distances
      (s.machine.load s.inComment text).1.statements).problems.map .ofScoping := by
  rw [scoping_eq_ite, if_pos h]

/-- The analysis finds no problem if and only if it reports none. -/
theorem analyse_iff (h : (s.machine.load s.inComment text).1.isSound = true) :
    ((s.machine.load s.inComment text).2.analyse (s.machine.load s.inComment text).1.statements).1 = false ↔
      (s.problems text).scoping ≠ [] := by
  rw [scoping_of_sound h, Ne, List.map_eq_nil_iff, ← List.isEmpty_iff, Bool.not_eq_true]
  rfl

/-- Everything that was found is reported. -/
theorem analyse_takesUp (h : (s.machine.load s.inComment text).1.isSound = true) :
    s.machine.TakesUp (s.problems text).all
      ((s.machine.load s.inComment text).2.analyse (s.machine.load s.inComment text).1.statements).2 := by
  refine (load_takesUp s text).trans ?_
  rw [scoping_of_sound h]
  exact .analysed _ _

theorem problems_eq_nil (hsound : (s.machine.load s.inComment text).1.isSound = true)
    (hanalysed : ((s.machine.load s.inComment text).2.analyse
      (s.machine.load s.inComment text).1.statements).1 = true) : (s.problems text).all = [] := by
  have none : (s.problems text).scoping = [] := by
    refine Classical.byContradiction fun some => ?_
    cases hanalysed.symm.trans ((analyse_iff hsound).2 some)
  obtain ⟨hlexical, hsyntactic⟩ := (isSound_iff s text).1 hsound
  rw [Problems.all, hlexical, hsyntactic, none]
  rfl

/-! ## Texts -/

/-- A text whose statements come out of it was taken up, and nothing was reported. -/
theorem takesUp_of_prepared {statements : List Stmt} {p : Session}
    (h : prepareText text s = .ok (some statements) p) :
    s.machine.TakesUp [] p.machine ∧ p.hadError = s.hadError := by
  rcases prepareText_cases text s with ⟨-, prepared⟩ | ⟨-, -, prepared⟩ | ⟨hsound, hanalysed, prepared⟩
  · cases h.symm.trans prepared
  · cases h.symm.trans prepared
  · cases h.symm.trans prepared
    exact ⟨problems_eq_nil hsound hanalysed ▸ analyse_takesUp hsound, rfl⟩

end Session

end Scriptlet
