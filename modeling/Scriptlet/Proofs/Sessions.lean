import Scriptlet.Proofs.ContextRestored
import Scriptlet.Session

/-!
# What a session runs

A session runs texts and scripts on one machine. Here is what comes of a text that is taken up, what a
recorder sees of a session, and how the two belong together.
-/
namespace Scriptlet.Session

/-- What a session is given to run: a text, or the path of a script. -/
inductive Item where
  | text (source : String)
  | script (path : String)

def runItem (fuel : Nat) : Item → Action Unit
  | .text source => runText fuel source
  | .script path => do
    let _ ← runFile fuel path

/-- The session after an action, however it ends. -/
def final : EStateM.Result Stop Session α → Session
  | .ok _ s => s
  | .error _ s => s

/-- What a recorder sees of the run of a text. -/
def watchSource (fuel : Nat) (source : String) (s : Session) (older : List Visit) : List Visit :=
  match prepareText source s with
  | .ok (some statements) s => Watched.notes (watchText .recorder fuel statements (s.machine, older))
  | _ => older

def watchItem (fuel : Nat) (item : Item) (s : Session) (older : List Visit) : List Visit :=
  match item with
  | .text source => watchSource fuel source s older
  | .script path =>
    match s.machine.files.readSource path with
    | .error _ => older
    | .ok source => watchSource fuel source { s with machine := enterScript path s.machine } older

/-- What a recorder sees of a whole session, the latest first. -/
def visits (fuel : Nat) : List Item → Session → List Visit → List Visit
  | [], _, older => older
  | item :: items, s, older => visits fuel items (final (runItem fuel item s)) (watchItem fuel item s older)

/-- A session on a new machine without files. -/
def new : Session := .initial (.initial ⟨false, Machine.defaultCallDepth⟩ .collected ⟨[], []⟩ 0)

/-- A session that can come up: texts and scripts are run on a new machine, and in between all that programs do
not keep may be changed from outside. -/
inductive Reachable : Session → Prop where
  | initial (settings : Settings) (sink : Sink) (files : FileTree) (clock : Nat) :
    Reachable (.initial (.initial settings sink files clock))
  | run {s} (fuel : Nat) (item : Item) : Reachable s → Reachable (final (runItem fuel item s))
  | outside {s} (settings : Settings) (output : String) (reporter : Reporter) (files : FileTree) (clock : Nat)
    (hadError hadFault : Bool) : Reachable s →
    Reachable { s with
      machine := { s.machine with settings, output, reporter, files, clock }
      hadError
      hadFault }

variable {s : Session}

/-- Taking up a text always ends. The text has problems of scanning or parsing, or problems of its scopes, or
else its statements come out of it. -/
theorem prepareText_cases (source : String) (s : Session) :
    let loaded := s.machine.load s.inComment source
    let analysed := loaded.2.analyse loaded.1.statements
    (loaded.1.isSound = false ∧
      prepareText source s = .ok none ⟨loaded.2, true, s.hadFault, loaded.1.inComment⟩) ∨
    (loaded.1.isSound = true ∧ analysed.1 = false ∧
      prepareText source s = .ok none ⟨analysed.2, true, s.hadFault, loaded.1.inComment⟩) ∨
    (loaded.1.isSound = true ∧ analysed.1 = true ∧ prepareText source s =
      .ok (some loaded.1.statements) ⟨analysed.2, s.hadError, s.hadFault, loaded.1.inComment⟩) := by
  intro loaded analysed
  have first : prepareText source s =
      (if !loaded.1.isSound then do
          modify fun s => { s with hadError := true }
          return none
        else do
          if !(← onMachine (·.analyse loaded.1.statements)) then
            modify fun s => { s with hadError := true }
            return none
          return some loaded.1.statements : Action (Option (List Stmt)))
        ⟨loaded.2, s.hadError, s.hadFault, loaded.1.inComment⟩ := rfl
  rw [first]
  cases hsound : loaded.1.isSound with
  | false => exact .inl ⟨rfl, rfl⟩
  | true =>
    have second : (do
          if !(← onMachine (·.analyse loaded.1.statements)) then
            modify fun s => { s with hadError := true }
            return none
          return some loaded.1.statements : Action (Option (List Stmt)))
        ⟨loaded.2, s.hadError, s.hadFault, loaded.1.inComment⟩ =
        (if !analysed.1 then do
            modify fun s => { s with hadError := true }
            return none
          else return some loaded.1.statements : Action (Option (List Stmt)))
          ⟨analysed.2, s.hadError, s.hadFault, loaded.1.inComment⟩ := rfl
    refine .inr ?_
    rw [if_neg (by simp), second]
    cases analysed.1 with
    | false => exact .inl ⟨rfl, rfl, rfl⟩
    | true => exact .inr ⟨rfl, rfl, rfl⟩

theorem prepareText_ends (source : String) (s : Session) : ∃ r s', prepareText source s = .ok r s' := by
  rcases prepareText_cases source s with ⟨-, result⟩ | ⟨-, -, result⟩ | ⟨-, -, result⟩
  · exact ⟨_, _, result⟩
  · exact ⟨_, _, result⟩
  · exact ⟨_, _, result⟩

theorem runText_eq {fuel : Nat} {source : String} {r : Option (List Stmt)} {s' : Session}
    (h : prepareText source s = .ok r s') :
    runText fuel source s = runPrepared fuel r s' := by
  have bound : runText fuel source s =
      EStateM.bind (prepareText source) (runPrepared fuel) s := rfl
  rw [bound, EStateM.bind, h]

/-- The observer sees the run that the session makes; at its end a fault is reported. -/
theorem runStatements_machine (fuel : Nat) (statements : List Stmt) (s : Session) (older : List Visit) :
    (finalMachine (Watched.outcome
      (watchText .recorder fuel statements (s.machine, older)))).SameButReports
      (final (runStatements fuel statements s)).machine := by
  rw [outcome_watchText, runStatements]
  cases interpret fuel statements s.machine with
  | ok a m => exact rfl
  | error e m =>
    cases e with
    | outOfFuel => exact rfl
    | fault line f => exact m.report_same _

theorem runItem_script (fuel : Nat) (path : String) (s : Session) :
    final (runItem fuel (.script path) s) =
      match s.machine.files.readSource path with
      | .error _ => s
      | .ok source => final (runText fuel source { s with machine := enterScript path s.machine }) := by
  have bound : runItem fuel (.script path) s =
      EStateM.bind
        (match s.machine.files.readSource path with
          | .error e => throw (.unreadable e)
          | .ok source => do
            modifyMachine (enterScript path)
            runText fuel source
            return (← get).exitCode : Action Nat)
        (fun _ => pure ()) s := rfl
  rw [bound]
  cases s.machine.files.readSource path with
  | error e => rfl
  | ok source =>
    have entered : (do
          modifyMachine (enterScript path)
          runText fuel source
          return (← get).exitCode : Action Nat) s =
        EStateM.bind (runText fuel source) (fun _ => do return (← get).exitCode)
          { s with machine := enterScript path s.machine } := rfl
    dsimp only
    rw [EStateM.bind, entered, EStateM.bind]
    cases runText fuel source { s with machine := enterScript path s.machine } <;> rfl

end Scriptlet.Session
