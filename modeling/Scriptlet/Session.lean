import Scriptlet.Run.Evaluate

/-!
# Sessions

A session runs texts one after another on one machine: scripts from files, or lines typed at a prompt. What
one text declares, the next one sees; a comment left open goes on in the next text.
-/
namespace Scriptlet

structure Session where
  machine : Machine
  /-- A text had problems that kept it from being run. -/
  hadError : Bool
  /-- A text stopped with a fault. -/
  hadFault : Bool
  /-- The last text ended inside a comment. -/
  inComment : Bool

namespace Session

/-- Why a session cannot go on. -/
inductive Stop where
  | unreadable (error : SourceError)
  | outOfFuel
  deriving DecidableEq, Repr

def Stop.message : Stop → String
  | .unreadable e => e.message
  | .outOfFuel => "Evaluation limit reached"

abbrev Action := EStateM Stop Session

def initial (machine : Machine) : Session := ⟨machine, false, false, false⟩

def staticErrorCode : Nat := 65

def faultCode : Nat := 70

/-- Problems before running weigh more than faults. -/
def exitCode (s : Session) : Nat :=
  if s.hadError then staticErrorCode else if s.hadFault then faultCode else 0

def modifyMachine (f : Machine → Machine) : Action Unit :=
  modify fun s => { s with machine := f s.machine }

def onMachine (f : Machine → α × Machine) : Action α :=
  modifyGet fun s =>
    let (a, machine) := f s.machine
    (a, { s with machine })

def write (text : String) : Action Unit :=
  modifyMachine fun m => { m with output := m.output ++ text }

/-- Takes the output and the diagnostics so far out of the machine. -/
def takeResults : Action (String × List Diagnostic) :=
  onMachine fun m =>
    ((m.output, m.reporter.diagnostics),
      { m with output := "", reporter := { m.reporter with diagnostics := [] } })

/-- Runs statements; a fault is reported. -/
def runStatements (fuel : Nat) (statements : List Stmt) : Action Unit := fun s =>
  match interpret fuel statements s.machine with
  | .ok _ machine => .ok () { s with machine }
  | .error (.fault line f) machine =>
    .ok () { s with machine := machine.report (.ofFault line f), hadFault := true }
  | .error .outOfFuel machine => .error .outOfFuel { s with machine }

/-- Takes up a text: its statements, unless it has problems. -/
def prepareText (text : String) : Action (Option (List Stmt)) := do
  let program ← onMachine (·.load (← get).inComment text)
  modify fun s => { s with inComment := program.inComment }
  if !program.isSound then
    modify fun s => { s with hadError := true }
    return none
  if !(← onMachine (·.analyse program.statements)) then
    modify fun s => { s with hadError := true }
    return none
  return some program.statements

/-- Runs the statements of a text, if they came out of it. -/
def runPrepared (fuel : Nat) : Option (List Stmt) → Action Unit
  | some statements => runStatements fuel statements
  | none => return ()

/-- Runs a text, unless it has problems. -/
def runText (fuel : Nat) (text : String) : Action Unit := do
  runPrepared fuel (← prepareText text)

/-- Makes a file the running script. -/
def enterScript (path : String) (m : Machine) : Machine :=
  let place := (m.files.locate path).toOption.getD []
  { m with
    context :=
      { m.context with importChain := [place], scriptDirectory := Path.ofNames place.dropLast }
    reporter := { m.reporter with currentFile := Path.fileName? path } }

/-- Runs a script and yields the exit code of the session. -/
def runFile (fuel : Nat) (path : String) : Action Nat := do
  match (← get).machine.files.readSource path with
  | .error e => throw (.unreadable e)
  | .ok text =>
    modifyMachine (enterScript path)
    runText fuel text
    return (← get).exitCode

def promptText : String := "ypl : "

/-- Lines of a prompt start without errors. -/
def forgetErrors : Action Unit :=
  modify fun s => { s with hadError := false, hadFault := false }

/-- Runs one line of a prompt. -/
def runLine (fuel : Nat) (line : ByteArray) : Action Unit := do
  match Text.decodeUtf8 line with
  | .error _ => throw (.unreadable (.file .notText))
  | .ok text =>
    runText fuel text
    forgetErrors

/-- From now on values of expression statements are written out. -/
def echoValues : Action Unit :=
  modifyMachine fun m => { m with settings := { m.settings with echo := true } }

/-- Shows a prompt before each line, and once more at the end. -/
def runLines (fuel : Nat) : List ByteArray → Action Unit
  | [] => do
    write promptText
    write "\n"
  | line :: lines => do
    write promptText
    runLine fuel line
    runLines fuel lines

def runPrompt (fuel : Nat) (input : ByteArray) : Action Unit := do
  echoValues
  runLines fuel (Text.byteLines input)

end Session

end Scriptlet
