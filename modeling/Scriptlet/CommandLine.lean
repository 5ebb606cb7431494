import Scriptlet.Session
import Scriptlet.Token.Printer
import Scriptlet.Tree.Printer

/-!
# Command line

Arguments name a command and options. A command reads files and the standard input, and leaves an exit code,
texts for the two output channels, and changed files.
-/
namespace Scriptlet.CommandLine

inductive Command where
  | run (file : String)
  | repl
  | tokenize (file : String) (structured : Bool)
  | parse (file : String)
  | version
  deriving DecidableEq, Repr

structure Invocation where
  command : Command
  /-- Keep a log of the work. -/
  log : Bool
  /-- Diagnostics are appended to this file. -/
  errorLog : Option String
  deriving DecidableEq, Repr

inductive UsageError where
  | missingValue (option : String)
  | unexpected (words : List String)
  deriving DecidableEq, Repr

def UsageError.message : UsageError → String
  | .missingValue option => "a value is required for '" ++ option ++ "'"
  | .unexpected words => "unexpected arguments: " ++ " ".intercalate words

/-- Arguments sorted into options and other words. -/
structure Arguments where
  words : List String
  version : Bool
  log : Bool
  errorLog : Option String
  structured : Bool

/-- The value behind `option=`. -/
def attachedValue? (option argument : String) : Option String :=
  let start := option.toList ++ ['=']
  if start.isPrefixOf argument.toList then some (String.ofList (argument.toList.drop start.length))
  else none

/-- Options may stand anywhere. -/
def Arguments.ofList : List String → Except UsageError Arguments
  | [] => .ok ⟨[], false, false, none, false⟩
  | "--log" :: rest => do return { (← ofList rest) with log := true }
  | "--json" :: rest => do return { (← ofList rest) with structured := true }
  | "--version" :: rest | "-V" :: rest => do return { (← ofList rest) with version := true }
  | ["--error-log"] => .error (.missingValue "--error-log")
  | "--error-log" :: path :: rest => do return { (← ofList rest) with errorLog := some path }
  | word :: rest => do
    let arguments ← ofList rest
    match attachedValue? "--error-log" word with
    | some path => return { arguments with errorLog := some path }
    | none => return { arguments with words := word :: arguments.words }

/-- Without a command the prompt is shown. -/
def Arguments.command (a : Arguments) : Except UsageError Command :=
  if a.version then .ok .version
  else
    match a.words, a.structured with
    | [], false | ["repl"], false => .ok .repl
    | ["run", file], false => .ok (.run file)
    | ["parse", file], false => .ok (.parse file)
    | ["tokenize", file], structured => .ok (.tokenize file structured)
    | words, _ => .error (.unexpected words)

def Invocation.ofArguments (arguments : List String) : Except UsageError Invocation := do
  let a ← Arguments.ofList arguments
  return ⟨← a.command, a.log, a.errorLog⟩

/-- What a command leaves. -/
structure Completion where
  exitCode : Nat
  output : String
  errors : String
  files : FileTree

/-- A command that could not be carried out. -/
structure Failure where
  context : Option String
  cause : String
  deriving DecidableEq, Repr

def Failure.message (f : Failure) : String :=
  match f.context with
  | some context => "Error: " ++ context ++ "\n\nCaused by:\n    " ++ f.cause ++ "\n"
  | none => "Error: " ++ f.cause ++ "\n"

def failureCode : Nat := 1

def usageCode : Nat := 2

def versionText : String := "yaupl 0.1.0\n"

def logPath : String := "yaupl.log"

/-- The exit code of a command that finished, with what it leaves on the machine. -/
def complete (m : Machine) (exitCode : Nat) : Completion :=
  ⟨exitCode, m.output, m.reporter.console, m.files⟩

def fail (m : Machine) (f : Failure) : Completion :=
  { complete m failureCode with errors := m.reporter.console ++ f.message }

def cannotRun (file : String) : String := "Failed to run " ++ Text.quotedPath file

def cannotRead (file : String) : String := "Failed to read file " ++ Text.quotedPath file

/-- Writes text to the output and yields the exit code that problems call for. -/
def finishListing (m : Machine) (text : String) (sound : Bool) : Completion :=
  complete { m with output := m.output ++ text } (if sound then 0 else Session.staticErrorCode)

def tokenize (m : Machine) (structured : Bool) (text : String) : Completion :=
  let scan := Scan.ofText false text
  let m := m.reportScan scan
  let listing :=
    if structured then Token.structuredListing scan.tokens ++ "\n"
    else String.join (scan.tokens.map fun t => t.listing ++ "\n")
  finishListing m listing !scan.hadError

def parse (m : Machine) (text : String) : Completion :=
  let (program, m) := m.load false text
  finishListing m (String.join (program.statements.map fun s => s.render ++ "\n")) program.isSound

def settings (command : Command) : Settings := ⟨command == .repl, Machine.defaultCallDepth⟩

def Invocation.sink (i : Invocation) : Sink :=
  match i.errorLog with
  | some path => .log path
  | none => .console

/-- Runs an action of a new session on the machine. -/
def inSession (m : Machine) (context : Option String) (action : Session.Action Nat) : Completion :=
  match action (.initial m) with
  | .ok exitCode s => complete s.machine exitCode
  | .error stop s => fail s.machine ⟨context, stop.message⟩

def carryOut (fuel : Nat) (m : Machine) (input : ByteArray) : Command → Completion
  | .version => complete { m with output := versionText } 0
  | .run file => inSession m (some (cannotRun file)) (Session.runFile fuel file)
  | .repl => inSession m none do
    Session.runPrompt fuel input
    return 0
  | .tokenize file structured =>
    match m.files.readSource file with
    | .error e => fail m ⟨some (cannotRead file), e.message⟩
    | .ok text => tokenize m structured text
  | .parse file =>
    match m.files.readSource file with
    | .error e => fail m ⟨some (cannotRead file), e.message⟩
    | .ok text => parse m text

/-- The machine on which a command works, with an empty log if one is kept. -/
def Invocation.prepare (i : Invocation) (files : FileTree) (clock : Nat) : Except Failure Machine :=
  if i.log && i.command != .version then
    match files.write logPath "" with
    | .error e => .error ⟨some ("Failed to create " ++ logPath), e.message⟩
    | .ok files => .ok (.initial (settings i.command) i.sink files clock)
  else .ok (.initial (settings i.command) i.sink files clock)

def execute (fuel : Nat) (i : Invocation) (input : ByteArray) (files : FileTree) (clock : Nat) :
    Completion :=
  match i.prepare files clock with
  | .error f => ⟨failureCode, "", f.message, files⟩
  | .ok m => carryOut fuel m input i.command

/-- Runs the program on its arguments. -/
def runArguments (fuel : Nat) (arguments : List String) (input : ByteArray) (files : FileTree)
    (clock : Nat) : Completion :=
  match Invocation.ofArguments arguments with
  | .error e => ⟨usageCode, "", "error: " ++ e.message ++ "\n", files⟩
  | .ok i => execute fuel i input files clock

end Scriptlet.CommandLine
