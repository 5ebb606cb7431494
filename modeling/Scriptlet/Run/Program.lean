import Scriptlet.Run.Machine
import Scriptlet.Tree.Parse

/-!
# Programs

A text on its way to being run: it is scanned, parsed and analysed, and all problems on the way are reported.
-/
namespace Scriptlet

/-- A text after scanning and parsing. -/
structure Program where
  /-- The statements that could be parsed. -/
  statements : List Stmt
  scanFailed : Bool
  parseFailed : Bool
  /-- The text ends inside a comment. -/
  inComment : Bool

/-- Only sound programs are run. -/
def Program.isSound (p : Program) : Bool := !p.scanFailed && !p.parseFailed

namespace Machine

def reportScan (m : Machine) (scan : Scan) : Machine :=
  m.reportAll (scan.errors.map fun (line, e) => .ofLexical line e)

/-- Scans and parses a text. Problems of scanning are reported before those of parsing. -/
def load (m : Machine) (inComment : Bool) (text : String) : Program × Machine :=
  let scan := Scan.ofText inComment text
  let parse := Parse.ofTokens m.nextNode scan.tokens
  let m := m.reportScan scan
  let m := m.reportAll (parse.problems.map .ofSyntactic)
  (⟨parse.statements, scan.hadError, parse.hadError, scan.inComment⟩, { m with nextNode := parse.nextId })

/-- Records the distances of the names in statements. True if no problem was found. -/
def analyse (m : Machine) (statements : List Stmt) : Bool × Machine :=
  let analysis := Analysis.ofStatements m.distances statements
  let m := { m with distances := analysis.distances }
  (analysis.problems.isEmpty, m.reportAll (analysis.problems.map .ofScoping))

end Machine

end Scriptlet
