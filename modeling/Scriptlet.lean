import Scriptlet.Main
import Scriptlet.Proofs.ContextRestored
import Scriptlet.Proofs.NamesInScope
import Scriptlet.Proofs.ParserEnds
import Scriptlet.Proofs.ParserExact
import Scriptlet.Proofs.Steps
import Scriptlet.Proofs.BindingsKept
import Scriptlet.Proofs.Members
import Scriptlet.Proofs.Places
import Scriptlet.Proofs.Receivers
import Scriptlet.Proofs.ImportPlaces
import Scriptlet.Proofs.JoinedRuns
import Scriptlet.Proofs.LexicalJumps
import Scriptlet.Proofs.MissingValues
import Scriptlet.Proofs.SetElements
import Scriptlet.Proofs.StaticErrors
import Scriptlet.Proofs.Termination
import Scriptlet.Proofs.Violations
import Scriptlet.Proofs.Storages
import Scriptlet.Proofs.LocalDeclarations
import Scriptlet.Proofs.AnalysisMoves
import Scriptlet.Proofs.NodeIdentities
import Scriptlet.Proofs.CollectionStorage
import Scriptlet.Proofs.Lexemes
import Scriptlet.Proofs.ScannedPieces
import Scriptlet.Proofs.Rescanning
import Scriptlet.Proofs.PrefixParses
import Scriptlet.Proofs.Equality
import Scriptlet.Proofs.SetAlgebra
import Scriptlet.Proofs.FailedCalls
import Scriptlet.Proofs.FrameRequests
import Scriptlet.Proofs.FrameTrees
import Scriptlet.Proofs.Replacements
import Scriptlet.Proofs.Initializers
import Scriptlet.Proofs.Connectives
import Scriptlet.Proofs.ImportFaults
import Scriptlet.Proofs.PrintedLiterals
import Scriptlet.Proofs.StringPositions
import Scriptlet.Proofs.WordArithmetic
