import Scriptlet.Run.Machine

/-!
# Arguments of native functions

Numbers are cut to integers, indexes are brought into range, and sizes are held against the storage there
is.
-/
namespace Scriptlet.Builtin

/-- A numeric argument as an integer, cut toward zero. -/
def integer (line : Nat) (what : NumericArgument) : Value → Eval Int
  | .number x => return Number.toWord x
  | v => Eval.fail line (.argumentNotNumber what v.type)

/-- The position below `length` that an index stands for. With `wrap`, negative indexes count from the
end. -/
def position? (index : Int) (length : Nat) (wrap : Bool) : Option Nat :=
  let actual := if wrap && index < 0 then index + length else index
  if 0 ≤ actual && actual < length then some actual.toNat else none

/-- The position in a collection that an index argument stands for. -/
def elementPosition (line : Nat) (kind : CollectionKind) (wrap : Bool) (storage : StorageId)
    (argument : Value) : Eval Nat := do
  let index ← integer line (.index kind) argument
  match position? index ((← Eval.getStore).elements storage).size wrap with
  | some i => return i
  | none => Eval.fail line (.indexOutOfBounds kind index)

/-- The largest block of storage in bytes. -/
def storageLimit : Nat := Number.twoTo 40

/-- Storage for one element of a collection in bytes. -/
def elementSize : Nat := 24

/-- The fault of a call whose arguments do not fit. -/
def countFault (line : Nat) (f : Native) (args : List Value) : Eval α :=
  Eval.fail line (.argumentCount f.arity args.length)

/-- A native function with an identity of its own. -/
def freshNative (f : Native) : Eval Value := return .native (← Eval.freshIdentity) f

end Scriptlet.Builtin
