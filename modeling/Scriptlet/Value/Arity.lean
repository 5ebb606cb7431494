/-!
# Argument counts
-/
namespace Scriptlet

/-- The accepted argument counts, from `min` to `max`. -/
structure Arity where
  min : Nat
  max : Nat
  deriving DecidableEq, Repr

namespace Arity

def exactly (n : Nat) : Arity := ⟨n, n⟩

def zero : Arity := exactly 0

def unary : Arity := exactly 1

def binary : Arity := exactly 2

/-- At most one argument. -/
def nullable : Arity := ⟨0, 1⟩

/-- Any number of arguments that a call can have. -/
def variadic : Arity := ⟨0, 255⟩

def accepts (a : Arity) (count : Nat) : Bool := a.min ≤ count && count ≤ a.max

def text (a : Arity) : String :=
  match a.max - a.min with
  | 0 => toString a.min
  | 1 => s!"{a.min} or {a.max}"
  | _ => s!"{a.min} to {a.max}"

end Arity

end Scriptlet
