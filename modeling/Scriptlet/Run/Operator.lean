import Scriptlet.Run.Machine

/-!
# Operators

Arithmetic on doubles; remainders and shifts work on the integer parts as signed words of 64 bits.
-/
namespace Scriptlet

namespace Number

/-- Remainder of the integer parts, with the sign of the dividend. The divisor is not zero. -/
def remainder (a b : Int) : Float := ofInt (Int.tmod a b)

/-- The places by which a shift moves: the low six bits of the integer part. -/
def shiftCount (x : Float) : Nat := toUnsigned 32 x % 64

def shiftLeft (a b : Float) : Float := ofInt (wrapWord (toWord a * twoTo (shiftCount b)))

/-- The sign is kept. -/
def shiftRight (a b : Float) : Float := ofInt (Int.fdiv (toWord a) (twoTo (shiftCount b)))

end Number

/-- Operators that take numbers only. -/
def BinaryOp.onNumbers (op : BinaryOp) (line : Nat) (a b : Float) : Eval Value :=
  match op with
  | .add => return .number (a + b)
  | .subtract => return .number (a - b)
  | .multiply => return .number (a * b)
  | .divide => return .number (a / b)
  | .power => return .number (Float.pow a b)
  | .modulo =>
    if Number.toWord b = 0 then Eval.fail line .moduloByZero
    else return .number (Number.remainder (Number.toWord a) (Number.toWord b))
  | .shiftLeft => return .number (Number.shiftLeft a b)
  | .shiftRight => return .number (Number.shiftRight a b)
  | .less => return .bool (a < b)
  | .lessEqual => return .bool (a ≤ b)
  | .greater => return .bool (a > b)
  | .greaterEqual => return .bool (a ≥ b)
  | .equal => return .bool (a == b)
  | .notEqual => return .bool (a != b)

/-- Addition joins texts unless both operands are numbers. -/
def BinaryOp.apply (op : BinaryOp) (line : Nat) (left right : Value) : Eval Value := do
  match op, left, right with
  | .equal, l, r => return .bool ((← Eval.getStore).equal l r)
  | .notEqual, l, r => return .bool !((← Eval.getStore).equal l r)
  | op, .number a, .number b => op.onNumbers line a b
  | .add, l, r => return .string ((← Eval.textOf l) ++ (← Eval.textOf r))
  | _, _, _ => Eval.fail line .operandsNotNumbers

def UnaryOp.apply (op : UnaryOp) (line : Nat) (operand : Value) : Eval Value :=
  match op, operand with
  | .not, v => return .bool !v.isTruthy
  | .negate, .number x => return .number (-x)
  | .negate, _ => Eval.fail line .operandNotNumber

/-- The connectives that are short for others:
`l xor r` is `(l and !r) or (!l and r)`, `l nor r` is `!(l or r)`, `l nand r` is `!(l and r)`. -/
def Expr.expandConnective (left : Expr) (op : Connective) (line : Nat) (right : Expr) : Expr :=
  let not (e : Expr) : Expr := .unary .not line e
  match op with
  | .xor =>
    .logical (.logical left .and line (not right)) .or line (.logical (not left) .and line right)
  | .nor => not (.group (.logical left .or line right))
  | .nand => not (.group (.logical left .and line right))
  | .and => .logical left .and line right
  | .or => .logical left .or line right

end Scriptlet
