import HybridQuantum.Circuit.Token

/-!
# Parameter expressions

Gate parameters are arithmetic over numbers, the circle constant, five binary
operators, two signs and six functions.
-/

namespace HybridQuantum.Circuit

inductive BinaryOp where
  | add
  | sub
  | mul
  | div
  | pow
deriving DecidableEq, Repr

namespace BinaryOp

/-- How tightly an operator binds. -/
def precedence : BinaryOp → Nat
  | add => 1
  | sub => 1
  | mul => 2
  | div => 2
  | pow => 3

/-- The least precedence an operator's right operand may have. -/
def rightPrecedence : BinaryOp → Nat
  | pow => 3
  | operator => operator.precedence + 1

def ofToken? : Token → Option BinaryOp
  | .plus => some add
  | .minus => some sub
  | .star => some mul
  | .slash => some div
  | .caret => some pow
  | _ => none

def eval : BinaryOp → Float → Float → Float
  | add, left, right => left + right
  | sub, left, right => left - right
  | mul, left, right => left * right
  | div, left, right => left / right
  | pow, left, right => Float.pow left right

end BinaryOp

inductive Sign where
  | minus
  | plus
deriving DecidableEq, Repr

inductive FunctionName where
  | sin
  | cos
  | tan
  | exp
  | ln
  | sqrt
deriving DecidableEq, Repr

namespace FunctionName

def all : List (String × FunctionName) :=
  [("sin", sin), ("cos", cos), ("tan", tan), ("exp", exp), ("ln", ln), ("sqrt", sqrt)]

def ofText? (word : String) : Option FunctionName :=
  all.lookup word

def eval : FunctionName → Float → Float
  | sin, argument => argument.sin
  | cos, argument => argument.cos
  | tan, argument => argument.tan
  | exp, argument => argument.exp
  | ln, argument => argument.log
  | sqrt, argument => argument.sqrt

end FunctionName

/-- A parameter expression. -/
inductive Expr where
  | int (value : Nat)
  | float (value : Float)
  | pi
  | signed (sign : Sign) (operand : Expr)
  | binary (operator : BinaryOp) (left right : Expr)
  | call (function : FunctionName) (argument : Expr)
deriving DecidableEq

namespace Expr

/-- The circle constant. -/
def piValue : Float :=
  Float.ofBits 0x400921fb54442d18

def eval : Expr → Float
  | int value => Float.ofNat value
  | float value => value
  | pi => piValue
  | signed .minus operand => -operand.eval
  | signed .plus operand => operand.eval
  | binary operator left right => operator.eval left.eval right.eval
  | call function argument => function.eval argument.eval

end Expr

end HybridQuantum.Circuit
