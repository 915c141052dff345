import HybridQuantum.Circuit.Parse

/-!
# The language of gate programs

A gate program is a version line and statements.  The grammar says which tokens a
statement is written with; the conditions on a statement are about the registers
declared before it.  Neither mentions a reader, a circuit or where registers lie:
a qubit is a position of a named register.
-/

namespace HybridQuantum.Circuit

/-- Integer two, or a number with integer part two. -/
inductive IsVersion : Token → Prop where
  | int : IsVersion (.int 2)
  | float {value : Float} (two : Numeric.truncate? value = some 2) : IsVersion (.float value)

/-- Parts with a comma between each two. -/
def commaSeparated : List (List Token) → List Token
  | [] => []
  | first :: more => first ++ more.flatMap fun part => .comma :: part

section Expressions

def operatorTokens : List Token :=
  [.plus, .minus, .star, .slash, .caret]

def signTokens : List Token :=
  [.plus, .minus]

def functionWords : List String :=
  ["sin", "cos", "tan", "exp", "ln", "sqrt"]

/-- Parameter expressions, whatever their operators bind to. -/
inductive IsExpr : List Token → Prop where
  | int (value : Nat) : IsExpr [.int value]
  | float (value : Float) : IsExpr [.float value]
  | pi : IsExpr [.pi]
  | parens {inner : List Token} (expr : IsExpr inner) :
      IsExpr (.leftParen :: inner ++ [.rightParen])
  | call {word : String} {inner : List Token} (known : word ∈ functionWords)
      (argument : IsExpr inner) :
      IsExpr (.identifier word :: .leftParen :: inner ++ [.rightParen])
  | signed {sign : Token} {inner : List Token} (known : sign ∈ signTokens)
      (operand : IsExpr inner) : IsExpr (sign :: inner)
  | binary {operator : Token} {left right : List Token} (known : operator ∈ operatorTokens)
      (first : IsExpr left) (second : IsExpr right) : IsExpr (left ++ operator :: right)

end Expressions

/-- A register name, with an index between brackets for one position. -/
def RegisterArg.tokens : RegisterArg → List Token
  | ⟨register, none⟩ => [.identifier register]
  | ⟨register, some index⟩ => [.identifier register, .leftBracket, .int index, .rightBracket]

/-- The position of a register that takes part in a step; a single position takes part in all. -/
def RegisterArg.place (arg : RegisterArg) (step : Nat) : String × Nat :=
  (arg.register, arg.index.getD step)

/-- A register that a program declares. -/
structure Declared where
  kind : RegisterKind
  name : String
  size : Nat
deriving DecidableEq, Repr

/-- The word that declares registers of a kind. -/
def RegisterKind.word : RegisterKind → Token
  | .quantum => .qreg
  | .classical => .creg

/-- What the conditions on a statement are about. -/
inductive Clause where
  | inclusion
  | register (declared : Declared)
  | measure (qubit clbit : RegisterArg)
  | reset (arg : RegisterArg)
  | barrier (args : List RegisterArg)
  | gate (name : String) (parameterCount : Nat) (args : List RegisterArg)

/-- The tokens a statement is written with. -/
inductive Written : Clause → List Token → Prop where
  | inclusion (path : String) : Written .inclusion [.inclusion, .string path, .semicolon]
  | register (declared : Declared) :
      Written (.register declared)
        [declared.kind.word, .identifier declared.name, .leftBracket, .int declared.size,
          .rightBracket, .semicolon]
  | measure (qubit clbit : RegisterArg) :
      Written (.measure qubit clbit)
        (.measure :: (qubit.tokens ++ .arrow :: (clbit.tokens ++ [.semicolon])))
  | reset (arg : RegisterArg) : Written (.reset arg) (.reset :: (arg.tokens ++ [.semicolon]))
  | barrier {args : List RegisterArg} (some : args ≠ []) :
      Written (.barrier args)
        (.barrier :: (commaSeparated (args.map RegisterArg.tokens) ++ [.semicolon]))
  | gate (name : String) {args : List RegisterArg} (some : args ≠ []) :
      Written (.gate name 0 args)
        (.identifier name :: (commaSeparated (args.map RegisterArg.tokens) ++ [.semicolon]))
  | parameterized (name : String) {exprs : List (List Token)} {args : List RegisterArg}
      (isExpr : ∀ expr ∈ exprs, IsExpr expr) (some : args ≠ []) :
      Written (.gate name exprs.length args)
        (.identifier name :: .leftParen :: (commaSeparated exprs ++
          .rightParen :: (commaSeparated (args.map RegisterArg.tokens) ++ [.semicolon])))

/-- The gates with the number of parameters and of qubits each one takes. -/
def gateShapes : List (String × Nat × Nat) :=
  [("id", 0, 1), ("x", 0, 1), ("y", 0, 1), ("z", 0, 1), ("h", 0, 1), ("s", 0, 1), ("sdg", 0, 1),
    ("t", 0, 1), ("tdg", 0, 1), ("rx", 1, 1), ("ry", 1, 1), ("rz", 1, 1), ("u1", 1, 1),
    ("u2", 2, 1), ("u3", 3, 1), ("u", 3, 1), ("U", 3, 1), ("cx", 0, 2), ("CX", 0, 2),
    ("cz", 0, 2), ("swap", 0, 2), ("ccx", 0, 3)]

/-- The number of positions that the registers of a kind have together. -/
def positions : List Declared → RegisterKind → Nat
  | [], _ => 0
  | register :: rest, kind =>
      if register.kind = kind then register.size + positions rest kind else positions rest kind

section Conditions

variable (registers : List Declared)

/-- An argument names a register of a kind and addresses some of its positions. -/
inductive Addresses (kind : RegisterKind) : RegisterArg → Nat → Prop where
  | whole {name : String} {size : Nat} (declared : ⟨kind, name, size⟩ ∈ registers) :
      Addresses kind ⟨name, none⟩ size
  | single {name : String} {size index : Nat} (declared : ⟨kind, name, size⟩ ∈ registers)
      (inside : index < size) : Addresses kind ⟨name, some index⟩ 1

/--
A gate is applied to arguments `width` times: once for each position of the whole
registers among them, which are all of this size, or once when there are none.
No application takes the same qubit twice.
-/
structure Broadcasts (args : List RegisterArg) (width : Nat) : Prop where
  addresses : ∀ arg ∈ args, ∃ count, Addresses registers .quantum arg count ∧
    (arg.index = none → count = width)
  once : (∀ arg ∈ args, arg.index ≠ none) → width = 1
  distinct : ∀ step < width, (args.map (·.place step)).Nodup

/-- The conditions on a statement after the registers declared so far. -/
def Admissible : Clause → Prop
  | .inclusion => True
  | .register declared =>
      (∀ register ∈ registers, register.name ≠ declared.name) ∧
        positions registers declared.kind + declared.size < UInt64.size
  | .measure qubit clbit =>
      ∃ count, Addresses registers .quantum qubit count ∧
        Addresses registers .classical clbit count
  | .reset arg => ∃ count, Addresses registers .quantum arg count
  | .barrier args => ∀ arg ∈ args, ∃ count, Addresses registers .quantum arg count
  | .gate name parameterCount args =>
      (name, parameterCount, args.length) ∈ gateShapes ∧ ∃ width, Broadcasts registers args width

end Conditions

/-- The registers a statement adds. -/
def Clause.declares : Clause → List Declared
  | .register declared => [declared]
  | _ => []

/-- Statements one after another, each under the registers declared before it. -/
inductive IsBody : List Declared → List Token → Prop where
  | nil (registers : List Declared) : IsBody registers []
  | cons {registers : List Declared} {clause : Clause} {front rest : List Token}
      (written : Written clause front) (admissible : Admissible registers clause)
      (others : IsBody (registers ++ clause.declares) rest) : IsBody registers (front ++ rest)

/-- The tokens of gate programs. -/
inductive IsProgram : List Token → Prop where
  | intro {version : Token} {body : List Token} (supported : IsVersion version)
      (statements : IsBody [] body) : IsProgram (.openQasm :: version :: .semicolon :: body)

end HybridQuantum.Circuit
