import HybridQuantum.Exchange.Types
import HybridQuantum.Memory.Variable
import HybridQuantum.Program.Function

/-!
# Programs in exchange

Values, literals, arguments, instructions, blocks and headers as data trees, and
back.  Reading a tree that was written gives the same program part.  Literals,
arguments and blocks hold one another, so their readers go down at most as many
levels as the tree is high.
-/

namespace HybridQuantum

namespace Value

/-- The kind of a value. -/
def kindTag : Value → String
  | null => "null"
  | bool _ => "bool"
  | int _ => "int"
  | uint _ => "u_int"
  | float _ => "float"
  | char _ => "char"
  | str _ => "str"

/-- The content of a value beside its kind; null has none. -/
def contentDatum? : Value → Option Datum
  | null => none
  | bool value => some (.bool value)
  | int value => some (.ofInt value.toInt)
  | uint value => some (.ofNat value.toNat)
  | float value => some (.ofFloat value)
  | char value => some (.string value.toString)
  | str value => some (.string value)

/-- The kind and the content side by side. -/
def toDatum (value : Value) : Datum :=
  .record (("kind", .string value.kindTag) ::
    (value.contentDatum?.map fun content => ("value", content)).toList)

/-- Read the content of a value of some kind. -/
def ofContent? : String → Option Datum → Option Value
  | "null", none => some null
  | "null", some .null => some null
  | "bool", some content => content.bool?.map bool
  | "int", some content => content.int64?.map int
  | "u_int", some content => content.word64?.map uint
  | "float", some content => content.float?.map float
  | "char", some content => content.char?.map char
  | "str", some content => content.text?.map str
  | _, _ => none

/-- Read a value; by position both parts must be there. -/
def ofDatum? (datum : Datum) : Option Value := do
  let fields ← Fields.of? ["kind", "value"] datum
  let kind ← fields.required "kind" Datum.tag?
  match fields.entries.lookup "value" with
  | some content => ofContent? kind (some content)
  | none => if fields.positional then none else ofContent? kind none

end Value

namespace CoreLiteral

def toDatum (core : CoreLiteral) : Datum :=
  .record [("value", core.value.toDatum), ("type_name", core.type.toDatum)]

def ofDatum? (datum : Datum) : Option CoreLiteral := do
  let fields ← Fields.of? ["value", "type_name"] datum
  let value ← fields.required "value" Value.ofDatum?
  let type ← fields.required "type_name" Name.ofDatum?
  return ⟨value, type⟩

end CoreLiteral

namespace InstrFlag

def all : List InstrFlag :=
  [assign, declare, declareAssign, call, controlFlow, testCond, loop, loopCond, returns]

def tag : InstrFlag → String
  | assign => "assign"
  | declare => "declare"
  | declareAssign => "declare_assign"
  | call => "call"
  | controlFlow => "control_flow"
  | testCond => "test_cond"
  | loop => "loop"
  | loopCond => "loop_cond"
  | returns => "return"

def ofDatum? : Datum → Option InstrFlag :=
  Datum.choice? tag all

end InstrFlag

/-- The fields of an instruction whose arguments are written. -/
def instrDatum (name : Name) (args : List Datum) (flag : InstrFlag) : Datum :=
  .record [("name", name.toDatum), ("args", .list args), ("flag", .string flag.tag)]

mutual

def Literal.toDatum : Literal → Datum
  | .core content => .tagged "Core" content.toDatum
  | .composite type items =>
      .tagged "Composite" (.record [("type_name", type.toDatum),
        ("items", .list (Literal.toData items))])
  | .mixed type items =>
      .tagged "CompositeMix" (.record [("type_name", type.toDatum),
        ("items", .list (Arg.toData items))])

def Literal.toData : List Literal → List Datum
  | [] => []
  | literal :: rest => literal.toDatum :: Literal.toData rest

def Arg.toDatum : Arg → Datum
  | .literal content => .tagged "Literal" content.toDatum
  | .symbol name => .tagged "Symbol" name.toDatum
  | .instr name args flag => .tagged "Instr" (instrDatum name (Arg.toData args) flag)

def Arg.toData : List Arg → List Datum
  | [] => []
  | arg :: rest => arg.toDatum :: Arg.toData rest

end

/-- Read an instruction whose arguments are read by `decode`. -/
def Instr.ofDatumWith? (decode : Datum → Option Arg) (datum : Datum) : Option Instr := do
  let fields ← Fields.of? ["name", "args", "flag"] datum
  let name ← fields.required "name" Name.ofDatum?
  let args ← fields.required "args" (Datum.list? decode)
  let flag ← fields.required "flag" InstrFlag.ofDatum?
  return ⟨name, args, flag⟩

mutual

/-- Read a literal of a bounded number of levels. -/
def Literal.ofDatumWithin? : Nat → Datum → Option Literal
  | 0, _ => none
  | levels + 1, datum =>
      match datum.tagged? with
      | some ("Core", content) => (CoreLiteral.ofDatum? content).map .core
      | some ("Composite", content) => do
          let fields ← Fields.of? ["type_name", "items"] content
          let type ← fields.required "type_name" Name.ofDatum?
          let items ← fields.required "items" (Datum.list? (Literal.ofDatumWithin? levels))
          return .composite type items
      | some ("CompositeMix", content) => do
          let fields ← Fields.of? ["type_name", "items"] content
          let type ← fields.required "type_name" Name.ofDatum?
          let items ← fields.required "items" (Datum.list? (Arg.ofDatumWithin? levels))
          return .mixed type items
      | _ => none

/-- Read an argument of a bounded number of levels. -/
def Arg.ofDatumWithin? : Nat → Datum → Option Arg
  | 0, _ => none
  | levels + 1, datum =>
      match datum.tagged? with
      | some ("Literal", content) => (Literal.ofDatumWithin? levels content).map .literal
      | some ("Symbol", content) => (Name.ofDatum? content).map .symbol
      | some ("Instr", content) =>
          (Instr.ofDatumWith? (Arg.ofDatumWithin? levels) content).map Instr.toArg
      | _ => none

end

def Literal.ofDatum? (datum : Datum) : Option Literal :=
  Literal.ofDatumWithin? datum.height datum

def Arg.ofDatum? (datum : Datum) : Option Arg :=
  Arg.ofDatumWithin? datum.height datum

namespace Instr

def toDatum (instr : Instr) : Datum :=
  instrDatum instr.name (Arg.toData instr.args) instr.flag

def ofDatum? (datum : Datum) : Option Instr :=
  ofDatumWith? (Arg.ofDatumWithin? datum.height) datum

end Instr

namespace BlockFlag

def all : List BlockFlag :=
  [instrBlock, controlFlow, closure, call]

def tag : BlockFlag → String
  | instrBlock => "instr_block"
  | controlFlow => "control_flow"
  | closure => "closure"
  | call => "call"

def ofDatum? : Datum → Option BlockFlag :=
  Datum.choice? tag all

end BlockFlag

/-- The fields of a block whose elements are written. -/
def blockDatum (flag : BlockFlag) (items : List Datum) : Datum :=
  .record [("flag", .string flag.tag), ("items", .list items)]

mutual

def BlockItem.toDatum : BlockItem → Datum
  | .instr content => .tagged "Instr" content.toDatum
  | .block flag items => .tagged "Block" (blockDatum flag (BlockItem.toData items))

def BlockItem.toData : List BlockItem → List Datum
  | [] => []
  | item :: rest => item.toDatum :: BlockItem.toData rest

end

/-- Read a block whose elements are read by `decode`. -/
def Block.ofDatumWith? (decode : Datum → Option BlockItem) (datum : Datum) : Option Block := do
  let fields ← Fields.of? ["flag", "items"] datum
  let flag ← fields.required "flag" BlockFlag.ofDatum?
  let items ← fields.required "items" (Datum.list? decode)
  return ⟨flag, items⟩

/-- Read a block element of a bounded number of levels. -/
def BlockItem.ofDatumWithin? : Nat → Datum → Option BlockItem
  | 0, _ => none
  | levels + 1, datum =>
      match datum.tagged? with
      | some ("Instr", content) => (Instr.ofDatum? content).map .instr
      | some ("Block", content) =>
          (Block.ofDatumWith? (BlockItem.ofDatumWithin? levels) content).map fun block =>
            .block block.flag block.items
      | _ => none

namespace Block

def toDatum (block : Block) : Datum :=
  blockDatum block.flag (BlockItem.toData block.items)

def ofDatum? (datum : Datum) : Option Block :=
  ofDatumWith? (BlockItem.ofDatumWithin? datum.height) datum

end Block

namespace Parameter

def toDatum (parameter : Parameter) : Datum :=
  .record [("name", .string parameter.name), ("type_name", parameter.type.toDatum)]

def ofDatum? (datum : Datum) : Option Parameter := do
  let fields ← Fields.of? ["name", "type_name"] datum
  let name ← fields.required "name" Datum.text?
  let type ← fields.required "type_name" Name.ofDatum?
  return ⟨name, type⟩

end Parameter

namespace Header

def toDatum (header : Header) : Datum :=
  .record [("name", header.name.toDatum), ("ret_type", header.returns.toDatum),
    ("args", .list (header.parameters.map Parameter.toDatum))]

def ofDatum? (datum : Datum) : Option Header := do
  let fields ← Fields.of? ["name", "ret_type", "args"] datum
  let name ← fields.required "name" Name.ofDatum?
  let returns ← fields.required "ret_type" Name.ofDatum?
  let parameters ← fields.required "args" (Datum.list? Parameter.ofDatum?)
  return ⟨name, returns, parameters⟩

end Header

namespace Mutability

def all : List Mutability :=
  [constant, immutable, mutable, appendable]

def tag : Mutability → String
  | constant => "constant"
  | immutable => "immutable"
  | mutable => "mutable"
  | appendable => "appendable"

def ofDatum? : Datum → Option Mutability :=
  Datum.choice? tag all

end Mutability

end HybridQuantum
