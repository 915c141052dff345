import HybridQuantum.Program.Block
import HybridQuantum.Types.Resolution

/-!
# Functions and whole programs

Function bodies are kept under their headers in declaration order; a header is
the name, the return type and the arguments with their names.  A program is a
type table, a function table and a main block, and is valid when its types
resolve and its signatures name declared types.
-/

namespace HybridQuantum

/-- A typed function argument. -/
structure Parameter where
  name : String
  type : Name
deriving DecidableEq, Repr

/-- A function signature. -/
structure Header where
  name : Name
  returns : Name
  parameters : List Parameter
deriving DecidableEq, Repr

namespace Header

def text (header : Header) : String :=
  header.name.text ++ "(" ++
    " ".intercalate (header.parameters.map fun parameter =>
      parameter.name ++ ":" ++ parameter.type.text) ++
    ") " ++ header.returns.text

/-- The types a signature refers to, the return type first. -/
def types (header : Header) : List Name :=
  header.returns :: header.parameters.map Parameter.type

end Header

/-- What goes wrong while a program is put together. -/
inductive ProgramError where
  | functionDefined (header : Header)
  | unknownSignatureType (function missing : Name)
  | type (cause : TypeError)
deriving DecidableEq, Repr

namespace ProgramError

def message : ProgramError → String
  | functionDefined header => "Function '" ++ header.text ++ "' is already defined"
  | unknownSignatureType function missing =>
      "Function '" ++ function.text ++ "' refers to unknown type '" ++ missing.text ++ "'"
  | type cause => cause.message

end ProgramError

/-- Function bodies under their headers, in declaration order. -/
structure FunctionTable where
  functions : List (Header × Block)

namespace FunctionTable

def empty : FunctionTable :=
  ⟨[]⟩

def headers (table : FunctionTable) : List Header :=
  table.functions.map Prod.fst

def get? (table : FunctionTable) (header : Header) : Option Block :=
  table.functions.lookup header

/-- Declare a function under a fresh header. -/
def add (table : FunctionTable) (header : Header) (body : Block) :
    Except ProgramError FunctionTable :=
  if header ∈ table.headers then .error (.functionDefined header)
  else .ok ⟨table.functions ++ [(header, body)]⟩

def overloads (table : FunctionTable) (name : Name) : List Header :=
  table.headers.filter fun header => header.name = name

/-- Every type that a signature refers to is declared. -/
def validate (table : FunctionTable) (types : TypeTable) : Except ProgramError Unit :=
  table.headers.forM fun header =>
    header.types.forM fun type =>
      if types.contains type then .ok () else .error (.unknownSignatureType header.name type)

end FunctionTable

/-- A whole program. -/
structure Program where
  types : TypeTable
  functions : FunctionTable
  main : Block

namespace Program

/-- Resolve every type, then check the signatures. -/
def validate (program : Program) : Outcome ProgramError Unit × Program :=
  match program.types.resolveAll with
  | (.error fault, types) =>
      (Outcome.mapError .type (.error fault), { program with types })
  | (.ok (), types) =>
      (.ofExcept (program.functions.validate types), { program with types })

end Program

end HybridQuantum
