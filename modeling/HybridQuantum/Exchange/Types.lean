import HybridQuantum.Exchange.Fields
import HybridQuantum.Types.DataType

/-!
# Names and types in exchange

Names, sizes and data types as data trees, and back.
-/

namespace HybridQuantum

namespace NameSpace

/-- A path is the list of its segments. -/
def toDatum (space : NameSpace) : Datum :=
  .list (space.segments.map .string)

def ofDatum? (datum : Datum) : Option NameSpace :=
  (datum.list? Datum.text?).map .mk

end NameSpace

namespace Name

def toDatum (name : Name) : Datum :=
  .record [("namespace", name.space.toDatum), ("name", .string name.leaf)]

def ofDatum? (datum : Datum) : Option Name := do
  let fields ← Fields.of? ["namespace", "name"] datum
  let space ← fields.required "namespace" NameSpace.ofDatum?
  let leaf ← fields.required "name" Datum.text?
  return ⟨space, leaf⟩

end Name

namespace Size

def toDatum (size : Size) : Datum :=
  .record [("bits", .ofOption (fun bits => .ofNat bits.toNat) size.bits)]

def ofDatum? (datum : Datum) : Option Size := do
  let fields ← Fields.of? ["bits"] datum
  let bits ← fields.optional "bits" Datum.word32?
  return ⟨bits⟩

end Size

namespace QSize

def toDatum (size : QSize) : Datum :=
  .record [("min", .ofNat size.min.toNat),
    ("max", .ofOption (fun max => .ofNat max.toNat) size.max)]

def ofDatum? (datum : Datum) : Option QSize := do
  let fields ← Fields.of? ["min", "max"] datum
  let min ← fields.required "min" Datum.word32?
  let max ← fields.optional "max" Datum.word32?
  return ⟨min, max⟩

end QSize

namespace Member

def toDatum : Member → Datum
  | single memberType => .tagged "Single" (.record [("member_type", memberType.toDatum)])
  | typed name memberType =>
      .tagged "Typed" (.record [("name", .string name), ("member_type", memberType.toDatum)])
  | variant tag payload =>
      .tagged "Variant" (.record [("tag", .string tag),
        ("payload", .ofOption Name.toDatum payload)])

def ofDatum? (datum : Datum) : Option Member :=
  match datum.tagged? with
  | some ("Single", content) => do
      let fields ← Fields.of? ["member_type"] content
      let memberType ← fields.required "member_type" Name.ofDatum?
      return single memberType
  | some ("Typed", content) => do
      let fields ← Fields.of? ["name", "member_type"] content
      let name ← fields.required "name" Datum.text?
      let memberType ← fields.required "member_type" Name.ofDatum?
      return typed name memberType
  | some ("Variant", content) => do
      let fields ← Fields.of? ["tag", "payload"] content
      let tag ← fields.required "tag" Datum.text?
      let payload ← fields.optional "payload" Name.ofDatum?
      return variant tag payload
  | _ => none

end Member

namespace Container

def all : List Container :=
  [single, struct, union, enum]

def ofDatum? : Datum → Option Container :=
  Datum.choice? text all

end Container

namespace DataType

def toDatum (type : DataType) : Datum :=
  .record [("name", type.name.toDatum), ("kind", .string type.kind.text),
    ("members", .list (type.members.map Member.toDatum)), ("size", type.size.toDatum),
    ("qsize", .ofOption QSize.toDatum type.qsize), ("is_builtin", .bool type.isBuiltin)]

def ofDatum? (datum : Datum) : Option DataType := do
  let fields ←
    Fields.of? ["name", "kind", "members", "size", "qsize", "is_builtin"] datum
  let name ← fields.required "name" Name.ofDatum?
  let kind ← fields.required "kind" Container.ofDatum?
  let members ← fields.required "members" (Datum.list? Member.ofDatum?)
  let size ← fields.required "size" Size.ofDatum?
  let qsize ← fields.optional "qsize" QSize.ofDatum?
  let isBuiltin ← fields.required "is_builtin" Datum.bool?
  return { name, kind, members, size, qsize, isBuiltin }

end DataType

end HybridQuantum
