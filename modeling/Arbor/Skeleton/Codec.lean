import Arbor.Skeleton.Builder
import Arbor.Json.Decode
/-!
# Skeletons as JSON

A skeleton is the record `bones`, `branches`. A bone is the record `id`, `parent`, `children`,
`start`, `end`, `rotation`, `props`, `starts_branch`, where the points are arrays of three
numbers, the rotation an array of four, and `props` the record `depth`, `branch_order`,
`length_factor`, `thickness`. A branch is the record `nodes`, `kind`, the kind being the text
`Leaf` or `BranchPoint`. Indices are unsigned 32-bit integers. Reading checks no consistency
between the bones.

A skeleton configuration is the record `root_length_factor`, `root_thickness`, both required.
-/

namespace Arbor

/-- A vector of space: an array of three numbers. -/
def Vec3.decode : Decoder Vec3 := fun j => do
  match ← Decoder.tuple "a sequence of 3 f32 values" 3 Decoder.single j with
  | [x, y, z] => pure ⟨x, y, z⟩
  | vs => .error (.invalidLength vs.length "a sequence of 3 f32 values")

/-- A quaternion: an array of four numbers `x, y, z, w`. -/
def Quat.decode : Decoder Quat := fun j => do
  match ← Decoder.tuple "a sequence of 4 f32 values" 4 Decoder.single j with
  | [x, y, z, w] => pure ⟨x, y, z, w⟩
  | vs => .error (.invalidLength vs.length "a sequence of 4 f32 values")

/-- The JSON form of a vector. -/
def Vec3.toJson (v : Vec3) : Json := .arr [.single v.x, .single v.y, .single v.z]

/-- The JSON form of a quaternion. -/
def Quat.toJson (q : Quat) : Json := .arr [.single q.x, .single q.y, .single q.z, .single q.w]

namespace SkeletonConfig

/-- Reads a skeleton configuration; both fields are required. -/
def decode : Decoder SkeletonConfig := fun j => do
  let r ← openRecord "struct SkeletonConfig"
    [.of "root_length_factor" Decoder.single, .of "root_thickness" Decoder.single] j
  let lf ← (r.slot 0).required Decoder.single
  let th ← (r.slot 1).required Decoder.single
  r.finish
  pure ⟨lf, th⟩

/-- The JSON form of a skeleton configuration. -/
def toJson (c : SkeletonConfig) : Json :=
  .obj [("root_length_factor", .single c.rootLengthFactor),
    ("root_thickness", .single c.rootThickness)]

end SkeletonConfig

namespace BoneProps

/-- Reads bone props. -/
def decode : Decoder BoneProps := fun j => do
  let r ← openRecord "struct BoneProps"
    [.of "depth" Decoder.word32, .of "branch_order" Decoder.word32,
      .of "length_factor" Decoder.single, .of "thickness" Decoder.single] j
  let depth ← (r.slot 0).required Decoder.word32
  let order ← (r.slot 1).required Decoder.word32
  let lf ← (r.slot 2).required Decoder.single
  let th ← (r.slot 3).required Decoder.single
  r.finish
  pure ⟨depth, order, lf, th⟩

/-- The JSON form of bone props. -/
def toJson (p : BoneProps) : Json :=
  .obj [("depth", .int p.depth), ("branch_order", .int p.branchOrder),
    ("length_factor", .single p.lengthFactor), ("thickness", .single p.thickness)]

end BoneProps

namespace Bone

/-- Reads a bone. -/
def decode : Decoder Bone := fun j => do
  let r ← openRecord "struct Bone"
    [.of "id" Decoder.word32, .of "parent" (Decoder.option Decoder.word32),
      .of "children" (Decoder.list Decoder.word32), .of "start" Vec3.decode,
      .of "end" Vec3.decode, .of "rotation" Quat.decode, .of "props" BoneProps.decode,
      .of "starts_branch" Decoder.bool] j
  let id ← (r.slot 0).required Decoder.word32
  let parent ← (r.slot 1).optional Decoder.word32
  let children ← (r.slot 2).required (Decoder.list Decoder.word32)
  let base ← (r.slot 3).required Vec3.decode
  let tip ← (r.slot 4).required Vec3.decode
  let rotation ← (r.slot 5).required Quat.decode
  let props ← (r.slot 6).required BoneProps.decode
  let sb ← (r.slot 7).required Decoder.bool
  r.finish
  pure ⟨id, parent, children, base, tip, rotation, props, sb⟩

/-- The JSON form of a bone. -/
def toJson (b : Bone) : Json :=
  .obj [("id", .int b.id), ("parent", match b.parent with | some p => .int p | none => .null),
    ("children", .arr (b.children.map fun (c : Nat) => Json.int c)), ("start", b.base.toJson),
    ("end", b.tip.toJson), ("rotation", b.rotation.toJson), ("props", b.props.toJson),
    ("starts_branch", .bool b.startsBranch)]

end Bone

namespace BranchKind

/-- The names of the kinds. -/
def names : List String := ["Leaf", "BranchPoint"]

/-- The kind of a name. -/
def ofName? (n : String) : Except DecodeError BranchKind :=
  match n with
  | "Leaf" => .ok .leaf
  | "BranchPoint" => .ok .branchPoint
  | _ => .error (.unknownVariant n names)

/-- Reads a kind: its name, or an object whose single member is the name with `null`. -/
def decode : Decoder BranchKind
  | .str n => ofName? n
  | .obj [(n, v)] => do
    let k ← ofName? n
    match v with
    | .null => pure k
    | other => .error (.invalidType other.unexpected "unit")
  | .obj _ => .error (.invalidValue .map "map with a single key")
  | j => .error (.invalidType j.unexpected "string or map")

/-- The name of a kind. -/
def name : BranchKind → String
  | .leaf => "Leaf"
  | .branchPoint => "BranchPoint"

end BranchKind

namespace Branch

/-- Reads a branch. -/
def decode : Decoder Branch := fun j => do
  let r ← openRecord "struct FractalBranch"
    [.of "nodes" (Decoder.list Decoder.word32), .of "kind" BranchKind.decode] j
  let nodes ← (r.slot 0).required (Decoder.list Decoder.word32)
  let kind ← (r.slot 1).required BranchKind.decode
  r.finish
  pure ⟨nodes, kind⟩

/-- The JSON form of a branch. -/
def toJson (b : Branch) : Json :=
  .obj [("nodes", .arr (b.nodes.map fun (n : Nat) => Json.int n)), ("kind", .str b.kind.name)]

end Branch

namespace Skeleton

/-- Reads a skeleton. -/
def decode : Decoder Skeleton := fun j => do
  let r ← openRecord "struct Skeleton"
    [.of "bones" (Decoder.list Bone.decode), .of "branches" (Decoder.list Branch.decode)] j
  let bones ← (r.slot 0).required (Decoder.list Bone.decode)
  let branches ← (r.slot 1).required (Decoder.list Branch.decode)
  r.finish
  pure ⟨bones.toArray, branches⟩

/-- The JSON form of a skeleton. -/
def toJson (s : Skeleton) : Json :=
  .obj [("bones", .arr (s.bones.toList.map Bone.toJson)),
    ("branches", .arr (s.branches.map Branch.toJson))]

end Skeleton

end Arbor
