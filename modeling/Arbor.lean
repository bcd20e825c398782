import Arbor.Decimal.Shortest
import Arbor.Decimal.Notation
import Arbor.Json.Value
import Arbor.Json.Number
import Arbor.Json.Parse
import Arbor.Json.Print
import Arbor.Random.ChaCha
import Arbor.Random.Stream
import Arbor.Fault
import Arbor.Grammar.Rule
import Arbor.Grammar.Basic
import Arbor.Grammar.Expand
import Arbor.Grammar.Slots
import Arbor.Geometry.Angle
import Arbor.Geometry.Vec2
import Arbor.Geometry.Vec3
import Arbor.Geometry.Quat
import Arbor.Render.Color
import Arbor.Render.Canvas
import Arbor.Turtle.Plane
import Arbor.Turtle.Space
import Arbor.Interpret.Runs
import Arbor.Interpret.Plane
import Arbor.Interpret.Space
import Arbor.Text.Unicode
import Arbor.Text.Quoted
import Arbor.Json.Decode
import Arbor.Interpret.Codec
import Arbor.Skeleton.Bone
import Arbor.Skeleton.Branch
import Arbor.Skeleton.Basic
import Arbor.Skeleton.Builder
import Arbor.Skeleton.Grow
import Arbor.Skeleton.Codec
import Arbor.Skeleton.Worklist
import Arbor.Preset.Plane
import Arbor.Preset.Space
import Arbor.Proofs.Skeleton.Tree
import Arbor.Proofs.Skeleton.Build
import Arbor.Proofs.Skeleton.Branches
import Arbor.Proofs.Skeleton.Chains
import Arbor.Proofs.Skeleton.Walk
import Arbor.Proofs.Skeleton.Props
import Arbor.Proofs.Grammar.Step
import Arbor.Proofs.Grammar.Limit
import Arbor.Proofs.Grammar.Generations
import Arbor.Proofs.Grammar.Nesting
import Arbor.Proofs.Grammar.Table
import Arbor.Proofs.Grammar.Projected
import Arbor.Proofs.Interpret.Brackets
import Arbor.Proofs.Interpret.Underflow
import Arbor.Proofs.Interpret.RunLength
import Arbor.Proofs.Interpret.Sketch
import Arbor.Proofs.Skeleton.Frame
import Arbor.Proofs.Skeleton.Openings
import Arbor.Proofs.Preset.Safe
import Arbor.Proofs.Turtle.Restore
import Arbor.Proofs.Skeleton.Worklist
