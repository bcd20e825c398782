import Arbor.Skeleton.Builder
import Arbor.Interpret.Space
/-!
# Growing a skeleton from a word

A space interpreter walks a word from the origin; when the walk succeeds, its trace is fed to a
builder and the builder's skeleton is the result. The stream is returned in both outcomes.
-/

namespace Arbor

/-- Walks `word` from the origin and builds a skeleton from the trace with `b`. -/
def SpaceInterpreter.growSkeleton (ip : SpaceInterpreter) (word : Word) (r : Rng) (b : Builder) :
    Except Fault Skeleton × Rng :=
  let (t, r, fault) := ip.interpretFrom word {} r
  match fault with
  | some e => (.error e, r)
  | none =>
    match b.observeAll t.events.toList with
    | (b, none) => (.ok b.finish, r)
    | (_, some e) => (.error e, r)

end Arbor
