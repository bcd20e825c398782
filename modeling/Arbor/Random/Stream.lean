import Arbor.Random.ChaCha
/-!
# Seeded random streams

A stream is fixed by a 64-bit seed. The seed is spread over a 256-bit key by eight steps of a
permuted congruential generator, and the words of the stream are the ChaCha keystream of twelve
rounds under that key. A stream is its seed and the number of words drawn so far, so rewinding
it is setting that number back to zero.

Numbers are drawn as follows:
* `uniform`: the top 24 bits of a word, scaled by `2^-24`, a float in `[0, 1)`;
* `uniformRange lo hi`: one word gives `v ∈ [1, 2)` from its top 23 bits, and the result is
  `(v - 1) · (hi - lo) + lo`; rounding may carry it up to `hi`. A range that is empty, inverted
  or too wide to be finite draws one word and gives `lo`;
* `blendedRange lo hi`: `lo + t · (hi - lo)` for `t = uniform`, or `lo` when that reaches `hi`
  or the range cannot be sampled.
-/

namespace Arbor

/-- One step of the permuted congruential generator: the next state and its output word. -/
def pcgStep (state : UInt64) : UInt64 × UInt32 :=
  let state := state * 6364136223846793005 + 11634580027462260723
  let xs := (((state >>> 18) ^^^ state) >>> 27).toUInt32
  let rot := (state >>> 59).toUInt32
  (state, (xs >>> rot) ||| (xs <<< (32 - rot)))

/-- The eight key words spread from a seed. -/
def keyOfSeed (seed : UInt64) : ChaCha.Key :=
  let (s1, w0) := pcgStep seed
  let (s2, w1) := pcgStep s1
  let (s3, w2) := pcgStep s2
  let (s4, w3) := pcgStep s3
  let (s5, w4) := pcgStep s4
  let (s6, w5) := pcgStep s5
  let (s7, w6) := pcgStep s6
  let (_, w7) := pcgStep s7
  #v[w0, w1, w2, w3, w4, w5, w6, w7]

/-- A seeded random stream: the seed and the number of words drawn from it. -/
structure Rng where
  seed : UInt64
  drawn : Nat := 0

namespace Rng

/-- The stream of a seed, nothing drawn yet. -/
def ofSeed (seed : UInt64) : Rng := ⟨seed, 0⟩

/-- The stream rewound to its seed. -/
def reset (r : Rng) : Rng := ofSeed r.seed

/-- Draws the next word. -/
def nextWord (r : Rng) : UInt32 × Rng :=
  (ChaCha.keystream (keyOfSeed r.seed) r.drawn, { r with drawn := r.drawn + 1 })

/-- `2^-24`. -/
def unitStep : Float32 := Float32.ofBits 0x33800000

/-- A float in `[0, 1)` from the top 24 bits of one word. -/
def uniform (r : Rng) : Float32 × Rng :=
  let (w, r) := r.nextWord
  ((w >>> 8).toFloat32 * unitStep, r)

/-- Whether `[lo, hi)` is a non-empty range of finite width. -/
def sampleable (lo hi : Float32) : Bool := lo < hi && (hi - lo).isFinite

/-- The float in `[1, 2)` whose fraction is the top 23 bits of a word, less one. -/
def unitFraction (w : UInt32) : Float32 := Float32.ofBits ((w >>> 9) ||| 0x3f800000) - 1

/-- `(v - 1) · (hi - lo) + lo` for the `v ∈ [1, 2)` of one word, which rounding may carry up to
`hi`; a range that cannot be sampled draws one word and gives `lo`. -/
def uniformRange (r : Rng) (lo hi : Float32) : Float32 × Rng :=
  let (w, r) := r.nextWord
  if sampleable lo hi then (unitFraction w * (hi - lo) + lo, r) else (lo, r)

/-- `lo + t · (hi - lo)` for `t = uniform`, or `lo` when the range cannot be sampled or the
result reaches `hi`. -/
def blendedRange (r : Rng) (lo hi : Float32) : Float32 × Rng :=
  let (t, r) := r.uniform
  if !sampleable lo hi then (lo, r)
  else
    let v := lo + t * (hi - lo)
    if v < hi then (v, r) else (lo, r)

end Rng

end Arbor
