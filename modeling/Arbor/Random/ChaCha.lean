/-!
# The ChaCha block function

A ChaCha block is sixteen 32-bit words: four constants, a 256-bit key, a 64-bit block counter and
a 64-bit stream number. The block function mixes them with rounds of quarter-rounds (additions,
exclusive ors and rotations, all modulo `2^32`) and adds the input back. The keystream of a key is
the words of the blocks of counter `0, 1, 2, …` in order: `keystream key i` is the word at
position `i`. The stream number is always zero here.
-/

namespace Arbor

namespace ChaCha

/-- The sixteen-word state of a block. -/
abbrev State := Vector UInt32 16

/-- A 256-bit key as eight words. -/
abbrev Key := Vector UInt32 8

/-- Rotation of a word to the left by `n < 32` places. -/
def rotl (x : UInt32) (n : UInt32) : UInt32 := (x <<< n) ||| (x >>> (32 - n))

/-- The quarter-round on the words at `a`, `b`, `c` and `d`. -/
def quarter (s : State) (a b c d : Fin 16) : State :=
  let s := s.set a (s[a] + s[b]); let s := s.set d (rotl (s[d] ^^^ s[a]) 16)
  let s := s.set c (s[c] + s[d]); let s := s.set b (rotl (s[b] ^^^ s[c]) 12)
  let s := s.set a (s[a] + s[b]); let s := s.set d (rotl (s[d] ^^^ s[a]) 8)
  let s := s.set c (s[c] + s[d]); s.set b (rotl (s[b] ^^^ s[c]) 7)

/-- Two rounds: quarter-rounds on the four columns, then on the four diagonals. -/
def doubleRound (s : State) : State :=
  let s := quarter s 0 4 8 12
  let s := quarter s 1 5 9 13
  let s := quarter s 2 6 10 14
  let s := quarter s 3 7 11 15
  let s := quarter s 0 5 10 15
  let s := quarter s 1 6 11 12
  let s := quarter s 2 7 8 13
  quarter s 3 4 9 14

/-- The input of the block with counter `n`: the constants of "expand 32-byte k", the key, the
counter in two words (low first) and a zero stream number. -/
def input (key : Key) (n : Nat) : State :=
  #v[0x61707865, 0x3320646e, 0x79622d32, 0x6b206574,
    key[0], key[1], key[2], key[3], key[4], key[5], key[6], key[7],
    (n % Nat.pow 2 32).toUInt32, (n / Nat.pow 2 32 % Nat.pow 2 32).toUInt32, 0, 0]

/-- The block with counter `n` after `2 · rounds` rounds, the input added back word by word. -/
def block (rounds : Nat) (key : Key) (n : Nat) : State :=
  let x := input key n
  let y := (List.range rounds).foldl (fun s _ => doubleRound s) x
  Vector.zipWith (· + ·) y x

/-- The word at position `i` of the keystream of twelve rounds. -/
def keystream (key : Key) (i : Nat) : UInt32 :=
  (block 6 key (i / 16)).get ⟨i % 16, Nat.mod_lt _ (by decide)⟩

end ChaCha

end Arbor
