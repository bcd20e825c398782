/-!
# Colours

An 8-bit RGBA colour. The default pen is opaque black.
-/

namespace Arbor

/-- An RGBA colour, one byte per channel. -/
structure Color where
  r : UInt8
  g : UInt8
  b : UInt8
  a : UInt8
deriving BEq, DecidableEq, Repr

namespace Color

/-- Opaque black, the default pen. -/
def black : Color := ⟨0, 0, 0, 255⟩

/-- Opaque white. -/
def white : Color := ⟨255, 255, 255, 255⟩

end Color

end Arbor
