import Mathlib.Tactic

/-! `p4_p256_scalar_valid` of p4_crypto_p256_util.c. -/

namespace P4Key.Crypto

def p256Order : List UInt8 :=
  [0xff, 0xff, 0xff, 0xff, 0x00, 0x00, 0x00, 0x00,
   0xff, 0xff, 0xff, 0xff, 0xff, 0xff, 0xff, 0xff,
   0xbc, 0xe6, 0xfa, 0xad, 0xa7, 0x17, 0x9e, 0x84,
   0xf3, 0xb9, 0xca, 0xc2, 0xfc, 0x63, 0x25, 0x51]

structure Comparison where
  nonzero : UInt32
  less : UInt32
  greater : UInt32
  deriving DecidableEq, Repr

/-- One turn of the loop: the first byte that differs decides, and no branch depends on it. -/
def compareByte (comparison : Comparison) (bytes : UInt8 × UInt8) : Comparison :=
  let a := bytes.1.toUInt32
  let b := bytes.2.toUInt32
  let undecided := 1 ^^^ (comparison.less ||| comparison.greater)
  let aLess := (a - b) >>> 31
  let aGreater := (b - a) >>> 31
  { nonzero := comparison.nonzero ||| a
    less := comparison.less ||| (undecided &&& aLess)
    greater := comparison.greater ||| (undecided &&& aGreater) }

def scalarValid (scalar : List UInt8) : Bool :=
  let result := (scalar.zip p256Order).foldl compareByte ⟨0, 0, 0⟩
  result.nonzero != 0 && result.less != 0

end P4Key.Crypto
