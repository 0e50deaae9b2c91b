import Mathlib.Tactic

/-! Values that the headers of several components share. -/

namespace P4Key

def cryptoOk : Int := 0
def cryptoAuth : Int := -3
def cryptoKey : Int := -4

def credOk : Int := 0
def credErrArg : Int := -1
def credErrSmall : Int := -2
def credErrRoot : Int := -3
def credErrCrypto : Int := -4
def credErrKey : Int := -5
def credErrMismatch : Int := -6

def credIdLen : Nat := 100

def pressOk : Int := 0
def pressCancel : Int := -1
def pressDenied : Int := -2
def pressTimeout : Int := -3

def aaguid : List UInt8 :=
  [0xe9, 0xc0, 0x17, 0x41, 0x4d, 0x6d, 0x4a, 0x49, 0x9e, 0x89, 0xb4, 0xb3, 0x6f, 0x5c, 0x21, 0xa2]

end P4Key
