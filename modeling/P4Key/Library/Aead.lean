import Mathlib.Logic.Function.Basic

/-! An ideal scheme for authenticated encryption.

Nothing is assumed about secrecy. Boxes are what `seal` makes, and a box opens to
the one plaintext it was made from or not at all. -/

structure Aead (Key Nonce Data Plain Box : Type) where
  sealed : Key → Nonce → Data → Plain → Box
  sealed_injective : ∀ key nonce data, Function.Injective (sealed key nonce data)

namespace Aead

variable {Key Nonce Data Plain Box : Type} (scheme : Aead Key Nonce Data Plain Box)

/-- What opening a box gives: the plaintext it was sealed from, or nothing. -/
def Opens (key : Key) (nonce : Nonce) (data : Data) (box : Box) (result : Option Plain) : Prop :=
  ∀ plain, result = some plain ↔ scheme.sealed key nonce data plain = box

end Aead
