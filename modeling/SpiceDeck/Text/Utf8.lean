import SpiceDeck.Text.Basic

/-!
# UTF-8

The bytes of a text and the text of bytes. `decode` accepts exactly what `encode` produces: every
character in its shortest form, no surrogates, nothing above U+10FFFF.
-/

namespace SpiceDeck

abbrev Bytes := List UInt8

namespace Utf8

def encode (t : Text) : Bytes := t.flatMap String.utf8EncodeChar

/-- The six bits that a byte after the first adds to a character. -/
def tailBits (b : UInt8) : Option Nat :=
  if 0x80 ≤ b.toNat ∧ b.toNat < 0xC0 then some (b.toNat - 0x80) else none

/-- The character of a code point for which a form of this length is the shortest. -/
def scalar (least n : Nat) : Option Char :=
  if least ≤ n ∧ n.isValidChar then some (Char.ofNat n) else none

def two (b₀ b₁ : UInt8) : Option Char := do
  scalar 0x80 ((b₀.toNat - 0xC0) * 64 + (← tailBits b₁))

def three (b₀ b₁ b₂ : UInt8) : Option Char := do
  scalar 0x800 (((b₀.toNat - 0xE0) * 64 + (← tailBits b₁)) * 64 + (← tailBits b₂))

def four (b₀ b₁ b₂ b₃ : UInt8) : Option Char := do
  scalar 0x10000
    ((((b₀.toNat - 0xF0) * 64 + (← tailBits b₁)) * 64 + (← tailBits b₂)) * 64 + (← tailBits b₃))

def prepend (c : Option Char) (t : Option Text) : Option Text := do return (← c) :: (← t)

/-- The first byte tells the length of a character. -/
def decode : Bytes → Option Text
  | [] => some []
  | b₀ :: rest =>
    if b₀.toNat < 0x80 then prepend (some (Char.ofNat b₀.toNat)) (decode rest)
    else if b₀.toNat < 0xC0 then none
    else if b₀.toNat < 0xE0 then
      match rest with
      | b₁ :: rest => prepend (two b₀ b₁) (decode rest)
      | _ => none
    else if b₀.toNat < 0xF0 then
      match rest with
      | b₁ :: b₂ :: rest => prepend (three b₀ b₁ b₂) (decode rest)
      | _ => none
    else if b₀.toNat < 0xF8 then
      match rest with
      | b₁ :: b₂ :: b₃ :: rest => prepend (four b₀ b₁ b₂ b₃) (decode rest)
      | _ => none
    else none

end Utf8

end SpiceDeck
