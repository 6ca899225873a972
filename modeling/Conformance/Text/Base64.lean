/-!
# Base 64

Bytes written six bits to a character.  Characters outside the alphabet are passed over, and
padding that completes a group of four ends the text.
-/

namespace Conformance.Text

/-- The characters for the values 0 to 63. -/
def base64Alphabet : List Char :=
  "ABCDEFGHIJKLMNOPQRSTUVWXYZabcdefghijklmnopqrstuvwxyz0123456789+/".toList

/-- Value of a character of the alphabet. -/
def base64Value? (c : Char) : Option Nat := base64Alphabet.idxOf? c

/-- The bytes of a text, where `group` holds the values of the group begun so far in reverse and
`pads` counts the padding just passed.  A group of one value, or one without its padding, is no
written form. -/
def readBase64 : (group : List Nat) → (pads : Nat) → List Char → Option (List UInt8)
  | [], _, [] => some []
  | _, _, [] => none
  | group, pads, c :: rest =>
    if c == '=' then
      if 2 ≤ group.length && 4 ≤ group.length + pads + 1 then some []
      else readBase64 group (if 2 ≤ group.length then pads + 1 else pads) rest
    else match base64Value? c, group with
      | none, group => readBase64 group pads rest
      | some v, [] => readBase64 [v] 0 rest
      | some v, [a] => (readBase64 [v, a] 0 rest).map (UInt8.ofNat (4 * a + v / 16) :: ·)
      | some v, [b, a] =>
        (readBase64 [v, b, a] 0 rest).map (UInt8.ofNat (16 * (b % 16) + v / 4) :: ·)
      | some v, last :: _ => (readBase64 [] 0 rest).map (UInt8.ofNat (64 * (last % 4) + v) :: ·)

/-- The bytes of a text. -/
def base64? (cs : List Char) : Option (List UInt8) := readBase64 [] 0 cs

end Conformance.Text
