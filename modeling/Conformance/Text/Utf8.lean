/-!
# UTF-8

Text from bytes.  A byte starts a character or is no start; the bytes that follow a start have
bounds of their own, the first of them narrower, so that no character has two written forms.
`Utf8Fault` tells where decoding stops and why.
-/

namespace Conformance.Text

/-- Why bytes are no text. -/
inductive Utf8Fault
  /-- A byte that starts no character. -/
  | start (position : Nat) (byte : UInt8)
  /-- A start at a position, followed by a number of bytes that go on well and one that does
  not. -/
  | continuation (position : Nat) (byte : UInt8) (good : Nat)
  /-- A character that the end cuts off, with the bytes of it that are there. -/
  | ending (position : Nat) (byte : UInt8) (present : Nat)
deriving DecidableEq, Repr, Inhabited

/-- The first byte of a character: the bits it gives, and the bounds of the bytes behind it. -/
structure Lead where
  bits : Nat
  bounds : List (Nat × Nat)
deriving DecidableEq, Repr, Inhabited

/-- Bounds of a byte that goes on with a character. -/
def tailBounds : Nat × Nat := (0x80, 0xBF)

/-- What a byte starts. -/
def lead? (b : Nat) : Option Lead :=
  if b < 0x80 then some ⟨b, []⟩
  else if b < 0xC2 then none
  else if b < 0xE0 then some ⟨b - 0xC0, [tailBounds]⟩
  else if b == 0xE0 then some ⟨0, [(0xA0, 0xBF), tailBounds]⟩
  else if b == 0xED then some ⟨0xD, [(0x80, 0x9F), tailBounds]⟩
  else if b < 0xF0 then some ⟨b - 0xE0, [tailBounds, tailBounds]⟩
  else if b == 0xF0 then some ⟨0, [(0x90, 0xBF), tailBounds, tailBounds]⟩
  else if b < 0xF4 then some ⟨b - 0xF0, [tailBounds, tailBounds, tailBounds]⟩
  else if b == 0xF4 then some ⟨4, [(0x80, 0x8F), tailBounds, tailBounds]⟩
  else none

/-- Bits and rest behind a start; otherwise how many bytes go on well, and whether the end came. -/
def readTail (bits good : Nat) :
    List (Nat × Nat) → List UInt8 → Except (Nat × Bool) (Nat × List UInt8)
  | [], rest => .ok (bits, rest)
  | _, [] => .error (good, true)
  | (low, high) :: bounds, b :: rest =>
    if low ≤ b.toNat && b.toNat ≤ high then
      readTail (64 * bits + (b.toNat - 0x80)) (good + 1) bounds rest
    else .error (good, false)

theorem readTail_length {bits good : Nat} {bounds : List (Nat × Nat)} {bytes rest : List UInt8}
    {n : Nat} (h : readTail bits good bounds bytes = .ok (n, rest)) :
    rest.length ≤ bytes.length := by
  fun_induction readTail bits good bounds bytes with
  | case1 bits good rest' => cases h; exact Nat.le_refl _
  | case2 => cases h
  | case3 bits good low high bounds b rest' hb ih =>
    exact Nat.le_trans (ih h) (by simp)
  | case4 => cases h

/-- The text of bytes from a position on. -/
def decodeFrom (position : Nat) (bytes : List UInt8) : Except Utf8Fault (List Char) :=
  match bytes with
  | [] => .ok []
  | b :: rest =>
    match lead? b.toNat with
    | none => .error (.start position b)
    | some lead =>
      match h : readTail lead.bits 0 lead.bounds rest with
      | .error (good, true) => .error (.ending position b (good + 1))
      | .error (good, false) => .error (.continuation position b good)
      | .ok (code, after) =>
        have := readTail_length h
        (decodeFrom (position + 1 + lead.bounds.length) after).map (Char.ofNat code :: ·)
termination_by bytes.length

/-- The text of bytes. -/
def decodeUtf8 (bytes : List UInt8) : Except Utf8Fault (List Char) := decodeFrom 0 bytes

/-- The text of bytes, if they are one. -/
def utf8? (bytes : List UInt8) : Option (List Char) := (decodeUtf8 bytes).toOption

end Conformance.Text
