/-!
# Decoding bytes as text

`decodeLossy` reads any bytes as UTF-8.  Where they are not, each longest start of a
character that is not completed becomes one replacement character, as does every byte that
starts none.
-/

namespace MutationTesting.Text

/-- How a character goes on after its first byte: the bits that this byte gives, and the
ranges of the bytes that follow. -/
structure Lead where
  bits : Nat
  follow : List (Nat × Nat)

/-- What a byte starts, if it starts a character. -/
def lead? (b : Nat) : Option Lead :=
  let any := (0x80, 0xBF)
  if b < 0x80 then some ⟨b, []⟩
  else if 0xC2 ≤ b && b ≤ 0xDF then some ⟨b - 0xC0, [any]⟩
  else if b = 0xE0 then some ⟨0, [(0xA0, 0xBF), any]⟩
  else if b = 0xED then some ⟨0xD, [(0x80, 0x9F), any]⟩
  else if 0xE1 ≤ b && b ≤ 0xEF then some ⟨b - 0xE0, [any, any]⟩
  else if b = 0xF0 then some ⟨0, [(0x90, 0xBF), any, any]⟩
  else if 0xF1 ≤ b && b ≤ 0xF3 then some ⟨b - 0xF0, [any, any, any]⟩
  else if b = 0xF4 then some ⟨4, [(0x80, 0x8F), any, any]⟩
  else none

/-- What stands for bytes that are no character. -/
def replacementChar : Char := '\uFFFD'

/-- How far decoding has come. -/
structure Decoder where
  /-- The characters so far, the last one first. -/
  chars : List Char
  /-- The bits that an unfinished character has so far. -/
  bits : Nat
  /-- The ranges of the bytes that an unfinished character still needs. -/
  follow : List (Nat × Nat)

namespace Decoder

/-- Gives an unfinished character up. -/
def finish (d : Decoder) : Decoder :=
  if d.follow.isEmpty then d else ⟨replacementChar :: d.chars, 0, []⟩

/-- Takes a byte that continues no character. -/
def start (d : Decoder) (b : Nat) : Decoder :=
  match lead? b with
  | none => ⟨replacementChar :: d.chars, 0, []⟩
  | some ⟨bits, []⟩ => ⟨Char.ofNat bits :: d.chars, 0, []⟩
  | some ⟨bits, follow⟩ => ⟨d.chars, bits, follow⟩

/-- Takes a byte. -/
def step (d : Decoder) (b : Nat) : Decoder :=
  match d.follow with
  | (low, high) :: follow =>
    if low ≤ b && b ≤ high then
      let bits := d.bits * 64 + (b - 0x80)
      if follow.isEmpty then ⟨Char.ofNat bits :: d.chars, 0, []⟩ else ⟨d.chars, bits, follow⟩
    else d.finish.start b
  | [] => d.start b

end Decoder

/-- The text of bytes, with replacement characters for what is no text. -/
def decodeLossy (bytes : List UInt8) : String :=
  match String.fromUTF8? bytes.toByteArray with
  | some text => text
  | none =>
    let d := bytes.foldl (fun (d : Decoder) b => d.step b.toNat) ⟨[], 0, []⟩
    String.ofList d.finish.chars.reverse

end MutationTesting.Text
