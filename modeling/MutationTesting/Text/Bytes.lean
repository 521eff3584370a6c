import MutationTesting.Text.Lossy

/-!
# Texts of bytes

Scripts and tools look at bytes and not at the characters that they form.  A text of bytes
has one character below 256 for each byte; `encode` gives that of any text, and `decode`
reads one back.
-/

namespace MutationTesting.Text

/-- Whether a character is one byte long. -/
def isShort (c : Char) : Bool := c.toNat < 128

/-- The text of the bytes of a text. -/
def encode (text : String) : String :=
  if text.toList.all isShort then text
  else String.ofList (text.toUTF8.toList.map fun b => Char.ofNat b.toNat)

/-- The bytes that a text of bytes is for. -/
def toBytes (text : String) : List UInt8 := text.toList.map fun c => c.toNat.toUInt8

/-- The text of bytes for some bytes. -/
def ofBytes (bytes : List UInt8) : String :=
  String.ofList (bytes.map fun b => Char.ofNat b.toNat)

/-- The text that bytes form, with replacement characters for what is no text. -/
def decode (text : String) : String :=
  if text.toList.all isShort then text else decodeLossy (toBytes text)

theorem decode_encode_of_isShort {text : String} (h : text.toList.all isShort = true) :
  decode (encode text) = text
  := by
  simp [encode, decode, h]

end MutationTesting.Text
