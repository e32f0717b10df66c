import Anonymization.Text.Blank
/-!
# Texts as bytes

Files hold texts in UTF-8. `decode?` refuses bytes that are none; `decodeLossy` puts U+FFFD in the
place of each run of bytes that begins a character and does not complete it, and of each byte that
begins none.
-/

namespace Anonymization.Text

/-- The bytes of a text. -/
def encode (t : Text) : ByteArray :=
  (String.ofList t).toUTF8

/-- The text that bytes hold, if they are UTF-8. -/
def decode? (bytes : ByteArray) : Option Text :=
  (String.fromUTF8? bytes).map String.toList

/-- What stands in the place of bytes that are no text. -/
def replacement : Char := '\uFFFD'

/-- How a byte begins a character: the value of its own bits, how many bytes follow, and the least
and greatest value of the first of these. -/
def leadByte? (b : UInt8) : Option (Nat × Nat × UInt8 × UInt8) :=
  if b < 0x80 then some (b.toNat, 0, 0x80, 0xBF)
  else if b < 0xC2 then none
  else if b < 0xE0 then some (b.toNat - 0xC0, 1, 0x80, 0xBF)
  else if b < 0xF0 then
    some (b.toNat - 0xE0, 2, if b = 0xE0 then 0xA0 else 0x80, if b = 0xED then 0x9F else 0xBF)
  else if b < 0xF5 then
    some (b.toNat - 0xF0, 3, if b = 0xF0 then 0x90 else 0x80, if b = 0xF4 then 0x8F else 0xBF)
  else none

/-- What is known after some bytes: the characters read, last one first, and the value of a begun
character with the number of bytes it still wants and the bounds of the next one. -/
structure Decoder where
  done : Text
  begun : Option (Nat × Nat × UInt8 × UInt8)

/-- A byte with which a character has to begin. -/
def Decoder.lead (done : Text) (b : UInt8) : Decoder :=
  match leadByte? b with
  | none => ⟨replacement :: done, none⟩
  | some (value, 0, _, _) => ⟨Char.ofNat value :: done, none⟩
  | some begun => ⟨done, some begun⟩

/-- The next byte. -/
def Decoder.step (s : Decoder) (b : UInt8) : Decoder :=
  match s.begun with
  | none => Decoder.lead s.done b
  | some (value, wanted, low, high) =>
    if low ≤ b ∧ b ≤ high then
      let value := value * 0x40 + (b.toNat - 0x80)
      if wanted ≤ 1 then ⟨Char.ofNat value :: s.done, none⟩
      else ⟨s.done, some (value, wanted - 1, 0x80, 0xBF)⟩
    else Decoder.lead (replacement :: s.done) b

/-- The text that bytes hold, with U+FFFD for what is none. -/
def decodeLossy (bytes : ByteArray) : Text :=
  let s := bytes.toList.foldl Decoder.step ⟨[], none⟩
  (match s.begun with
    | some _ => replacement :: s.done
    | none => s.done).reverse

end Anonymization.Text
