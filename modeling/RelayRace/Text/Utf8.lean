/-!
# UTF-8 with errors

Bytes are encoded text in all but the worst case, so decoding never fails: what
cannot be a character becomes a replacement character. A sequence that breaks
off is replaced as a whole, up to the byte that does not belong to it, and that
byte is then looked at on its own.

The decoder keeps what it still waits for: the value so far, how many bytes are
to come, and in which range the next of them must lie. The range excludes
surrogates, numbers beyond the last code point and needlessly long sequences at
the second byte, which is the first one that shows them.
-/

namespace RelayRace.Text.Utf8

/-- The character that stands for undecodable bytes. -/
def replacement : Char := Char.ofNat 0xfffd

/-- What a sequence that has begun still waits for. -/
structure Pending where
  value : Nat
  missing : Nat
  low : Nat
  high : Nat
  deriving DecidableEq, Repr

/-- What the first byte of a sequence leads to: a character, or bytes to wait
for. -/
def start (byte : Nat) : List Char × Option Pending :=
  if byte < 0x80 then ([Char.ofNat byte], none)
  else if byte < 0xc2 then ([replacement], none)
  else if byte < 0xe0 then ([], some ⟨byte - 0xc0, 1, 0x80, 0xbf⟩)
  else if byte = 0xe0 then ([], some ⟨0, 2, 0xa0, 0xbf⟩)
  else if byte = 0xed then ([], some ⟨0xd, 2, 0x80, 0x9f⟩)
  else if byte < 0xf0 then ([], some ⟨byte - 0xe0, 2, 0x80, 0xbf⟩)
  else if byte = 0xf0 then ([], some ⟨0, 3, 0x90, 0xbf⟩)
  else if byte < 0xf4 then ([], some ⟨byte - 0xf0, 3, 0x80, 0xbf⟩)
  else if byte = 0xf4 then ([], some ⟨4, 3, 0x80, 0x8f⟩)
  else ([replacement], none)

/-- What one more byte leads to. -/
def step (pending : Option Pending) (byte : Nat) : List Char × Option Pending :=
  match pending with
  | none => start byte
  | some p =>
      if p.low ≤ byte ∧ byte ≤ p.high then
        let value := p.value * 64 + byte % 64
        if p.missing ≤ 1 then ([Char.ofNat value], none)
        else ([], some ⟨value, p.missing - 1, 0x80, 0xbf⟩)
      else
        let (chars, next) := start byte
        (replacement :: chars, next)

/-- Decodes bytes that follow what is pending. -/
def decodeFrom : Option Pending → List UInt8 → List Char
  | none, [] => []
  | some _, [] => [replacement]
  | pending, byte :: rest =>
      (step pending byte.toNat).1 ++ decodeFrom (step pending byte.toNat).2 rest

/-- Decodes bytes, with replacement characters where they are no encoded text. -/
def decode (bytes : List UInt8) : List Char := decodeFrom none bytes

/-- The bytes of a text. -/
def encode (text : String) : List UInt8 := text.toList.flatMap String.utf8EncodeChar

end RelayRace.Text.Utf8
