/-!
# UTF-8

Characters as bytes and back. Reading accepts any bytes: each maximal run of
bytes that begins like a character without becoming one is read as a place
where there is no character, so one damaged character spoils no other.
-/

namespace EmbeddedSql.Text.Utf8

/-- The bytes of a text. -/
def encode (text : List Char) : List UInt8 :=
  text.flatMap String.utf8EncodeChar

/-- The number of bytes of a text. -/
def size : List Char → Nat
  | [] => 0
  | c :: rest => c.utf8Size + size rest

/-- A character of which the first bytes were read. -/
structure Partial where
  /-- The code point's bits read so far. -/
  bits : Nat
  /-- How many bytes are still missing, at least one. -/
  missing : Nat
  /-- The least byte that may come next. -/
  low : UInt8
  /-- The greatest byte that may come next. -/
  high : UInt8

/-- What a byte at the beginning of a character gives: a character of its own,
the begin of a longer one, or neither. The bounds of the second byte rule out
overlong forms, surrogates and code points above U+10FFFF. -/
def begin (b : UInt8) : List (Option Char) × Option Partial :=
  if b < 0x80 then ([some (Char.ofNat b.toNat)], none)
  else if b < 0xC2 then ([none], none)
  else if b < 0xE0 then ([], some ⟨b.toNat - 0xC0, 1, 0x80, 0xBF⟩)
  else if b = 0xE0 then ([], some ⟨0, 2, 0xA0, 0xBF⟩)
  else if b = 0xED then ([], some ⟨0xD, 2, 0x80, 0x9F⟩)
  else if b < 0xF0 then ([], some ⟨b.toNat - 0xE0, 2, 0x80, 0xBF⟩)
  else if b = 0xF0 then ([], some ⟨0, 3, 0x90, 0xBF⟩)
  else if b < 0xF4 then ([], some ⟨b.toNat - 0xF0, 3, 0x80, 0xBF⟩)
  else if b = 0xF4 then ([], some ⟨4, 3, 0x80, 0x8F⟩)
  else ([none], none)

/-- Reads one byte. A byte that cannot continue the character before it ends
that one without a character and begins anew. -/
def step (state : Option Partial) (b : UInt8) : List (Option Char) × Option Partial :=
  match state with
  | none => begin b
  | some p =>
    if p.low ≤ b && b ≤ p.high then
      let bits := p.bits * 64 + (b.toNat - 0x80)
      if p.missing ≤ 1 then ([some (Char.ofNat bits)], none)
      else ([], some ⟨bits, p.missing - 1, 0x80, 0xBF⟩)
    else (none :: (begin b).1, (begin b).2)

/-- Reads bytes that go on from the given state. -/
def decodeFrom : Option Partial → List UInt8 → List (Option Char)
  | none, [] => []
  | some _, [] => [none]
  | state, b :: rest => (step state b).1 ++ decodeFrom (step state b).2 rest

/-- The characters that the bytes stand for, with none where they stand for
no character. -/
def decode (bytes : List UInt8) : List (Option Char) :=
  decodeFrom none bytes

/-- The text that the bytes stand for; none if some of them stand for no
character. -/
def text? (bytes : List UInt8) : Option (List Char) :=
  (decode bytes).mapM id

example : decode (encode ['a', 'é', '表', '😀']) =
    [some 'a', some 'é', some '表', some '😀'] := by decide

example : decode [0xE8, 0xA1, 0x22, 0xFF, 0xED, 0xA0] =
    [none, some '"', none, none, none] := by decide

end EmbeddedSql.Text.Utf8
