import SlideDeck.Text.Basic

/-!
# UTF-8

Files hold bytes. `decode?` reads a file that has to be text, `decodeLossy` reads
the output of another program, whose faulty parts become replacement characters,
and `encode` writes text.
-/

set_option autoImplicit false

namespace SlideDeck.Text.Utf8

/-- The bytes of one character. -/
def encodeChar (c : Char) : List UInt8 := String.utf8EncodeChar c

/-- The bytes of a text. -/
def encode (s : Text) : List UInt8 := s.flatMap encodeChar

/-- Whether the byte continues a character. -/
def isContinuation (b : UInt8) : Bool := 0x80 ≤ b && b ≤ 0xBF

/-- The six low bits of a continuation byte. -/
def payload (b : UInt8) : Nat := b.toNat % 64

/-- What stands at the front of a sequence of bytes: a character or a fault, and how many
bytes behind the first one belong to it. -/
inductive Front where
  | character (c : Char) (more : Nat)
  | fault (more : Nat)

/-- The second bytes that may follow a lead byte of three or four bytes: no
overlong form, no surrogate, nothing above the last code point. -/
def secondAllowed (lead second : UInt8) : Bool :=
  if lead == 0xE0 then 0xA0 ≤ second && second ≤ 0xBF
  else if lead == 0xED then 0x80 ≤ second && second ≤ 0x9F
  else if lead == 0xF0 then 0x90 ≤ second && second ≤ 0xBF
  else if lead == 0xF4 then 0x80 ≤ second && second ≤ 0x8F
  else isContinuation second

/-- Reads one character. A fault covers the longest beginning that a correct
character could have, and at least the first byte. -/
def front (lead : UInt8) (rest : List UInt8) : Front :=
  if lead < 0x80 then .character (Char.ofNat lead.toNat) 0
  else if 0xC2 ≤ lead && lead ≤ 0xDF then
    match rest with
    | second :: _ =>
      if isContinuation second then
        .character (Char.ofNat ((lead.toNat - 0xC0) * 64 + payload second)) 1
      else .fault 0
    | [] => .fault 0
  else if 0xE0 ≤ lead && lead ≤ 0xEF then
    match rest with
    | second :: third :: _ =>
      if !secondAllowed lead second then .fault 0
      else if !isContinuation third then .fault 1
      else
        .character
          (Char.ofNat ((lead.toNat - 0xE0) * 4096 + payload second * 64 + payload third)) 2
    | [second] => .fault (if secondAllowed lead second then 1 else 0)
    | [] => .fault 0
  else if 0xF0 ≤ lead && lead ≤ 0xF4 then
    match rest with
    | second :: third :: fourth :: _ =>
      if !secondAllowed lead second then .fault 0
      else if !isContinuation third then .fault 1
      else if !isContinuation fourth then .fault 2
      else
        .character
          (Char.ofNat ((lead.toNat - 0xF0) * 262144 + payload second * 4096 +
            payload third * 64 + payload fourth)) 3
    | [second, third] =>
      .fault (if !secondAllowed lead second then 0 else if isContinuation third then 2 else 1)
    | [second] => .fault (if secondAllowed lead second then 1 else 0)
    | [] => .fault 0
  else .fault 0

/-- Decodes behind the first `covered` bytes; `onFault` gives what stands for a
faulty part, or stops. -/
def decodeFrom (onFault : Option Char) : Nat → List UInt8 → Option Text
  | _, [] => some []
  | covered + 1, _ :: bytes => decodeFrom onFault covered bytes
  | 0, lead :: bytes =>
    match front lead bytes with
    | .character c more => (decodeFrom onFault more bytes).map (c :: ·)
    | .fault more => onFault.bind fun c => (decodeFrom onFault more bytes).map (c :: ·)

/-- The text of the bytes, if they are correct UTF-8. -/
def decode? (bytes : List UInt8) : Option Text := decodeFrom none 0 bytes

/-- The character that stands for a faulty part. -/
def replacementCharacter : Char := Char.ofNat 0xFFFD

/-- The text of the bytes, with a replacement character for each faulty part. -/
def decodeLossy (bytes : List UInt8) : Text :=
  (decodeFrom (some replacementCharacter) 0 bytes).getD []

end SlideDeck.Text.Utf8
