import RuneMachine.Codec.Charset

/-! The front of a byte sequence as an encoding sees it: a character, bytes that no character
starts with, or the beginning of a character that the bytes do not complete. -/

namespace RuneMachine

inductive Flaw where
  | badStart | badContinuation | cutShort | notAscii | oddByte | loneHigh | loneLow
  deriving DecidableEq, Repr

namespace Flaw

def reason : Flaw → Text
  | .badStart => Text.ofString "invalid start byte"
  | .badContinuation => Text.ofString "invalid continuation byte"
  | .cutShort => Text.ofString "unexpected end of data"
  | .notAscii => Text.ofString "ordinal not in range(128)"
  | .oddByte => Text.ofString "truncated data"
  | .loneHigh => Text.ofString "illegal UTF-16 surrogate"
  | .loneLow => Text.ofString "illegal encoding"

end Flaw

inductive Sighting where
  | char (code : CodePoint) (more : Nat)
  | flawed (more : Nat) (flaw : Flaw)
  /-- The bytes end before it is clear what they are. If none follow, the first byte and `more`
  bytes after it are no part of any character. -/
  | partway (more : Nat) (flaw : Flaw)
  deriving DecidableEq, Repr

namespace Utf8

def follow : (owed : Nat) → (low high : UInt8) → (code taken : Nat) → Bytes → Sighting
  | 0, _, _, code, taken, _ => .char code taken
  | _ + 1, _, _, _, taken, [] => .partway taken .cutShort
  | owed + 1, low, high, code, taken, b :: rest =>
    if low ≤ b && b ≤ high then
      follow owed 0x80 0xbf (code * 0x40 + (b.toNat - 0x80)) (taken + 1) rest
    else .flawed taken .badContinuation

def isCutSurrogate (b : UInt8) : Bytes → Bool
  | [c] => b == 0xed && 0xa0 ≤ c && c ≤ 0xbf
  | _ => false

/-- The bounds on the second byte exclude overlong forms, surrogates, and what lies beyond the last
code point. A surrogate's form that is cut short is not refused before it is clear what follows. -/
def sight (b : UInt8) (rest : Bytes) : Sighting :=
  if b < 0x80 then .char b.toNat 0
  else if b < 0xc2 then .flawed 0 .badStart
  else if b < 0xe0 then follow 1 0x80 0xbf (b.toNat - 0xc0) 0 rest
  else if isCutSurrogate b rest then .partway 0 .badContinuation
  else if b < 0xf0 then
    follow 2 (if b == 0xe0 then 0xa0 else 0x80) (if b == 0xed then 0x9f else 0xbf)
      (b.toNat - 0xe0) 0 rest
  else if b < 0xf5 then
    follow 3 (if b == 0xf0 then 0x90 else 0x80) (if b == 0xf4 then 0x8f else 0xbf)
      (b.toNat - 0xf0) 0 rest
  else .flawed 0 .badStart

end Utf8

namespace Utf16

def isHigh (u : Nat) : Bool := 0xd800 ≤ u && u < 0xdc00

def isLow (u : Nat) : Bool := 0xdc00 ≤ u && u < 0xe000

def pair (high low : Nat) : CodePoint := 0x10000 + (high - 0xd800) * 0x400 + (low - 0xdc00)

def sight (unit : UInt8 → UInt8 → Nat) (b : UInt8) : Bytes → Sighting
  | [] => .partway 0 .oddByte
  | c :: rest =>
    let u := unit b c
    if isLow u then .flawed 1 .loneLow
    else if isHigh u then
      match rest with
      | d :: e :: _ =>
        if isLow (unit d e) then .char (pair u (unit d e)) 3 else .flawed 1 .loneHigh
      | _ => .partway (1 + rest.length) .cutShort
    else .char u 1

def little (b c : UInt8) : Nat := b.toNat + c.toNat * 0x100

def big (b c : UInt8) : Nat := b.toNat * 0x100 + c.toNat

end Utf16

namespace Charset

def sight : Charset → (b : UInt8) → (rest : Bytes) → Sighting
  | .ascii, b, _ => if b < 0x80 then .char b.toNat 0 else .flawed 0 .notAscii
  | .latin1, b, _ => .char b.toNat 0
  | .utf8, b, rest | .utf8Marked, b, rest => Utf8.sight b rest
  | .utf16LE, b, rest => Utf16.sight Utf16.little b rest
  | .utf16BE, b, rest => Utf16.sight Utf16.big b rest

end Charset

end RuneMachine
