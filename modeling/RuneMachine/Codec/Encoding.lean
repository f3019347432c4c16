import RuneMachine.Fault.Basic

namespace RuneMachine

inductive Encoding where
  | plain (charset : Charset)
  | utf16Marked
  | utf32LE
  deriving DecidableEq, Repr

namespace Encoding

def names : List (String × Encoding) := [("utf_16", .utf16Marked), ("utf_32_le", .utf32LE)]

def aliases : List (String × Encoding) :=
  [("utf16", .utf16Marked), ("u16", .utf16Marked), ("utf_32le", .utf32LE)]

/-- Two more encodings can be written. Again, any other name is unknown here. -/
def ofName? (name : Text) : Option Encoding :=
  match Charset.ofName? name with
  | some charset => some (.plain charset)
  | none => Charset.lookup names aliases name

def mark : Encoding → Bytes
  | .plain .utf8Marked => utf8Mark
  | .utf16Marked => [0xff, 0xfe]
  | _ => []

def byte (n : Nat) : UInt8 := UInt8.ofNat n

def utf8 (c : CodePoint) : Bytes :=
  if c < 0x80 then [byte c]
  else if c < 0x800 then [byte (0xc0 + c / 0x40), byte (0x80 + c % 0x40)]
  else if c < 0x10000 then
    [byte (0xe0 + c / 0x1000), byte (0x80 + c / 0x40 % 0x40), byte (0x80 + c % 0x40)]
  else
    [byte (0xf0 + c / 0x40000), byte (0x80 + c / 0x1000 % 0x40), byte (0x80 + c / 0x40 % 0x40),
      byte (0x80 + c % 0x40)]

def utf16 (unit : Nat → Bytes) (c : CodePoint) : Bytes :=
  if c < 0x10000 then unit c
  else unit (0xd800 + (c - 0x10000) / 0x400) ++ unit (0xdc00 + (c - 0x10000) % 0x400)

def little (u : Nat) : Bytes := [byte (u % 0x100), byte (u / 0x100)]

def big (u : Nat) : Bytes := [byte (u / 0x100), byte (u % 0x100)]

def covers (e : Encoding) (c : CodePoint) : Bool :=
  match e with
  | .plain .ascii => c < 0x80
  | .plain .latin1 => c < 0x100
  | _ => c < 0x110000 && !c.isSurrogate

def encodePoint (e : Encoding) (c : CodePoint) : Bytes :=
  match e with
  | .plain .ascii | .plain .latin1 => [byte c]
  | .plain .utf8 | .plain .utf8Marked => utf8 c
  | .plain .utf16LE | .utf16Marked => utf16 little c
  | .plain .utf16BE => utf16 big c
  | .utf32LE => little (c % 0x10000) ++ little (c / 0x10000)

def encode? (e : Encoding) (t : Text) : Option Bytes :=
  if t.all e.covers then some (e.mark ++ t.flatMap e.encodePoint) else none

end Encoding

/-- What comes of a rune that is to be written as bytes: it is written, it is refused for want of an
encoding, or anything else is raised. -/
inductive Writing where
  | bytes (b : Bytes)
  | refused
  | raised (f : Fault)
  deriving DecidableEq, Repr

namespace Writing

def bytes? : Writing → Option Bytes
  | .bytes b => some b
  | _ => none

end Writing

abbrev Codecs := Text → Rune → Writing

namespace Encoding

def write (e : Encoding) (u : Rune) : Writing :=
  match e.encode? u with
  | some b => .bytes b
  | none => .refused

theorem bytes?_write (e : Encoding) (u : Rune) : (e.write u).bytes? = e.encode? u := by
  unfold write
  cases e.encode? u <;> rfl

theorem write_ne_raised (e : Encoding) (u : Rune) (f : Fault) : e.write u ≠ .raised f := by
  unfold write
  cases e.encode? u <;> simp

end Encoding

namespace Codecs

def isUndefined (name : Text) : Bool := (Charset.lookup [("undefined", ())] [] name).isSome

/-- The codecs of this library, for which all encodings are unknown but those of `Encoding.ofName?`
and the one that has no code points. Others can be put in their place. -/
def standard : Codecs := fun name u =>
  match Encoding.ofName? name with
  | some e => e.write u
  | none =>
    .raised (if isUndefined name then Fault.undefinedEncoding name else Fault.unknownEncoding name)

theorem standard_of_ofName? {name : Text} {e : Encoding} (h : Encoding.ofName? name = some e) :
    standard name = e.write := by
  funext u
  simp only [standard, h]

end Codecs

end RuneMachine
