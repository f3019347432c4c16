namespace RuneMachine

abbrev CodePoint := Nat

abbrev Text := List CodePoint

/-- One unit of input. A unit that comes from a source is one code point; a unit that was pushed
back may be any text. -/
abbrev Rune := Text

abbrev Bytes := List UInt8

namespace CodePoint

def isSurrogate (c : CodePoint) : Bool := 0xd800 ≤ c && c ≤ 0xdfff

def utf8Size (c : CodePoint) : Nat :=
  if c < 0x80 then 1 else if c < 0x800 then 2 else if c < 0x10000 then 3 else 4

end CodePoint

namespace Text

def ofString (s : String) : Text := s.toList.map Char.toNat

def ofNat (n : Nat) : Text := (Nat.toDigits 10 n).map Char.toNat

def ofInt : Int → Text
  | .ofNat n => ofNat n
  | .negSucc n => '-'.toNat :: ofNat (n + 1)

def hex (width n : Nat) : Text :=
  let digits := (Nat.toDigits 16 n).map Char.toNat
  List.replicate (width - digits.length) '0'.toNat ++ digits

def clipped : (size : Nat) → Text → Text
  | _, [] => []
  | size, c :: cs =>
    if c.utf8Size ≤ size then c :: clipped (size - c.utf8Size) cs
    else if size = 0 then [] else [0xfffd]

end Text

end RuneMachine
