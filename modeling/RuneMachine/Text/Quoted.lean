import RuneMachine.Text.Unprintable

namespace RuneMachine

def quoteMark (t : List Nat) : CodePoint :=
  if t.contains 0x27 && !t.contains 0x22 then 0x22 else 0x27

def commonEscape (mark c : Nat) : Option Text :=
  if c == mark || c == 0x5c then some [0x5c, c]
  else if c == 0x0a then some (Text.ofString "\\n")
  else if c == 0x0d then some (Text.ofString "\\r")
  else if c == 0x09 then some (Text.ofString "\\t")
  else none

namespace CodePoint

def escaped (mark c : CodePoint) : Text :=
  match commonEscape mark c with
  | some t => t
  | none =>
    if c.isPrintable then [c]
    else if c < 0x100 then Text.ofString "\\x" ++ Text.hex 2 c
    else if c < 0x10000 then Text.ofString "\\u" ++ Text.hex 4 c
    else Text.ofString "\\U" ++ Text.hex 8 c

end CodePoint

namespace Text

def quoted (t : Text) : Text :=
  let mark := quoteMark t
  mark :: t.flatMap (CodePoint.escaped mark) ++ [mark]

end Text

namespace Bytes

def escapedByte (mark b : Nat) : Text :=
  match commonEscape mark b with
  | some t => t
  | none => if 0x20 ≤ b && b ≤ 0x7e then [b] else Text.ofString "\\x" ++ Text.hex 2 b

def quoted (bs : Bytes) : Text :=
  let codes := bs.map UInt8.toNat
  let mark := quoteMark codes
  'b'.toNat :: mark :: codes.flatMap (escapedByte mark) ++ [mark]

end Bytes

end RuneMachine
