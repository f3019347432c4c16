import RuneMachine.Text.Basic

namespace RuneMachine

namespace CodePoint

/-- White space of the Unicode bidirectional classes WS, B and S, or of category Zs. -/
def isSpace (c : CodePoint) : Bool :=
  (0x09 ≤ c && c ≤ 0x0d) || (0x1c ≤ c && c ≤ 0x20) || c == 0x85 || c == 0xa0 || c == 0x1680 ||
    (0x2000 ≤ c && c ≤ 0x200a) || c == 0x2028 || c == 0x2029 || c == 0x202f || c == 0x205f ||
    c == 0x3000

end CodePoint

namespace Text

def isSpace (t : Text) : Bool := !t.isEmpty && t.all CodePoint.isSpace

@[simp] theorem isSpace_singleton (c : CodePoint) : isSpace [c] = c.isSpace := by
  simp [isSpace]

end Text

def isSpaceByte (b : UInt8) : Bool := (0x09 ≤ b && b ≤ 0x0d) || b == 0x20

end RuneMachine
