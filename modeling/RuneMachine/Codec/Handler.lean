import RuneMachine.Text.Basic

namespace RuneMachine

inductive Handler where
  | strict | ignore | replace | backslash | escape
  | unknown (name : Text)
  deriving DecidableEq, Repr

inductive Remedy where
  | mended (text : Text) (more : Nat)
  | refused
  | unknown (name : Text)
  deriving DecidableEq, Repr

namespace Handler

/-- The handlers are these five. Any other name is unknown here, also if it is the name of a handler
elsewhere, which is noticed when the handler is first needed. -/
def ofName (name : Text) : Handler :=
  if name == Text.ofString "strict" then .strict
  else if name == Text.ofString "ignore" then .ignore
  else if name == Text.ofString "replace" then .replace
  else if name == Text.ofString "backslashreplace" then .backslash
  else if name == Text.ofString "surrogateescape" then .escape
  else .unknown name

def isNameable : Handler → Bool
  | .unknown name => !name.contains 0
  | _ => true

def escapeByte (b : UInt8) : CodePoint := 0xdc00 + b.toNat

def resolve (h : Handler) (b : UInt8) (more : Bytes) : Remedy :=
  match h with
  | .strict => .refused
  | .ignore => .mended [] more.length
  | .replace => .mended [0xfffd] more.length
  | .backslash =>
    .mended ((b :: more).flatMap fun c => Text.ofString "\\x" ++ Text.hex 2 c.toNat) more.length
  | .escape =>
    if 0x80 ≤ b then
      let high := more.takeWhile fun c => 0x80 ≤ c
      .mended (escapeByte b :: high.map escapeByte) high.length
    else .refused
  | .unknown name => .unknown name

end Handler

end RuneMachine
