import RuneMachine.Codec.Sighting
import RuneMachine.Text.Quoted

namespace RuneMachine

structure Undecodable where
  charset : Charset
  data : Bytes
  start : Nat
  stop : Nat
  flaw : Flaw
  deriving DecidableEq, Repr

namespace Undecodable

def message (p : Undecodable) : Text :=
  let place :=
    if p.stop == p.start + 1 then
      Text.ofString "byte 0x" ++ Text.hex 2 (p.data.getD p.start 0).toNat ++
        Text.ofString " in position " ++ Text.ofNat p.start
    else
      Text.ofString "bytes in position " ++ Text.ofNat p.start ++ Text.ofString "-" ++
        Text.ofNat (p.stop - 1)
  p.charset.label.quoted ++ Text.ofString " codec can't decode " ++ place ++
    Text.ofString ": " ++ p.flaw.reason

def arguments (p : Undecodable) : Text :=
  p.charset.label.quoted ++ Text.ofString ", " ++ Bytes.quoted p.data ++ Text.ofString ", " ++
    Text.ofNat p.start ++ Text.ofString ", " ++ Text.ofNat p.stop ++ Text.ofString ", " ++
    p.flaw.reason.quoted

end Undecodable

namespace Fault

inductive Kind where
  | general
  | tokenize
  | config
  | endOfInput
  | endOfFile
  | system
  | blocking
  | value
  | runtime
  | stopIteration
  | interrupt
  | type
  | lookup
  | undecodable (problem : Undecodable)
  | unencodable
  | unicode
  deriving DecidableEq, Repr

namespace Kind

def name : Kind → Text
  | .general => Text.ofString "RuneflowError"
  | .tokenize => Text.ofString "TokenizeError"
  | .config => Text.ofString "MachineConfigError"
  | .endOfInput => Text.ofString "EndOfInput"
  | .endOfFile => Text.ofString "EOFError"
  | .system => Text.ofString "OSError"
  | .blocking => Text.ofString "BlockingIOError"
  | .value => Text.ofString "ValueError"
  | .runtime => Text.ofString "RuntimeError"
  | .stopIteration => Text.ofString "StopIteration"
  | .interrupt => Text.ofString "KeyboardInterrupt"
  | .type => Text.ofString "TypeError"
  | .lookup => Text.ofString "LookupError"
  | .undecodable _ => Text.ofString "UnicodeDecodeError"
  | .unencodable => Text.ofString "UnicodeEncodeError"
  | .unicode => Text.ofString "UnicodeError"

def isApplication : Kind → Bool
  | .general | .tokenize | .config => true
  | _ => false

def isClean (k : Kind) : Bool := k == .endOfInput

def isEndOfFile : Kind → Bool
  | .endOfInput | .endOfFile => true
  | _ => false

def isCatchable (k : Kind) : Bool := k != .interrupt

end Kind

end Fault

/-- A fault. One that can be raised again and again carries an `identity`; faults without one are
made on the spot, and each is held in one place only. -/
structure Fault where
  kind : Fault.Kind
  message : Option Text
  offset : Option Int
  identity : Option Nat
  cause : Option Fault.Kind
  deriving DecidableEq, Repr

namespace Fault

def bare (kind : Kind) : Fault := ⟨kind, none, none, none, none⟩

def of (kind : Kind) (message : Text) : Fault := ⟨kind, some message, none, none, none⟩

def endOfInput : Fault := of .endOfInput (Text.ofString "end of input")

def nullInName : Fault := of .value (Text.ofString "embedded null character")

def unknownEncoding (name : Text) : Fault :=
  if name.contains 0 then nullInName
  else of .lookup (Text.ofString "unknown encoding: " ++ name)

def undefinedEncoding (name : Text) : Fault :=
  { of .unicode
      (Text.ofString "encoding with '" ++ name ++
        Text.ofString "' codec failed (UnicodeError: undefined encoding)") with
    cause := some .unicode }

def unknownHandler (name : Text) : Fault :=
  of .lookup
    (Text.ofString "unknown error handler name '" ++ name.clipped 400 ++ Text.ofString "'")

def make (kind : Kind) (message : Option Text) (offset : Option Int) : Except Fault Fault :=
  match kind, message with
  | .endOfInput, none => .ok endOfInput
  | .tokenize, none => .error (bare .type)
  | .tokenize, some m => .ok { of .tokenize m with offset := offset }
  | kind, message => .ok { bare kind with message := message }

def isClean (f : Fault) : Bool := f.kind.isClean

def bareText (f : Fault) : Text :=
  match f.kind with
  | .undecodable p => p.message
  | _ => f.message.getD []

def text (f : Fault) (offset : Option Int) : Text :=
  match f.kind, offset with
  | .tokenize, some n =>
    Text.ofString "offset " ++ Text.ofInt n ++ Text.ofString ": " ++ f.bareText
  | _, _ => f.bareText

def shown (f : Fault) : Text :=
  let arguments :=
    match f.kind with
    | .undecodable p => p.arguments
    | _ => (f.message.map Text.quoted).getD []
  f.kind.name ++ Text.ofString "(" ++ arguments ++ Text.ofString ")"

end Fault

end RuneMachine
