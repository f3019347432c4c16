import RuneMachine.Fault.Basic
import RuneMachine.Source

namespace RuneMachine

inductive LogRecord where
  | readFault (offset : Int) (fault : Fault)
  | stopping (offset : Int)
  | delegating (offset : Int)
  | substituting (offset : Int) (rune : Rune)
  | latched (offset : Int) (fault : Option Fault)
  deriving DecidableEq, Repr

namespace LogRecord

def message : LogRecord → Text
  | .readFault n f =>
    Text.ofString "read fault at offset " ++ Text.ofInt n ++ Text.ofString ": " ++ f.shown
  | .stopping n => ending n (Text.ofString "stopping")
  | .delegating n => ending n (Text.ofString "delegating")
  | .substituting n u => ending n (Text.ofString "substituting " ++ u.quoted)
  | .latched n f =>
    Text.ofString "error latched at offset " ++ Text.ofInt n ++ Text.ofString ": " ++
      (f.map Fault.shown).getD Value.none.shown
where
  ending (n : Int) (what : Text) : Text :=
    Text.ofString "end of input at offset " ++ Text.ofInt n ++ Text.ofString ", " ++ what

end LogRecord

inductive Event (ν Q E : Type) where
  | pull (shape : Source.Shape)
  | call (state : Q) (rune : Rune)
  | callAtEnd (function : E)
  | note (entry : ν)
  | log (record : LogRecord)
  deriving Repr

end RuneMachine
