import RuneMachine.Fault.Basic
import RuneMachine.Value

namespace RuneMachine

inductive Foreign where
  | value (v : Value)
  | kind (name : Text)
  deriving Repr

namespace Foreign

def typeName : Foreign → Text
  | .value v => v.typeName
  | .kind _ => Text.ofString "type"

def same : Foreign → Foreign → Bool
  | .value v, .value w => v.same w
  | .kind m, .kind n => m == n
  | _, _ => false

end Foreign

inductive Policy (E : Type) where
  | stop
  | delegate (function : E)
  | substitute (rune : CodePoint)
  | unsupported (given : Foreign)
  deriving Repr

namespace Policy

variable {E : Type}

def substituting (rune : Value) : Except Fault (Policy E) :=
  match rune.codePoint? with
  | some c => .ok (.substitute c)
  | none =>
    .error (Fault.of .config
      (Text.ofString "Substitute rune must be a single code point, got " ++ rune.shown))

def refusal (given : Foreign) : Fault :=
  Fault.of .config
    (Text.ofString "Unexpected end-of-input policy type: " ++ given.typeName.quoted)

def typeName : Policy E → Text
  | .stop => Text.ofString "Stop"
  | .delegate _ => Text.ofString "Delegate"
  | .substitute _ => Text.ofString "Substitute"
  | .unsupported given => given.typeName

def shown? : Policy E → Option Text
  | .stop => some (Text.ofString "Stop()")
  | .substitute c =>
    some (Text.ofString "Substitute(rune=" ++ Text.quoted [c] ++ Text.ofString ")")
  | _ => none

def same [DecidableEq E] : Policy E → Policy E → Bool
  | .stop, .stop => true
  | .delegate e, .delegate f => e = f
  | .substitute c, .substitute d => c == d
  | .unsupported v, .unsupported w => v.same w
  | _, _ => false

end Policy

structure Config (Q E : Type) where
  initial : Option Q
  policy : Policy E
  deriving Repr

namespace Config

variable {Q E : Type}

def withPolicy (c : Config Q E) (policy : Policy E) : Config Q E := { c with policy := policy }

def same [DecidableEq Q] [DecidableEq E] (c d : Config Q E) : Bool :=
  c.initial = d.initial && c.policy.same d.policy

end Config

end RuneMachine
