import RuneMachine.Fault.Basic
import RuneMachine.Text.Space
import RuneMachine.Value

namespace RuneMachine

inductive SpaceTest (μ : Type) where
  | standard
  | custom (test : Rune → μ → Except Fault Bool × μ)

namespace SpaceTest

variable {μ : Type}

def isStandard : SpaceTest μ → Bool
  | .standard => true
  | .custom _ => false

def holds : SpaceTest μ → Rune → μ → Except Fault Bool × μ
  | .standard, u, user => (.ok u.isSpace, user)
  | .custom test, u, user => test u user

end SpaceTest

structure Options (μ : Type) where
  sentinel : CodePoint
  encoding : Text
  space : SpaceTest μ

inductive Setting (μ : Type) where
  | sentinel (given : Value)
  | encoding (name : Text)
  | space (test : SpaceTest μ)
  | unknown (key : Text)

namespace Setting

variable {μ : Type}

def isUnknown : Setting μ → Bool
  | .unknown _ => true
  | _ => false

end Setting

namespace Options

variable {μ : Type}

def default : Options μ := ⟨0x0a, Text.ofString "utf-8", .standard⟩

def put (o : Options μ) : Setting μ → Except Fault (Options μ)
  | .sentinel given =>
    match given.codePoint? with
    | some c => .ok { o with sentinel := c }
    | none =>
      .error (Fault.of .config
        (Text.ofString "eof_rune must be a single code point, got " ++ given.shown))
  | .encoding name => .ok { o with encoding := name }
  | .space test => .ok { o with space := test }
  | .unknown _ => .ok o

def ofSettings (settings : List (Setting μ)) : Except Fault (Options μ) :=
  settings.foldlM put default

def ofKnownSettings (settings : List (Setting μ)) : Except Fault (Options μ) :=
  if settings.any Setting.isUnknown then .error (Fault.bare .type) else ofSettings settings

def same (o p : Options μ) : Bool :=
  o.sentinel == p.sentinel && o.encoding == p.encoding && o.space.isStandard &&
    p.space.isStandard

end Options

end RuneMachine
