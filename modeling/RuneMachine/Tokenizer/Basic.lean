import RuneMachine.Codec.Encoding
import RuneMachine.Machine.Act
import RuneMachine.Machine.Policy
import RuneMachine.Tokenizer.Options

namespace RuneMachine

inductive Verdict (τ : Type) where
  | token (t : τ)
  | more
  | failed (f : Fault)
  deriving Repr

abbrev Mapper (μ τ : Type) := Bytes → μ → Verdict τ × μ

/-- The name of an encoding that is among the options means what the codecs make of it. -/
structure Tokenizer (μ τ : Type) where
  mapper : Mapper μ τ
  options : Options μ
  codecs : Codecs := .standard

namespace Tokenizer

inductive Mode where
  | skipping | matching
  deriving DecidableEq, Repr

structure Memory (μ τ : Type) where
  buffer : Bytes
  token : Option τ
  user : μ
  deriving Repr

inductive Note where
  | asked (rune : Rune)
  | mapped (buffer : Bytes)
  | rejected (buffer : Bytes) (message : Text)
  deriving DecidableEq, Repr

def rejection (buffer : Bytes) (message : Text) : Text :=
  Text.ofString "mapper rejected " ++ buffer.quoted ++ Text.ofString ": " ++ message

variable {μ τ : Type}

def Memory.new (user : μ) : Memory μ τ := ⟨[], none, user⟩

def skip (t : Tokenizer μ τ) (u : Rune) (m : Memory μ τ) :
    Act (Memory μ τ) Note (Option Mode) :=
  let answer :=
    match t.options.space.holds u m.user with
    | (.error f, user) => .raise { m with user := user } f
    | (.ok true, user) => .done { m with user := user } (some .skipping)
    | (.ok false, user) =>
      .unread u (.done { m with buffer := [], user := user } (some .matching))
  if t.options.space.isStandard then answer else .note (fun _ => .asked u) answer

def unencodable (encoding : Text) (u : Rune) : Fault :=
  { Fault.of .tokenize
      (Text.ofString "cannot encode " ++ u.quoted ++ Text.ofString " with " ++ encoding) with
    cause := some .unencodable }

def judge (t : Tokenizer μ τ) (m : Memory μ τ) : Act (Memory μ τ) Note (Option Mode) :=
  .note (fun _ => .mapped m.buffer) <|
    match t.mapper m.buffer m.user with
    | (.token token, user) => .done { m with token := some token, user := user } none
    | (.more, user) => .done { m with user := user } (some .matching)
    | (.failed f, user) =>
      let m := { m with user := user }
      if f.kind.isApplication then
        .note (fun l => .rejected m.buffer (f.text (f.offsetIn l))) <|
          .setError m (some f) (.done m none)
      else .raise m f

def write (t : Tokenizer μ τ) (u : Rune) : Writing := t.codecs t.options.encoding u

/-- Adds a rune to the buffer, and then judges it. A rune without an encoding is an error of the
token; whatever else the encoding raises is not. -/
def extend (t : Tokenizer μ τ) (u : Rune) (m : Memory μ τ) :
    Act (Memory μ τ) Note (Option Mode) :=
  match t.write u with
  | .bytes b => t.judge { m with buffer := m.buffer ++ b }
  | .refused => .setError m (some (unencodable t.options.encoding u)) (.done m none)
  | .raised f => .raise m f

def automaton (t : Tokenizer μ τ) : Automaton (Memory μ τ) Note Mode Empty where
  step
    | .skipping, u, m => t.skip u m
    | .matching, u, m => t.extend u m
  atEnd e := nomatch e

def config (t : Tokenizer μ τ) : Config Mode Empty :=
  ⟨some .skipping, .substitute t.options.sentinel⟩

end Tokenizer

end RuneMachine
