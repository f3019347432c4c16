import RuneMachine.Machine.Pass
import RuneMachine.Tokenizer.Basic

namespace RuneMachine

inductive Draw (τ : Type) where
  | token (t : τ)
  | finished
  | failed (f : Fault)
  deriving Repr

namespace Fault

/-- The signal to stop cannot leave an iteration as what it is, where it would be taken for the
regular end. -/
def outOfIteration (f : Fault) : Fault :=
  if f.kind = .stopIteration then
    { Fault.of .runtime (Text.ofString "generator raised StopIteration") with
      cause := some .stopIteration }
  else f

end Fault

namespace Draw

variable {τ : Type}

def ofPass (outcome : Outcome) (error : Option Fault) (token : Option τ) : Draw τ :=
  match outcome, error, token with
  | .returned true, _, some t => .token t
  | .returned true, _, none => .finished
  | .returned false, some f, _ => .failed f.outOfIteration
  | .returned false, none, _ => .finished
  | .raised f, _, _ => .failed f.outOfIteration
  | .unfinished, _, _ => .finished

def isToken : Draw τ → Bool
  | .token _ => true
  | _ => false

end Draw

structure Iteration where
  isOver : Bool
  deriving DecidableEq, Repr

namespace Iteration

variable {τ : Type}

def start : Iteration := ⟨false⟩

def after (d : Draw τ) : Iteration := ⟨!d.isToken⟩

end Iteration

structure Scanner (μ τ : Type) where
  tokenizer : Tokenizer μ τ
  world : World (Tokenizer.Memory μ τ) Tokenizer.Note Tokenizer.Mode Empty

namespace Scanner

variable {μ τ : Type}

def new (tokenizer : Tokenizer μ τ) (reader : Reader) (user : μ) : Scanner μ τ :=
  ⟨tokenizer, ⟨reader, .empty, .new user, [], []⟩⟩

def token (s : Scanner μ τ) : Option τ := s.world.memory.token

def error (s : Scanner μ τ) : Option Fault := s.world.latch.fault?

def offset (s : Scanner μ τ) : Int := s.world.offset

/-- More turns than a pass can take: one for each rune, and a few for the rune that is read twice,
the sentinel and the end. -/
def turnBound (s : Scanner μ τ) : Nat := s.world.reader.bound + 4

def scan (s : Scanner μ τ) : Outcome × Scanner μ τ :=
  match s.world.pass s.tokenizer.automaton s.tokenizer.config s.turnBound with
  | (outcome, world) => (outcome, { s with world := world })

def draw (s : Scanner μ τ) : Draw τ × Scanner μ τ :=
  match s.scan with
  | (outcome, s) => (Draw.ofPass outcome s.error s.token, s)

def next (s : Scanner μ τ) (i : Iteration) : Draw τ × Iteration × Scanner μ τ :=
  if i.isOver then (.finished, i, s)
  else
    match s.draw with
    | (d, s) => (d, .after d, s)

def collect : (draws : Nat) → Scanner μ τ → List τ × Option Fault × Scanner μ τ
  | 0, s => ([], none, s)
  | draws + 1, s =>
    match s.draw with
    | (.token t, s) =>
      match collect draws s with
      | (tokens, result) => (t :: tokens, result)
    | (.finished, s) => ([], none, s)
    | (.failed f, s) => ([], some f, s)

def tokens (s : Scanner μ τ) : List τ × Option Fault × Scanner μ τ :=
  s.collect (s.world.reader.bound + 2)

end Scanner

end RuneMachine
