import RuneMachine.Machine.Policy
import RuneMachine.Machine.World

namespace RuneMachine

/-- How a pass ended. It is unfinished if the number of turns it was allowed did not suffice. -/
inductive Outcome where
  | returned (success : Bool)
  | raised (fault : Fault)
  | unfinished
  deriving DecidableEq, Repr

inductive Turn (Q : Type) where
  | next (state : Option Q)
  | over (outcome : Outcome)
  deriving Repr

namespace World

variable {σ ν Q E : Type}

def deliver (A : Automaton σ ν Q E) (q : Q) (u : Rune) (w : World σ ν Q E) :
    Turn Q × World σ ν Q E :=
  match (w.record (.call q u)).perform (A.step q u w.memory) with
  | (.error f, w) => (.over (.raised f), w)
  | (.ok next, w) =>
    if w.latch.isFailed then (.over (.returned false), w) else (.next next, w)

def consult (A : Automaton σ ν Q E) (e : E) (w : World σ ν Q E) : Turn Q × World σ ν Q E :=
  match (w.record (.callAtEnd e)).perform (A.atEnd e w.memory) with
  | (.error f, w) => (.over (.raised f), w)
  | (.ok none, w) => (.over (.returned false), w)
  | (.ok (some q), w) =>
    if w.latch.isFailed then (.over (.returned false), w) else (.next (some q), w)

/-- The input has ended while `q` was to be called. The policy decides, unless a rune was
substituted for the end before. -/
def meetEnd (A : Automaton σ ν Q E) (policy : Policy E) (q : Q) (w : World σ ν Q E) :
    Turn Q × World σ ν Q E :=
  match w.latch, policy with
  | .empty, .stop => (.over (.returned false), w.log (.stopping w.offset))
  | .empty, .delegate e => (w.log (.delegating w.offset)).consult A e
  | .empty, .substitute c =>
    ({ w with latch := .ended }.log (.substituting w.offset [c])).deliver A q [c]
  | .empty, .unsupported given => (.over (.raised (Policy.refusal given)), w)
  | _, _ => (.over (.returned false), w)

def latchFault (f : Fault) (w : World σ ν Q E) : World σ ν Q E :=
  { w with latch := .failed f }.log (.readFault w.offset f)

def turn (A : Automaton σ ν Q E) (policy : Policy E) (q : Q) (w : World σ ν Q E) :
    Turn Q × World σ ν Q E :=
  match w.read with
  | (.ok u, w) => w.deliver A q u
  | (.error f, w) =>
    if f.isClean then w.meetEnd A policy q
    else if f.kind.isCatchable then (.over (.returned false), w.latchFault f)
    else (.over (.raised f), w)

def proceed (A : Automaton σ ν Q E) (policy : Policy E) :
    (turns : Nat) → Option Q → World σ ν Q E → Outcome × World σ ν Q E
  | _, none, w => (.returned true, w)
  | 0, some _, w => (.unfinished, w)
  | turns + 1, some q, w =>
    match w.turn A policy q with
    | (.next state, w) => proceed A policy turns state w
    | (.over outcome, w) => (outcome, w)

def pass (A : Automaton σ ν Q E) (config : Config Q E) (turns : Nat) (w : World σ ν Q E) :
    Outcome × World σ ν Q E :=
  if w.latch.isFailed then (.returned false, w)
  else w.proceed A config.policy turns config.initial

end World

end RuneMachine
