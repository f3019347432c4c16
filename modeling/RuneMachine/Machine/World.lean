import RuneMachine.Machine.Act
import RuneMachine.Machine.Journal
import RuneMachine.Reader

namespace RuneMachine

inductive Latch where
  | empty
  /-- The end of input was met once and a rune was substituted for it. -/
  | ended
  | failed (fault : Fault)
  deriving DecidableEq, Repr

namespace Latch

def fault? : Latch → Option Fault
  | .failed f => some f
  | _ => none

def isFailed (l : Latch) : Bool := l.fault?.isSome

end Latch

/-- The journal has the latest event first. -/
structure World (σ ν Q E : Type) where
  reader : Reader
  latch : Latch
  memory : σ
  located : Locations
  journal : List (Event ν Q E)

namespace World

variable {σ ν Q E α : Type}

def record (w : World σ ν Q E) (event : Event ν Q E) : World σ ν Q E :=
  { w with journal := event :: w.journal }

def log (w : World σ ν Q E) (record : LogRecord) : World σ ν Q E := w.record (.log record)

def offset (w : World σ ν Q E) : Int := w.reader.offset

def read (w : World σ ν Q E) : Except Fault Rune × World σ ν Q E :=
  match w.reader.read with
  | (result, reader) =>
    let pulls := reader.source.calls - w.reader.source.calls
    (result,
      { w with
        reader := reader
        journal := List.replicate pulls (.pull reader.source.shape) ++ w.journal })

def unread (w : World σ ν Q E) (u : Rune) : World σ ν Q E :=
  { w with reader := w.reader.unread u }

def refusal : Fault :=
  Fault.of .config (Text.ofString "End-of-input cannot be latched as an error")

/-- Latches a fault, with its place if it has none yet, or clears the latch. The answer is the place
that the fault has then. A refusal changes nothing. -/
def setError (w : World σ ν Q E) : Option Fault → Except Fault (Option Int) × World σ ν Q E
  | none => (.ok none, { w with latch := .empty }.log (.latched w.offset none))
  | some f =>
    if f.isClean then (.error refusal, w)
    else
      match f.locate w.offset w.located with
      | (f, located) =>
        (.ok (f.offsetIn located),
          { w with latch := .failed f, located := located }.log (.latched w.offset (some f)))

def perform : Act σ ν α → World σ ν Q E → Except Fault α × World σ ν Q E
  | .done m a, w => (.ok a, { w with memory := m })
  | .raise m f, w => (.error f, { w with memory := m })
  | .unread u next, w => perform next (w.unread u)
  | .latch f next, w =>
    match w.setError f with
    | (answer, w) => perform (next answer) w
  | .note e next, w => perform next (w.record (.note (e w.located)))

end World

end RuneMachine
