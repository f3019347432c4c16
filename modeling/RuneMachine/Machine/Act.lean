import RuneMachine.Fault.Location

/-! What a user function does when it is called. A function may push runes back, latch an error,
leave notes for its owner, and finally return or raise; it has no other hold on the machine. -/

namespace RuneMachine

inductive Act (σ ν α : Type) where
  | done (memory : σ) (result : α)
  | raise (memory : σ) (fault : Fault)
  | unread (rune : Rune) (next : Act σ ν α)
  /-- Latches a fault, or clears the latch. What comes next may depend on whether that was refused,
  and with which fault, and else on the place that the fault has from then on. -/
  | latch (fault : Option Fault) (next : Except Fault (Option Int) → Act σ ν α)
  | note (entry : Locations → ν) (next : Act σ ν α)

namespace Act

variable {σ σ' ν ν' α β : Type}

def setError (memory : σ) (fault : Option Fault) (next : Act σ ν α) : Act σ ν α :=
  .latch fault fun
    | .ok _ => next
    | .error refusal => .raise memory refusal

def map (memory : σ → σ') (entry : ν → ν') (result : α → β) : Act σ ν α → Act σ' ν' β
  | .done m a => .done (memory m) (result a)
  | .raise m f => .raise (memory m) f
  | .unread u next => .unread u (next.map memory entry result)
  | .latch f next => .latch f fun answer => (next answer).map memory entry result
  | .note e next => .note (fun l => entry (e l)) (next.map memory entry result)

def alone? (l : Locations) : Act σ ν α → Option (Except Fault α × List ν × σ)
  | .done m a => some (.ok a, [], m)
  | .raise m f => some (.error f, [], m)
  | .note e next =>
    match next.alone? l with
    | some (result, notes, m) => some (result, e l :: notes, m)
    | none => none
  | .unread _ _ | .latch _ _ => none

end Act

/-- State functions and end-of-input functions. A state is called with a rune and returns the next
state, or none to end the pass; an end-of-input function is called without a rune. -/
structure Automaton (σ ν Q E : Type) where
  step : Q → Rune → σ → Act σ ν (Option Q)
  atEnd : E → σ → Act σ ν (Option Q)

end RuneMachine
