import RuneMachine.Machine.Pass

namespace RuneMachine

structure Machine (Q E : Type) where
  config : Config Q E
  reader : Nat
  latch : Latch

structure Bench (σ Q E : Type) where
  readers : List Reader
  machines : List (Machine Q E)
  memory : σ
  located : Locations

namespace Bench

variable {σ ν Q E α : Type}

def empty (memory : σ) : Bench σ Q E := ⟨[], [], memory, []⟩

def addReader (b : Bench σ Q E) (r : Reader) : Bench σ Q E :=
  { b with readers := b.readers ++ [r] }

def addMachine (b : Bench σ Q E) (config : Config Q E) (reader : Nat) : Bench σ Q E :=
  { b with machines := b.machines ++ [⟨config, reader, .empty⟩] }

def enter (b : Bench σ Q E) (m : Nat) : Option (World σ ν Q E) := do
  let machine ← b.machines[m]?
  let reader ← b.readers[machine.reader]?
  return ⟨reader, machine.latch, b.memory, b.located, []⟩

def leave (b : Bench σ Q E) (m : Nat) (w : World σ ν Q E) : Bench σ Q E :=
  match b.machines[m]? with
  | none => b
  | some machine =>
    { readers := b.readers.set machine.reader w.reader
      machines := b.machines.set m { machine with latch := w.latch }
      memory := w.memory
      located := w.located }

def operate (b : Bench σ Q E) (m : Nat) (work : World σ ν Q E → α × World σ ν Q E) :
    Option (α × List (Event ν Q E) × Bench σ Q E) := do
  let w ← b.enter m
  let (result, w) := work w
  return (result, w.journal.reverse, b.leave m w)

def run (A : Automaton σ ν Q E) (turns : Nat) (b : Bench σ Q E) (m : Nat) :
    Option (Outcome × List (Event ν Q E) × Bench σ Q E) := do
  let machine ← b.machines[m]?
  b.operate m (World.pass A machine.config turns)

def control (b : Bench σ Q E) (m : Nat) (act : Act σ ν α) :
    Option (Except Fault α × List (Event ν Q E) × Bench σ Q E) :=
  b.operate m (World.perform act)

def read (b : Bench σ Q E) (r : Nat) : Option (Except Fault Rune × Nat × Bench σ Q E) := do
  let before ← b.readers[r]?
  let (result, after) := before.read
  return (result, after.source.calls - before.source.calls,
    { b with readers := b.readers.set r after })

def unread (b : Bench σ Q E) (r : Nat) (u : Rune) : Option (Bench σ Q E) := do
  let before ← b.readers[r]?
  return { b with readers := b.readers.set r (before.unread u) }

def report (b : Bench σ Q E) (m : Nat) : Option (Option Fault × Int) := do
  let machine ← b.machines[m]?
  let reader ← b.readers[machine.reader]?
  return (machine.latch.fault?, reader.offset)

end Bench

end RuneMachine
