import RuneMachine.Rules.Program
import RuneMachine.Scanner

namespace RuneMachine.Rules

structure Station where
  machine : Nat
  tokenizer : Nat
  deriving Repr

structure Workshop where
  program : Program
  bench : Bench Store State Nat
  controllers : List (Nat × Nat)
  iterations : Array (Station × Iteration)

abbrev Happening := Event Note State Nat

namespace Workshop

def empty : Workshop := ⟨.empty, .empty .empty, [], #[]⟩

def turnLimit : Nat := 0x1000000000000000

def addAutomaton (w : Workshop) (table : StateTable) : Nat × Workshop :=
  let memory := w.bench.memory
  (w.program.automata.size,
    { w with
      program := w.program.addAutomaton table
      bench := { w.bench with memory := { memory with kept := memory.kept.push [] } } })

def addEndFunction (w : Workshop) (function : EndFunction) : Nat × Workshop :=
  let memory := w.bench.memory
  (w.program.endFunctions.size,
    { w with
      program := w.program.addEndFunction function
      bench := { w.bench with memory := { memory with calls := memory.calls.push 0 } } })

def addTokenizer (w : Workshop) (tokenizer : Tokenizer Unit Value) : Nat × Workshop :=
  let memory := w.bench.memory
  (w.program.tokenizers.size,
    { w with
      program := w.program.addTokenizer tokenizer
      bench :=
        { w.bench with memory := { memory with tokenizers := memory.tokenizers.push (.new ()) } } })

def publish (w : Workshop) (name : Text) (t : Nat) : Workshop :=
  { w with program := w.program.publish name t }

def addReader (w : Workshop) (reader : Reader) : Nat × Workshop :=
  (w.bench.readers.length, { w with bench := w.bench.addReader reader })

def addMachine (w : Workshop) (config : Config State Nat) (reader : Nat) : Nat × Workshop :=
  (w.bench.machines.length, { w with bench := w.bench.addMachine config reader })

def tokenizerConfig (w : Workshop) (t : Nat) : Option (Config State Nat) :=
  w.program.tokenizers[t]?.map (Program.tokenizerConfig t)

def addStation (w : Workshop) (tokenizer : Tokenizer Unit Value) (reader : Nat) :
    Station × Workshop :=
  let (t, w) := w.addTokenizer tokenizer
  let (m, w) := w.addMachine (Program.tokenizerConfig t tokenizer) reader
  (⟨m, t⟩, w)

def addIteration (w : Workshop) (s : Station) : Nat × Workshop :=
  (w.iterations.size, { w with iterations := w.iterations.push (s, .start) })

def automatonCalled (w : Workshop) : Happening → Option Nat
  | .call (.rule automaton _) _ => some automaton
  | .callAtEnd e => w.program.endFunctions[e]?.map (·.automaton)
  | _ => none

def run (w : Workshop) (m : Nat) : Option (Outcome × List Happening × Workshop) := do
  let (outcome, events, bench) ← w.bench.run w.program.automaton turnLimit m
  let called := (events.filterMap w.automatonCalled).eraseDups.map (·, m)
  return (outcome, events, { w with bench := bench, controllers := called ++ w.controllers })

def control (w : Workshop) (automaton : Nat) (action : Action) :
    Option (Except Fault Unit × List Happening × Workshop) := do
  let act := Program.act automaton action w.bench.memory
  match w.controllers.lookup automaton with
  | some m =>
    let (result, events, bench) ← w.bench.control m act
    return (result, events, { w with bench := bench })
  | none =>
    let (result, notes, memory) ← act.alone? w.bench.located
    return (result, notes.map .note, { w with bench := { w.bench with memory := memory } })

def token (w : Workshop) (t : Nat) : Option Value := w.bench.memory.token t

def next (w : Workshop) (i : Nat) : Option (Draw Value × List Happening × Workshop) := do
  let (s, iteration) ← w.iterations[i]?
  if iteration.isOver then return (.finished, [], w)
  let (outcome, events, w) ← w.run s.machine
  let (error, _) ← w.bench.report s.machine
  let d := Draw.ofPass outcome error (w.token s.tokenizer)
  return (d, events, { w with iterations := w.iterations.setIfInBounds i (s, .after d) })

def read (w : Workshop) (r : Nat) :
    Option (Except Fault Rune × List Happening × Workshop) := do
  let reader ← w.bench.readers[r]?
  let (result, pulls, bench) ← w.bench.read r
  return (result, List.replicate pulls (.pull reader.source.shape), { w with bench := bench })

def unread (w : Workshop) (r : Nat) (u : Rune) : Option Workshop := do
  return { w with bench := ← w.bench.unread r u }

end Workshop

end RuneMachine.Rules
