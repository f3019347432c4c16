import RuneMachine.Machine.Bench
import RuneMachine.Rules.Mapper

namespace RuneMachine.Rules

inductive RuneTest where
  | any
  | space
  | within (t : Text)
  | outside (t : Text)
  | equals (t : Text)
  | kept (n : Nat)
  deriving Repr

namespace RuneTest

def isOneOf (t : Text) : Rune → Bool
  | [c] => t.contains c
  | _ => false

def holds (u : Rune) (kept : List Rune) : RuneTest → Bool
  | .any => true
  | .space => u.isSpace
  | .within t => isOneOf t u
  | .outside t => !isOneOf t u
  | .equals t => u == t
  | .kept n => kept.length == n

end RuneTest

inductive Action where
  | unread
  | unreadText (t : Text)
  | latch (f : Option Fault)
  | raise (f : Fault)
  | keep
  | emit
  | drop
  deriving Repr

inductive Target where
  | stop
  | state (name : Text)
  | tokenizer (name : Text) (mode : Tokenizer.Mode)
  deriving Repr

structure StateRule where
  test : RuneTest
  actions : List Action
  next : Target
  deriving Repr

abbrev StateTable := List (Text × List StateRule)

structure EndCall where
  actions : List Action
  next : Target
  deriving Repr

structure EndFunction where
  automaton : Nat
  calls : List EndCall
  deriving Repr

structure Program where
  automata : Array StateTable
  endFunctions : Array EndFunction
  tokenizers : Array (Tokenizer Unit Value)
  directory : List (Text × Nat)

inductive State where
  | rule (automaton : Nat) (name : Text)
  | token (tokenizer : Nat) (mode : Tokenizer.Mode)
  deriving DecidableEq, Repr

/-- The memory of a program: for each automaton the runes it keeps, the latest first, for each
end-of-input function the number of its calls, and the memory of each tokenizer. -/
structure Store where
  kept : Array (List Rune)
  calls : Array Nat
  tokenizers : Array (Tokenizer.Memory Unit Value)

inductive Note where
  | emitted (t : Text)
  | token (note : Tokenizer.Note)
  deriving Repr

def carryOut {α : Type} (u : Rune) (store : List Rune → Store)
    (finish : List Rune → Act Store Note α) : List Action → List Rune → Act Store Note α
  | [], kept => finish kept
  | .unread :: rest, kept => .unread u (carryOut u store finish rest kept)
  | .unreadText t :: rest, kept => .unread t (carryOut u store finish rest kept)
  | .latch f :: rest, kept => .setError (store kept) f (carryOut u store finish rest kept)
  | .raise f :: _, kept => .raise (store kept) f
  | .keep :: rest, kept => carryOut u store finish rest (u :: kept)
  | .emit :: rest, kept =>
    .note (fun _ => .emitted kept.reverse.flatten) (carryOut u store finish rest [])
  | .drop :: rest, _ => carryOut u store finish rest []

namespace Store

def empty : Store := ⟨#[], #[], #[]⟩

def keptBy (m : Store) (automaton : Nat) : List Rune := m.kept.getD automaton []

def keep (m : Store) (automaton : Nat) (runes : List Rune) : Store :=
  { m with kept := m.kept.setIfInBounds automaton runes }

def setTokenizer (m : Store) (t : Nat) (memory : Tokenizer.Memory Unit Value) : Store :=
  { m with tokenizers := m.tokenizers.setIfInBounds t memory }

def token (m : Store) (t : Nat) : Option Value := m.tokenizers[t]?.bind (·.token)

end Store

namespace Program

def empty : Program := ⟨#[], #[], #[], []⟩

def resolve (p : Program) (automaton : Nat) : Target → Option State
  | .stop => none
  | .state name => some (.rule automaton name)
  | .tokenizer name mode => (p.directory.lookup name).map (.token · mode)

def callRule (p : Program) (automaton : Nat) (name : Text) (u : Rune) (m : Store) :
    Act Store Note (Option State) :=
  let kept := m.keptBy automaton
  let rules := ((p.automata[automaton]?).bind (·.lookup name)).getD []
  match rules.find? (·.test.holds u kept) with
  | none => .done m (some (.rule automaton name))
  | some rule =>
    carryOut u (m.keep automaton)
      (fun kept => .done (m.keep automaton kept) (p.resolve automaton rule.next))
      rule.actions kept

def callTokenizer (p : Program) (t : Nat) (mode : Tokenizer.Mode) (u : Rune) (m : Store) :
    Act Store Note (Option State) :=
  match p.tokenizers[t]?, m.tokenizers[t]? with
  | some tokenizer, some memory =>
    (tokenizer.automaton.step mode u memory).map (m.setTokenizer t) .token (·.map (.token t))
  | _, _ => .done m none

def callEnd (p : Program) (e : Nat) (m : Store) : Act Store Note (Option State) :=
  match p.endFunctions[e]? with
  | none => .done m none
  | some function =>
    let count := m.calls.getD e 0
    let m := { m with calls := m.calls.setIfInBounds e (count + 1) }
    match function.calls[count]? with
    | none => .done m none
    | some call =>
      let owner := function.automaton
      carryOut [] (m.keep owner)
        (fun kept => .done (m.keep owner kept) (p.resolve owner call.next))
        call.actions (m.keptBy owner)

def automaton (p : Program) : Automaton Store Note State Nat where
  step
    | .rule automaton name, u, m => p.callRule automaton name u m
    | .token t mode, u, m => p.callTokenizer t mode u m
  atEnd := p.callEnd

def act (automaton : Nat) (action : Action) (m : Store) : Act Store Note Unit :=
  carryOut [] (m.keep automaton) (fun kept => .done (m.keep automaton kept) ()) [action]
    (m.keptBy automaton)

def tokenizerConfig (t : Nat) (tokenizer : Tokenizer Unit Value) : Config State Nat :=
  ⟨some (.token t .skipping), .substitute tokenizer.options.sentinel⟩

def addAutomaton (p : Program) (table : StateTable) : Program :=
  { p with automata := p.automata.push table }

def addEndFunction (p : Program) (function : EndFunction) : Program :=
  { p with endFunctions := p.endFunctions.push function }

def addTokenizer (p : Program) (tokenizer : Tokenizer Unit Value) : Program :=
  { p with tokenizers := p.tokenizers.push tokenizer }

def publish (p : Program) (name : Text) (t : Nat) : Program :=
  { p with directory := (name, t) :: p.directory }

end Program

end RuneMachine.Rules
