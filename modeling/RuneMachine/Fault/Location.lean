import RuneMachine.Fault.Basic

/-! Where faults happened. A fault with an identity may be held in several places at once, so its
place is kept in a register that all of them consult; other faults carry theirs. -/

namespace RuneMachine

/-- The places found so far for the faults that have an identity. -/
abbrev Locations := List (Nat × Int)

namespace Locations

def get? (l : Locations) (identity : Nat) : Option Int := l.lookup identity

def insert (l : Locations) (identity : Nat) (offset : Int) : Locations := (identity, offset) :: l

@[simp] theorem get?_insert (l : Locations) (i j : Nat) (offset : Int) :
    (l.insert i offset).get? j = if j = i then some offset else l.get? j := by
  by_cases h : j = i
  · simp [get?, insert, h]
  · have hb : (j == i) = false := by simpa using h
    simp [get?, insert, List.lookup_cons, hb, h]

end Locations

namespace Fault

def offsetIn (f : Fault) (l : Locations) : Option Int :=
  f.offset <|> f.identity.bind l.get?

def locate (f : Fault) (n : Int) (l : Locations) : Fault × Locations :=
  if f.kind = .tokenize ∧ f.offsetIn l = none then
    match f.identity with
    | none => ({ f with offset := some n }, l)
    | some i => (f, l.insert i n)
  else (f, l)

end Fault

end RuneMachine
