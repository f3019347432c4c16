import Mathlib.Logic.Relation
import RuneMachine.Proofs.Machine.Exits

namespace RuneMachine

variable {σ ν Q E α : Type}

namespace World

inductive Step (policy : Policy E) : World σ ν Q E → World σ ν Q E → Prop
  | remember {w} (m : σ) : Step policy w { w with memory := m }
  | unread {w} (u : Rune) : Step policy w (w.unread u)
  | latch {w} (fault : Option Fault) : Step policy w (w.setError fault).2
  | note {w} (entry : ν) : Step policy w (w.record (.note entry))
  | place {w} (located : Locations) : Step policy w { w with located := located }
  | read {w v result} : w.read = (result, v) → Step policy w v
  | call {w} (q : Q) (u : Rune) : Step policy w (w.record (.call q u))
  | fault {w v f} : w.read = (.error f, v) → f.isClean = false → Step policy w (v.latchFault f)
  | stop {w} : Step policy w (w.log (.stopping w.offset))
  | delegate {w} (e : E) : Step policy w ((w.log (.delegating w.offset)).record (.callAtEnd e))
  | substitute {w v f c} (q : Q) : w.read = (.error f, v) → f.isClean = true → v.latch = .empty →
      policy = .substitute c →
      Step policy w
        (({ v with latch := .ended }.log (.substituting v.offset [c])).record (.call q [c]))

abbrev Steps (policy : Policy E) : World σ ν Q E → World σ ν Q E → Prop :=
  Relation.ReflTransGen (Step policy)

variable {A : Automaton σ ν Q E} {policy : Policy E} {q : Q} {w v w' : World σ ν Q E}

theorem steps_perform (act : Act σ ν α) (w : World σ ν Q E) :
    Steps policy w (w.perform act).2 := by
  induction act generalizing w with
  | done m a => exact .single (.remember m)
  | raise m f => exact .single (.remember m)
  | unread u next ih => exact .head (.unread u) (ih _)
  | latch fault next ih => exact .head (.latch fault) (ih _ _)
  | note entry next ih => exact .head (.note (entry w.located)) (ih _)

theorem deliver_snd (A : Automaton σ ν Q E) (q : Q) (u : Rune) (w : World σ ν Q E) :
    (w.deliver A q u).2 = ((w.record (.call q u)).perform (A.step q u w.memory)).2 := by
  unfold deliver
  split
  · next performed => rw [performed]
  · next performed =>
    rw [performed]
    split <;> rfl

theorem consult_snd (A : Automaton σ ν Q E) (e : E) (w : World σ ν Q E) :
    (w.consult A e).2 = ((w.record (.callAtEnd e)).perform (A.atEnd e w.memory)).2 := by
  unfold consult
  split
  · next performed => rw [performed]
  · next performed => rw [performed]
  · next performed =>
    rw [performed]
    split <;> rfl

theorem eq_of_deliver {u : Rune} {turn : Turn Q} (h : w.deliver A q u = (turn, w')) :
    w' = ((w.record (.call q u)).perform (A.step q u w.memory)).2 := by
  rw [← deliver_snd, h]

theorem eq_of_consult {e : E} {turn : Turn Q} (h : w.consult A e = (turn, w')) :
    w' = ((w.record (.callAtEnd e)).perform (A.atEnd e w.memory)).2 := by
  rw [← consult_snd, h]

theorem steps_deliver {u : Rune} {turn : Turn Q} (h : w.deliver A q u = (turn, w')) :
    Steps policy (w.record (.call q u)) w' := by
  rw [eq_of_deliver h]
  exact steps_perform _ _

theorem steps_consult {e : E} {turn : Turn Q} (h : w.consult A e = (turn, w')) :
    Steps policy (w.record (.callAtEnd e)) w' := by
  rw [eq_of_consult h]
  exact steps_perform _ _

theorem steps_turn {turn : Turn Q} (h : w.turn A policy q = (turn, w')) : Steps policy w w' := by
  cases turned_of_turn h with
  | @delivered u v _ _ read delivered =>
    calc Steps policy w v := .single (.read read)
      Steps policy _ (v.record (.call q u)) := .single (.call q u)
      Steps policy _ w' := steps_deliver delivered
  | substituted read clean empty substitutes delivered =>
    exact .head (.substitute q read clean empty substitutes) (steps_deliver delivered)
  | @consulted f v e _ _ read clean empty delegates consulted =>
    calc Steps policy w v := .single (.read read)
      Steps policy _ ((v.log (.delegating v.offset)).record (.callAtEnd e)) := .single (.delegate e)
      Steps policy _ w' := steps_consult consulted
  | stopped read => exact .head (.read read) (.single .stop)
  | refused read => exact .single (.read read)
  | finished read => exact .single (.read read)
  | faulted read dirty => exact .single (.fault read dirty)
  | interrupted read => exact .single (.read read)

theorem steps_proceed {turns : Nat} {state : Option Q} {outcome : Outcome}
    (h : w.proceed A policy turns state = (outcome, w')) : Steps policy w w' := by
  induction turns generalizing w state with
  | zero => cases state <;> cases h <;> exact .refl
  | succ turns ih =>
    cases state with
    | none => cases h; exact .refl
    | some q =>
      rcases turned : w.turn A policy q with ⟨state | outcome, v⟩
      · simp only [proceed, turned] at h
        exact (steps_turn turned).trans (ih h)
      · simp only [proceed, turned] at h
        cases h
        exact steps_turn turned

theorem steps_pass (A : Automaton σ ν Q E) (config : Config Q E) (turns : Nat)
    (w : World σ ν Q E) : Steps config.policy w (w.pass A config turns).2 := by
  unfold pass
  split
  · exact .refl
  · exact steps_proceed rfl

end World

/-- What can happen to a machine: a pass is run, something is done through its controller outside
any pass, someone else reads from its reader, or another machine finds the places of faults. -/
inductive Incident (σ ν : Type) where
  | run (turns : Nat)
  | control (act : Act σ ν Unit)
  | read
  | place (located : Locations)

namespace World

def undergo (A : Automaton σ ν Q E) (config : Config Q E) (w : World σ ν Q E) :
    Incident σ ν → World σ ν Q E
  | .run turns => (w.pass A config turns).2
  | .control act => (w.perform act).2
  | .read => w.read.2
  | .place located => { w with located := located }

def live (A : Automaton σ ν Q E) (config : Config Q E) (history : List (Incident σ ν))
    (w : World σ ν Q E) : World σ ν Q E := history.foldl (undergo A config) w

variable {A : Automaton σ ν Q E} {config : Config Q E}

theorem steps_undergo (A : Automaton σ ν Q E) (config : Config Q E) (w : World σ ν Q E)
    (incident : Incident σ ν) : Steps config.policy w (w.undergo A config incident) := by
  cases incident with
  | run turns => exact steps_pass A config turns w
  | control act => exact steps_perform act w
  | read => exact .single (.read rfl)
  | place located => exact .single (.place located)

theorem steps_live (A : Automaton σ ν Q E) (config : Config Q E) (history : List (Incident σ ν))
    (w : World σ ν Q E) : Steps config.policy w (w.live A config history) := by
  induction history generalizing w with
  | nil => exact .refl
  | cons incident history ih => exact (steps_undergo A config w incident).trans (ih _)

end World

end RuneMachine
