import RuneMachine.Machine.Pass
import RuneMachine.Proofs.Machine.Locations

/-! Automata that cannot be told apart. Two automata with different memories behave alike if each of
their calls takes the same steps and leaves memories from which the next call does so too. Then two
machines that start alike stay alike, whatever is in the register of places: only faults that are
made on the spot are latched, and their places are not in it. -/

namespace RuneMachine

variable {σ σ' ν Q E α : Type}

inductive Act.Alike (R : α → σ → σ' → Prop) : Act σ ν α → Act σ' ν α → Prop
  | done {a m m'} : R a m m' → Alike R (.done m a) (.done m' a)
  | raise {f m m'} : Alike R (.raise m f) (.raise m' f)
  | unread {u next next'} : Alike R next next' → Alike R (.unread u next) (.unread u next')
  | latch {fault next next'} : (∀ f, fault = some f → f.identity = none) →
      (∀ answer, Alike R (next answer) (next' answer)) →
      Alike R (.latch fault next) (.latch fault next')
  | note {entry entry' next next'} : (∀ l l', entry l = entry' l') → Alike R next next' →
      Alike R (.note entry next) (.note entry' next')

theorem Act.Alike.setError {R : α → σ → σ' → Prop} {f : Fault} {m : σ} {m' : σ'}
    {next : Act σ ν α} {next' : Act σ' ν α} (fresh : f.identity = none) (h : Alike R next next') :
    Alike R (.setError m (some f) next) (.setError m' (some f) next') := by
  apply Alike.latch
  · rintro _ ⟨⟩
    exact fresh
  · intro answer
    cases answer with
    | ok place => exact h
    | error refusal => exact .raise

/-- Called in a state with memories related by `S`, the automata do alike; `S` holds again in the
state that they go on to. -/
structure Automaton.Alike (S : Q → σ → σ' → Prop) (A : Automaton σ ν Q E)
    (B : Automaton σ' ν Q E) : Prop where
  step : ∀ {q m m'}, S q m m' → ∀ u,
    (A.step q u m).Alike (fun next m m' => ∀ q ∈ next, S q m m') (B.step q u m')
  atEnd : ∀ {q m m'}, S q m m' → ∀ e,
    (A.atEnd e m).Alike (fun next m m' => ∀ q ∈ next, S q m m') (B.atEnd e m')

namespace World

structure Alike (w : World σ ν Q E) (v : World σ' ν Q E) : Prop where
  reader : w.reader = v.reader
  latch : w.latch = v.latch
  journal : w.journal = v.journal

variable {w : World σ ν Q E} {v : World σ' ν Q E}

namespace Alike

theorem record (h : w.Alike v) (event : Event ν Q E) : (w.record event).Alike (v.record event) :=
  ⟨h.reader, h.latch, congrArg (event :: ·) h.journal⟩

theorem unread (h : w.Alike v) (u : Rune) : (w.unread u).Alike (v.unread u) :=
  ⟨congrArg (·.unread u) h.reader, h.latch, h.journal⟩

theorem offset (h : w.Alike v) : w.offset = v.offset := congrArg Reader.offset h.reader

theorem setError {fault : Option Fault} (fresh : ∀ f, fault = some f → f.identity = none)
    (h : w.Alike v) :
    (w.setError fault).1 = (v.setError fault).1 ∧
      (w.setError fault).2.Alike (v.setError fault).2 := by
  cases fault with
  | none =>
    refine ⟨rfl, h.reader, rfl, ?_⟩
    simp only [World.setError, log, World.record, h.offset, h.journal]
  | some f =>
    have same := f.locate_of_identity (fresh f rfl) v.offset w.located v.located
    cases clean : f.isClean with
    | true =>
      rw [setError_of_clean clean, setError_of_clean clean]
      exact ⟨rfl, h⟩
    | false =>
      rw [setError_of_dirty clean, setError_of_dirty clean, h.offset]
      refine ⟨?_, h.reader, ?_, ?_⟩
      · rw [Fault.offsetIn_of_fresh (fresh f rfl), Fault.offsetIn_of_fresh (fresh f rfl)]
      · exact congrArg Latch.failed same
      · simp only [log, World.record, same, h.journal]

theorem perform {R : α → σ → σ' → Prop} {act : Act σ ν α} {act' : Act σ' ν α}
    (acts : act.Alike R act') (h : w.Alike v) :
    ∃ result w' v', w.perform act = (result, w') ∧ v.perform act' = (result, v') ∧ w'.Alike v' ∧
      ∀ a, result = .ok a → R a w'.memory v'.memory := by
  induction acts generalizing w v with
  | @done a m m' related =>
    refine ⟨.ok a, _, _, rfl, rfl, ⟨h.reader, h.latch, h.journal⟩, ?_⟩
    rintro _ ⟨⟩
    exact related
  | raise => exact ⟨_, _, _, rfl, rfl, ⟨h.reader, h.latch, h.journal⟩, nofun⟩
  | @unread u next next' acts ih => exact ih (h.unread u)
  | @latch fault next next' fresh acts ih =>
    obtain ⟨answer, alike⟩ := h.setError fresh
    obtain ⟨result, w', v', hw, hv, last⟩ := ih (w.setError fault).1 alike
    refine ⟨result, w', v', hw, ?_, last⟩
    rw [← hv, answer]
    rfl
  | @note entry entry' next next' same acts ih =>
    have alike := h.record (.note (entry w.located))
    rw [same w.located v.located] at alike
    have noted := same w.located v.located
    obtain ⟨result, w', v', hw, hv, last⟩ := ih alike
    refine ⟨result, w', v', ?_, hv, last⟩
    rw [← hw, ← noted]
    rfl

theorem read (h : w.Alike v) :
    w.read.1 = v.read.1 ∧ w.read.2.Alike v.read.2 ∧ w.read.2.memory = w.memory ∧
      v.read.2.memory = v.memory := by
  refine ⟨?_, ⟨?_, h.latch, ?_⟩, rfl, rfl⟩
  · simp only [World.read, h.reader]
  · simp only [World.read, h.reader]
  · simp only [World.read, h.reader, h.journal]

variable {S : Q → σ → σ' → Prop} {A : Automaton σ ν Q E} {B : Automaton σ' ν Q E} {q : Q}

structure Turns (S : Q → σ → σ' → Prop) (x : Turn Q × World σ ν Q E) (y : Turn Q × World σ' ν Q E) :
    Prop where
  same : x.1 = y.1
  alike : x.2.Alike y.2
  related : ∀ q, x.1 = .next (some q) → S q x.2.memory y.2.memory

theorem Turns.over {outcome : Outcome} (h : w.Alike v) :
    Turns S (.over outcome, w) (.over outcome, v) := ⟨rfl, h, nofun⟩

theorem deliver (alike : A.Alike S B) (h : w.Alike v) (related : S q w.memory v.memory)
    (u : Rune) : Turns S (w.deliver A q u) (v.deliver B q u) := by
  obtain ⟨result, w', v', hw, hv, after, next⟩ :=
    (h.record (.call q u)).perform (alike.step related u)
  simp only [World.deliver, hw, hv]
  cases result with
  | error f => exact .over after
  | ok state =>
    dsimp only
    rw [after.latch]
    split
    · exact .over after
    · refine ⟨rfl, after, ?_⟩
      rintro q' ⟨⟩
      exact next _ rfl q' rfl

theorem consult (alike : A.Alike S B) (h : w.Alike v) (related : S q w.memory v.memory)
    (e : E) : Turns S (w.consult A e) (v.consult B e) := by
  obtain ⟨result, w', v', hw, hv, after, next⟩ :=
    (h.record (.callAtEnd e)).perform (alike.atEnd related e)
  simp only [World.consult, hw, hv]
  cases result with
  | error f => exact .over after
  | ok state =>
    cases state with
    | none => exact .over after
    | some q' =>
      dsimp only
      rw [after.latch]
      split
      · exact .over after
      · refine ⟨rfl, after, ?_⟩
        rintro _ ⟨⟩
        exact next _ rfl q' rfl

theorem meetEnd (alike : A.Alike S B) (h : w.Alike v) (related : S q w.memory v.memory)
    (policy : Policy E) : Turns S (w.meetEnd A policy q) (v.meetEnd B policy q) := by
  have latch := h.latch
  unfold World.meetEnd
  rw [latch, h.offset]
  cases v.latch with
  | ended => exact .over h
  | failed f => exact .over h
  | empty =>
    cases policy with
    | stop => exact .over (h.record _)
    | delegate e => exact (h.record _).consult alike related e
    | substitute c =>
      have ended : { w with latch := .ended }.Alike { v with latch := .ended } :=
        ⟨h.reader, rfl, h.journal⟩
      exact (ended.record (.log (.substituting v.offset [c]))).deliver alike related [c]
    | unsupported given => exact .over h

theorem turn (alike : A.Alike S B) (h : w.Alike v) (related : S q w.memory v.memory)
    (policy : Policy E) : Turns S (w.turn A policy q) (v.turn B policy q) := by
  obtain ⟨same, after, memory, memory'⟩ := h.read
  rw [← memory, ← memory'] at related
  rcases hw : w.read with ⟨result, w'⟩
  rcases hv : v.read with ⟨result', v'⟩
  rw [hw, hv] at same after related
  obtain rfl : result = result' := same
  simp only [World.turn, hw, hv]
  cases result with
  | ok u => exact after.deliver alike related u
  | error f =>
    dsimp only
    split
    · exact after.meetEnd alike related policy
    · split
      · have latched : { w' with latch := .failed f }.Alike { v' with latch := .failed f } :=
          ⟨after.reader, rfl, after.journal⟩
        simp only [latchFault, after.offset]
        exact .over (latched.record _)
      · exact .over after

theorem proceed (alike : A.Alike S B) (h : w.Alike v) {state : Option Q}
    (related : ∀ q ∈ state, S q w.memory v.memory) (policy : Policy E) (turns : Nat) :
    (w.proceed A policy turns state).1 = (v.proceed B policy turns state).1 ∧
      (w.proceed A policy turns state).2.Alike (v.proceed B policy turns state).2 := by
  induction turns generalizing w v state with
  | zero => cases state <;> exact ⟨rfl, h⟩
  | succ turns ih =>
    cases state with
    | none => exact ⟨rfl, h⟩
    | some q =>
      obtain ⟨same, after, next⟩ := h.turn alike (related q rfl) policy
      rcases hw : w.turn A policy q with ⟨turn, w'⟩
      rcases hv : v.turn B policy q with ⟨turn', v'⟩
      rw [hw, hv] at same after next
      obtain rfl : turn = turn' := same
      simp only [World.proceed, hw, hv]
      rcases turn with state | outcome
      · apply ih after
        rintro q' ⟨⟩
        exact next q' rfl
      · exact ⟨rfl, after⟩

theorem pass (alike : A.Alike S B) (h : w.Alike v) {config : Config Q E}
    (related : ∀ q ∈ config.initial, S q w.memory v.memory) (turns : Nat) :
    (w.pass A config turns).1 = (v.pass B config turns).1 ∧
      (w.pass A config turns).2.Alike (v.pass B config turns).2 := by
  unfold World.pass
  rw [h.latch]
  split
  · exact ⟨rfl, h⟩
  · exact h.proceed alike related config.policy turns

end Alike

end World

end RuneMachine
