import RuneMachine.Machine.Pass
import RuneMachine.Proofs.Machine.Locations

/-! The error latch. Whatever changes it leaves a record, so that the latch can be read off the
journal. Once it holds an error, only the user function that is being called goes on, until it
returns or raises; after that the machine refuses every pass. -/

namespace RuneMachine

variable {σ ν Q E α : Type}

namespace Event

def latched? : Event ν Q E → Option Fault
  | .log (.readFault _ f) => some f
  | .log (.latched _ f) => f
  | _ => none

def isClearing : Event ν Q E → Bool
  | .log (.latched _ none) => true
  | _ => false

def isByUser : Event ν Q E → Bool
  | .note _ => true
  | .log (.latched _ _) => true
  | _ => false

def settle : Event ν Q E → Latch → Latch
  | .log (.readFault _ f), _ => .failed f
  | .log (.latched _ (some f)), _ => .failed f
  | .log (.latched _ none), _ => .empty
  | .log (.substituting _ _), _ => .ended
  | _, latch => latch

def replay (events : List (Event ν Q E)) (latch : Latch) : Latch := events.foldr settle latch

structure Timely (e : Event ν Q E) (latch : Latch) : Prop where
  byUser : latch.isFailed = true → e.isByUser = true
  dirty : ∀ f, e.latched? = some f → f.isClean = false

theorem Timely.of_quiet {e : Event ν Q E} {latch : Latch} (quiet : e.latched? = none)
    (byUser : latch.isFailed = true → e.isByUser = true) : e.Timely latch := by
  refine ⟨byUser, ?_⟩
  intro f latched
  rw [quiet] at latched
  cases latched

theorem settle_of_latched? {e : Event ν Q E} {f : Fault} (h : e.latched? = some f) (latch : Latch) :
    e.settle latch = .failed f := by
  unfold latched? at h
  split at h <;> cases h <;> rfl

theorem settle_of_isByUser {e : Event ν Q E} (byUser : e.isByUser = true)
    (kept : e.isClearing = false) (f : Fault) :
    e.settle (.failed f) = .failed (e.latched?.getD f) := by
  unfold isByUser at byUser
  split at byUser
  · rfl
  · next fault =>
    cases fault with
    | none => cases kept
    | some g => rfl
  · cases byUser

end Event

inductive Latch.Follows : Latch → List (Event ν Q E) → Latch → Prop
  | nil {latch} : Follows latch [] latch
  | cons {first latch e events} : Follows first events latch → e.Timely latch →
      Follows first (e :: events) (e.settle latch)

namespace Latch.Follows

variable {first middle last : Latch} {events later : List (Event ν Q E)}

theorem append (h : middle.Follows later last) (before : first.Follows events middle) :
    first.Follows (later ++ events) last := by
  induction h with
  | nil => exact before
  | cons _ timely ih => exact .cons ih timely

theorem split (h : first.Follows (later ++ events) last) :
    ∃ middle, first.Follows events middle ∧ middle.Follows later last := by
  induction later generalizing last with
  | nil => exact ⟨last, h, .nil⟩
  | cons e later ih =>
    cases h with
    | cons before timely =>
      obtain ⟨middle, before, after⟩ := ih before
      exact ⟨middle, before, .cons after timely⟩

theorem eq_replay (h : first.Follows events last) : last = Event.replay events first := by
  induction h with
  | nil => rfl
  | @cons _ e _ _ _ ih => exact congrArg e.settle ih

theorem pulls {latch : Latch} (going : latch.isFailed = false) (shape : Source.Shape) (n : Nat) :
    latch.Follows (List.replicate n (.pull shape : Event ν Q E)) latch := by
  induction n with
  | zero => exact .nil
  | succ n ih => exact .cons ih (.of_quiet rfl (by simp [going]))

theorem of_failed {f : Fault} (h : (Latch.failed f).Follows later last) (dirty : f.isClean = false)
    (kept : ∀ e ∈ later, e.isClearing = false) :
    (∀ e ∈ later, e.isByUser = true) ∧
      last = .failed ((later.findSome? Event.latched?).getD f) ∧
      ((later.findSome? Event.latched?).getD f).isClean = false := by
  induction h with
  | nil => exact ⟨by simp, rfl, dirty⟩
  | @cons latch e later before timely ih =>
    obtain ⟨byUser, rfl, still⟩ := ih fun e' member => kept e' (.tail e member)
    have now : e.isByUser = true := timely.byUser rfl
    have settled := Event.settle_of_isByUser now (kept e List.mem_cons_self)
    refine ⟨?_, ?_⟩
    · intro e' member
      cases member with
      | head => exact now
      | tail _ member => exact byUser e' member
    · rw [settled, List.findSome?_cons]
      cases latched : e.latched? with
      | none => exact ⟨rfl, still⟩
      | some g => exact ⟨rfl, timely.dirty g latched⟩

end Latch.Follows

namespace World

def Leads (w w' : World σ ν Q E) : Prop :=
  ∃ new, w'.journal = new ++ w.journal ∧ w.latch.Follows new w'.latch

namespace Leads

variable {w w' w'' : World σ ν Q E}

theorem of_eq (journal : w'.journal = w.journal) (latch : w'.latch = w.latch) : w.Leads w' :=
  ⟨[], journal, latch ▸ .nil⟩

theorem trans (h : w.Leads w') (h' : w'.Leads w'') : w.Leads w'' := by
  obtain ⟨new, journal, follows⟩ := h
  obtain ⟨later, journal', follows'⟩ := h'
  refine ⟨later ++ new, ?_, follows'.append follows⟩
  rw [journal', journal, List.append_assoc]

theorem of_event {e : Event ν Q E} (timely : e.Timely w.latch)
    (journal : w'.journal = e :: w.journal) (latch : w'.latch = e.settle w.latch) : w.Leads w' :=
  ⟨[e], journal, latch ▸ .cons .nil timely⟩

end Leads

theorem leads_setError (w : World σ ν Q E) (fault : Option Fault) :
    w.Leads (w.setError fault).2 := by
  cases fault with
  | none => exact .of_event (.of_quiet rfl fun _ => rfl) rfl rfl
  | some f =>
    by_cases clean : f.isClean = true
    · exact .of_eq (by simp [setError, clean]) (by simp [setError, clean])
    · simp only [setError, clean, if_false, Bool.false_eq_true]
      refine .of_event ⟨fun _ => rfl, ?_⟩ rfl rfl
      intro g latched
      cases latched
      rw [f.isClean_locate]
      simpa using clean

theorem leads_perform (act : Act σ ν α) (w : World σ ν Q E) : w.Leads (w.perform act).2 := by
  induction act generalizing w with
  | done m a => exact .of_eq rfl rfl
  | raise m f => exact .of_eq rfl rfl
  | unread u next ih => exact (Leads.of_eq rfl rfl).trans (ih _)
  | latch fault next ih => exact (w.leads_setError fault).trans (ih _ _)
  | note entry next ih =>
    have noted : w.Leads (w.record (.note (entry w.located))) :=
      .of_event (.of_quiet rfl fun _ => rfl) rfl rfl
    exact noted.trans (ih _)

theorem leads_record {w : World σ ν Q E} {e : Event ν Q E} (going : w.latch.isFailed = false)
    (quiet : e.latched? = none) (still : e.settle w.latch = w.latch) : w.Leads (w.record e) :=
  .of_event (.of_quiet quiet (by simp [going])) rfl still.symm

theorem leads_call {w w' : World σ ν Q E} {e : Event ν Q E} {act : Act σ ν α}
    {result : Except Fault α} (going : w.latch.isFailed = false) (quiet : e.latched? = none)
    (still : e.settle w.latch = w.latch) (h : (w.record e).perform act = (result, w')) :
    w.Leads w' := by
  have performed := leads_perform act (w.record e)
  rw [h] at performed
  exact (leads_record going quiet still).trans performed

theorem leads_read {w w' : World σ ν Q E} {result : Except Fault Rune}
    (going : w.latch.isFailed = false) (h : w.read = (result, w')) :
    w.Leads w' ∧ w'.latch = w.latch := by
  cases h
  exact ⟨⟨_, rfl, .pulls going _ _⟩, rfl⟩

end World

inductive Automaton.Raises (A : Automaton σ ν Q E) (f : Fault) (w' : World σ ν Q E) : Prop
  | step {w : World σ ν Q E} {q u} :
      (w.record (.call q u)).perform (A.step q u w.memory) = (.error f, w') → A.Raises f w'
  | atEnd {w : World σ ν Q E} {e} :
      (w.record (.callAtEnd e)).perform (A.atEnd e w.memory) = (.error f, w') → A.Raises f w'

def Outcome.Admits (A : Automaton σ ν Q E) (w : World σ ν Q E) (outcome : Outcome) : Prop :=
  w.latch.isFailed = true → outcome = .returned false ∨ ∃ f, outcome = .raised f ∧ A.Raises f w

def Turn.Admits (A : Automaton σ ν Q E) (w : World σ ν Q E) : Turn Q → Prop
  | .next _ => w.latch.isFailed = false
  | .over outcome => outcome.Admits A w

theorem Outcome.admits_of_going {A : Automaton σ ν Q E} {w : World σ ν Q E} {outcome : Outcome}
    (going : w.latch.isFailed = false) : outcome.Admits A w := by
  intro failed
  rw [going] at failed
  cases failed

namespace World

variable {A : Automaton σ ν Q E} {w w' : World σ ν Q E} {turn : Turn Q}

theorem leads_deliver {q : Q} {u : Rune} (going : w.latch.isFailed = false)
    (h : w.deliver A q u = (turn, w')) : w.Leads w' ∧ turn.Admits A w' := by
  unfold deliver at h
  split at h
  · next f _ raised =>
    cases h
    exact ⟨leads_call going rfl rfl raised, fun _ => .inr ⟨f, rfl, .step raised⟩⟩
  · next returned =>
    split at h
    · cases h
      exact ⟨leads_call going rfl rfl returned, fun _ => .inl rfl⟩
    · next unfailed =>
      cases h
      exact ⟨leads_call going rfl rfl returned, by simpa [Turn.Admits] using unfailed⟩

theorem leads_consult {e : E} (going : w.latch.isFailed = false)
    (h : w.consult A e = (turn, w')) : w.Leads w' ∧ turn.Admits A w' := by
  unfold consult at h
  split at h
  · next f _ raised =>
    cases h
    exact ⟨leads_call going rfl rfl raised, fun _ => .inr ⟨f, rfl, .atEnd raised⟩⟩
  · next returned =>
    cases h
    exact ⟨leads_call going rfl rfl returned, fun _ => .inl rfl⟩
  · next returned =>
    split at h
    · cases h
      exact ⟨leads_call going rfl rfl returned, fun _ => .inl rfl⟩
    · next unfailed =>
      cases h
      exact ⟨leads_call going rfl rfl returned, by simpa [Turn.Admits] using unfailed⟩

theorem leads_meetEnd {policy : Policy E} {q : Q} (going : w.latch.isFailed = false)
    (h : w.meetEnd A policy q = (turn, w')) : w.Leads w' ∧ turn.Admits A w' := by
  cases latch : w.latch with
  | failed f => simp [latch, Latch.isFailed, Latch.fault?] at going
  | ended =>
    simp only [meetEnd, latch] at h
    cases h
    exact ⟨.of_eq rfl rfl, fun _ => .inl rfl⟩
  | empty =>
    cases policy with
    | stop =>
      simp only [meetEnd, latch] at h
      cases h
      exact ⟨leads_record going rfl rfl, fun _ => .inl rfl⟩
    | delegate e =>
      simp only [meetEnd, latch] at h
      have logged : w.Leads (w.log (.delegating w.offset)) := leads_record going rfl rfl
      obtain ⟨leads, admits⟩ := leads_consult (by exact going) h
      exact ⟨logged.trans leads, admits⟩
    | substitute c =>
      simp only [meetEnd, latch] at h
      have logged : w.Leads ({ w with latch := .ended }.log (.substituting w.offset [c])) :=
        .of_event (.of_quiet rfl (by simp [going])) rfl rfl
      obtain ⟨leads, admits⟩ := leads_deliver (by rfl) h
      exact ⟨logged.trans leads, admits⟩
    | unsupported given =>
      simp only [meetEnd, latch] at h
      cases h
      exact ⟨.of_eq rfl rfl, Outcome.admits_of_going going⟩

theorem leads_turn {policy : Policy E} {q : Q} (going : w.latch.isFailed = false)
    (h : w.turn A policy q = (turn, w')) : w.Leads w' ∧ turn.Admits A w' := by
  rcases read : w.read with ⟨result, v⟩
  obtain ⟨leads, latch⟩ := leads_read going read
  rw [← latch] at going
  cases result with
  | ok u =>
    simp only [World.turn, read] at h
    obtain ⟨later, admits⟩ := leads_deliver going h
    exact ⟨leads.trans later, admits⟩
  | error f =>
    simp only [World.turn, read] at h
    split at h
    · obtain ⟨later, admits⟩ := leads_meetEnd going h
      exact ⟨leads.trans later, admits⟩
    · next dirty =>
      split at h
      · cases h
        have latched : v.Leads (v.latchFault f) := by
          refine .of_event ⟨by simp [going], ?_⟩ rfl rfl
          intro g latched
          cases latched
          simpa using dirty
        exact ⟨leads.trans latched, fun _ => .inl rfl⟩
      · -- An interrupt goes through and leaves the latch as it was.
        cases h
        exact ⟨leads, Outcome.admits_of_going going⟩

theorem leads_proceed {policy : Policy E} {turns : Nat} {state : Option Q} {outcome : Outcome}
    (going : w.latch.isFailed = false) (h : w.proceed A policy turns state = (outcome, w')) :
    w.Leads w' ∧ outcome.Admits A w' := by
  induction turns generalizing w state with
  | zero =>
    cases state with
    | none =>
      cases h
      exact ⟨.of_eq rfl rfl, Outcome.admits_of_going going⟩
    | some q =>
      cases h
      exact ⟨.of_eq rfl rfl, Outcome.admits_of_going going⟩
  | succ turns ih =>
    cases state with
    | none =>
      cases h
      exact ⟨.of_eq rfl rfl, Outcome.admits_of_going going⟩
    | some q =>
      rcases turned : w.turn A policy q with ⟨state | outcome, v⟩
      · obtain ⟨leads, going⟩ := leads_turn going turned
        simp only [proceed, turned] at h
        obtain ⟨later, admits⟩ := ih going h
        exact ⟨leads.trans later, admits⟩
      · simp only [proceed, turned] at h
        cases h
        exact leads_turn going turned

theorem pass_of_failed (failed : w.latch.isFailed = true) (config : Config Q E) (turns : Nat) :
    w.pass A config turns = (.returned false, w) := if_pos failed

theorem leads_pass {config : Config Q E} {turns : Nat} {outcome : Outcome}
    (h : w.pass A config turns = (outcome, w')) : w.Leads w' ∧ outcome.Admits A w' := by
  by_cases failed : w.latch.isFailed = true
  · rw [pass_of_failed failed] at h
    cases h
    exact ⟨.of_eq rfl rfl, fun _ => .inl rfl⟩
  · simp only [pass, failed, if_false, Bool.false_eq_true] at h
    exact leads_proceed (by simpa using failed) h

end World

inductive Move where
  | run (turns : Nat)
  | read
  | unread (u : Rune)
  | latch (fault : Fault)

def Move.latches : Move → Bool
  | .latch f => !f.isClean
  | _ => false

namespace World

def move (A : Automaton σ ν Q E) (config : Config Q E) (w : World σ ν Q E) : Move → World σ ν Q E
  | .run turns => (w.pass A config turns).2
  | .read => w.read.2
  | .unread u => w.unread u
  | .latch f => (w.setError (some f)).2

def moves (A : Automaton σ ν Q E) (config : Config Q E) (moves : List Move) (w : World σ ν Q E) :
    World σ ν Q E := moves.foldl (move A config) w

def HasFailed (w : World σ ν Q E) : Prop := ∃ f, w.latch = .failed f ∧ f.isClean = false

variable {w : World σ ν Q E}

theorem HasFailed.isFailed (h : w.HasFailed) : w.latch.isFailed = true := by
  obtain ⟨f, latch, -⟩ := h
  rw [latch]
  rfl

theorem latch_move (A : Automaton σ ν Q E) (config : Config Q E) {m : Move} (failed : w.HasFailed)
    (quiet : m.latches = false) : (w.move A config m).latch = w.latch := by
  cases m with
  | run turns => rw [move, pass_of_failed failed.isFailed]
  | read => rfl
  | unread u => rfl
  | latch f => rw [move, setError_of_clean (by simpa [Move.latches] using quiet)]

theorem HasFailed.move (h : w.HasFailed) (A : Automaton σ ν Q E) (config : Config Q E) (m : Move) :
    (w.move A config m).HasFailed := by
  cases latches : m.latches with
  | false =>
    unfold HasFailed
    rw [latch_move A config h latches]
    exact h
  | true =>
    cases m with
    | latch f =>
      have dirty : f.isClean = false := by simpa [Move.latches] using latches
      exact ⟨_, latch_setError dirty w, by rw [f.isClean_locate, dirty]⟩
    | run turns => cases latches
    | read => cases latches
    | unread u => cases latches

theorem HasFailed.moves (h : w.HasFailed) (A : Automaton σ ν Q E) (config : Config Q E)
    (ms : List Move) : (w.moves A config ms).HasFailed := by
  induction ms generalizing w with
  | nil => exact h
  | cons m ms ih => exact ih (h.move A config m)

theorem latch_moves (A : Automaton σ ν Q E) (config : Config Q E) {ms : List Move}
    (failed : w.HasFailed) (quiet : ∀ m ∈ ms, m.latches = false) :
    (w.moves A config ms).latch = w.latch := by
  induction ms generalizing w with
  | nil => rfl
  | cons m ms ih =>
    have first := latch_move A config failed (quiet m List.mem_cons_self)
    have later := ih (failed.move A config m) fun m' member => quiet m' (.tail m member)
    exact later.trans first

/-- An error in the latch is there for good. When one comes in during a pass, only the user function
that is being called goes on, and the pass ends without success unless that function raises. From
then on, whatever is done short of emptying the latch, the latest error is in the latch, a pass is
refused and changes nothing, and so is the end of input in the place of an error. -/
theorem latch_sticky (A : Automaton σ ν Q E) (config : Config Q E) :
    (∀ {w w' : World σ ν Q E} {turns : Nat} {outcome : Outcome},
      w.pass A config turns = (outcome, w') →
      ∃ new, w'.journal = new ++ w.journal ∧ w'.latch = Event.replay new w.latch ∧
        ∀ {later e earlier f}, new = later ++ e :: earlier → e.latched? = some f →
          (∀ e' ∈ later, e'.isClearing = false) →
          (∀ e' ∈ later, e'.isByUser = true) ∧ w'.HasFailed ∧
            w'.latch = .failed ((later.findSome? Event.latched?).getD f) ∧
            (outcome = .returned false ∨ ∃ g, outcome = .raised g ∧ A.Raises g w')) ∧
    ∀ {w : World σ ν Q E} {f : Fault} (ms : List Move), w.latch = .failed f → f.isClean = false →
      (w.moves A config ms).HasFailed ∧
        ((∀ m ∈ ms, m.latches = false) → (w.moves A config ms).latch = .failed f) ∧
        (∀ {before g after}, ms = before ++ .latch g :: after → g.isClean = false →
          (∀ m ∈ after, m.latches = false) →
          (w.moves A config ms).latch =
            .failed (g.locate (w.moves A config before).offset
              (w.moves A config before).located).1) ∧
        (∀ turns, (w.moves A config ms).pass A config turns =
          (.returned false, w.moves A config ms)) ∧
        ∀ g, g.isClean = true →
          (w.moves A config ms).setError (some g) = (.error refusal, w.moves A config ms) := by
  constructor
  · intro w w' turns outcome passed
    obtain ⟨⟨new, journal, follows⟩, admits⟩ := leads_pass passed
    refine ⟨new, journal, follows.eq_replay, ?_⟩
    rintro later e earlier f rfl latched kept
    -- Up to `e` anything may have happened; with `e` the latch holds `f`.
    obtain ⟨middle, before, after⟩ := follows.split
    cases before with
    | cons _ timely =>
      rw [Event.settle_of_latched? latched] at after
      obtain ⟨byUser, last, dirty⟩ := after.of_failed (timely.dirty f latched) kept
      have failed : w'.HasFailed := ⟨_, last, dirty⟩
      exact ⟨byUser, failed, last, admits failed.isFailed⟩
  · intro w f ms latch dirty
    have failed : w.HasFailed := ⟨f, latch, dirty⟩
    have still := failed.moves A config ms
    refine ⟨still, ?_, ?_, pass_of_failed still.isFailed config, ?_⟩
    · intro quiet
      rw [latch_moves A config failed quiet, latch]
    · rintro before g after rfl dirty quiet
      have here := (failed.moves A config before).move A config (.latch g)
      have later := latch_moves A config here quiet
      rw [moves, List.foldl_append, List.foldl_cons]
      exact later.trans (latch_setError dirty _)
    · intro g clean
      exact setError_of_clean clean _

def grumbler : Automaton Unit Unit Unit Empty where
  step _ _ _ :=
    .latch (some (Fault.of .tokenize [])) fun _ =>
      .note (fun _ => ()) (.latch (some (Fault.of .value [])) fun _ =>
        .setError () (some Fault.endOfInput) (.done () (some ())))
  atEnd e := nomatch e

def grumbling : World Unit Unit Unit Empty := ⟨Reader.ofText [0x61, 0x62], .empty, (), [], []⟩

theorem latch_sticky_grumbler :
    let config : Config Unit Empty := ⟨some (), .stop⟩
    let w' := (grumbling.pass grumbler config 9).2
    let ms : List Move :=
      [.read, .run 5, .unread [0x63], .latch (Fault.of .system []), .latch Fault.endOfInput, .run 5]
    (∃ later e earlier f, w'.journal = later ++ e :: earlier ∧ e.latched? = some f ∧
      (∀ e' ∈ later, e'.isClearing = false) ∧ later.length = 2 ∧
      (∀ e' ∈ later, e'.isByUser = true) ∧ w'.HasFailed ∧
      w'.latch = .failed ((later.findSome? Event.latched?).getD f) ∧
      ∃ g, (grumbling.pass grumbler config 9).1 = .raised g ∧ grumbler.Raises g w') ∧
    w'.latch = .failed (Fault.of .value []) ∧
    (w'.moves grumbler config ms).latch = .failed (Fault.of .system []) ∧
    ∀ turns, (w'.moves grumbler config ms).pass grumbler config turns =
      (.returned false, w'.moves grumbler config ms) := by
  intro config w' ms
  obtain ⟨during, after⟩ := latch_sticky grumbler config
  have passed : grumbling.pass grumbler config 9 = (.raised refusal, w') := rfl
  obtain ⟨new, journal, -, sticky⟩ := during passed
  have split : new = [.log (.latched 1 (some (Fault.of .value []))), .note ()] ++
      .log (.latched 1 (some { Fault.of .tokenize [] with offset := some 1 })) ::
        [.call () [0x61], .pull .sequence] := by
    rw [← List.append_nil new]
    exact journal.symm
  obtain ⟨byUser, failed, latch, result⟩ := sticky split rfl (by simp [Event.isClearing])
  obtain ⟨-, -, latest, refuses, -⟩ := after ms latch rfl
  have told := journal.trans ((List.append_nil new).trans split)
  refine ⟨⟨_, _, _, _, told, rfl, ?_, ?_, byUser, failed, latch, ?_⟩, latch, ?_, refuses⟩
  · simp [Event.isClearing]
  · rfl
  · cases result with
    | inl returned => cases returned
    | inr raised => exact raised
  · have order : ms = [.read, .run 5, .unread [0x63]] ++ .latch (Fault.of .system []) ::
        [.latch Fault.endOfInput, .run 5] := rfl
    exact latest order rfl (by decide)

end World

end RuneMachine
