import RuneMachine.Proofs.Machine.Latch
import RuneMachine.Proofs.Machine.Sentinel

namespace RuneMachine

variable {σ ν Q E α : Type}

namespace World

inductive Turned (A : Automaton σ ν Q E) (policy : Policy E) (q : Q) (w : World σ ν Q E) :
    Turn Q → World σ ν Q E → Prop
  | delivered {u v turn w'} : w.read = (.ok u, v) → v.deliver A q u = (turn, w') →
      Turned A policy q w turn w'
  | substituted {f v c turn w'} : w.read = (.error f, v) → f.isClean = true → v.latch = .empty →
      policy = .substitute c →
      ({ v with latch := .ended }.log (.substituting v.offset [c])).deliver A q [c] = (turn, w') →
      Turned A policy q w turn w'
  | consulted {f v e turn w'} : w.read = (.error f, v) → f.isClean = true → v.latch = .empty →
      policy = .delegate e → (v.log (.delegating v.offset)).consult A e = (turn, w') →
      Turned A policy q w turn w'
  | stopped {f v} : w.read = (.error f, v) → f.isClean = true → v.latch = .empty →
      policy = .stop → Turned A policy q w (.over (.returned false)) (v.log (.stopping v.offset))
  | refused {f v given} : w.read = (.error f, v) → f.isClean = true → v.latch = .empty →
      policy = .unsupported given →
      Turned A policy q w (.over (.raised (Policy.refusal given))) v
  | finished {f v} : w.read = (.error f, v) → f.isClean = true → v.latch ≠ .empty →
      Turned A policy q w (.over (.returned false)) v
  | faulted {f v} : w.read = (.error f, v) → f.isClean = false → f.kind.isCatchable = true →
      Turned A policy q w (.over (.returned false)) (v.latchFault f)
  | interrupted {f v} : w.read = (.error f, v) → f.isClean = false →
      f.kind.isCatchable = false → Turned A policy q w (.over (.raised f)) v

variable {A : Automaton σ ν Q E} {policy : Policy E} {q : Q} {w w' : World σ ν Q E} {turn : Turn Q}

theorem turned_of_turn (h : w.turn A policy q = (turn, w')) : Turned A policy q w turn w' := by
  rcases read : w.read with ⟨f | u, v⟩
  · simp only [World.turn, read] at h
    split at h
    · next clean =>
      cases latch : v.latch with
      | ended =>
        simp only [meetEnd, latch] at h
        cases h
        exact .finished read clean (by simp [latch])
      | failed g =>
        simp only [meetEnd, latch] at h
        cases h
        exact .finished read clean (by simp [latch])
      | empty =>
        cases policy with
        | stop =>
          simp only [meetEnd, latch] at h
          cases h
          exact .stopped read clean latch rfl
        | delegate e =>
          simp only [meetEnd, latch] at h
          exact .consulted read clean latch rfl h
        | substitute c =>
          simp only [meetEnd, latch] at h
          exact .substituted read clean latch rfl h
        | unsupported given =>
          simp only [meetEnd, latch] at h
          cases h
          exact .refused read clean latch rfl
    · next dirty =>
      split at h
      · next catchable =>
        cases h
        exact .faulted read (by simpa using dirty) catchable
      · next uncatchable =>
        cases h
        exact .interrupted read (by simpa using dirty) (by simpa using uncatchable)
  · simp only [World.turn, read] at h
    exact .delivered read h

end World

def Event.isCall : Event ν Q E → Bool
  | .call _ _ => true
  | .callAtEnd _ => true
  | _ => false

inductive Act.Latches : Act σ ν α → World σ ν Q E → (given held : Fault) → Prop
  | now {given next w} : given.isClean = false →
      Latches (.latch (some given) next) w given (given.locate w.offset w.located).1
  | later {fault next w given held} :
      Latches (next (w.setError fault).1) (w.setError fault).2 given held →
      Latches (.latch fault next) w given held
  | unread {u next w given held} : Latches next (w.unread u) given held →
      Latches (.unread u next) w given held
  | note {entry next w given held} :
      Latches next (w.record (.note (entry w.located))) given held →
      Latches (.note entry next) w given held

inductive Automaton.Calls (A : Automaton σ ν Q E) (w : World σ ν Q E) :
    Event ν Q E → Act σ ν (Option Q) → Prop
  | step (q u) : Calls A w (.call q u) (A.step q u w.memory)
  | atEnd (e) : Calls A w (.callAtEnd e) (A.atEnd e w.memory)

namespace World

variable {A : Automaton σ ν Q E} {policy : Policy E} {q : Q} {w w' : World σ ν Q E}

theorem journal_setError (fault : Option Fault) (w : World σ ν Q E) :
    ∃ new, (w.setError fault).2.journal = new ++ w.journal ∧ ∀ e ∈ new, e.isCall = false := by
  cases fault with
  | none => exact ⟨[.log (.latched w.offset none)], rfl, by simp [Event.isCall]⟩
  | some f =>
    by_cases clean : f.isClean = true
    · exact ⟨[], by rw [setError_of_clean clean]; rfl, by simp⟩
    · refine ⟨[.log (.latched w.offset (some (f.locate w.offset w.located).1))], ?_, ?_⟩
      · simp [setError, clean, log, record]
      · simp [Event.isCall]

theorem journal_perform (act : Act σ ν α) (w : World σ ν Q E) :
    ∃ new, (w.perform act).2.journal = new ++ w.journal ∧ ∀ e ∈ new, e.isCall = false := by
  induction act generalizing w with
  | done m a => exact ⟨[], rfl, by simp⟩
  | raise m f => exact ⟨[], rfl, by simp⟩
  | unread u next ih => exact ih (w.unread u)
  | latch fault next ih =>
    obtain ⟨first, journal, quiet⟩ := w.journal_setError fault
    obtain ⟨later, journal', quiet'⟩ := ih (w.setError fault).1 (w.setError fault).2
    refine ⟨later ++ first, ?_, ?_⟩
    · rw [List.append_assoc, ← journal]
      exact journal'
    · rw [List.forall_mem_append]
      exact ⟨quiet', quiet⟩
  | note entry next ih =>
    obtain ⟨later, journal, quiet⟩ := ih (w.record (.note (entry w.located)))
    refine ⟨later ++ [.note (entry w.located)], ?_, ?_⟩
    · rw [List.append_assoc]
      exact journal
    · rw [List.forall_mem_append]
      exact ⟨quiet, by simp [Event.isCall]⟩

theorem latches_of_perform {act : Act σ ν α} {result : Except Fault α} {e : Fault}
    (h : w.perform act = (result, w')) (failed : w'.latch = .failed e) :
    w.latch = .failed e ∨ ∃ given, act.Latches w given e := by
  induction act generalizing w with
  | done m a => cases h; exact .inl failed
  | raise m f => cases h; exact .inl failed
  | unread u next ih =>
    obtain before | ⟨given, latches⟩ := ih h
    · exact .inl before
    · exact .inr ⟨given, .unread latches⟩
  | latch fault next ih =>
    have resumed : (w.setError fault).2.perform (next (w.setError fault).1) = (result, w') := h
    obtain before | ⟨given, latches⟩ := ih _ resumed
    · cases fault with
      | none => cases before
      | some f =>
        by_cases clean : f.isClean = true
        · rw [setError_of_clean clean] at before
          exact .inl before
        · rw [latch_setError (by simpa using clean)] at before
          cases before
          exact .inr ⟨f, .now (by simpa using clean)⟩
    · exact .inr ⟨given, .later latches⟩
  | note entry next ih =>
    obtain before | ⟨given, latches⟩ := ih h
    · exact .inl before
    · exact .inr ⟨given, .note latches⟩

theorem deliver_eq_next {u : Rune} {state : Option Q} (h : w.deliver A q u = (.next state, w')) :
    (w.record (.call q u)).perform (A.step q u w.memory) = (.ok state, w') ∧
      w'.latch.isFailed = false := by
  unfold deliver at h
  split at h
  · cases h
  · next performed =>
    split at h
    · cases h
    · next unfailed =>
      cases h
      exact ⟨performed, by simpa using unfailed⟩

theorem deliver_of_going {u : Rune} {state : Option Q}
    (performed : (w.record (.call q u)).perform (A.step q u w.memory) = (.ok state, w'))
    (going : w'.latch.isFailed = false) : w.deliver A q u = (.next state, w') := by
  simp only [deliver, performed, going, Bool.false_eq_true, if_false]

theorem deliver_eq_returned {u : Rune} {success : Bool}
    (h : w.deliver A q u = (.over (.returned success), w')) :
    success = false ∧ w'.latch.isFailed = true ∧
      ∃ state, (w.record (.call q u)).perform (A.step q u w.memory) = (.ok state, w') := by
  unfold deliver at h
  split at h
  · cases h
  · next performed =>
    split at h
    · next failed =>
      cases h
      exact ⟨rfl, failed, _, performed⟩
    · cases h

theorem consult_eq_next {e : E} {state : Option Q} (h : w.consult A e = (.next state, w')) :
    ∃ q, state = some q := by
  unfold consult at h
  split at h
  · cases h
  · cases h
  · split at h
    · cases h
    · cases h
      exact ⟨_, rfl⟩

theorem consult_eq_returned {e : E} {success : Bool}
    (h : w.consult A e = (.over (.returned success), w')) :
    success = false ∧
      ∃ state, (w.record (.callAtEnd e)).perform (A.atEnd e w.memory) = (.ok state, w') := by
  unfold consult at h
  split at h
  · cases h
  · next performed =>
    cases h
    exact ⟨rfl, _, performed⟩
  · next performed =>
    split at h
    · cases h
      exact ⟨rfl, _, performed⟩
    · cases h

end World

inductive Automaton.Latched (A : Automaton σ ν Q E) (w w' : World σ ν Q E) (e : Fault) : Prop
  | intro {v event act result given} : w.Leads v → A.Calls v event act →
      (v.record event).perform act = (result, w') → act.Latches (v.record event) given e →
      Latched A w w' e

namespace World

variable {A : Automaton σ ν Q E} {policy : Policy E} {q : Q} {w v w' : World σ ν Q E}

theorem latched_of_failed {event : Event ν Q E} {act : Act σ ν (Option Q)}
    {result : Except Fault (Option Q)} (leads : w.Leads v) (going : v.latch.isFailed = false)
    (calls : A.Calls v event act) (performed : (v.record event).perform act = (result, w'))
    (failed : w'.latch.isFailed = true) : ∃ e, w'.latch = .failed e ∧ A.Latched w w' e := by
  cases latch : w'.latch with
  | empty => rw [latch] at failed; cases failed
  | ended => rw [latch] at failed; cases failed
  | failed e =>
    obtain before | ⟨given, latches⟩ := latches_of_perform performed latch
    · have same : v.latch = .failed e := before
      rw [same] at going
      cases going
    · exact ⟨e, rfl, .intro leads calls performed latches⟩

/-- How a pass that was not successful came to its end, given what it read last. -/
inductive Stops (A : Automaton σ ν Q E) (w w' : World σ ν Q E) : Except Fault Rune → Prop
  | ended {f} : f.isClean = true → w'.latch.fault? = none → Stops A w w' (.error f)
  | faulted {f} : f.isClean = false → w'.latch = .failed f → Stops A w w' (.error f)
  | latched {last e} : A.Latched w w' e → w'.latch = .failed e → Stops A w w' last

theorem Stops.of_clean {f : Fault} {result : Except Fault (Option Q)} {event : Event ν Q E}
    {act : Act σ ν (Option Q)} (clean : f.isClean = true) (leads : w.Leads v)
    (going : v.latch.isFailed = false) (calls : A.Calls v event act)
    (performed : (v.record event).perform act = (result, w')) :
    Stops A w w' (.error f) := by
  by_cases failed : w'.latch.isFailed = true
  · obtain ⟨e, latch, latched⟩ := latched_of_failed leads going calls performed failed
    exact .latched latched latch
  · exact .ended clean (by simpa [Latch.isFailed] using failed)

theorem leads_substitution (empty : v.latch = .empty) (c : CodePoint) :
    v.Leads ({ v with latch := .ended }.log (.substituting v.offset [c])) := by
  apply Leads.of_event _ rfl rfl
  apply Event.Timely.of_quiet rfl
  intro failed
  rw [empty] at failed
  cases failed

theorem leads_delegation (empty : v.latch = .empty) :
    v.Leads (v.log (.delegating v.offset)) :=
  leads_record (by rw [empty]; rfl) rfl rfl

theorem called_of_turn (going : w.latch.isFailed = false)
    (h : w.turn A policy q = (.next none, w')) :
    w'.latch.isFailed = false ∧
      ∃ u v, w.Leads v ∧ (v.record (.call q u)).perform (A.step q u v.memory) = (.ok none, w') := by
  cases turned_of_turn h with
  | delivered read delivered =>
    obtain ⟨performed, unfailed⟩ := deliver_eq_next delivered
    exact ⟨unfailed, _, _, (leads_read going read).1, performed⟩
  | @substituted _ _ c _ _ read clean empty policy delivered =>
    obtain ⟨performed, unfailed⟩ := deliver_eq_next delivered
    have leads := (leads_read going read).1.trans (leads_substitution empty c)
    exact ⟨unfailed, _, _, leads, performed⟩
  | consulted read clean empty policy consulted =>
    obtain ⟨_, same⟩ := consult_eq_next consulted
    cases same

theorem stops_of_turn {success : Bool} (going : w.latch.isFailed = false)
    (h : w.turn A policy q = (.over (.returned success), w')) :
    success = false ∧ Stops A w w' w.read.1 := by
  cases turned_of_turn h with
  | @delivered u v _ _ read delivered =>
    obtain ⟨rfl, failed, state, performed⟩ := deliver_eq_returned delivered
    obtain ⟨leads, latch⟩ := leads_read going read
    obtain ⟨e, held, latched⟩ :=
      latched_of_failed leads (latch ▸ going) (.step q u) performed failed
    exact ⟨rfl, .latched latched held⟩
  | @substituted f v c _ _ read clean empty policy delivered =>
    obtain ⟨rfl, failed, state, performed⟩ := deliver_eq_returned delivered
    have leads := (leads_read going read).1.trans (leads_substitution empty c)
    obtain ⟨e, held, latched⟩ := latched_of_failed leads rfl (.step q [c]) performed failed
    exact ⟨rfl, .latched latched held⟩
  | @consulted f v e _ _ read clean empty policy consulted =>
    obtain ⟨rfl, state, performed⟩ := consult_eq_returned consulted
    have leads := (leads_read going read).1.trans (leads_delegation empty)
    have still : (v.log (.delegating v.offset)).latch.isFailed = false := by
      change v.latch.isFailed = false
      rw [empty]
      rfl
    rw [read]
    exact ⟨rfl, .of_clean clean leads still (.atEnd e) performed⟩
  | @stopped f v read clean empty policy =>
    have none : (v.log (.stopping v.offset)).latch.fault? = none := by
      change v.latch.fault? = none
      rw [empty]
      rfl
    rw [read]
    exact ⟨rfl, .ended clean none⟩
  | finished read clean nonempty =>
    obtain ⟨-, latch⟩ := leads_read going read
    rw [read]
    exact ⟨rfl, .ended clean (by simpa [latch, Latch.isFailed] using going)⟩
  | faulted read dirty catchable =>
    rw [read]
    exact ⟨rfl, .faulted dirty rfl⟩

def readsFrom (A : Automaton σ ν Q E) (policy : Policy E) :
    (turns : Nat) → Option Q → World σ ν Q E → List (Except Fault Rune)
  | _, none, _ => []
  | 0, some _, _ => []
  | turns + 1, some q, w =>
    w.read.1 ::
      match w.turn A policy q with
      | (.next state, w) => readsFrom A policy turns state w
      | (.over _, _) => []

def reads (A : Automaton σ ν Q E) (config : Config Q E) (turns : Nat) (w : World σ ν Q E) :
    List (Except Fault Rune) :=
  if w.latch.isFailed then [] else w.readsFrom A config.policy turns config.initial

theorem Stops.after {last : Except Fault Rune} (h : Stops A v w' last) (leads : w.Leads v) :
    Stops A w w' last := by
  cases h with
  | ended clean none => exact .ended clean none
  | faulted dirty latch => exact .faulted dirty latch
  | latched latched latch =>
    cases latched with
    | intro leads' calls performed latches =>
      exact .latched (.intro (leads.trans leads') calls performed latches) latch

theorem called_of_proceed {turns : Nat} {state : Option Q} (going : w.latch.isFailed = false)
    (h : w.proceed A policy turns state = (.returned true, w')) :
    w'.latch.isFailed = false ∧
      (state = none ∧ w' = w ∨ ∃ q u v, w.Leads v ∧
        (v.record (.call q u)).perform (A.step q u v.memory) = (.ok none, w')) := by
  induction turns generalizing w state with
  | zero =>
    cases state with
    | none => cases h; exact ⟨going, .inl ⟨rfl, rfl⟩⟩
    | some q => cases h
  | succ turns ih =>
    cases state with
    | none => cases h; exact ⟨going, .inl ⟨rfl, rfl⟩⟩
    | some q =>
      rcases turned : w.turn A policy q with ⟨state | outcome, v⟩
      · obtain ⟨leads, unfailed⟩ := leads_turn going turned
        simp only [proceed, turned] at h
        obtain ⟨unfailed, ⟨rfl, rfl⟩ | ⟨q', u, v', leads', performed⟩⟩ := ih unfailed h
        · obtain ⟨-, u, v', leads', performed⟩ := called_of_turn going turned
          exact ⟨unfailed, .inr ⟨q, u, v', leads', performed⟩⟩
        · exact ⟨unfailed, .inr ⟨q', u, v', leads.trans leads', performed⟩⟩
      · simp only [proceed, turned] at h
        cases h
        cases (stops_of_turn going turned).1

theorem stops_of_proceed {turns : Nat} {state : Option Q} (going : w.latch.isFailed = false)
    (h : w.proceed A policy turns state = (.returned false, w')) :
    ∃ last, (w.readsFrom A policy turns state).getLast? = some last ∧ Stops A w w' last := by
  induction turns generalizing w state with
  | zero => cases state <;> cases h
  | succ turns ih =>
    cases state with
    | none => cases h
    | some q =>
      rcases turned : w.turn A policy q with ⟨state | outcome, v⟩
      · obtain ⟨leads, unfailed⟩ := leads_turn going turned
        simp only [proceed, turned] at h
        obtain ⟨last, read, stops⟩ := ih unfailed h
        refine ⟨last, ?_, stops.after leads⟩
        simp [readsFrom, turned, List.getLast?_cons, read]
      · simp only [proceed, turned] at h
        cases h
        refine ⟨w.read.1, ?_, (stops_of_turn going turned).2⟩
        simp [readsFrom, turned]

theorem find?_isCall_of_perform {q : Q} {u : Rune} {act : Act σ ν α} {result : Except Fault α}
    (leads : w.Leads v) (h : (v.record (.call q u)).perform act = (result, w')) :
    ∃ new, w'.journal = new ++ w.journal ∧ new.find? Event.isCall = some (.call q u) := by
  obtain ⟨before, journal, -⟩ := leads
  obtain ⟨later, journal', quiet⟩ := journal_perform act (v.record (.call q u))
  rw [h] at journal'
  refine ⟨later ++ .call q u :: before, ?_, ?_⟩
  · rw [List.append_assoc, List.cons_append, ← journal]
    exact journal'
  · have none : later.find? Event.isCall = none := by
      rw [List.find?_eq_none]
      intro e member
      simp [quiet e member]
    simp [List.find?_append, none, List.find?_cons, Event.isCall]

theorem pass_of_going (going : w.latch.isFailed = false) (config : Config Q E) (turns : Nat) :
    w.pass A config turns = w.proceed A config.policy turns config.initial := by
  simp only [pass, going, Bool.false_eq_true, if_false]

theorem called_of_pass {config : Config Q E} {turns : Nat}
    (h : w.pass A config turns = (.returned true, w')) :
    w'.latch.isFailed = false ∧
      (config.initial = none ∧ w' = w ∨ ∃ q u v, w.Leads v ∧
        (v.record (.call q u)).perform (A.step q u v.memory) = (.ok none, w')) := by
  by_cases failed : w.latch.isFailed = true
  · rw [pass_of_failed failed] at h
    cases h
  · have going : w.latch.isFailed = false := by simpa using failed
    rw [pass_of_going going] at h
    exact called_of_proceed going h

theorem stops_of_pass {config : Config Q E} {turns : Nat} (going : w.latch.isFailed = false)
    (h : w.pass A config turns = (.returned false, w')) :
    ∃ last, (w.reads A config turns).getLast? = some last ∧ Stops A w w' last := by
  rw [pass_of_going going] at h
  simpa only [reads, going, Bool.false_eq_true, if_false] using stops_of_proceed going h

theorem Stops.cases_fault? {last : Except Fault Rune} (h : Stops A w w' last) :
    (w'.latch.fault? = none ∧ ∃ f, f.isClean = true ∧ last = .error f) ∨
      ∃ e, w'.latch.fault? = some e ∧ (e.isClean = false ∧ last = .error e ∨ A.Latched w w' e) := by
  cases h with
  | ended clean none => exact .inl ⟨none, _, clean, rfl⟩
  | faulted dirty latch => exact .inr ⟨_, by rw [latch]; rfl, .inl ⟨dirty, rfl⟩⟩
  | latched latched latch => exact .inr ⟨_, by rw [latch]; rfl, .inr latched⟩

theorem isFailed_of_passes {config : Config Q E} {turns : List Nat} {outcomes : List Outcome}
    (going : w.latch.isFailed = false) (h : w.passes A config turns = (outcomes, w'))
    (successful : ∀ outcome ∈ outcomes, outcome = .returned true) : w'.latch.isFailed = false := by
  induction turns generalizing w outcomes with
  | nil => cases h; exact going
  | cons turns later ih =>
    rcases passed : w.pass A config turns with ⟨outcome, v⟩
    rcases rest : v.passes A config later with ⟨outcomes', v'⟩
    simp only [passes, passed, rest] at h
    cases h
    obtain ⟨rfl, others⟩ := List.forall_mem_cons.mp successful
    exact ih (called_of_pass passed).1 rest others

/-- What the result of a pass means. After a success there is no error, and unless the pass had no
state to start in, the last user function called was a state that returned none. After a pass
without success and without an error, the last read met the end of input. An error after a pass
without success was latched before, was raised by the last read, or was passed to the latch by a
user function in the pass. So after passes up to the first without success, the latch tells an input
that has ended from one that has failed. -/
theorem pass_returned (A : Automaton σ ν Q E) (config : Config Q E) :
    (∀ {w w' : World σ ν Q E} {turns : Nat}, w.pass A config turns = (.returned true, w') →
      w'.latch.fault? = none ∧
        (config.initial = none ∧ w' = w ∨
          ∃ (new : List (Event ν Q E)) (q : Q) (u : Rune) (v : World σ ν Q E),
            w'.journal = new ++ w.journal ∧ new.find? Event.isCall = some (.call q u) ∧
            (v.record (.call q u)).perform (A.step q u v.memory) = (.ok none, w'))) ∧
    (∀ {w w' : World σ ν Q E} {turns : Nat}, w.pass A config turns = (.returned false, w') →
      (w'.latch.fault? = none →
        ∃ f, f.isClean = true ∧ (w.reads A config turns).getLast? = some (.error f)) ∧
      ∀ e, w'.latch.fault? = some e →
        w.latch = .failed e ∧ w' = w ∨
        e.isClean = false ∧ (w.reads A config turns).getLast? = some (.error e) ∨
        A.Latched w w' e) ∧
    ∀ {w v w' : World σ ν Q E} {before : List Nat} {turns : Nat} {outcomes : List Outcome},
      w.latch.isFailed = false → w.passes A config before = (outcomes, v) →
      (∀ outcome ∈ outcomes, outcome = .returned true) →
      v.pass A config turns = (.returned false, w') →
      (w'.latch.fault? = none ∧
        ∃ f, f.isClean = true ∧ (v.reads A config turns).getLast? = some (.error f)) ∨
      ∃ e, w'.latch.fault? = some e ∧
        (e.isClean = false ∧ (v.reads A config turns).getLast? = some (.error e) ∨
          A.Latched v w' e) := by
  refine ⟨?_, ?_, ?_⟩
  · intro w w' turns passed
    obtain ⟨unfailed, called⟩ := called_of_pass passed
    refine ⟨by simpa [Latch.isFailed] using unfailed, ?_⟩
    obtain unstarted | ⟨q, u, v, leads, performed⟩ := called
    · exact .inl unstarted
    · obtain ⟨new, journal, found⟩ := find?_isCall_of_perform leads performed
      exact .inr ⟨new, q, u, v, journal, found, performed⟩
  · intro w w' turns passed
    by_cases failed : w.latch.isFailed = true
    · rw [pass_of_failed failed] at passed
      cases passed
      cases latch : w.latch with
      | empty => rw [latch] at failed; cases failed
      | ended => rw [latch] at failed; cases failed
      | failed e =>
        refine ⟨by simp [Latch.fault?], ?_⟩
        intro e' held
        cases held
        exact .inl ⟨rfl, rfl⟩
    · obtain ⟨last, read, stops⟩ := stops_of_pass (by simpa using failed) passed
      rw [read]
      obtain ⟨none, f, clean, rfl⟩ | ⟨e, held, how⟩ := stops.cases_fault?
      · exact ⟨fun _ => ⟨f, clean, rfl⟩, by simp [none]⟩
      · refine ⟨by simp [held], ?_⟩
        intro e' held'
        rw [held] at held'
        cases held'
        rw [Option.some_inj]
        exact .inr how
  · intro w v w' before turns outcomes going passes successful passed
    have still := isFailed_of_passes going passes successful
    obtain ⟨last, read, stops⟩ := stops_of_pass still passed
    simpa only [read, Option.some_inj] using stops.cases_fault?

def statements : Automaton Unit Empty Unit Unit where
  step _ u _ := .done () (if u = [0x3b] then none else some ())
  atEnd _ _ := .latch (some (Fault.of .tokenize [])) fun _ => .done () (some ())

theorem pass_returned_statements :
    let config : Config Unit Unit := ⟨some (), .delegate ()⟩
    let w : World Unit Empty Unit Unit := start (Reader.ofText [0x61, 0x3b, 0x62]) ()
    let v := (w.pass statements config 9).2
    let w' := (v.pass statements config 9).2
    let e : Fault := { Fault.of .tokenize [] with offset := some 3 }
    w.passes statements config [9] = ([.returned true], v) ∧
      v.pass statements config 9 = (.returned false, w') ∧
      (∃ (u : Rune) (v' : World Unit Empty Unit Unit),
        (v'.record (.call () u)).perform (statements.step () u v'.memory) = (.ok none, v)) ∧
      w'.latch.fault? = some e ∧ statements.Latched v w' e := by
  intro config w v w' e
  have succeeded : w.pass statements config 9 = (.returned true, v) := rfl
  have passed : w.passes statements config [9] = ([.returned true], v) := rfl
  have ended : v.pass statements config 9 = (.returned false, w') := rfl
  have held : w'.latch.fault? = some e := rfl
  obtain ⟨success, -, loop⟩ := pass_returned statements config
  refine ⟨passed, ended, ?_, held, ?_⟩
  · obtain ⟨-, ⟨unstarted, -⟩ | ⟨-, q, u, v', -, -, performed⟩⟩ := success succeeded
    · cases unstarted
    · exact ⟨u, v', performed⟩
  · obtain ⟨none, -⟩ | ⟨e', held', ⟨dirty, read⟩ | latched⟩ :=
      loop (by rfl) passed (by simp) ended
    · cases held.symm.trans none
    · have last : (v.reads statements config 9).getLast? = some (.error Fault.endOfInput) := rfl
      cases last.symm.trans read
      cases dirty
    · obtain rfl : e = e' := Option.some.inj (held.symm.trans held')
      exact latched

end World

end RuneMachine
