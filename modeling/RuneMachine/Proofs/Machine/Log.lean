import RuneMachine.Proofs.Machine.Marker

namespace RuneMachine

variable {σ ν Q E α : Type}

namespace LogRecord

def settle (latch : Latch) : LogRecord → Latch
  | .readFault _ f => .failed f
  | .latched _ (some f) => .failed f
  | .latched _ none => .empty
  | .substituting _ _ => .ended
  | .stopping _ => latch
  | .delegating _ => latch

def replay (records : List LogRecord) : Latch := records.foldl settle .empty

end LogRecord

def Event.record? : Event ν Q E → Option LogRecord
  | .log record => some record
  | _ => none

namespace World

def records (w : World σ ν Q E) : List LogRecord := w.journal.reverse.filterMap Event.record?

theorem records_record (w : World σ ν Q E) (e : Event ν Q E) :
    (w.record e).records = w.records ++ e.record?.toList := by
  rw [records, records, record, List.reverse_cons, List.filterMap_append, List.filterMap_cons]
  cases e.record? <;> rfl

theorem records_log (w : World σ ν Q E) (record : LogRecord) :
    (w.log record).records = w.records ++ [record] := records_record w _

theorem records_read {w v : World σ ν Q E} {result : Except Fault Rune}
    (h : w.read = (result, v)) : v.records = w.records := by
  cases h
  simp [records, Event.record?]

end World

theorem Event.replay_eq (events : List (Event ν Q E)) :
    Event.replay events .empty = LogRecord.replay (events.reverse.filterMap record?) := by
  induction events with
  | nil => rfl
  | cons e events ih =>
    rw [List.reverse_cons, List.filterMap_append, LogRecord.replay, List.foldl_append,
      ← LogRecord.replay, ← ih]
    cases e with
    | log record =>
      cases record with
      | latched n fault => cases fault <;> rfl
      | readFault n f => rfl
      | stopping n => rfl
      | delegating n => rfl
      | substituting n u => rfl
    | pull shape => rfl
    | call q u => rfl
    | callAtEnd e => rfl
    | note entry => rfl

inductive Deed where
  | read (result : Except Fault Rune)
  | latch (fault : Option Fault)

structure Occasion where
  deed : Deed
  offset : Int
  latch : Latch
  located : Locations

def World.occasion (w : World σ ν Q E) (deed : Deed) : Occasion :=
  ⟨deed, w.offset, w.latch, w.located⟩

def Policy.record? (offset : Int) : Policy E → Option LogRecord
  | .stop => some (.stopping offset)
  | .delegate _ => some (.delegating offset)
  | .substitute c => some (.substituting offset [c])
  | .unsupported _ => none

namespace Occasion

/-- What is logged. The end of input is handled as long as nothing is in the latch; any other fault
of a read is logged, unless it is an interrupt, which goes through. What is passed to the latch is
logged, with the place that it is given there, unless it is refused. -/
def record? (policy : Policy E) (o : Occasion) : Option LogRecord :=
  match o.deed with
  | .read (.ok _) => none
  | .read (.error f) =>
    if f.isClean then
      if o.latch = .empty then policy.record? o.offset else none
    else if f.kind.isCatchable then some (.readFault o.offset f)
    else none
  | .latch none => some (.latched o.offset none)
  | .latch (some f) =>
    if f.isClean then none
    else some (.latched o.offset (some (f.locate o.offset o.located).1))

def logged (policy : Policy E) (occasions : List Occasion) : List LogRecord :=
  occasions.filterMap (record? policy)

variable {policy : Policy E} {o : Occasion} {occasions later : List Occasion}

theorem logged_append :
    logged policy (occasions ++ later) = logged policy occasions ++ logged policy later :=
  List.filterMap_append

theorem logged_cons : logged policy (o :: occasions) =
    (o.record? policy).toList ++ logged policy occasions := by
  unfold logged
  rw [List.filterMap_cons]
  cases o.record? policy <;> rfl

end Occasion

def Act.occasions : Act σ ν α → World σ ν Q E → List Occasion
  | .done _ _, _ => []
  | .raise _ _, _ => []
  | .unread u next, w => next.occasions (w.unread u)
  | .latch fault next, w =>
    w.occasion (.latch fault) :: (next (w.setError fault).1).occasions (w.setError fault).2
  | .note e next, w => next.occasions (w.record (.note (e w.located)))

namespace World

def occasionsInCall (A : Automaton σ ν Q E) (policy : Policy E) (q : Q) (w : World σ ν Q E) :
    List Occasion :=
  match w.read with
  | (.ok u, v) => (A.step q u v.memory).occasions (v.record (.call q u))
  | (.error f, v) =>
    if f.isClean then
      match v.latch, policy with
      | .empty, .delegate e =>
        (A.atEnd e v.memory).occasions
          ((v.log (.delegating v.offset)).record (.callAtEnd e))
      | .empty, .substitute c =>
        (A.step q [c] v.memory).occasions
          (({ v with latch := .ended }.log (.substituting v.offset [c])).record (.call q [c]))
      | _, _ => []
    else []

def occasionsInTurn (A : Automaton σ ν Q E) (policy : Policy E) (q : Q) (w : World σ ν Q E) :
    List Occasion :=
  w.read.2.occasion (.read w.read.1) :: w.occasionsInCall A policy q

def occasionsFrom (A : Automaton σ ν Q E) (policy : Policy E) :
    (turns : Nat) → Option Q → World σ ν Q E → List Occasion
  | _, none, _ => []
  | 0, some _, _ => []
  | turns + 1, some q, w =>
    w.occasionsInTurn A policy q ++
      match w.turn A policy q with
      | (.next state, w) => occasionsFrom A policy turns state w
      | (.over _, _) => []

def occasions (A : Automaton σ ν Q E) (config : Config Q E) (turns : Nat) (w : World σ ν Q E) :
    List Occasion :=
  if w.latch.isFailed then [] else w.occasionsFrom A config.policy turns config.initial

def occasionsIn (A : Automaton σ ν Q E) (config : Config Q E) (w : World σ ν Q E) :
    Incident σ ν → List Occasion
  | .run turns => w.occasions A config turns
  | .control act => act.occasions w
  | .read => []
  | .place _ => []

def account (A : Automaton σ ν Q E) (config : Config Q E) :
    List (Incident σ ν) → World σ ν Q E → List Occasion
  | [], _ => []
  | incident :: history, w =>
    w.occasionsIn A config incident ++ account A config history (w.undergo A config incident)

variable {A : Automaton σ ν Q E} {policy : Policy E} {q : Q} {w v w' : World σ ν Q E}

theorem records_setError (policy : Policy E) (fault : Option Fault) (w : World σ ν Q E) :
    (w.setError fault).2.records =
      w.records ++ ((w.occasion (.latch fault)).record? policy).toList := by
  cases fault with
  | none => exact records_log _ _
  | some f =>
    cases clean : f.isClean with
    | true => simp [setError_of_clean clean, Occasion.record?, occasion, clean]
    | false =>
      simp only [setError, clean, Occasion.record?, occasion, Bool.false_eq_true, if_false]
      exact records_log _ _

theorem records_perform (policy : Policy E) (act : Act σ ν α) (w : World σ ν Q E) :
    (w.perform act).2.records = w.records ++ Occasion.logged policy (act.occasions w) := by
  induction act generalizing w with
  | done m a => exact (List.append_nil _).symm
  | raise m f => exact (List.append_nil _).symm
  | unread u next ih => exact ih (w.unread u)
  | latch fault next ih =>
    rw [Act.occasions, Occasion.logged_cons, ← List.append_assoc, ← records_setError]
    exact ih _ _
  | note entry next ih =>
    have noted := records_record w (.note (entry w.located))
    rw [Act.occasions, ← List.append_nil w.records]
    exact (ih _).trans (congrArg (· ++ _) noted)

theorem records_call {e : Event ν Q E} {act : Act σ ν α} (silent : e.record? = none)
    {before : List LogRecord} (logged : v.records = w.records ++ before) :
    ((v.record e).perform act).2.records =
      w.records ++ (before ++ Occasion.logged policy (act.occasions (v.record e))) := by
  rw [records_perform policy, records_record, silent, logged]
  simp

theorem records_turn {turn : Turn Q} (h : w.turn A policy q = (turn, w')) :
    w'.records = w.records ++ Occasion.logged policy (w.occasionsInTurn A policy q) := by
  rw [occasionsInTurn, Occasion.logged_cons]
  cases turned_of_turn h with
  | @delivered u v _ _ read delivered =>
    have silent : v.records = w.records ++ [] := (records_read read).trans (List.append_nil _).symm
    obtain rfl := eq_of_deliver delivered
    rw [records_call rfl silent]
    simp only [occasionsInCall, read, occasion, Occasion.record?]
    rfl
  | @substituted f v c _ _ read clean empty substitutes delivered =>
    subst substitutes
    have logged : ({ v with latch := .ended }.log (.substituting v.offset [c])).records =
        w.records ++ [.substituting v.offset [c]] := by
      rw [records_log, ← records_read read]
      rfl
    obtain rfl := eq_of_deliver delivered
    rw [records_call rfl logged]
    simp only [occasionsInCall, read, clean, empty, occasion, Occasion.record?, if_true]
    rfl
  | @consulted f v e _ _ read clean empty delegates consulted =>
    subst delegates
    have logged : (v.log (.delegating v.offset)).records =
        w.records ++ [.delegating v.offset] := by
      rw [records_log, records_read read]
    obtain rfl := eq_of_consult consulted
    rw [records_call rfl logged]
    simp only [occasionsInCall, read, clean, empty, occasion, Occasion.record?, if_true]
    rfl
  | stopped read clean empty stops =>
    subst stops
    rw [records_log, records_read read]
    simp only [occasionsInCall, read, clean, empty, occasion, Occasion.record?, if_true]
    rfl
  | refused read clean empty unsupported =>
    subst unsupported
    rw [records_read read]
    simp only [occasionsInCall, read, clean, empty, occasion, Occasion.record?, if_true]
    exact (List.append_nil _).symm
  | finished read clean nonempty =>
    -- With the mark of a substitution in the latch, the policy is not asked.
    have silent : w.occasionsInCall A policy q = [] := by
      simp only [occasionsInCall, read, clean, if_true]
      split
      · next empty => exact absurd empty nonempty
      · next empty => exact absurd empty nonempty
      · rfl
    rw [records_read read, silent]
    simp [read, clean, nonempty, occasion, Occasion.record?, Occasion.logged]
  | @faulted f v read dirty catchable =>
    have logged : (v.latchFault f).records = v.records ++ [.readFault v.offset f] :=
      records_log _ _
    rw [logged, records_read read]
    simp [occasionsInCall, read, dirty, catchable, occasion, Occasion.record?, Occasion.logged]
  | interrupted read dirty uncatchable =>
    rw [records_read read]
    simp [occasionsInCall, read, dirty, uncatchable, occasion, Occasion.record?, Occasion.logged]

theorem records_proceed (A : Automaton σ ν Q E) (policy : Policy E) (turns : Nat)
    (state : Option Q) (w : World σ ν Q E) :
    (w.proceed A policy turns state).2.records =
      w.records ++ Occasion.logged policy (w.occasionsFrom A policy turns state) := by
  induction turns generalizing w state with
  | zero => cases state <;> exact (List.append_nil _).symm
  | succ turns ih =>
    cases state with
    | none => exact (List.append_nil _).symm
    | some q =>
      rcases turned : w.turn A policy q with ⟨state | outcome, v⟩
      · simp only [proceed, occasionsFrom, turned, Occasion.logged_append]
        rw [ih, records_turn turned, List.append_assoc]
      · simp only [proceed, occasionsFrom, turned, List.append_nil]
        exact records_turn turned

theorem records_pass (A : Automaton σ ν Q E) (config : Config Q E) (turns : Nat)
    (w : World σ ν Q E) :
    (w.pass A config turns).2.records =
      w.records ++ Occasion.logged config.policy (w.occasions A config turns) := by
  unfold pass occasions
  split
  · exact (List.append_nil _).symm
  · exact records_proceed A config.policy turns config.initial w

theorem records_undergo (A : Automaton σ ν Q E) (config : Config Q E) (incident : Incident σ ν)
    (w : World σ ν Q E) :
    (w.undergo A config incident).records =
      w.records ++ Occasion.logged config.policy (w.occasionsIn A config incident) := by
  cases incident with
  | run turns => exact records_pass A config turns w
  | control act => exact records_perform config.policy act w
  | read => exact (records_read rfl).trans (List.append_nil _).symm
  | place located => exact (List.append_nil _).symm

theorem records_live (A : Automaton σ ν Q E) (config : Config Q E) (history : List (Incident σ ν))
    (w : World σ ν Q E) :
    (w.live A config history).records =
      w.records ++ Occasion.logged config.policy (w.account A config history) := by
  induction history generalizing w with
  | nil => exact (List.append_nil _).symm
  | cons incident history ih =>
    rw [account, Occasion.logged_append, ← List.append_assoc, ← records_undergo]
    exact ih _

/-- The log is a complete journal of the latch. Whatever the source, the states and the policy, and
whatever happens to a machine, its records are those of its occasions, in their order: one for each
fault of a read in a pass that is neither the end of input nor an interrupt, one for each error that
is passed to its latch and not refused and for each time the latch is emptied, and one for each end
of input that is handled by stopping, delegating or substituting, all with the offset of the moment.
At every step on the way, the log replayed from an empty latch gives the latch. -/
theorem live_log (A : Automaton σ ν Q E) (config : Config Q E) (r : Reader) (m : σ)
    (history : List (Incident σ ν)) :
    let w₀ : World σ ν Q E := start r m
    let w := w₀.live A config history
    w.records = Occasion.logged config.policy (w₀.account A config history) ∧
    Steps config.policy w₀ w ∧
    ∀ v, Steps config.policy w₀ v → v.latch = LogRecord.replay v.records := by
  refine ⟨?_, steps_live A config history _, ?_⟩
  · exact (records_live A config history _).trans (List.nil_append _)
  · intro v steps
    exact ((Books.start r m).steps steps).latch.trans (Event.replay_eq v.journal)

def moody : Automaton Unit Unit Unit Empty where
  step _ u _ :=
    if u = [0x21] then .setError () (some (Fault.of .tokenize [])) (.done () (some ()))
    else if u = [0x3b] then .done () none
    else .done () (some ())
  atEnd e := nomatch e

theorem live_log_moody :
    let config : Config Unit Empty := ⟨some (), .substitute 0x3b⟩
    let source : Source := .ofItems .iterator [.text [0x61, 0x21], .fault (Fault.of .blocking [])]
    let control (fault : Option Fault) : Incident Unit Unit :=
      .control (.latch fault fun _ => .done () ())
    let history : List (Incident Unit Unit) :=
      [.run 9, .run 9, control (some Fault.endOfInput), control none, .run 9, control none, .run 9,
        .run 9]
    let w₀ : World Unit Unit Unit Empty := start (.ofSource source) ()
    let w := w₀.live moody config history
    w.records =
      [.latched 2 (some { Fault.of .tokenize [] with offset := some 2 }), .latched 2 none,
        .readFault 2 (Fault.of .blocking []), .latched 2 none, .substituting 2 [0x3b]] ∧
    w.records = Occasion.logged config.policy (w₀.account moody config history) ∧
    w.latch = .ended ∧ w.latch = LogRecord.replay w.records := by
  intro config source control history w₀ w
  obtain ⟨logged, steps, replayed⟩ := live_log moody config (.ofSource source) () history
  exact ⟨by decide +kernel, logged, by decide +kernel, replayed w steps⟩

end World

end RuneMachine
