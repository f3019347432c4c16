import RuneMachine.Proofs.Machine.History

namespace RuneMachine

variable {σ ν Q E α : Type}

def Event.isReport : Event ν Q E → Bool
  | .log (.stopping _) => true
  | .log (.delegating _) => true
  | .callAtEnd _ => true
  | _ => false

namespace World

def muted (w : World σ ν Q E) : World σ ν Q E :=
  { w with journal := w.journal.filter fun e => !e.isReport }

@[simp] theorem latch_muted (w : World σ ν Q E) : w.muted.latch = w.latch := rfl

@[simp] theorem memory_muted (w : World σ ν Q E) : w.muted.memory = w.memory := rfl

theorem muted_record_of_isReport {e : Event ν Q E} (report : e.isReport = true)
    (w : World σ ν Q E) : (w.record e).muted = w.muted := by
  simp [muted, record, report]

theorem record_muted {e : Event ν Q E} (other : e.isReport = false) (w : World σ ν Q E) :
    w.muted.record e = (w.record e).muted := by
  simp [muted, record, other]

theorem read_muted (w : World σ ν Q E) : w.muted.read = w.read.map id muted := by
  simp [read, muted, Event.isReport]

theorem setError_muted (fault : Option Fault) (w : World σ ν Q E) :
    w.muted.setError fault = (w.setError fault).map id muted := by
  cases fault with
  | none => simp [setError, muted, log, record, offset, Event.isReport]
  | some f =>
    by_cases clean : f.isClean = true
    · simp [setError_of_clean clean]
    · simp [setError, clean, muted, log, record, offset, Event.isReport]

theorem latchFault_muted (f : Fault) (w : World σ ν Q E) :
    w.muted.latchFault f = (w.latchFault f).muted := by
  simp [latchFault, muted, log, record, offset, Event.isReport]

theorem perform_muted (act : Act σ ν α) (w : World σ ν Q E) :
    w.muted.perform act = (w.perform act).map id muted := by
  induction act generalizing w with
  | done m a => rfl
  | raise m f => rfl
  | unread u next ih => exact ih (w.unread u)
  | latch fault next ih =>
    simp only [perform, setError_muted]
    exact ih (w.setError fault).1 (w.setError fault).2
  | note entry next ih =>
    simp only [perform]
    rw [record_muted rfl]
    exact ih (w.record (.note (entry w.located)))

theorem deliver_muted (A : Automaton σ ν Q E) (q : Q) (u : Rune) (w : World σ ν Q E) :
    w.muted.deliver A q u = (w.deliver A q u).map id muted := by
  have performed := perform_muted (A.step q u w.memory) (w.record (.call q u))
  rw [← record_muted rfl] at performed
  rcases called : (w.record (.call q u)).perform (A.step q u w.memory) with ⟨f | state, v⟩
  · rw [called] at performed
    simp only [deliver, called, memory_muted, performed]
    rfl
  · rw [called] at performed
    simp only [deliver, called, memory_muted, performed, Prod.map, id, latch_muted]
    by_cases failed : v.latch.isFailed = true <;> simp [failed]

def OnlyReports (A : Automaton σ ν Q E) (policy : Policy E) (report : Outcome) : Prop :=
  ∀ (q : Q) (w : World σ ν Q E), w.latch = .empty →
    ∃ w', w.meetEnd A policy q = (.over report, w') ∧ w'.muted = w.muted

inductive Concur (ends : Outcome → α) (report : Outcome) :
    α × World σ ν Q E → α × World σ ν Q E → Prop
  | same {a w v} : w.muted = v.muted → (a = ends (.returned false) → w.latch.isFailed = true) →
      Concur ends report (a, w) (a, v)
  | reported {w v} : w.muted = v.muted → w.latch = .empty →
      Concur ends report (ends (.returned false), w) (ends report, v)

variable {A : Automaton σ ν Q E} {policy : Policy E} {report : Outcome} {q : Q}
  {w v w' : World σ ν Q E}

theorem onlyReports_delegate {e : E} (idle : ∀ m, A.atEnd e m = .done m none) :
    OnlyReports A (.delegate e) (.returned false) := by
  intro q w empty
  refine ⟨(w.log (.delegating w.offset)).record (.callAtEnd e), ?_, ?_⟩
  · simp only [meetEnd, empty, consult, idle, perform]
    rfl
  · rw [muted_record_of_isReport rfl]
    exact muted_record_of_isReport rfl w

theorem onlyReports_unsupported (given : Foreign) :
    OnlyReports A (.unsupported given) (.raised (Policy.refusal given)) := by
  intro q w empty
  exact ⟨w, by simp only [meetEnd, empty], rfl⟩

theorem Concur.muted {ends : Outcome → α} {x y : α × World σ ν Q E} (h : Concur ends report x y) :
    x.2.muted = y.2.muted := by
  cases h with
  | same muted => exact muted
  | reported muted => exact muted

theorem congr_of_muted {work : World σ ν Q E → α × World σ ν Q E}
    (commutes : ∀ w, work w.muted = (work w).map id muted) (h : w.muted = v.muted) :
    (work w).1 = (work v).1 ∧ (work w).2.muted = (work v).2.muted := by
  have same : (work w).map id muted = (work v).map id muted := by
    rw [← commutes, h, commutes]
  exact Prod.mk.inj same

theorem concur_deliver (h : w.muted = v.muted) (u : Rune) :
    Concur .over report (w.deliver A q u) (v.deliver A q u) := by
  obtain ⟨turns, same⟩ := congr_of_muted (deliver_muted A q u) h
  rcases hw : w.deliver A q u with ⟨turn, w'⟩
  rcases hv : v.deliver A q u with ⟨turn', v'⟩
  rw [hw, hv] at turns same
  obtain rfl : turn = turn' := turns
  apply Concur.same same
  rintro rfl
  obtain ⟨-, failed, -⟩ := deliver_eq_returned hw
  exact failed

theorem concur_meetEnd (reports : OnlyReports A policy report) (h : w.muted = v.muted)
    (unmarked : w.latch ≠ .ended) (q : Q) :
    Concur .over report (w.meetEnd A .stop q) (v.meetEnd A policy q) := by
  have latches : w.latch = v.latch := by rw [← latch_muted, h, latch_muted]
  cases latch : w.latch with
  | empty =>
    obtain ⟨v', met, same⟩ := reports q v (latches.symm.trans latch)
    have stopped : w.meetEnd A .stop q = (.over (.returned false), w.log (.stopping w.offset)) := by
      simp only [meetEnd, latch]
    rw [stopped, met]
    refine .reported ?_ latch
    rw [same, ← h]
    exact muted_record_of_isReport rfl w
  | ended => exact absurd latch unmarked
  | failed f =>
    -- An error in the latch hides the end of input from every policy.
    simp only [meetEnd, latch, ← latches]
    exact .same h fun _ => by simp [latch, Latch.isFailed, Latch.fault?]

theorem concur_turn (reports : OnlyReports A policy report) (h : w.muted = v.muted)
    (unmarked : w.latch ≠ .ended) (q : Q) :
    Concur .over report (w.turn A .stop q) (v.turn A policy q) := by
  obtain ⟨results, same⟩ := congr_of_muted read_muted h
  have latch : w.read.2.latch = w.latch := rfl
  rcases hw : w.read with ⟨result, w'⟩
  rcases hv : v.read with ⟨result', v'⟩
  rw [hw, hv] at results same
  rw [hw] at latch
  obtain rfl : result = result' := results
  simp only [turn, hw, hv]
  cases result with
  | ok u => exact concur_deliver same u
  | error f =>
    dsimp only
    split
    · exact concur_meetEnd reports same (latch ▸ unmarked) q
    · split
      · refine .same ?_ fun _ => rfl
        rw [← latchFault_muted, same, latchFault_muted]
      · exact .same same (by simp)

theorem Step.latch_ne_ended (step : Step .stop w w') (h : w.latch ≠ .ended) :
    w'.latch ≠ .ended := by
  cases step with
  | remember m => exact h
  | unread u => exact h
  | note entry => exact h
  | place located => exact h
  | call q u => exact h
  | stop => exact h
  | delegate e => exact h
  | read read =>
    cases read
    exact h
  | fault => simp [latchFault, log, record]
  | substitute _ _ _ _ substitutes => cases substitutes
  | latch fault =>
    cases fault with
    | none => simp [setError, log, record]
    | some f =>
      cases clean : f.isClean with
      | true =>
        rw [setError_of_clean clean]
        exact h
      | false => simp [latch_setError clean]

theorem Steps.latch_ne_ended (steps : Steps .stop w w') (h : w.latch ≠ .ended) :
    w'.latch ≠ .ended := by
  induction steps with
  | refl => exact h
  | tail _ step ih => exact step.latch_ne_ended ih

theorem concur_proceed (reports : OnlyReports A policy report) (h : w.muted = v.muted)
    (unmarked : w.latch ≠ .ended) (turns : Nat) (state : Option Q) :
    Concur id report (w.proceed A .stop turns state) (v.proceed A policy turns state) := by
  induction turns generalizing w v state with
  | zero => cases state <;> exact .same h (by simp)
  | succ turns ih =>
    cases state with
    | none => exact .same h (by simp)
    | some q =>
      have concur := concur_turn reports h unmarked q
      rcases hw : w.turn A .stop q with ⟨turn, w'⟩
      rcases hv : v.turn A policy q with ⟨turn', v'⟩
      rw [hw, hv] at concur
      simp only [proceed, hw, hv]
      cases concur with
      | reported same empty => exact .reported same empty
      | same same failed =>
        rcases turn with state | outcome
        · have still := Steps.latch_ne_ended (steps_turn hw) unmarked
          exact ih same still state
        · refine .same same ?_
          rintro rfl
          exact failed rfl

theorem concur_pass (reports : OnlyReports A policy report) (h : w.muted = v.muted)
    (unmarked : w.latch ≠ .ended) (initial : Option Q) (turns : Nat) :
    Concur id report (w.pass A ⟨initial, .stop⟩ turns) (v.pass A ⟨initial, policy⟩ turns) := by
  have latches : w.latch = v.latch := by rw [← latch_muted, h, latch_muted]
  unfold pass
  rw [← latches]
  split
  · next failed => exact .same h fun _ => failed
  · exact concur_proceed reports h unmarked turns initial

theorem muted_undergo (reports : OnlyReports A policy report) (h : w.muted = v.muted)
    (unmarked : w.latch ≠ .ended) (initial : Option Q) (incident : Incident σ ν) :
    (w.undergo A ⟨initial, .stop⟩ incident).muted =
      (v.undergo A ⟨initial, policy⟩ incident).muted := by
  cases incident with
  | run turns => exact (concur_pass reports h unmarked initial turns).muted
  | control act => exact (congr_of_muted (perform_muted act) h).2
  | read => exact (congr_of_muted read_muted h).2
  | place located => exact congrArg (fun w : World σ ν Q E => { w with located := located }) h

theorem muted_live (reports : OnlyReports A policy report) (h : w.muted = v.muted)
    (unmarked : w.latch ≠ .ended) (initial : Option Q) (history : List (Incident σ ν)) :
    (w.live A ⟨initial, .stop⟩ history).muted = (v.live A ⟨initial, policy⟩ history).muted := by
  induction history generalizing w v with
  | nil => exact h
  | cons incident history ih =>
    have steps := steps_undergo A ⟨initial, .stop⟩ w incident
    have still := Steps.latch_ne_ended steps unmarked
    exact ih (muted_undergo reports h unmarked initial incident) still

theorem pass_of_onlyReports (reports : OnlyReports A policy report) (initial : Option Q)
    (r : Reader) (m : σ) (history : List (Incident σ ν)) (turns : Nat) {outcome : Outcome}
    {s : World σ ν Q E}
    (stops : ((start r m).live A ⟨initial, .stop⟩ history).pass A ⟨initial, .stop⟩ turns =
      (outcome, s)) :
    ((start r m).live A ⟨initial, policy⟩ history).muted =
      ((start r m).live A ⟨initial, .stop⟩ history).muted ∧
    ∃ v, ((start r m).live A ⟨initial, policy⟩ history).pass A ⟨initial, policy⟩ turns =
        (if outcome = .returned false ∧ s.latch.fault? = none then report else outcome, v) ∧
      v.muted = s.muted := by
  have unmarked : (start r m : World σ ν Q E).latch ≠ .ended := by simp [start]
  have same := muted_live reports rfl unmarked initial history
  have still := Steps.latch_ne_ended (steps_live A ⟨initial, .stop⟩ history _) unmarked
  have concur := concur_pass reports same still initial turns
  rw [stops] at concur
  rcases passed : ((start r m).live A ⟨initial, policy⟩ history).pass A ⟨initial, policy⟩ turns
    with ⟨outcome', v⟩
  rw [passed] at concur
  refine ⟨same.symm, v, ?_, concur.muted.symm⟩
  cases concur with
  | same muted failed =>
    rw [if_neg]
    rintro ⟨rfl, unfailed⟩
    simp [Latch.isFailed, unfailed] at failed
  | reported muted empty =>
    rw [if_pos ⟨rfl, by rw [empty]; rfl⟩]
    rfl

/-- Three machines that differ only in their policies, after any history that they share: the next
pass of one that delegates to an idle function comes to the same as that of one that stops, and so
does that of one with an unsupported policy, except that it raises where the others return without
success and without an error. After it, as before it, they have the same reader, latch, memory and
journal, reports apart. -/
theorem live_reports (A : Automaton σ ν Q E) {e : E} (idle : ∀ m, A.atEnd e m = .done m none)
    (given : Foreign) (initial : Option Q) (r : Reader) (m : σ) (history : List (Incident σ ν))
    (turns : Nat) :
    let machine (policy : Policy E) : World σ ν Q E :=
      (start r m).live A ⟨initial, policy⟩ history
    (machine (.delegate e)).muted = (machine .stop).muted ∧
    (machine (.unsupported given)).muted = (machine .stop).muted ∧
    ∃ outcome s d u,
      (machine .stop).pass A ⟨initial, .stop⟩ turns = (outcome, s) ∧
      (machine (.delegate e)).pass A ⟨initial, .delegate e⟩ turns = (outcome, d) ∧
      (machine (.unsupported given)).pass A ⟨initial, .unsupported given⟩ turns =
        (if outcome = .returned false ∧ s.latch.fault? = none then .raised (Policy.refusal given)
          else outcome, u) ∧
      d.muted = s.muted ∧ u.muted = s.muted := by
  have delegates := onlyReports_delegate idle
  have refuses := onlyReports_unsupported given (A := A)
  rcases stops : ((start r m).live A ⟨initial, .stop⟩ history).pass A ⟨initial, .stop⟩ turns
    with ⟨outcome, s⟩
  obtain ⟨before, d, delegated, same⟩ :=
    pass_of_onlyReports delegates initial r m history turns stops
  obtain ⟨before', u, refused, same'⟩ :=
    pass_of_onlyReports refuses initial r m history turns stops
  have reported : (if outcome = .returned false ∧ s.latch.fault? = none then .returned false
      else outcome) = outcome := by
    split
    · next ended => exact ended.1.symm
    · rfl
  rw [reported] at delegated
  exact ⟨before, before', outcome, s, d, u, stops, delegated, refused, same, same'⟩

def clerk : Automaton Bool Empty Unit Unit where
  step _ u seen :=
    if u = [0x3b] then
      if seen then .done false none else .unread u (.done true none)
    else .done seen (some ())
  atEnd _ seen := .done seen none

theorem live_reports_clerk :
    let given : Foreign := .value .none
    let machine (policy : Policy Unit) : World Bool Empty Unit Unit :=
      (start (Reader.ofText [0x61, 0x3b, 0x62]) false).live clerk ⟨some (), policy⟩
        [.run 9, .run 9, .run 9]
    (∀ seen, clerk.atEnd () seen = .done seen none) ∧
    ∃ s d u,
      (machine .stop).pass clerk ⟨some (), .stop⟩ 9 = (.returned false, s) ∧
      (machine (.delegate ())).pass clerk ⟨some (), .delegate ()⟩ 9 = (.returned false, d) ∧
      (machine (.unsupported given)).pass clerk ⟨some (), .unsupported given⟩ 9 =
        (.raised (Policy.refusal given), u) ∧
      d.muted = s.muted ∧ u.muted = s.muted := by
  intro given machine
  have idle : ∀ seen, clerk.atEnd () seen = .done seen none := fun _ => rfl
  refine ⟨idle, ?_⟩
  obtain ⟨-, -, outcome, s, d, u, stopped, delegated, refused, same⟩ :=
    live_reports clerk idle given (some ()) (Reader.ofText [0x61, 0x3b, 0x62]) false
      [.run 9, .run 9, .run 9] 9
  cases stopped
  exact ⟨_, d, u, rfl, delegated, refused, same⟩

end World

end RuneMachine
