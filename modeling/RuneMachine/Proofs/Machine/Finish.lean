import RuneMachine.Proofs.Machine.Marker

/-! Machines that have finished. A machine that stops or substitutes is finished when a pass has met
the end of its input without an error. With nothing latched, that rests on the reader, which is
exhausted at every such exit; with a substitute it rests on the mark that the substitution has left,
in this pass or in an earlier one. Unless runes are taken back or the latch is touched, neither
changes any more. -/

namespace RuneMachine

variable {σ ν Q E : Type}

/-- Nobody takes a rune back or uses the controller: a pass is run, the reader is read, a place is
found, or user functions are called elsewhere and leave another memory behind. -/
inductive Incident.IsApart : Incident σ ν → Prop
  | run (turns : Nat) : IsApart (.run turns)
  | read : IsApart .read
  | place (located : Locations) : IsApart (.place located)
  | remember (m : σ) : IsApart (.control (.done m ()))

namespace World

variable {A : Automaton σ ν Q E} {config : Config Q E} {policy : Policy E} {q : Q}
  {w v w' : World σ ν Q E}

structure Finished (policy : Policy E) (w : World σ ν Q E) : Prop where
  exhausted : w.reader.exhausted = true
  rests : w.latch = .empty ∧ policy = .stop ∨ w.latch = .ended

theorem exhausted_of_read {f : Fault} (honest : w.reader.IsHonest) (read : w.read = (.error f, v))
    (clean : f.isClean = true) : v.reader.exhausted = true := by
  have given : w.reader.read = (.error f, v.reader) :=
    congrArg (fun result => (result.1, result.2.reader)) read
  exact ((Reader.reads_of_read given).of_honest honest).2 f rfl clean

theorem finished_of_turn (honest : w.reader.IsHonest) (other : ∀ e, policy ≠ .delegate e)
    (h : w.turn A policy q = (.over (.returned false), w')) (unfailed : w'.latch.fault? = none) :
    w'.Finished policy := by
  have going : w'.latch.isFailed = false := by simp [Latch.isFailed, unfailed]
  cases turned_of_turn h with
  | delivered _ delivered =>
    obtain ⟨-, failed, -⟩ := deliver_eq_returned delivered
    rw [going] at failed
    cases failed
  | substituted _ _ _ _ delivered =>
    obtain ⟨-, failed, -⟩ := deliver_eq_returned delivered
    rw [going] at failed
    cases failed
  | consulted _ _ _ delegates => exact absurd delegates (other _)
  | stopped read clean empty stops =>
    have exhausted := exhausted_of_read honest read clean
    exact ⟨exhausted, .inl ⟨empty, stops⟩⟩
  | finished read clean nonempty =>
    -- What is in the latch is no error, so it is the mark of a substitution.
    refine ⟨exhausted_of_read honest read clean, .inr ?_⟩
    cases latch : w'.latch with
    | empty => exact absurd latch nonempty
    | ended => rfl
    | failed f =>
      rw [latch] at unfailed
      cases unfailed
  | faulted => cases unfailed

theorem finished_of_proceed {turns : Nat} {state : Option Q} (sealed : w.Sealed)
    (other : ∀ e, policy ≠ .delegate e)
    (h : w.proceed A policy turns state = (.returned false, w'))
    (unfailed : w'.latch.fault? = none) : w'.Finished policy := by
  induction turns generalizing w state with
  | zero => cases state <;> cases h
  | succ turns ih =>
    cases state with
    | none => cases h
    | some q =>
      rcases turned : w.turn A policy q with ⟨state | outcome, v⟩
      · simp only [proceed, turned] at h
        exact ih (sealed.steps (steps_turn turned)).1 h
      · simp only [proceed, turned] at h
        cases h
        exact finished_of_turn sealed.honest other turned unfailed

theorem finished_of_pass {turns : Nat} (sealed : w.Sealed)
    (other : ∀ e, config.policy ≠ .delegate e)
    (h : w.pass A config turns = (.returned false, w')) (unfailed : w'.latch.fault? = none) :
    w'.Finished config.policy := by
  by_cases failed : w.latch.isFailed = true
  · rw [pass_of_failed failed] at h
    cases h
    simp [Latch.isFailed, unfailed] at failed
  · rw [pass_of_going (by simpa using failed)] at h
    exact finished_of_proceed sealed other h unfailed

structure Idles (w w' : World σ ν Q E) : Prop where
  reader : w'.reader = w.reader
  latch : w'.latch = w.latch
  journal : ∃ records, w'.journal = records ++ w.journal ∧
    ∀ e ∈ records, ∃ n, e = .log (.stopping n)

namespace Idles

theorem refl (w : World σ ν Q E) : w.Idles w := ⟨rfl, rfl, [], rfl, by simp⟩

theorem trans (h : w.Idles v) (h' : v.Idles w') : w.Idles w' := by
  obtain ⟨records, journal, stopping⟩ := h.journal
  obtain ⟨later, journal', stopping'⟩ := h'.journal
  refine ⟨h'.reader.trans h.reader, h'.latch.trans h.latch, later ++ records, ?_, ?_⟩
  · rw [journal', journal, List.append_assoc]
  · exact List.forall_mem_append.mpr ⟨stopping', stopping⟩

theorem finished (h : w.Idles w') (finished : w.Finished policy) : w'.Finished policy :=
  ⟨h.reader ▸ finished.exhausted, h.latch ▸ finished.rests⟩

end Idles

namespace Finished

theorem read_eq (h : w.Finished policy) : w.read = (.error Fault.endOfInput, w) := by
  simp [read, Reader.read_of_exhausted h.exhausted]

theorem turn (h : w.Finished policy) (A : Automaton σ ν Q E) (q : Q) :
    ∃ w', w.turn A policy q = (.over (.returned false), w') ∧ w.Idles w' := by
  have clean : Fault.endOfInput.isClean = true := rfl
  simp only [World.turn, h.read_eq, clean, if_true]
  obtain ⟨empty, rfl⟩ | ended := h.rests
  · refine ⟨w.log (.stopping w.offset), ?_, rfl, rfl, [.log (.stopping w.offset)], rfl, ?_⟩
    · simp only [meetEnd, empty]
    · simp
  · refine ⟨w, ?_, .refl w⟩
    simp only [meetEnd, ended]

theorem isFailed_latch (h : w.Finished policy) : w.latch.isFailed = false := by
  obtain ⟨empty, -⟩ | ended := h.rests
  · rw [empty]
    rfl
  · rw [ended]
    rfl

theorem pass (h : w.Finished config.policy) (A : Automaton σ ν Q E)
    (initial : config.initial = some q) (turns : Nat) :
    ∃ w', w.pass A config (turns + 1) = (.returned false, w') ∧ w.Idles w' := by
  obtain ⟨w', turned, idles⟩ := h.turn A q
  refine ⟨w', ?_, idles⟩
  rw [pass_of_going h.isFailed_latch, initial]
  simp only [proceed, turned]

theorem undergo (h : w.Finished config.policy) (A : Automaton σ ν Q E)
    (initial : config.initial = some q) {incident : Incident σ ν} (apart : incident.IsApart) :
    w.Idles (w.undergo A config incident) := by
  cases apart with
  | run turns =>
    cases turns with
    | zero =>
      rw [World.undergo, pass_of_going h.isFailed_latch, initial]
      exact .refl w
    | succ turns =>
      obtain ⟨w', passed, idles⟩ := h.pass A initial turns
      rw [World.undergo, passed]
      exact idles
  | read =>
    rw [World.undergo, h.read_eq]
    exact .refl w
  | place located => exact ⟨rfl, rfl, [], rfl, by simp⟩
  | remember m => exact ⟨rfl, rfl, [], rfl, by simp⟩

theorem live (h : w.Finished config.policy) (A : Automaton σ ν Q E)
    (initial : config.initial = some q) {history : List (Incident σ ν)}
    (apart : ∀ incident ∈ history, incident.IsApart) : w.Idles (w.live A config history) := by
  induction history generalizing w with
  | nil => exact .refl w
  | cons incident history ih =>
    obtain ⟨now, later⟩ := List.forall_mem_cons.mp apart
    have first := h.undergo A initial now
    exact first.trans (ih (first.finished h) later)

end Finished

/-- Once a pass of a machine that stops or substitutes has ended without success and without an
error, the machine stays finished, whatever its history and whatever happens then, as long as nobody
takes a rune back or uses its controller. Every later pass ends like that again, and from the first
such pass on neither the source nor a user function is called, and reader and latch do not change:
not the offset, not what is pending, not the exhaustion, and not the error that there is not. -/
theorem live_finished (A : Automaton σ ν Q E) {config : Config Q E}
    (policy : config.policy = .stop ∨ ∃ c, config.policy = .substitute c) {q : Q}
    (initial : config.initial = some q) {r : Reader} (honest : r.IsHonest) (m : σ)
    (history : List (Incident σ ν)) {w w' : World σ ν Q E} {turns : Nat}
    (lived : (start r m).live A config history = w)
    (passed : w.pass A config turns = (.returned false, w')) (unfailed : w'.latch.fault? = none)
    (later : List (Incident σ ν)) (apart : ∀ incident ∈ later, incident.IsApart) (more : Nat) :
    w'.reader.exhausted = true ∧
      ∃ v, (w'.live A config later).pass A config (more + 1) = (.returned false, v) ∧
        v.reader = w'.reader ∧ v.latch = w'.latch ∧
        ∃ records, v.journal = records ++ w'.journal ∧
          ∀ e ∈ records, ∃ n, e = .log (.stopping n) := by
  have other : ∀ e, config.policy ≠ .delegate e := by
    obtain stops | ⟨c, substitutes⟩ := policy
    · simp [stops]
    · simp [substitutes]
  have start : (World.start r m : World σ ν Q E).Sealed := ⟨honest, nofun⟩
  obtain ⟨sealed, -⟩ := start.steps (steps_live A config history _)
  rw [lived] at sealed
  have finished := finished_of_pass sealed other passed unfailed
  have idle := finished.live A initial apart
  obtain ⟨v, again, idles⟩ := (idle.finished finished).pass A initial more
  obtain ⟨reader, latch, journal⟩ := idle.trans idles
  exact ⟨finished.exhausted, v, again, reader, latch, journal⟩

def semicolons : Automaton Unit Empty Unit Empty where
  step _ u _ := .done () (if u = [0x3b] then none else some ())
  atEnd e := nomatch e

theorem live_finished_semicolons :
    let config : Config Unit Empty := ⟨some (), .substitute 0x3b⟩
    let r := Reader.ofText [0x61, 0x3b, 0x62]
    let w : World Unit Empty Unit Empty := (start r ()).live semicolons config [.run 9, .run 9]
    let later : List (Incident Unit Empty) := [.read, .place [(0, 5)], .run 3]
    r.IsHonest ∧ (w.pass semicolons config 9).1 = .returned false ∧
      (w.pass semicolons config 9).2.latch = .ended ∧
      ∀ more, ∃ v, ((w.pass semicolons config 9).2.live semicolons config later).pass semicolons
          config (more + 1) = (.returned false, v) ∧
        v.reader = (w.pass semicolons config 9).2.reader ∧ v.latch = .ended := by
  intro config r w later
  have honest : r.IsHonest := by
    intro f member
    simp [r, Reader.ofText, Reader.ofSource, Reader.new, Source.ofText, Source.ofItems,
      Item.text] at member
  have apart : ∀ incident ∈ later, incident.IsApart := by
    simp only [later, List.forall_mem_cons]
    exact ⟨.read, .place _, .run 3, by simp⟩
  refine ⟨honest, by decide, by decide, ?_⟩
  intro more
  obtain ⟨-, v, passed, reader, latch, -⟩ :=
    live_finished semicolons (.inr ⟨_, rfl⟩) rfl honest () [.run 9, .run 9] (rfl : _ = w)
      (rfl : w.pass semicolons config 9 = _) rfl later apart more
  exact ⟨v, passed, reader, latch⟩

end World

end RuneMachine
