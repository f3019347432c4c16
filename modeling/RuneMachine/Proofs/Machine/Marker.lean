import RuneMachine.Proofs.Machine.History
import RuneMachine.Proofs.Reader.Ordinary

namespace RuneMachine

def Latch.isClean : Latch → Bool
  | .empty => false
  | .ended => true
  | .failed f => f.isClean

variable {σ ν Q E : Type}

namespace Event

variable {e : Event ν Q E} {events : List (Event ν Q E)}

theorem settle_of_isSubstitution (h : e.isSubstitution = true) (latch : Latch) :
    e.settle latch = .ended := by
  unfold isSubstitution at h
  split at h
  · rfl
  · cases h

theorem settle_of_isClearing (h : e.isClearing = true) (latch : Latch) :
    e.settle latch = .empty := by
  unfold isClearing at h
  split at h
  · rfl
  · cases h

theorem settle_of_idle (substitution : e.isSubstitution = false) (latched : e.latched? = none)
    (clearing : e.isClearing = false) (latch : Latch) : e.settle latch = latch := by
  unfold settle
  split
  · cases latched
  · cases latched
  · cases clearing
  · cases substitution
  · rfl

theorem settle_eq_empty (kept : e.isClearing = false) {latch : Latch}
    (h : e.settle latch = .empty) : e.isSubstitution = false ∧ latch = .empty := by
  cases substitution : e.isSubstitution with
  | true =>
    rw [settle_of_isSubstitution substitution] at h
    cases h
  | false =>
    cases latched : e.latched? with
    | some f =>
      rw [settle_of_latched? latched] at h
      cases h
    | none => exact ⟨rfl, (settle_of_idle substitution latched kept latch).symm.trans h⟩

theorem isSubstitution_of_replay (kept : ∀ e ∈ events, e.isClearing = false)
    (h : replay events .empty = .empty) : ∀ e ∈ events, e.isSubstitution = false := by
  induction events with
  | nil => simp
  | cons e events ih =>
    obtain ⟨now, before⟩ := List.forall_mem_cons.mp kept
    obtain ⟨substitution, still⟩ := settle_eq_empty now h
    exact List.forall_mem_cons.mpr ⟨substitution, ih before still⟩

theorem replay_eq_ended_iff :
    replay events .empty = .ended ↔
      ∃ later e earlier, events = later ++ e :: earlier ∧ e.isSubstitution = true ∧
        ∀ e' ∈ later, e'.latched? = none ∧ e'.isClearing = false := by
  induction events with
  | nil => simp [replay]
  | cons first events ih =>
    have step : replay (first :: events) .empty = first.settle (replay events .empty) := rfl
    rw [step]
    by_cases idle : first.isSubstitution = false ∧ first.latched? = none ∧ first.isClearing = false
    · obtain ⟨substitution, latched, clearing⟩ := idle
      rw [settle_of_idle substitution latched clearing, ih]
      constructor
      · rintro ⟨later, e, earlier, rfl, marks, quiet⟩
        exact ⟨first :: later, e, earlier, rfl, marks,
          List.forall_mem_cons.mpr ⟨⟨latched, clearing⟩, quiet⟩⟩
      · rintro ⟨_ | ⟨_, later⟩, e, earlier, split, marks, quiet⟩
        · cases split
          rw [substitution] at marks
          cases marks
        · cases split
          exact ⟨later, e, earlier, rfl, marks, (List.forall_mem_cons.mp quiet).2⟩
    · cases substitution : first.isSubstitution with
      | true =>
        rw [settle_of_isSubstitution substitution]
        exact ⟨fun _ => ⟨[], first, events, rfl, substitution, by simp⟩, fun _ => rfl⟩
      | false =>
        -- The first event has put an error into the latch or emptied it.
        have unmarked : first.settle (replay events .empty) ≠ .ended := by
          cases latched : first.latched? with
          | some f => simp [settle_of_latched? latched]
          | none =>
            have clearing : first.isClearing = true := by simpa [substitution, latched] using idle
            simp [settle_of_isClearing clearing]
        refine ⟨fun ended => absurd ended unmarked, ?_⟩
        rintro ⟨_ | ⟨_, later⟩, e, earlier, split, marks, quiet⟩
        · cases split
          rw [substitution] at marks
          cases marks
        · cases split
          exact absurd ⟨substitution, (List.forall_mem_cons.mp quiet).1⟩ idle

end Event

namespace World

variable {policy : Policy E} {w v w' : World σ ν Q E}

def NeverCleared (w : World σ ν Q E) : Prop := ∀ e ∈ w.journal, e.isClearing = false

/-- Journal and latch agree about errors and substitutions: every substitution has fed the sentinel
of the policy to a state, and unless the latch was emptied, there was at most one. -/
structure Books (policy : Policy E) (w : World σ ν Q E) : Prop where
  latch : w.latch = Event.replay w.journal .empty
  dirty : ∀ f, w.latch = .failed f → f.isClean = false
  fed : ∀ n u, .log (.substituting n u) ∈ w.journal →
    ∃ c q, policy = .substitute c ∧ u = [c] ∧
      [.call q [c], .log (.substituting n [c])] <:+: w.journal
  once : w.NeverCleared → w.journal.countP Event.isSubstitution ≤ 1

namespace Books

theorem start (r : Reader) (m : σ) : Books policy (World.start r m : World σ ν Q E) where
  latch := rfl
  dirty _ failed := by cases failed
  fed _ _ member := by cases member
  once _ := Nat.zero_le 1

theorem append (h : Books policy w) (events : List (Event ν Q E))
    (journal : w'.journal = events ++ w.journal) (latch : w'.latch = Event.replay events w.latch)
    (dirty : ∀ f, w'.latch = .failed f → f.isClean = false)
    (others : ∀ e ∈ events, e.isSubstitution = false) : Books policy w' where
  latch := by
    rw [latch, h.latch, journal, Event.replay, Event.replay, Event.replay, List.foldr_append]
  dirty := dirty
  fed n u member := by
    rw [journal] at member ⊢
    obtain new | old := List.mem_append.mp member
    · cases others _ new
    · obtain ⟨c, q, substitutes, rfl, call⟩ := h.fed n u old
      exact ⟨c, q, substitutes, rfl, call.trans (List.suffix_append events w.journal).isInfix⟩
  once kept := by
    unfold NeverCleared at kept
    rw [journal] at kept ⊢
    have none : events.countP Event.isSubstitution = 0 :=
      List.countP_eq_zero.mpr fun e member => by simp [others e member]
    rw [List.countP_append, none, Nat.zero_add]
    exact h.once fun e member => kept e (List.mem_append_right events member)

theorem record (h : Books policy w) {e : Event ν Q E} (journal : w'.journal = e :: w.journal)
    (latch : w'.latch = w.latch) (substitution : e.isSubstitution = false)
    (latched : e.latched? = none) (clearing : e.isClearing = false) : Books policy w' := by
  have settled := Event.settle_of_idle substitution latched clearing w.latch
  refine h.append [e] journal (latch.trans settled.symm) ?_ (by simpa)
  rw [latch]
  exact h.dirty

theorem setError (h : Books policy w) (fault : Option Fault) :
    Books policy (w.setError fault).2 := by
  cases fault with
  | none =>
    refine h.append [.log (.latched w.offset none)] rfl rfl ?_ (by simp [Event.isSubstitution])
    intro f failed
    cases failed
  | some f =>
    cases clean : f.isClean with
    | true => rwa [setError_of_clean clean]
    | false =>
      let g := (f.locate w.offset w.located).1
      have latch : (w.setError (some f)).2.latch = .failed g := latch_setError clean w
      refine h.append [.log (.latched w.offset (some g))] ?_ latch ?_
        (by simp [Event.isSubstitution])
      · simp [World.setError, clean, log, World.record, g]
      · intro f' failed
        rw [latch] at failed
        cases failed
        exact (f.isClean_locate _ _).trans clean

theorem read {result : Except Fault Rune} (h : Books policy w) (read : w.read = (result, v)) :
    Books policy v := by
  obtain rfl : v = w.read.2 := by rw [read]
  let pulls := w.reader.read.2.source.calls - w.reader.source.calls
  let pull : Event ν Q E := .pull w.reader.read.2.source.shape
  have replayed : Event.replay (List.replicate pulls pull) w.latch = w.latch := by
    induction pulls with
    | zero => rfl
    | succ n ih => exact ih
  refine h.append (List.replicate pulls pull) rfl replayed.symm h.dirty ?_
  intro e member
  rw [List.eq_of_mem_replicate member]
  rfl

theorem latchFault {f : Fault} (h : Books policy w) (dirty : f.isClean = false) :
    Books policy (w.latchFault f) := by
  refine h.append [.log (.readFault w.offset f)] rfl rfl ?_ (by simp [Event.isSubstitution])
  intro g failed
  cases failed
  exact dirty

theorem substitute {c : CodePoint} (h : Books policy w) (empty : w.latch = .empty)
    (substitutes : policy = .substitute c) (q : Q) :
    Books policy
      (({ w with latch := .ended }.log (.substituting w.offset [c])).record (.call q [c])) where
  latch := rfl
  dirty _ failed := by cases failed
  fed n u member := by
    cases member with
    | tail _ member =>
      cases member with
      | head => exact ⟨c, q, substitutes, rfl, [], w.journal, rfl⟩
      | tail _ member =>
        obtain ⟨c', q', substitutes', rfl, call⟩ := h.fed n u member
        have longer := (List.suffix_cons _ w.journal).trans
          (List.suffix_cons (Event.call q [c]) (.log (.substituting w.offset [c]) :: w.journal))
        exact ⟨c', q', substitutes', rfl, call.trans longer.isInfix⟩
  once kept := by
    have before : w.NeverCleared := fun e member => kept e (.tail _ (.tail _ member))
    have none : w.journal.countP Event.isSubstitution = 0 := by
      rw [List.countP_eq_zero]
      intro e member
      simp [Event.isSubstitution_of_replay before (h.latch.symm.trans empty) e member]
    simp [World.record, log, List.countP_cons, none, Event.isSubstitution]

theorem step (h : Books policy w) (step : Step policy w w') : Books policy w' := by
  cases step with
  | remember m => exact ⟨h.latch, h.dirty, h.fed, h.once⟩
  | unread u => exact ⟨h.latch, h.dirty, h.fed, h.once⟩
  | place located => exact ⟨h.latch, h.dirty, h.fed, h.once⟩
  | latch fault => exact h.setError fault
  | note entry => exact h.record rfl rfl rfl rfl rfl
  | read read => exact h.read read
  | call q u => exact h.record rfl rfl rfl rfl rfl
  | fault read dirty => exact (h.read read).latchFault dirty
  | stop => exact h.record rfl rfl rfl rfl rfl
  | delegate e =>
    have logged : Books policy (w.log (.delegating w.offset)) := h.record rfl rfl rfl rfl rfl
    exact logged.record rfl rfl rfl rfl rfl
  | substitute q read clean empty substitutes => exact (h.read read).substitute empty substitutes q

theorem steps (h : Books policy w) (steps : Steps policy w w') : Books policy w' := by
  induction steps with
  | refl => exact h
  | tail _ step ih => exact ih.step step

theorem isClean_iff (h : Books policy w) : w.latch.isClean = true ↔ w.latch = .ended := by
  cases latch : w.latch with
  | empty => simp [Latch.isClean]
  | ended => simp [Latch.isClean]
  | failed f => simp [Latch.isClean, h.dirty f latch]

end Books

structure Sealed (w : World σ ν Q E) : Prop where
  honest : w.reader.IsHonest
  ended : w.hasSubstituted = true → w.reader.ended = true

namespace Sealed

theorem congr (h : w.Sealed) (source : w'.reader.source = w.reader.source)
    (ended : w'.reader.ended = w.reader.ended)
    (substituted : w'.hasSubstituted = w.hasSubstituted) : w'.Sealed := by
  refine ⟨?_, ?_⟩
  · unfold Reader.IsHonest
    rw [source]
    exact h.honest
  · rw [substituted, ended]
    exact h.ended

theorem read {result : Except Fault Rune} (h : w.Sealed) (read : w.read = (result, v)) :
    v.Sealed ∧ v.hasSubstituted = w.hasSubstituted ∧
      (w.hasSubstituted = true → v.reader.source = w.reader.source) ∧
      ∀ f, result = .error f → f.isClean = true → v.reader.ended = true := by
  rcases given : w.reader.read with ⟨result', r⟩
  obtain ⟨v', read', reader, -, -, -, -, substituted, -⟩ := read_eq given
  cases read.symm.trans read'
  subst reader
  have reads := Reader.reads_of_read given
  obtain ⟨honest, exhausted⟩ := reads.of_honest h.honest
  refine ⟨⟨honest, ?_⟩, substituted, ?_, ?_⟩
  · intro already
    exact (reads.of_ended (h.ended (substituted ▸ already))).2.1
  · intro already
    exact (reads.of_ended (h.ended already)).1
  · intro f failed clean
    have all := exhausted f failed clean
    simp only [Reader.exhausted, Bool.and_eq_true] at all
    exact all.1.1

theorem step (h : w.Sealed) (step : Step policy w w') :
    w'.Sealed ∧ (w.hasSubstituted = true →
      w'.hasSubstituted = true ∧ w'.reader.source = w.reader.source) := by
  cases step with
  | remember m => exact ⟨h.congr rfl rfl rfl, fun already => ⟨already, rfl⟩⟩
  | unread u => exact ⟨h.congr rfl rfl rfl, fun already => ⟨already, rfl⟩⟩
  | place located => exact ⟨h.congr rfl rfl rfl, fun already => ⟨already, rfl⟩⟩
  | note entry => exact ⟨h.congr rfl rfl rfl, fun already => ⟨already, rfl⟩⟩
  | call q u => exact ⟨h.congr rfl rfl rfl, fun already => ⟨already, rfl⟩⟩
  | stop => exact ⟨h.congr rfl rfl rfl, fun already => ⟨already, rfl⟩⟩
  | delegate e => exact ⟨h.congr rfl rfl rfl, fun already => ⟨already, rfl⟩⟩
  | latch fault =>
    have same : (w.setError fault).2.reader = w.reader ∧
        (w.setError fault).2.hasSubstituted = w.hasSubstituted := by
      cases fault with
      | none => exact ⟨rfl, rfl⟩
      | some f =>
        cases clean : f.isClean with
        | true => rw [setError_of_clean clean]; exact ⟨rfl, rfl⟩
        | false => simp [setError, clean, hasSubstituted, log, record, Event.isSubstitution]
    obtain ⟨reader, substituted⟩ := same
    exact ⟨h.congr (by rw [reader]) (by rw [reader]) substituted,
      fun already => ⟨substituted.trans already, by rw [reader]⟩⟩
  | read read =>
    obtain ⟨later, substituted, source, -⟩ := h.read read
    exact ⟨later, fun already => ⟨substituted.trans already, source already⟩⟩
  | fault read =>
    obtain ⟨later, substituted, source, -⟩ := h.read read
    exact ⟨later.congr rfl rfl rfl, fun already => ⟨substituted.trans already, source already⟩⟩
  | substitute q read clean =>
    obtain ⟨later, -, source, ended⟩ := h.read read
    exact ⟨⟨later.honest, fun _ => ended _ rfl clean⟩, fun already => ⟨rfl, source already⟩⟩

theorem steps (h : w.Sealed) (steps : Steps policy w w') :
    w'.Sealed ∧ (w.hasSubstituted = true →
      w'.hasSubstituted = true ∧ w'.reader.source = w.reader.source) := by
  induction steps with
  | refl => exact ⟨h, fun already => ⟨already, rfl⟩⟩
  | tail _ step ih =>
    obtain ⟨middle, before⟩ := ih
    obtain ⟨last, after⟩ := middle.step step
    refine ⟨last, ?_⟩
    intro already
    obtain ⟨substituted, source⟩ := before already
    obtain ⟨substituted', source'⟩ := after substituted
    exact ⟨substituted', source'.trans source⟩

end Sealed

/-- The mark of the substitution, in every history of a machine. A substitution feeds the sentinel
of the policy to a state. If the latch was never emptied, there was at most one substitution, and
the end of input is in the latch exactly if there was one and no error has been latched since. With
another policy it is never there, and it is never reported as an error. If the source does not raise
the end of input itself, then nothing that happens after a substitution calls the source. -/
theorem live_substitution (A : Automaton σ ν Q E) (config : Config Q E) (r : Reader) (m : σ)
    (history : List (Incident σ ν)) {w : World σ ν Q E}
    (lived : (start r m).live A config history = w) :
    (∀ n u, .log (.substituting n u) ∈ w.journal →
      ∃ c q, config.policy = .substitute c ∧ u = [c] ∧
        [.call q [c], .log (.substituting n [c])] <:+: w.journal) ∧
    (w.NeverCleared → w.journal.countP Event.isSubstitution ≤ 1 ∧
      (w.latch.isClean = true ↔
        ∃ later e earlier, w.journal = later ++ e :: earlier ∧ e.isSubstitution = true ∧
          ∀ e' ∈ later, e'.latched? = none)) ∧
    ((∀ c, config.policy ≠ .substitute c) → w.latch.isClean = false) ∧
    (∀ f, w.latch.fault? = some f → f.isClean = false) ∧
    (r.IsHonest → w.hasSubstituted = true →
      ∀ more, (w.live A config more).reader.source = w.reader.source) := by
  have lives : Steps config.policy (start r m) w := lived ▸ steps_live A config history _
  have books : Books config.policy w := (Books.start r m).steps lives
  refine ⟨books.fed, ?_, ?_, ?_, ?_⟩
  · intro kept
    refine ⟨books.once kept, ?_⟩
    rw [books.isClean_iff, books.latch, Event.replay_eq_ended_iff]
    constructor
    · rintro ⟨later, e, earlier, split, marks, quiet⟩
      exact ⟨later, e, earlier, split, marks, fun e' member => (quiet e' member).1⟩
    · rintro ⟨later, e, earlier, split, marks, quiet⟩
      refine ⟨later, e, earlier, split, marks, fun e' member => ⟨quiet e' member, ?_⟩⟩
      exact kept e' (split ▸ List.mem_append_left _ member)
  · intro other
    rw [Bool.eq_false_iff, ne_eq, books.isClean_iff, books.latch, Event.replay_eq_ended_iff]
    rintro ⟨later, e, earlier, split, marks, -⟩
    unfold Event.isSubstitution at marks
    split at marks
    · next n u =>
      have member : .log (.substituting n u) ∈ w.journal := by rw [split]; simp
      obtain ⟨c, -, substitutes, -⟩ := books.fed n u member
      exact other c substitutes
    · cases marks
  · intro f held
    cases latch : w.latch with
    | empty => rw [latch] at held; cases held
    | ended => rw [latch] at held; cases held
    | failed g =>
      rw [latch] at held
      cases held
      exact books.dirty f latch
  · intro honest already more
    have start : (World.start r m : World σ ν Q E).Sealed := ⟨honest, nofun⟩
    obtain ⟨sealed, -⟩ := start.steps lives
    exact ((sealed.steps (steps_live A config more w)).2 already).2

def lineKeeper : Automaton Unit Empty Unit Empty where
  step _ u _ :=
    if u = [0x0a] then .unread u (.unread [0x62] (.done () none)) else .done () (some ())
  atEnd e := nomatch e

theorem live_substitution_lineKeeper :
    let config : Config Unit Empty := ⟨some (), .substitute 0x0a⟩
    let w : World Unit Empty Unit Empty :=
      (start (Reader.ofText [0x61]) ()).live lineKeeper config
        [.run 9, .read, .control (.unread [0x63] (.done () ())), .run 9]
    w.NeverCleared ∧ (Reader.ofText [0x61]).IsHonest ∧ w.hasSubstituted = true ∧
      w.journal.countP Event.isSubstitution ≤ 1 ∧ w.latch.isClean = true ∧
      ∀ more, (w.live lineKeeper config more).reader.source = w.reader.source := by
  intro config w
  have kept : w.NeverCleared := by unfold NeverCleared; decide
  have honest : (Reader.ofText [0x61]).IsHonest := by
    intro f member
    simp [Reader.ofText, Reader.ofSource, Reader.new, Source.ofText, Source.ofItems,
      Item.text] at member
  have substituted : w.hasSubstituted = true := by decide
  obtain ⟨-, marked, -, -, left⟩ := live_substitution lineKeeper config _ () _ (rfl : _ = w)
  obtain ⟨once, -⟩ := marked kept
  exact ⟨kept, honest, substituted, once, by decide, left honest substituted⟩

end World

end RuneMachine
