import RuneMachine.Proofs.Machine.History
import RuneMachine.Proofs.Reader.Readings
import RuneMachine.Proofs.Tokenizer.Scans

/-! What scans deliver. Although the first rune of every token is delivered, taken back and
delivered again, all scans together deliver what a straight reading of the reader gives: every rune
once, and the sentinel once, in the place of the first end of input. -/

namespace RuneMachine

def offered? (c : CodePoint) (fresh : Bool) : Except Fault Rune → Option Rune
  | .ok u => some u
  | .error f => if fresh && f.isClean then some [c] else none

def staysFresh (fresh : Bool) : Except Fault Rune → Bool
  | .ok _ => fresh
  | .error f => fresh && !f.isClean

def offered (c : CodePoint) : (fresh : Bool) → List (Except Fault Rune) → List Rune
  | _, [] => []
  | fresh, result :: results =>
    (offered? c fresh result).toList ++ offered c (staysFresh fresh result) results

theorem offered_append (c : CodePoint) (fresh : Bool) (results later : List (Except Fault Rune)) :
    offered c fresh (results ++ later) =
      offered c fresh results ++ offered c (results.foldl staysFresh fresh) later := by
  induction results generalizing fresh with
  | nil => rfl
  | cons result results ih => simp [offered, ih]

theorem length_offered (c : CodePoint) (fresh : Bool) (results : List (Except Fault Rune)) :
    (offered c fresh results).length + (results.foldl staysFresh fresh).toNat =
      (Reader.runesOf results).length + fresh.toNat := by
  induction results generalizing fresh with
  | nil => simp [offered, Reader.runesOf]
  | cons result results ih =>
    have later := ih (staysFresh fresh result)
    cases result with
    | ok u =>
      simp only [offered, offered?, staysFresh, List.foldl_cons, Option.toList_some,
        List.singleton_append, List.length_cons, Reader.runesOf, List.filterMap_cons,
        Except.toOption] at later ⊢
      omega
    | error f =>
      simp only [offered, offered?, staysFresh, List.foldl_cons, Reader.runesOf,
        List.filterMap_cons, Except.toOption] at later ⊢
      cases fresh <;> cases clean : f.isClean <;> simp [clean] at later ⊢ <;> omega

namespace World

variable {σ ν Q E α : Type} {c : CodePoint} {q : Q} {u : Rune} {A : Automaton σ ν Q E}
  {w v : World σ ν Q E} {result : Except Fault Rune}

def isFresh (w : World σ ν Q E) : Bool := decide (w.latch = .empty)

theorem spare_eq (w : World σ ν Q E) :
    w.spare = w.reader.bound + if w.isFresh then 1 else 0 := by simp [spare, isFresh]

theorem calls_perform (act : Act σ ν α) (w : World σ ν Q E) :
    (w.perform act).2.calls = w.calls := by
  obtain ⟨new, journal, quiet⟩ := journal_perform act w
  have none : new.filterMap Event.call? = [] := by
    rw [List.filterMap_eq_nil_iff]
    intro event member
    have other := quiet event member
    cases event <;> simp_all [Event.call?, Event.isCall]
  rw [calls, journal, List.filterMap_append, none]
  rfl

theorem calls_deliver (A : Automaton σ ν Q E) (q : Q) (u : Rune) (w : World σ ν Q E) :
    (w.deliver A q u).2.calls = (q, u) :: w.calls := by
  rw [deliver_snd, calls_perform]
  rfl

structure Reading (result : Except Fault Rune) (w v : World σ ν Q E) : Prop where
  read : w.reader.read = (result, v.reader)
  calls : v.calls = w.calls
  fresh : v.latch.isFailed = false → v.isFresh = staysFresh w.isFresh result

theorem turn_reading (going : w.latch.isFailed = false) (c : CodePoint) (A : Automaton σ ν Q E)
    (q : Q) :
    ∃ result v, Reading result w v ∧
      match offered? c w.isFresh result with
      | some u => v.latch.isFailed = false ∧ w.turn A (.substitute c) q = v.deliver A q u
      | none => ∃ outcome, w.turn A (.substitute c) q = (.over outcome, v) ∧
          outcome ≠ .returned true ∧ outcome ≠ .unfinished := by
  rcases given : w.reader.read with ⟨f | u, r⟩
  · obtain ⟨v, read, reader, latch, -, -, calls, -, -⟩ := read_eq given
    subst reader
    cases clean : f.isClean with
    | true =>
      -- At the end of input it is the latch that tells whether the sentinel has already come.
      cases latched : w.latch with
      | empty =>
        refine ⟨.error f, { v with latch := .ended }.log (.substituting v.offset [c]), ?_, ?_⟩
        · exact ⟨given, calls, by simp [isFresh, log, record, staysFresh, clean]⟩
        · have fresh : w.isFresh = true := by simp [isFresh, latched]
          simp only [offered?, fresh, clean, Bool.and_self, if_true]
          refine ⟨rfl, ?_⟩
          simp only [turn, read, clean, if_true, meetEnd, latch, latched]
      | ended =>
        refine ⟨.error f, v, ⟨given, calls, ?_⟩, ?_⟩
        · simp [isFresh, latch, latched, staysFresh]
        · have stale : w.isFresh = false := by simp [isFresh, latched]
          simp only [offered?, stale, Bool.false_and, Bool.false_eq_true, if_false]
          refine ⟨.returned false, ?_, by simp, by simp⟩
          simp only [turn, read, clean, if_true, meetEnd, latch, latched]
      | failed g =>
        rw [latched] at going
        cases going
    | false =>
      have nothing : offered? c w.isFresh (.error f) = none := by simp [offered?, clean]
      have kept : staysFresh w.isFresh (.error f) = w.isFresh := by simp [staysFresh, clean]
      cases catchable : f.kind.isCatchable with
      | true =>
        refine ⟨.error f, v.latchFault f, ⟨given, calls, fun unfailed => by cases unfailed⟩, ?_⟩
        rw [nothing]
        refine ⟨.returned false, ?_, by simp, by simp⟩
        simp only [turn, read, clean, catchable, Bool.false_eq_true, if_false, if_true]
      | false =>
        refine ⟨.error f, v, ⟨given, calls, fun _ => by rw [kept, isFresh, isFresh, latch]⟩, ?_⟩
        rw [nothing]
        refine ⟨.raised f, ?_, by simp, by simp⟩
        simp only [turn, read, clean, catchable, Bool.false_eq_true, if_false]
  · obtain ⟨v, read, reader, latch, -, -, calls, -, -⟩ := read_eq given
    subst reader
    refine ⟨.ok u, v, ⟨given, calls, fun _ => by rw [isFresh, latch]; rfl⟩, ?_⟩
    exact ⟨latch ▸ going, by simp only [turn, read]⟩

theorem Reading.spare_lt (h : Reading result w v) (going : v.latch.isFailed = false)
    (offers : offered? c w.isFresh result = some u) : v.spare < w.spare := by
  rw [spare_eq, spare_eq, h.fresh going]
  cases result with
  | ok u =>
    exact Nat.add_lt_add_right (Reader.bound_read_lt h.read) _
  | error f =>
    have less := Reader.bound_read_error h.read
    simp only [offered?] at offers
    split at offers
    · next first =>
      simp only [Bool.and_eq_true] at first
      simp only [staysFresh, first, Bool.not_true, Bool.and_false, Bool.false_eq_true, if_false,
        if_true]
      omega
    · cases offers

end World

namespace Tokenizer

/-- The runes that calls deliver. The rune that opens a token is delivered twice and counts once. -/
def deliveries : List (Mode × Rune) → List Rune
  | [] => []
  | (.skipping, _) :: (.matching, u) :: calls => deliveries ((.matching, u) :: calls)
  | (_, u) :: calls => u :: deliveries calls

def BeginOutside (calls : List (Mode × Rune)) : Prop := ∀ u, calls.head? ≠ some (.matching, u)

theorem deliveries_matching (u : Rune) (calls : List (Mode × Rune)) :
    deliveries ((.matching, u) :: calls) = u :: deliveries calls := by
  cases calls <;> simp [deliveries]

theorem deliveries_skipping (u : Rune) {calls : List (Mode × Rune)} (h : BeginOutside calls) :
    deliveries ((.skipping, u) :: calls) = u :: deliveries calls := by
  rcases calls with _ | ⟨⟨_ | _, v⟩, calls⟩
  · rfl
  · simp [deliveries]
  · exact absurd rfl (h v)

theorem deliveries_opening (u v : Rune) (calls : List (Mode × Rune)) :
    deliveries ((.skipping, u) :: (.matching, v) :: calls) = v :: deliveries calls := by
  rw [deliveries, deliveries_matching]

theorem deliveries_map_matching (us : List Rune) : deliveries (us.map (.matching, ·)) = us := by
  induction us with
  | nil => rfl
  | cons u us ih => rw [List.map_cons, deliveries_matching, ih]

theorem deliveries_map_skipping (us : List Rune) : deliveries (us.map (.skipping, ·)) = us := by
  induction us with
  | nil => rfl
  | cons u us ih =>
    have outside : BeginOutside (us.map (.skipping, ·)) := by cases us <;> simp [BeginOutside]
    rw [List.map_cons, deliveries_skipping u outside, ih]

theorem deliveries_eq_nil {calls : List (Mode × Rune)} (h : deliveries calls = []) :
    calls = [] := by
  fun_induction deliveries calls with
  | case1 => rfl
  | case2 u v calls ih => cases ih h
  | case3 => cases h

theorem deliveries_append (earlier : List (Mode × Rune)) {later : List (Mode × Rune)}
    (h : BeginOutside later) :
    deliveries (earlier ++ later) = deliveries earlier ++ deliveries later := by
  induction earlier with
  | nil => rfl
  | cons call calls ih =>
    obtain ⟨mode, u⟩ := call
    cases mode with
    | matching => simp only [List.cons_append, deliveries_matching, ih]
    | skipping =>
      rcases calls with _ | ⟨⟨_ | _, v⟩, calls⟩
      · exact deliveries_skipping u h
      · have next : BeginOutside ((.skipping, v) :: calls ++ later) := by simp [BeginOutside]
        have first : BeginOutside ((.skipping, v) :: calls) := by simp [BeginOutside]
        rw [List.cons_append, deliveries_skipping u next, deliveries_skipping u first, ih]
        rfl
      · -- Here a token opens, and both calls of its first rune are earlier ones.
        simpa only [List.cons_append, deliveries_matching, deliveries_opening] using ih

variable {μ τ : Type} {t : Tokenizer μ τ} {c : CodePoint} {u : Rune} {mode : Mode}
  {turn : Turn Mode} {calls : List (Mode × Rune)} {result : Except Fault Rune}
  {results : List (Except Fault Rune)} {w v v' w' : Stage μ τ}

theorem Moves.keeps (h : Moves t u v v' mode turn)
    (other : mode = .matching ∨ turn ≠ .next (some .matching)) :
    v'.reader = v.reader ∧ (v'.latch.isFailed = false → v'.isFresh = v.isFresh) := by
  have fresh (latch : v'.latch = v.latch) : v'.isFresh = v.isFresh := by
    rw [World.isFresh, World.isFresh, latch]
  cases h with
  | opened => simp at other
  | failed reader failed => exact ⟨reader, fun unfailed => by simp [failed] at unfailed⟩
  | skipped reader latch => exact ⟨reader, fun _ => fresh latch⟩
  | extended reader latch => exact ⟨reader, fun _ => fresh latch⟩
  | found reader latch => exact ⟨reader, fun _ => fresh latch⟩
  | raised _ reader latch => exact ⟨reader, fun _ => fresh latch⟩

theorem Moves.going {state : Option Mode} (h : Moves t u v v' mode (.next state))
    (going : v.latch.isFailed = false) : v'.latch.isFailed = false := by
  cases h with
  | skipped _ latch | opened _ latch | extended _ latch | found _ latch => rw [latch, going]

structure Straight (c : CodePoint) (results : List (Except Fault Rune)) (calls : List (Mode × Rune))
    (w w' : Stage μ τ) : Prop where
  gives : w.reader.Gives results w'.reader
  called : w'.calls = calls.reverse ++ w.calls
  delivers : deliveries calls = offered c w.isFresh results
  fresh : w'.latch.isFailed = false → w'.isFresh = results.foldl staysFresh w.isFresh

namespace Straight

theorem refl (c : CodePoint) (w : Stage μ τ) : Straight c [] [] w w :=
  ⟨.none, rfl, rfl, fun _ => rfl⟩

theorem idle (reading : World.Reading result w v) (nothing : offered? c w.isFresh result = none) :
    Straight c [result] [] w v :=
  ⟨.single reading.read, reading.calls, by simp [deliveries, offered, nothing], reading.fresh⟩

theorem once (reading : World.Reading result w v) (offers : offered? c w.isFresh result = some u)
    (going : v.latch.isFailed = false) (called : v'.calls = (mode, u) :: v.calls)
    (kept : v'.reader = v.reader ∧ (v'.latch.isFailed = false → v'.isFresh = v.isFresh)) :
    Straight c [result] [(mode, u)] w v' where
  gives := kept.1 ▸ .single reading.read
  called := by rw [called, reading.calls]; rfl
  delivers := by cases mode <;> simp [deliveries, offered, offers]
  fresh unfailed := (kept.2 unfailed).trans (reading.fresh going)

theorem trans {later : List (Except Fault Rune)} {calls' : List (Mode × Rune)}
    (h : Straight c results calls w v) (going : v.latch.isFailed = false)
    (h' : Straight c later calls' v w')
    (split : deliveries (calls ++ calls') = deliveries calls ++ deliveries calls') :
    Straight c (results ++ later) (calls ++ calls') w w' where
  gives := h.gives.append h'.gives
  called := by rw [h'.called, h.called, List.reverse_append, List.append_assoc]
  delivers := by rw [split, h.delivers, h'.delivers, offered_append, h.fresh going]
  fresh unfailed := by rw [h'.fresh unfailed, h.fresh going, List.foldl_append]

theorem opening (reading : World.Reading result w v)
    (offers : offered? c w.isFresh result = some u) (going : v.latch.isFailed = false)
    (called : v'.calls = (.skipping, u) :: v.calls) (reader : v'.reader = v.reader.unread u)
    (latch : v'.latch = v.latch) {again : Except Fault Rune} {us : List Rune}
    (h : Straight c (again :: results) (us.map (.matching, ·)) v' w') :
    Straight c (result :: results) ((.skipping, u) :: us.map (.matching, ·)) w w' := by
  obtain ⟨reread, called', delivers, fresh⟩ := h
  rw [reader] at reread
  obtain ⟨rfl, gives⟩ := reread.of_unread
  have same : v'.isFresh = staysFresh w.isFresh result := by
    rw [World.isFresh, latch]
    exact reading.fresh going
  have first : us = u :: offered c v'.isFresh results := by
    rw [← deliveries_map_matching us]
    exact delivers
  refine ⟨.result reading.read gives, ?_, ?_, ?_⟩
  · rw [called', called, reading.calls, List.reverse_cons, List.append_assoc]
    rfl
  · rw [first, List.map_cons, deliveries_opening, deliveries_map_matching, same]
    simp only [offered, offers]
    rfl
  · intro unfailed
    rw [fresh unfailed, same]
    rfl

end Straight

inductive Serves (t : Tokenizer μ τ) (c : CodePoint) (w w' : Stage μ τ) (mode : Mode) :
    Turn Mode → Prop
  | idle {result : Except Fault Rune} {outcome : Outcome} : World.Reading result w w' →
      offered? c w.isFresh result = none → outcome ≠ .returned true → outcome ≠ .unfinished →
      Serves t c w w' mode (.over outcome)
  | called {result : Except Fault Rune} {u : Rune} {v : Stage μ τ} {turn : Turn Mode} :
      World.Reading result w v → offered? c w.isFresh result = some u →
      v.latch.isFailed = false → w'.calls = (mode, u) :: v.calls → Moves t u v w' mode turn →
      Serves t c w w' mode turn

theorem serves_of_turn (going : w.latch.isFailed = false)
    (h : w.turn t.automaton (.substitute c) mode = (turn, w')) : Serves t c w w' mode turn := by
  obtain ⟨result, v, reading, next⟩ := World.turn_reading going c t.automaton mode
  cases offers : offered? c w.isFresh result with
  | none =>
    simp only [offers] at next
    obtain ⟨outcome, turned, unsuccessful, finished⟩ := next
    cases turned.symm.trans h
    exact .idle reading offers unsuccessful finished
  | some u =>
    simp only [offers] at next
    obtain ⟨still, turned⟩ := next
    have delivered := turned.symm.trans h
    have called := World.calls_deliver t.automaton mode u v
    rw [delivered] at called
    exact .called reading offers still called (moves_of_deliver still delivered)

theorem straight_of_match {turns : Nat} {outcome : Outcome} (going : w.latch.isFailed = false)
    (finished : outcome ≠ .unfinished)
    (h : w.proceed t.automaton (.substitute c) turns (some .matching) = (outcome, w')) :
    ∃ result results us, Straight c (result :: results) (us.map (.matching, ·)) w w' ∧
      (outcome = .returned true → us ≠ []) := by
  induction turns generalizing w with
  | zero =>
    cases h
    exact absurd rfl finished
  | succ turns ih =>
    rcases turned : w.turn t.automaton (.substitute c) .matching with ⟨turn, v'⟩
    simp only [World.proceed, turned] at h
    cases serves_of_turn going turned with
    | @idle result _ reading nothing unsuccessful _ =>
      cases h
      exact ⟨result, [], [], .idle reading nothing, fun success => absurd success unsuccessful⟩
    | @called result u v _ reading offers still called moves =>
      have first : Straight c [result] ([u].map (.matching, ·)) w v' :=
        .once reading offers still called (moves.keeps (.inl rfl))
      cases moves with
      | extended _ latch =>
        have going' : v'.latch.isFailed = false := latch ▸ still
        obtain ⟨result', results, us, later, -⟩ := ih going' h
        refine ⟨result, result' :: results, u :: us, first.trans going' later ?_, by simp⟩
        simp only [← List.map_append, deliveries_map_matching]
      | found =>
        cases turns <;> cases h <;> exact ⟨result, [], [u], first, by simp⟩
      | failed | raised =>
        cases h
        exact ⟨result, [], [u], first, by simp⟩

theorem straight_of_skip {turns : Nat} {outcome : Outcome} (going : w.latch.isFailed = false)
    (finished : outcome ≠ .unfinished)
    (h : w.proceed t.automaton (.substitute c) turns (some .skipping) = (outcome, w')) :
    ∃ results calls, Straight c results calls w w' ∧ BeginOutside calls ∧
      (outcome = .returned true → calls ≠ []) := by
  induction turns generalizing w with
  | zero =>
    cases h
    exact absurd rfl finished
  | succ turns ih =>
    rcases turned : w.turn t.automaton (.substitute c) .skipping with ⟨turn, v'⟩
    simp only [World.proceed, turned] at h
    cases serves_of_turn going turned with
    | @idle result _ reading nothing unsuccessful _ =>
      cases h
      exact ⟨[result], [], .idle reading nothing, by simp [BeginOutside],
        fun success => absurd success unsuccessful⟩
    | @called result u v _ reading offers still called moves =>
      have outside (calls : List (Mode × Rune)) : BeginOutside ((.skipping, u) :: calls) := by
        simp [BeginOutside]
      have first (other : turn ≠ .next (some .matching)) :
          Straight c [result] [(.skipping, u)] w v' :=
        .once reading offers still called (moves.keeps (.inr other))
      cases moves with
      | skipped _ latch =>
        have going' : v'.latch.isFailed = false := latch ▸ still
        obtain ⟨results, calls, later, begins, -⟩ := ih going' h
        refine ⟨result :: results, (.skipping, u) :: calls, ?_, outside calls, by simp⟩
        exact (first (by simp)).trans going' later (deliveries_append [(.skipping, u)] begins)
      | opened reader latch =>
        have going' : v'.latch.isFailed = false := latch ▸ still
        -- The rest of the pass begins with the rune that was taken back, so it is read once in all.
        obtain ⟨again, results, us, later, -⟩ := straight_of_match going' finished h
        exact ⟨result :: results, _, .opening reading offers still called reader latch later,
          outside _, by simp⟩
      | raised =>
        cases h
        exact ⟨[result], [(.skipping, u)], first (by simp), outside [], by simp⟩

theorem Moves.need_lt {mode' : Mode} (h : Moves t u v w' mode (.next (some mode')))
    (less : v.spare < w.spare) : need mode' w' < need mode w := by
  cases h with
  | skipped reader latch | extended reader latch =>
    have same := World.spare_congr reader latch
    simp only [need]
    omega
  | opened reader latch =>
    have more : w'.spare = v.spare + 1 := by
      rw [World.spare, World.spare, reader, latch, Reader.bound_unread]
      omega
    simp only [need]
    omega

theorem finished_of_proceed {turns : Nat} {outcome : Outcome} (going : w.latch.isFailed = false)
    (enough : need mode w < turns)
    (h : w.proceed t.automaton (.substitute c) turns (some mode) = (outcome, w')) :
    outcome ≠ .unfinished := by
  -- By induction on the turns allowed, which stay more than are needed.
  induction turns generalizing w mode with
  | zero => cases enough
  | succ turns ih =>
    rcases turned : w.turn t.automaton (.substitute c) mode with ⟨turn, v'⟩
    simp only [World.proceed, turned] at h
    cases serves_of_turn going turned with
    | idle _ _ _ finished =>
      cases h
      exact finished
    | @called result u v _ reading offers still called moves =>
      have less := reading.spare_lt still offers
      rcases turn with (_ | mode') | other
      · cases turns <;> cases h <;> simp
      · have fewer := moves.need_lt less
        exact ih (moves.going still) (by omega) h
      · cases h
        cases moves <;> simp

end Tokenizer

namespace Scanner

open Tokenizer

variable {μ τ : Type} {s : Scanner μ τ} {reader : Reader} {results : List (Except Fault Rune)}

def after (s : Scanner μ τ) : (scans : Nat) → Scanner μ τ
  | 0 => s
  | scans + 1 => (s.after scans).scan.2

def delivered (s : Scanner μ τ) : List Rune := deliveries s.world.calls.reverse

theorem tokenizer_after (s : Scanner μ τ) (n : Nat) : (s.after n).tokenizer = s.tokenizer := by
  induction n with
  | zero => rfl
  | succ n ih => exact ih

theorem straight_of_scan (s : Scanner μ τ) :
    s.scan.1 ≠ .unfinished ∧
      ∃ results calls,
        Straight s.tokenizer.options.sentinel results calls s.world s.scan.2.world ∧
        BeginOutside calls ∧ (s.scan.1 = .returned true → calls ≠ []) := by
  cases failed : s.world.latch.isFailed with
  | true =>
    rw [scan_of_failed failed]
    exact ⟨by simp, [], [], .refl _ _, by simp [BeginOutside], by simp⟩
  | false =>
    have enough : need .skipping s.world < s.turnBound := by
      simp only [need, World.spare, turnBound]
      split <;> omega
    rcases passed : s.world.proceed s.tokenizer.automaton s.tokenizer.config.policy s.turnBound
      (some .skipping) with ⟨outcome, w⟩
    have scanned : s.scan = (outcome, { s with world := w }) := by
      simp only [scan, World.pass_of_going failed]
      exact congrArg (fun x => (x.1, { s with world := x.2 })) passed
    rw [scanned]
    have finished := finished_of_proceed failed enough passed
    exact ⟨finished, straight_of_skip failed finished passed⟩

structure Covers (reader : Reader) (results : List (Except Fault Rune)) (s : Scanner μ τ) :
    Prop where
  gives : reader.Gives results s.world.reader
  delivered : s.delivered = offered s.tokenizer.options.sentinel true results
  fresh : s.world.latch.isFailed = false → s.world.isFresh = results.foldl staysFresh true

theorem covers_new (t : Tokenizer μ τ) (reader : Reader) (user : μ) :
    (new t reader user).Covers reader [] := ⟨.none, rfl, fun _ => rfl⟩

theorem Covers.scan (h : s.Covers reader results) :
    ∃ later added, s.scan.2.Covers reader (results ++ later) ∧
      s.scan.2.delivered = s.delivered ++ added ∧ (s.scan.1 = .returned true → added ≠ []) := by
  cases failed : s.world.latch.isFailed with
  | true =>
    rw [scan_of_failed failed]
    exact ⟨[], [], by rwa [List.append_nil], by simp, by simp⟩
  | false =>
    obtain ⟨-, later, calls, straight, outside, successful⟩ := s.straight_of_scan
    have added : s.scan.2.delivered = s.delivered ++ deliveries calls := by
      rw [Scanner.delivered, straight.called, List.reverse_append, List.reverse_reverse,
        deliveries_append _ outside]
      rfl
    refine ⟨later, deliveries calls, ⟨h.gives.append straight.gives, ?_, ?_⟩, added, ?_⟩
    · rw [added, h.delivered, straight.delivers, offered_append, h.fresh failed]
      rfl
    · intro unfailed
      rw [straight.fresh unfailed, h.fresh failed, List.foldl_append]
    · exact fun success nothing => successful success (deliveries_eq_nil nothing)

theorem exists_covers (t : Tokenizer μ τ) (reader : Reader) (user : μ) (n : Nat) :
    ∃ results, ((new t reader user).after n).Covers reader results := by
  induction n with
  | zero => exact ⟨[], covers_new t reader user⟩
  | succ n ih =>
    obtain ⟨results, covers⟩ := ih
    obtain ⟨later, -, covers', -, -⟩ := covers.scan
    exact ⟨results ++ later, covers'⟩

end Scanner

end RuneMachine
