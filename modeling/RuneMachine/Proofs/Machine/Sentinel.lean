import Mathlib.Data.List.Forall2
import RuneMachine.Proofs.Machine.Ahead
import RuneMachine.Proofs.Machine.Locations

/-! A rune that is substituted for the end of input is as good as one more rune of input. A machine
that substitutes `c` and a machine that stops, whose input is longer by `c`, call the same states
with the same runes and end their passes alike. Only their offsets tell them apart, because the
sentinel is not counted; so they part company if a state looks at the place that its own error was
given. -/

namespace RuneMachine

namespace Fault

/-- Two faults are one, or they are copies of one tokenize error that were given places of their
own. -/
inductive Twins : Fault → Fault → Prop
  | same (f : Fault) : Twins f f
  | placed {f : Fault} (m n : Int) : f.kind = .tokenize → f.offset = none →
      Twins { f with offset := some m } { f with offset := some n }

theorem twins_locate (f : Fault) (m n : Int) (l l' : Locations) :
    Twins (f.locate m l).1 (f.locate n l').1 := by
  cases identity : f.identity with
  | some i =>
    have stays : ∀ (n : Int) (l : Locations), (f.locate n l).1 = f := by
      intro n l
      unfold locate
      split <;> simp [identity]
    rw [stays, stays]
    exact .same f
  | none =>
    by_cases unplaced : f.kind = .tokenize ∧ f.offset = none
    · obtain ⟨kind, offset⟩ := unplaced
      simpa [locate, offsetIn, identity, kind, offset] using Twins.placed m n kind offset
    · have stays : ∀ (n : Int) (l : Locations), (f.locate n l).1 = f := by
        intro n l
        simp [locate, offsetIn, identity, unplaced]
      rw [stays, stays]
      exact .same f

variable {f g : Fault}

theorem Twins.isClean_eq (h : f.Twins g) : f.isClean = g.isClean := by
  cases h <;> rfl

theorem Twins.locate (h : f.Twins g) (m n : Int) (l l' : Locations) :
    Twins (f.locate m l).1 (g.locate n l').1 := by
  cases h with
  | same f => exact f.twins_locate m n l l'
  | placed k k' kind offset =>
    rw [locate_of_placed (by simp [offsetIn]), locate_of_placed (by simp [offsetIn])]
    exact .placed k k' kind offset

/-- The fault can be found to have this place once it is latched. A tokenize error without a place
of its own can be found to have any. -/
structure Admits (f : Fault) (place : Option Int) : Prop where
  own : ∀ k, f.offset = some k → place = some k
  found : f.kind = .tokenize → place ≠ none
  other : f.kind ≠ .tokenize → f.identity = none → place = f.offset

theorem admits_place (f : Fault) (n : Int) (l : Locations) :
    f.Admits (f.offsetIn l <|> if f.kind = .tokenize then some n else none) where
  own k offset := by simp [offsetIn_of_offset offset]
  found kind := by cases f.offsetIn l <;> simp [kind]
  other kind fresh := by simp [offsetIn_of_fresh fresh, kind]

end Fault

variable {σ ν Q E α : Type}

namespace Act

def NeverClears : Act σ ν α → Prop
  | .done _ _ => True
  | .raise _ _ => True
  | .unread _ next => next.NeverClears
  | .latch none _ => False
  | .latch (some f) next =>
    if f.isClean then (next (.error World.refusal)).NeverClears
    else ∀ place, f.Admits place → (next (.ok place)).NeverClears
  | .note _ next => next.NeverClears

/-- The two calls do the same, whatever places latching gives to their errors. They may still pass
these errors on, to the latch or to whoever called them. -/
inductive Twins : Act σ ν α → Act σ ν α → Prop
  | done {m a} : Twins (.done m a) (.done m a)
  | raise {m f g} : f.Twins g → Twins (.raise m f) (.raise m g)
  | unread {u next next'} : Twins next next' → Twins (.unread u next) (.unread u next')
  | clear {next next'} : Twins (next (.ok none)) (next' (.ok none)) →
      Twins (.latch none next) (.latch none next')
  | refused {f next next'} : f.isClean = true →
      Twins (next (.error World.refusal)) (next' (.error World.refusal)) →
      Twins (.latch (some f) next) (.latch (some f) next')
  | latch {f g next next'} : f.isClean = false → f.Twins g →
      (∀ place place', f.Admits place → g.Admits place' →
        Twins (next (.ok place)) (next' (.ok place'))) →
      Twins (.latch (some f) next) (.latch (some g) next')
  | note {entry entry' next next'} : Twins next next' →
      Twins (.note entry next) (.note entry' next')

end Act

namespace Automaton

def NeverClears (A : Automaton σ ν Q E) : Prop := ∀ q u m, (A.step q u m).NeverClears

def IgnoresPlaces (A : Automaton σ ν Q E) : Prop := ∀ q u m, (A.step q u m).Twins (A.step q u m)

end Automaton

inductive Fault.Ends : Except Fault α → Except Fault α → Prop
  | ok (a : α) : Ends (.ok a) (.ok a)
  | error {f g : Fault} : f.Twins g → Ends (.error f) (.error g)

inductive Outcome.Twins : Outcome → Outcome → Prop
  | same (outcome : Outcome) : Twins outcome outcome
  | raised {f g : Fault} : f.Twins g → Twins (.raised f) (.raised g)

inductive Turn.Twins : Turn Q → Turn Q → Prop
  | next (state : Option Q) : Twins (.next state) (.next state)
  | ended {outcome outcome' : Outcome} : outcome.Twins outcome' →
      Twins (.over outcome) (.over outcome')

namespace World

def passes (A : Automaton σ ν Q E) (config : Config Q E) :
    List Nat → World σ ν Q E → List Outcome × World σ ν Q E
  | [], w => ([], w)
  | turns :: later, w =>
    match w.pass A config turns with
    | (outcome, w) =>
      match passes A config later w with
      | (outcomes, w) => (outcome :: outcomes, w)

inductive Level (c : CodePoint) (w v : World σ ν Q E) : Prop
  | failed {f g : Fault} : f.Twins g → w.latch = .failed f → v.latch = .failed g → Level c w v
  | going {us} : w.Faces c us → v.latch = .empty → v.reader.Holds us → Level c w v

theorem Level.congr {c : CodePoint} {w v w' v' : World σ ν Q E} (h : Level c w v)
    (reader : w'.reader = w.reader) (latch : w'.latch = w.latch)
    (substituted : w'.hasSubstituted = w.hasSubstituted) (other : v'.reader = v.reader)
    (otherLatch : v'.latch = v.latch) : Level c w' v' := by
  cases h with
  | failed twins hw hv => exact .failed twins (latch.trans hw) (otherLatch.trans hv)
  | going faces hv holds =>
    exact .going (faces.congr reader latch substituted) (otherLatch.trans hv) (other ▸ holds)

structure Paired (c : CodePoint) (w v : World σ ν Q E) : Prop where
  memory : w.memory = v.memory
  calls : w.calls = v.calls
  offset : v.offset = w.position
  level : Level c w v

namespace Paired

variable {c : CodePoint} {w v : World σ ν Q E}

theorem isFailed_eq (h : Paired c w v) : w.latch.isFailed = v.latch.isFailed := by
  cases h.level with
  | failed _ hw hv => rw [hw, hv]; rfl
  | going faces hv _ => rw [faces.isFailed, hv]; rfl

theorem fault?_rel (h : Paired c w v) : Option.Rel Fault.Twins w.latch.fault? v.latch.fault? := by
  cases h.level with
  | failed twins hw hv => rw [hw, hv]; exact .some twins
  | going faces hv _ =>
    cases faces with
    | before empty _ _ => rw [empty, hv]; exact .none
    | after ended _ _ => rw [ended, hv]; exact .none

theorem withMemory (h : Paired c w v) (m : σ) :
    Paired c { w with memory := m } { v with memory := m } where
  memory := rfl
  calls := h.calls
  offset := h.offset
  level := h.level.congr rfl rfl rfl rfl rfl

theorem unread (h : Paired c w v) (u : Rune) : Paired c (w.unread u) (v.unread u) where
  memory := h.memory
  calls := h.calls
  offset := by
    rw [position_unread, ← h.offset]
    rfl
  level := by
    cases h.level with
    | failed twins hw hv => exact .failed twins hw hv
    | going faces hv holds => exact .going (faces.unread u) hv (holds.unread u)

theorem note (h : Paired c w v) (m n : ν) :
    Paired c (w.record (.note m)) (v.record (.note n)) where
  memory := h.memory
  calls := h.calls
  offset := h.offset
  level := h.level.congr rfl rfl rfl rfl rfl

theorem call (h : Paired c w v) (q : Q) (u : Rune) :
    Paired c (w.record (.call q u)) (v.record (.call q u)) where
  memory := h.memory
  calls := congrArg ((q, u) :: ·) h.calls
  offset := h.offset
  level := h.level.congr rfl rfl rfl rfl rfl

theorem setError (h : Paired c w v) {f g : Fault} (dirty : f.isClean = false) (twins : f.Twins g) :
    Paired c (w.setError (some f)).2 (v.setError (some g)).2 := by
  rw [setError_of_dirty dirty, setError_of_dirty (twins.isClean_eq ▸ dirty)]
  exact
    { memory := h.memory
      calls := h.calls
      offset := h.offset
      level := .failed (twins.locate w.offset v.offset w.located v.located) rfl rfl }

theorem perform {act act' : Act σ ν α} (never : act.NeverClears) (twins : act.Twins act')
    (h : Paired c w v) :
    ∃ result result' w' v', w.perform act = (result, w') ∧ v.perform act' = (result', v') ∧
      Fault.Ends result result' ∧ Paired c w' v' := by
  -- Latching may give the two machines different places, of which the calls make nothing.
  induction twins generalizing w v with
  | done => exact ⟨_, _, _, _, rfl, rfl, .ok _, h.withMemory _⟩
  | raise twins => exact ⟨_, _, _, _, rfl, rfl, .error twins, h.withMemory _⟩
  | @unread u next next' twins ih => exact ih never (h.unread u)
  | clear => exact never.elim
  | @refused f next next' clean twins ih =>
    rw [Act.NeverClears, if_pos clean] at never
    simp only [World.perform, setError_of_clean clean]
    exact ih never h
  | @latch f g next next' dirty same twins ih =>
    rw [Act.NeverClears, if_neg (by simp [dirty])] at never
    have left := f.admits_place w.offset w.located
    have right := g.admits_place v.offset v.located
    have latched := h.setError dirty same
    simp only [World.perform, setError_of_dirty dirty,
      setError_of_dirty (same.isClean_eq ▸ dirty)] at latched ⊢
    exact ih _ _ left right (never _ left) latched
  | note twins ih => exact ih never (h.note _ _)

theorem deliver {A : Automaton σ ν Q E} (never : A.NeverClears) (blind : A.IgnoresPlaces)
    (h : Paired c w v) (q : Q) (u : Rune) :
    ∃ turn turn' w' v', w.deliver A q u = (turn, w') ∧ v.deliver A q u = (turn', v') ∧
      turn.Twins turn' ∧ Paired c w' v' ∧
      (∀ state, turn = .next state → w'.latch.isFailed = false) := by
  obtain ⟨result, result', w', v', hw, hv, ends, paired⟩ :=
    (h.call q u).perform (never q u w.memory) (blind q u w.memory)
  rw [h.memory] at hv
  cases ends with
  | @error f g twins =>
    refine ⟨.over (.raised f), .over (.raised g), w', v', ?_, ?_, .ended (.raised twins), paired,
      by simp⟩
    · simp only [World.deliver, hw]
    · simp only [World.deliver, hv]
  | ok next =>
    by_cases failed : w'.latch.isFailed = true
    · refine ⟨.over (.returned false), .over (.returned false), w', v', ?_, ?_, .ended (.same _),
        paired, by simp⟩
      · simp only [World.deliver, hw, failed, if_true]
      · simp only [World.deliver, hv, ← paired.isFailed_eq, failed, if_true]
    · refine ⟨.next next, .next next, w', v', ?_, ?_, .next next, paired,
        fun _ _ => by simpa using failed⟩
      · simp only [World.deliver, hw, failed, if_false, Bool.false_eq_true]
      · simp only [World.deliver, hv, ← paired.isFailed_eq, failed, if_false, Bool.false_eq_true]

theorem turn {A : Automaton σ ν Q E} (never : A.NeverClears) (blind : A.IgnoresPlaces)
    (h : Paired c w v) (going : w.latch.isFailed = false) (q : Q) :
    ∃ turn turn' w' v', w.turn A (.substitute c) q = (turn, w') ∧ v.turn A .stop q = (turn', v') ∧
      turn.Twins turn' ∧ Paired c w' v' ∧
      (∀ state, turn = .next state → w'.latch.isFailed = false) := by
  cases h.level with
  | failed _ hw _ => rw [hw] at going; cases going
  | @going us faces empty holds =>
    cases us with
    | cons u us =>
      -- The second machine reads `u`, be it that the first one reads it or that it substitutes it.
      obtain ⟨w', turned, faces', memory, -, calls, position, -⟩ := faces.turn_cons A q
      obtain ⟨r, read, holds'⟩ := holds.read_cons
      obtain ⟨v', hv, reader, latch, memory', -, calls', -⟩ := read_eq read
      have counted := Reader.offset_read_ok read
      have paired : Paired c w' v' :=
        { memory := by rw [memory, memory', h.memory]
          calls := by rw [calls, calls', h.calls]
          offset := by
            rw [position, ← h.offset]
            exact (congrArg Reader.offset reader).trans counted
          level := .going faces' (latch.trans empty) (reader ▸ holds') }
      have stopping : v.turn A .stop q = v'.deliver A q u := by simp only [World.turn, hv]
      rw [turned, stopping]
      exact paired.deliver never blind q u
    | nil =>
      obtain ⟨w', turned, faces', memory, -, calls, position, -⟩ := faces.turn_nil A q
      obtain ⟨r, read, holds'⟩ := holds.read_nil
      obtain ⟨v', hv, reader, latch, memory', -, calls', -⟩ := read_eq read
      have counted := Reader.offset_read_error read
      refine ⟨.over (.returned false), .over (.returned false), w', v'.log (.stopping v'.offset),
        turned, ?_, .ended (.same _), ?_, by simp⟩
      · have clean : Fault.endOfInput.isClean = true := rfl
        simp [World.turn, hv, clean, meetEnd, latch, empty]
      · exact
          { memory := by rw [memory, h.memory, ← memory']; rfl
            calls := by rw [calls, h.calls, ← calls']; rfl
            offset := by
              rw [position, ← h.offset]
              exact (congrArg Reader.offset reader).trans counted
            level := .going faces' (latch.trans empty) (reader ▸ holds') }

theorem proceed {A : Automaton σ ν Q E} (never : A.NeverClears) (blind : A.IgnoresPlaces)
    (h : Paired c w v) (going : w.latch.isFailed = false) (turns : Nat) (state : Option Q) :
    ∃ outcome outcome' w' v', w.proceed A (.substitute c) turns state = (outcome, w') ∧
      v.proceed A .stop turns state = (outcome', v') ∧ outcome.Twins outcome' ∧
      Paired c w' v' := by
  induction turns generalizing w v state with
  | zero =>
    cases state with
    | none => exact ⟨_, _, _, _, rfl, rfl, .same _, h⟩
    | some q => exact ⟨_, _, _, _, rfl, rfl, .same _, h⟩
  | succ turns ih =>
    cases state with
    | none => exact ⟨_, _, _, _, rfl, rfl, .same _, h⟩
    | some q =>
      obtain ⟨turn, turn', w', v', hw, hv, twins, paired, goes⟩ := h.turn never blind going q
      cases twins with
      | next state =>
        obtain ⟨outcome, outcome', w'', v'', hw', hv', last⟩ := ih paired (goes state rfl) state
        refine ⟨outcome, outcome', w'', v'', ?_, ?_, last⟩
        · simp only [World.proceed, hw, hw']
        · simp only [World.proceed, hv, hv']
      | ended twins =>
        refine ⟨_, _, w', v', ?_, ?_, twins, paired⟩
        · simp only [World.proceed, hw]
        · simp only [World.proceed, hv]

theorem pass {A : Automaton σ ν Q E} (never : A.NeverClears) (blind : A.IgnoresPlaces)
    (h : Paired c w v) (initial : Option Q) (turns : Nat) :
    ∃ outcome outcome' w' v', w.pass A ⟨initial, .substitute c⟩ turns = (outcome, w') ∧
      v.pass A ⟨initial, .stop⟩ turns = (outcome', v') ∧ outcome.Twins outcome' ∧
      Paired c w' v' := by
  by_cases failed : w.latch.isFailed = true
  · refine ⟨.returned false, .returned false, w, v, ?_, ?_, .same _, h⟩
    · simp only [World.pass, failed, if_true]
    · simp only [World.pass, ← h.isFailed_eq, failed, if_true]
  · obtain ⟨outcome, outcome', w', v', hw, hv, last⟩ :=
      h.proceed never blind (by simpa using failed) turns initial
    refine ⟨outcome, outcome', w', v', ?_, ?_, last⟩
    · simp only [World.pass, failed, if_false, Bool.false_eq_true, hw]
    · simp only [World.pass, ← h.isFailed_eq, failed, if_false, Bool.false_eq_true, hv]

theorem passes {A : Automaton σ ν Q E} (never : A.NeverClears) (blind : A.IgnoresPlaces)
    (h : Paired c w v) (initial : Option Q) (turns : List Nat) :
    ∃ outcomes outcomes' w' v', w.passes A ⟨initial, .substitute c⟩ turns = (outcomes, w') ∧
      v.passes A ⟨initial, .stop⟩ turns = (outcomes', v') ∧
      List.Forall₂ Outcome.Twins outcomes outcomes' ∧ Paired c w' v' := by
  induction turns generalizing w v with
  | nil => exact ⟨[], [], w, v, rfl, rfl, .nil, h⟩
  | cons turns later ih =>
    obtain ⟨outcome, outcome', w', v', hw, hv, twins, paired⟩ := h.pass never blind initial turns
    obtain ⟨outcomes, outcomes', w'', v'', hw', hv', others, paired'⟩ := ih paired
    refine ⟨outcome :: outcomes, outcome' :: outcomes', w'', v'', ?_, ?_, .cons twins others,
      paired'⟩
    · simp only [World.passes, hw, hw']
    · simp only [World.passes, hv, hv']

end Paired

/-- Whatever the states do, short of emptying the latch and of going by the places that latching
gives to their errors: over the text `s`, a machine that substitutes `c` makes the same calls, ends
its passes in the same way and reports the same errors as a machine that stops, over `s` followed by
`c`, up to the place of an error. The offset of the latter is the same until the sentinel has been
delivered, and one more from then on. -/
theorem passes_substitute_eq_stop {A : Automaton σ ν Q E} (never : A.NeverClears)
    (blind : A.IgnoresPlaces) {s : Text} {c : CodePoint} {r r' : Reader} (short : r.Delivers s)
    (long : r'.Delivers (s ++ [c])) (level : r.offset = r'.offset) (initial : Option Q)
    (memory : σ) (turns : List Nat) :
    ∃ outcomes outcomes' w v,
      (start r memory).passes A ⟨initial, .substitute c⟩ turns = (outcomes, w) ∧
      (start r' memory).passes A ⟨initial, .stop⟩ turns = (outcomes', v) ∧
      List.Forall₂ Outcome.Twins outcomes outcomes' ∧
      w.calls = v.calls ∧ w.memory = v.memory ∧
      Option.Rel Fault.Twins w.latch.fault? v.latch.fault? ∧
      v.offset = w.offset + if w.hasSubstituted then 1 else 0 := by
  have together : Paired c (start r memory) (start r' memory : World σ ν Q E) :=
    { memory := rfl
      calls := rfl
      offset := by rw [position_eq_offset rfl]; exact level.symm
      level := .going (.start short memory) rfl long }
  obtain ⟨outcomes, outcomes', w, v, hw, hv, twins, paired⟩ :=
    together.passes never blind initial turns
  exact ⟨outcomes, outcomes', w, v, hw, hv, twins, paired.calls, paired.memory, paired.fault?_rel,
    paired.offset⟩

def lineRefuser : Automaton Nat Empty Bool Empty where
  step
    | false, u, n =>
      if u = [0x0a] then .unread u (.done (n + 1) (some true)) else .done (n + 1) (some false)
    | true, _, n =>
      .latch (some (Fault.of .tokenize [])) fun
        | .ok place => .raise (n + 1) { Fault.of .tokenize [] with offset := place }
        | .error refusal => .raise (n + 1) refusal
  atEnd e := nomatch e

theorem lineRefuser_neverClears : lineRefuser.NeverClears := by
  intro q u n
  cases q with
  | false =>
    change Act.NeverClears (if u = [0x0a] then _ else _)
    split <;> trivial
  | true =>
    intro place _
    trivial

theorem lineRefuser_ignoresPlaces : lineRefuser.IgnoresPlaces := by
  intro q u n
  cases q with
  | false =>
    change Act.Twins (if u = [0x0a] then _ else _) (if u = [0x0a] then _ else _)
    split
    · exact .unread .done
    · exact .done
  | true =>
    refine .latch rfl (.same _) ?_
    intro place place' admits admits'
    obtain ⟨k, rfl⟩ := Option.ne_none_iff_exists'.mp (admits.found rfl)
    obtain ⟨k', rfl⟩ := Option.ne_none_iff_exists'.mp (admits'.found rfl)
    exact .raise (.placed (f := Fault.of .tokenize []) k k' rfl rfl)

theorem passes_substitute_eq_stop_lineRefuser :
    let w := (start (.ofText [0x61]) 0).passes lineRefuser ⟨some false, .substitute 0x0a⟩ [9, 9]
    let v := (start (.ofText [0x61, 0x0a]) 0).passes lineRefuser ⟨some false, .stop⟩ [9, 9]
    let error (n : Int) : Fault := { Fault.of .tokenize [] with offset := some n }
    lineRefuser.NeverClears ∧ lineRefuser.IgnoresPlaces ∧
    w.1 = [.raised (error 1), .returned false] ∧ v.1 = [.raised (error 2), .returned false] ∧
    List.Forall₂ Outcome.Twins w.1 v.1 ∧
    w.2.calls = [(true, [0x0a]), (false, [0x0a]), (false, [0x61])] ∧ w.2.calls = v.2.calls ∧
    w.2.memory = 3 ∧ w.2.memory = v.2.memory ∧
    w.2.latch = .failed (error 1) ∧ v.2.latch = .failed (error 2) ∧
    Option.Rel Fault.Twins w.2.latch.fault? v.2.latch.fault? ∧
    w.2.hasSubstituted = true ∧ w.2.offset = 1 ∧ v.2.offset = w.2.offset + 1 := by
  intro w v error
  obtain ⟨outcomes, outcomes', w', v', hw, hv, twins, calls, memory, faults, offset⟩ :=
    passes_substitute_eq_stop lineRefuser_neverClears lineRefuser_ignoresPlaces
      (Reader.delivers_ofText [0x61]) (Reader.delivers_ofText [0x61, 0x0a]) rfl (some false) 0
      [9, 9]
  obtain rfl : w.1 = outcomes := congrArg Prod.fst hw
  obtain rfl : v.1 = outcomes' := congrArg Prod.fst hv
  obtain rfl : w.2 = w' := congrArg Prod.snd hw
  obtain rfl : v.2 = v' := congrArg Prod.snd hv
  have substituted : w.2.hasSubstituted = true := by decide
  rw [substituted, if_pos rfl] at offset
  exact ⟨lineRefuser_neverClears, lineRefuser_ignoresPlaces, by decide, by decide, twins,
    by decide, calls, by decide, memory, by decide, by decide, faults, substituted, by decide,
    offset⟩

def placeWatcher : Automaton Unit Empty Bool Empty where
  step candid u _ :=
    if u = [0x0a] then
      .latch (some (Fault.of .tokenize [])) fun
        | .error refusal => .raise () refusal
        | .ok place =>
          if candid then .raise () { Fault.of .tokenize [] with offset := place }
          else if place = some 1 then .raise () (Fault.of .value [])
          else .done () none
    else .done () (some candid)
  atEnd e := nomatch e

theorem placeWatcher_neverClears : placeWatcher.NeverClears := by
  intro candid u m
  change Act.NeverClears (if u = [0x0a] then _ else _)
  split
  · intro place _
    change Act.NeverClears (if candid then _ else if place = some 1 then _ else _)
    split
    · trivial
    · split <;> trivial
  · trivial

/-- Without a condition on what the states make of the places, the machines can be told apart by
what their passes raise, and one of them can raise where the other returns. -/
theorem not_passes_substitute_eq_stop :
    let substituting (candid : Bool) : List Outcome :=
      ((start (.ofText [0x61]) ()).passes placeWatcher ⟨some candid, .substitute 0x0a⟩ [9]).1
    let stopping (candid : Bool) : List Outcome :=
      ((start (.ofText [0x61, 0x0a]) ()).passes placeWatcher ⟨some candid, .stop⟩ [9]).1
    let error (n : Int) : Fault := { Fault.of .tokenize [] with offset := some n }
    placeWatcher.NeverClears ∧
    substituting true = [.raised (error 1)] ∧ stopping true = [.raised (error 2)] ∧
    substituting false = [.raised (Fault.of .value [])] ∧ stopping false = [.returned false] := by
  intro substituting stopping error
  exact ⟨placeWatcher_neverClears, by decide, by decide, by decide, by decide⟩

end World

end RuneMachine
