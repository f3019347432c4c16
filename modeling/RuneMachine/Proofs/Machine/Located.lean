import RuneMachine.Proofs.Machine.Bench
import RuneMachine.Proofs.Machine.History

/-! The places of errors. An error may be held by several machines at once and be passed to their
latches again and again; it may come from a source, a mapper or a state. Whatever the order in which
all this happens, it is given a place at most once: when it is passed to a latch without having one,
and then the place is where that machine stands at the moment. -/

namespace RuneMachine

variable {σ ν Q E α : Type}

theorem World.setError_eq_ok {w w' : World σ ν Q E} {f : Fault} {place : Option Int}
    (h : w.setError (some f) = (.ok place, w')) :
    w' = { w with
      latch := .failed (f.locate w.offset w.located).1
      located := (f.locate w.offset w.located).2 }.log
        (.latched w.offset (some (f.locate w.offset w.located).1)) := by
  cases clean : f.isClean with
  | true =>
    rw [World.setError_of_clean clean] at h
    cases h
  | false =>
    rw [World.setError_of_dirty clean] at h
    cases h
    rfl

namespace Bench

def Holds (b : Bench σ Q E) (m : Nat) (f : Fault) : Prop :=
  b.machines[m]?.map Machine.latch = some (.failed f)

instance (b : Bench σ Q E) (m : Nat) (f : Fault) : Decidable (b.Holds m f) :=
  inferInstanceAs (Decidable (_ = _))

def StandsAt (b : Bench σ Q E) (m : Nat) (n : Int) : Prop := (b.report m).map Prod.snd = some n

instance (b : Bench σ Q E) (m : Nat) (n : Int) : Decidable (b.StandsAt m n) :=
  inferInstanceAs (Decidable (_ = _))

def entries (m : Nat) (events : List (Event ν Q E)) : List (Nat × Event ν Q E) :=
  events.reverse.map (m, ·)

theorem entries_append (m : Nat) (later events : List (Event ν Q E)) :
    entries m (later ++ events) = entries m events ++ entries m later := by
  simp [entries]

/-- One thing that happens on a bench, with what goes into the journals: something that brings no
error into a latch and no error to its place, an error that is passed to a latch and not refused, or
a read in a pass that fails. -/
inductive Stroke : Bench σ Q E → List (Nat × Event ν Q E) → Bench σ Q E → Prop
  | quiet {b b' chronicle} : b'.located = b.located → (∀ m f, b'.Holds m f → b.Holds m f) →
      (∀ entry ∈ chronicle, entry.2.latched? = none) → Stroke b chronicle b'
  | latch {b m i config reader latch f place w} : b.Seats m i config reader latch →
      (b.scene reader latch).setError (some f) = (.ok place, w) →
      Stroke b (entries m w.journal) (b.leave m w)
  | fault {b m i config reader latch f v} : b.Seats m i config reader latch →
      (b.scene reader latch).read = (.error f, v) → f.isClean = false →
      Stroke b (entries m (v.latchFault f).journal) (b.leave m (v.latchFault f))

inductive Strokes : Bench σ Q E → List (Nat × Event ν Q E) → Bench σ Q E → Prop
  | refl {b} : Strokes b [] b
  | head {b b₁ b' first later} : Stroke b first b₁ → Strokes b₁ later b' →
      Strokes b (first ++ later) b'

variable {b b₁ b' : Bench σ Q E} {first later chronicle : List (Nat × Event ν Q E)}

theorem Strokes.single (h : Stroke b chronicle b') : Strokes b chronicle b' := by
  rw [← List.append_nil chronicle]
  exact .head h .refl

theorem Strokes.trans (h : Strokes b first b₁) (h' : Strokes b₁ later b') :
    Strokes b (first ++ later) b' := by
  induction h with
  | refl => exact h'
  | head stroke _ ih =>
    rw [List.append_assoc]
    exact .head stroke (ih h')

section Works

variable {m i : Nat} {config : Config Q E} {reader : Reader} {latch : Latch}

namespace Seats

theorem leave_scene (h : b.Seats m i config reader latch) :
    b.leave m (b.scene reader latch : World σ ν Q E) = b := by
  rw [h.leave]
  obtain ⟨inMachines, machine⟩ := List.getElem?_eq_some_iff.mp h.machine
  obtain ⟨inReaders, there⟩ := List.getElem?_eq_some_iff.mp h.reader
  simp [scene, ← machine, ← there]

theorem leave_leave (h : b.Seats m i config reader latch) (w w' : World σ ν Q E) :
    (b.leave m w).leave m w' = b.leave m w' := by
  rw [(h.after w).leave, h.leave, h.leave]
  simp

theorem standsAt (h : b.Seats m i config reader latch) : b.StandsAt m reader.offset := by
  rw [StandsAt, h.report]
  rfl

theorem holds_leave (h : b.Seats m i config reader latch) {w : World σ ν Q E} {m' : Nat}
    {f : Fault} :
    (b.leave m w).Holds m' f ↔ if m' = m then w.latch = .failed f else b.Holds m' f := by
  split
  · next same =>
    subst same
    simp [Holds, (h.after w).machine]
  · next other =>
    rw [h.leave]
    simp [Holds, List.getElem?_set_ne (Ne.symm other)]

theorem scene_leave (h : b.Seats m i config reader latch) (w : World σ ν Q E) :
    (b.leave m w).scene w.reader w.latch = ({ w with journal := [] } : World σ ν Q E) := by
  rw [h.leave]
  rfl

end Seats

def Works (b : Bench σ Q E) (m : Nat) (w w' : World σ ν Q E) : Prop :=
  ∃ new, w'.journal = new ++ w.journal ∧ Strokes (b.leave m w) (entries m new) (b.leave m w')

variable {w v w' : World σ ν Q E}

theorem Works.refl (b : Bench σ Q E) (m : Nat) (w : World σ ν Q E) : b.Works m w w :=
  ⟨[], rfl, .refl⟩

theorem Works.trans (h : b.Works m w v) (h' : b.Works m v w') : b.Works m w w' := by
  obtain ⟨new, journal, strokes⟩ := h
  obtain ⟨later, journal', strokes'⟩ := h'
  refine ⟨later ++ new, ?_, ?_⟩
  · rw [journal', journal, List.append_assoc]
  · rw [entries_append]
    exact strokes.trans strokes'

namespace Seats

theorem quiet (h : b.Seats m i config reader latch) (new : List (Event ν Q E))
    (journal : w'.journal = new ++ w.journal) (silent : ∀ e ∈ new, e.latched? = none)
    (located : w'.located = w.located)
    (unfailed : ∀ f, w'.latch = .failed f → w.latch = .failed f) : b.Works m w w' := by
  refine ⟨new, journal, .single (.quiet ?_ ?_ ?_)⟩
  · rw [h.leave, h.leave]
    exact located
  · intro m' f
    rw [h.holds_leave, h.holds_leave]
    split
    · exact unfailed f
    · exact id
  · simpa [entries] using silent

theorem record (h : b.Seats m i config reader latch) (w : World σ ν Q E) {e : Event ν Q E}
    (silent : e.latched? = none) : b.Works m w (w.record e) :=
  h.quiet [e] rfl (by simpa) rfl fun _ => id

theorem setError (h : b.Seats m i config reader latch) (w : World σ ν Q E)
    (fault : Option Fault) : b.Works m w (w.setError fault).2 := by
  cases fault with
  | none =>
    refine h.quiet [.log (.latched w.offset none)] rfl (by simp [Event.latched?]) rfl ?_
    intro f failed
    cases failed
  | some f =>
    cases clean : f.isClean with
    | true =>
      rw [World.setError_of_clean clean]
      exact .refl b m w
    | false =>
      -- The stroke is that of a scene, so the error is passed once more with an empty journal.
      let record : Event ν Q E := .log (.latched w.offset (some (f.locate w.offset w.located).1))
      have passed : ((b.leave m w).scene w.reader w.latch : World σ ν Q E).setError (some f) =
          (.ok (f.offsetIn w.located <|> if f.kind = .tokenize then some w.offset else none),
            { (w.setError (some f)).2 with journal := [record] }) := by
        rw [h.scene_leave, World.setError_of_dirty clean, World.setError_of_dirty clean]
        rfl
      have stroke := Stroke.latch (h.after w) passed
      rw [h.leave_leave] at stroke
      refine ⟨[record], ?_, .single stroke⟩
      rw [World.setError_of_dirty clean]
      rfl

theorem read (h : b.Seats m i config reader latch) {result : Except Fault Rune}
    (read : w.read = (result, v)) : b.Works m w v := by
  cases read
  refine h.quiet _ rfl ?_ rfl fun _ => id
  intro e member
  rw [List.eq_of_mem_replicate member]
  rfl

theorem latchFault (h : b.Seats m i config reader latch) {f : Fault}
    (read : w.read = (.error f, v)) (dirty : f.isClean = false) :
    b.Works m w (v.latchFault f) := by
  obtain rfl : v = w.read.2 := by rw [read]
  have failed : w.read.1 = .error f := by rw [read]
  let pulls : List (Event ν Q E) :=
    List.replicate (w.reader.read.2.source.calls - w.reader.source.calls)
      (.pull w.reader.read.2.source.shape)
  have again : ((b.leave m w).scene w.reader w.latch : World σ ν Q E).read =
      (.error f, { w.read.2 with journal := pulls }) := by
    rw [h.scene_leave, ← failed]
    simp [World.read, pulls]
  have stroke := Stroke.fault (h.after w) again dirty
  rw [h.leave_leave] at stroke
  exact ⟨.log (.readFault w.read.2.offset f) :: pulls, rfl, .single stroke⟩

end Seats

theorem Seats.perform (h : b.Seats m i config reader latch) (act : Act σ ν α) (w : World σ ν Q E) :
    b.Works m w (w.perform act).2 := by
  induction act generalizing w with
  | done m a => exact h.quiet [] rfl (by simp) rfl fun _ => id
  | raise m f => exact h.quiet [] rfl (by simp) rfl fun _ => id
  | unread u next ih =>
    have unread : b.Works m w (w.unread u) := h.quiet [] rfl (by simp) rfl fun _ => id
    exact unread.trans (ih _)
  | latch fault next ih => exact (h.setError w fault).trans (ih _ _)
  | note entry next ih => exact (h.record w rfl).trans (ih _)

theorem Seats.turn (h : b.Seats m i config reader latch) {A : Automaton σ ν Q E}
    {policy : Policy E} {q : Q} {turn : Turn Q} (turned : w.turn A policy q = (turn, w')) :
    b.Works m w w' := by
  cases World.turned_of_turn turned with
  | @delivered u v _ _ read delivered =>
    rw [World.eq_of_deliver delivered]
    exact ((h.read read).trans (h.record v rfl)).trans (h.perform _ _)
  | @substituted f v c _ _ read clean empty substitutes delivered =>
    have marked : b.Works m v ({ v with latch := .ended }.log (.substituting v.offset [c])) := by
      refine h.quiet [.log (.substituting v.offset [c])] rfl (by simp [Event.latched?]) rfl ?_
      intro g failed
      cases failed
    rw [World.eq_of_deliver delivered]
    exact (((h.read read).trans marked).trans (h.record _ rfl)).trans (h.perform _ _)
  | @consulted f v e _ _ read clean empty delegates consulted =>
    rw [World.eq_of_consult consulted]
    exact (((h.read read).trans (h.record v rfl)).trans (h.record _ rfl)).trans (h.perform _ _)
  | stopped read => exact (h.read read).trans (h.record _ rfl)
  | refused read => exact h.read read
  | finished read => exact h.read read
  | faulted read dirty => exact h.latchFault read dirty
  | interrupted read => exact h.read read

theorem Seats.proceed (h : b.Seats m i config reader latch) {A : Automaton σ ν Q E}
    {policy : Policy E} {turns : Nat} {state : Option Q} {outcome : Outcome}
    (proceeded : w.proceed A policy turns state = (outcome, w')) : b.Works m w w' := by
  induction turns generalizing w state with
  | zero => cases state <;> cases proceeded <;> exact .refl b m _
  | succ turns ih =>
    cases state with
    | none =>
      cases proceeded
      exact .refl b m _
    | some q =>
      rcases turned : w.turn A policy q with ⟨state | outcome, v⟩
      · simp only [World.proceed, turned] at proceeded
        exact (h.turn turned).trans (ih proceeded)
      · simp only [World.proceed, turned] at proceeded
        cases proceeded
        exact h.turn turned

theorem Seats.pass (h : b.Seats m i config reader latch) (A : Automaton σ ν Q E) (turns : Nat)
    (w : World σ ν Q E) : b.Works m w (w.pass A config turns).2 := by
  unfold World.pass
  split
  · exact .refl b m w
  · exact h.proceed rfl

theorem Seats.strokes (h : b.Seats m i config reader latch) {w : World σ ν Q E}
    (works : b.Works m (b.scene reader latch) w) :
    Strokes b (w.journal.reverse.map (m, ·)) (b.leave m w) := by
  obtain ⟨new, journal, strokes⟩ := works
  rw [h.leave_scene] at strokes
  have all : w.journal = new := journal.trans (List.append_nil new)
  rwa [all]

end Works

inductive Task (σ ν Q E : Type) where
  | addReader (r : Reader)
  | addMachine (config : Config Q E) (reader : Nat)
  | run (m turns : Nat)
  | control (m : Nat) (act : Act σ ν Unit)
  | read (r : Nat)
  | unread (r : Nat) (u : Rune)

def undertake (A : Automaton σ ν Q E) (b : Bench σ Q E) :
    Task σ ν Q E → List (Nat × Event ν Q E) × Bench σ Q E
  | .addReader r => ([], b.addReader r)
  | .addMachine config i => ([], b.addMachine config i)
  | .run m turns =>
    match b.run A turns m with
    | some (_, events, b) => (events.map (m, ·), b)
    | none => ([], b)
  | .control m act =>
    match b.control m act with
    | some (_, events, b) => (events.map (m, ·), b)
    | none => ([], b)
  | .read r =>
    match b.read r with
    | some (_, _, b) => ([], b)
    | none => ([], b)
  | .unread r u => ([], (b.unread r u).getD b)

def undertakeAll (A : Automaton σ ν Q E) :
    List (Task σ ν Q E) → Bench σ Q E → List (Nat × Event ν Q E) × Bench σ Q E
  | [], b => ([], b)
  | task :: tasks, b =>
    match b.undertake A task with
    | (first, b) =>
      match undertakeAll A tasks b with
      | (later, b) => (first ++ later, b)

theorem seats_of_enter {m : Nat} {w : World σ ν Q E} (h : b.enter m = some w) :
    ∃ i config reader latch, b.Seats m i config reader latch ∧ w = b.scene reader latch := by
  obtain ⟨machine, stands, entered⟩ := Option.bind_eq_some_iff.mp h
  obtain ⟨reader, there, same⟩ := Option.bind_eq_some_iff.mp entered
  cases same
  exact ⟨machine.reader, machine.config, reader, machine.latch, ⟨stands, there⟩, rfl⟩

theorem strokes_operate {m : Nat} {work : World σ ν Q E → α × World σ ν Q E} {result : α}
    {events : List (Event ν Q E)} (h : b.operate m work = some (result, events, b'))
    (works : ∀ {i config reader latch}, b.Seats m i config reader latch →
      b.Works m (b.scene reader latch) (work (b.scene reader latch)).2) :
    Strokes b (events.map (m, ·)) b' := by
  obtain ⟨w, entered, same⟩ := Option.bind_eq_some_iff.mp h
  obtain ⟨i, config, reader, latch, seats, rfl⟩ := seats_of_enter entered
  cases same
  exact seats.strokes (works seats)

theorem strokes_run {A : Automaton σ ν Q E} {turns m : Nat} {outcome : Outcome}
    {events : List (Event ν Q E)} (h : b.run A turns m = some (outcome, events, b')) :
    Strokes b (events.map (m, ·)) b' := by
  obtain ⟨machine, stands, ran⟩ := Option.bind_eq_some_iff.mp h
  apply strokes_operate ran
  intro i config reader latch seats
  cases stands.symm.trans seats.machine
  exact seats.pass A turns _

theorem strokes_control {m : Nat} {act : Act σ ν α} {result : Except Fault α}
    {events : List (Event ν Q E)} (h : b.control m act = some (result, events, b')) :
    Strokes b (events.map (m, ·)) b' :=
  strokes_operate h fun seats => seats.perform act _

theorem Strokes.of_readers (b : Bench σ Q E) (readers : List Reader) :
    Strokes b ([] : List (Nat × Event ν Q E)) { b with readers := readers } :=
  .single (.quiet rfl (fun _ _ => id) (by simp))

theorem readers_of_read {r calls : Nat} {result : Except Fault Rune}
    (h : b.read r = some (result, calls, b')) : ∃ readers, b' = { b with readers := readers } := by
  obtain ⟨before, -, same⟩ := Option.bind_eq_some_iff.mp h
  cases same
  exact ⟨_, rfl⟩

theorem readers_of_unread {r : Nat} {u : Rune} (h : b.unread r u = some b') :
    ∃ readers, b' = { b with readers := readers } := by
  obtain ⟨before, -, same⟩ := Option.bind_eq_some_iff.mp h
  cases same
  exact ⟨_, rfl⟩

theorem holds_of_addMachine {config : Config Q E} {i m : Nat} {f : Fault}
    (held : (b.addMachine config i).Holds m f) : b.Holds m f := by
  change (b.machines ++ [⟨config, i, .empty⟩])[m]?.map Machine.latch = _ at held
  rw [List.getElem?_append] at held
  split at held
  · exact held
  · -- The new machine has nothing in its latch.
    rw [List.getElem?_singleton] at held
    split at held <;> cases held

theorem strokes_undertake (A : Automaton σ ν Q E) (b : Bench σ Q E) (task : Task σ ν Q E) :
    Strokes b (b.undertake A task).1 (b.undertake A task).2 := by
  cases task with
  | addReader r => exact .of_readers b _
  | addMachine config i =>
    exact .single (.quiet rfl (fun _ _ => holds_of_addMachine) (by simp [undertake]))
  | run m turns =>
    simp only [undertake]
    split
    · next ran => exact strokes_run ran
    · exact .refl
  | control m act =>
    simp only [undertake]
    split
    · next controlled => exact strokes_control controlled
    · exact .refl
  | read r =>
    simp only [undertake]
    split
    · next done =>
      obtain ⟨readers, rfl⟩ := readers_of_read done
      exact .of_readers b readers
    · exact .refl
  | unread r u =>
    simp only [undertake]
    cases done : b.unread r u with
    | none => exact .refl
    | some b' =>
      obtain ⟨readers, rfl⟩ := readers_of_unread done
      exact .of_readers b readers

theorem strokes_undertakeAll (A : Automaton σ ν Q E) (tasks : List (Task σ ν Q E))
    (b : Bench σ Q E) : Strokes b (undertakeAll A tasks b).1 (undertakeAll A tasks b).2 := by
  induction tasks generalizing b with
  | nil => exact .refl
  | cons task tasks ih => exact (strokes_undertake A b task).trans (ih _)

/-- The error `f` is passed to the latch of machine `m`, which stands at `n`. The latch holds it as
`g` then, which is `f`, with the place `n` if it is a tokenize error that had none. -/
structure Passes (b : Bench σ Q E) (m : Nat) (n : Int) (f g : Fault) (b' : Bench σ Q E) :
    Prop where
  stands : b.StandsAt m n
  held : b'.Holds m g
  same : { g with offset := f.offset } = f
  place : g.offsetIn b'.located =
    (f.offsetIn b.located <|> if f.kind = .tokenize then some n else none)
  asIs : f.offsetIn b.located ≠ none → g = f

structure Raises (b : Bench σ Q E) (m : Nat) (n : Int) (f : Fault) (b' : Bench σ Q E) : Prop where
  stands : b.StandsAt m n
  held : b'.Holds m f
  raised : ∃ machine reader, b.machines[m]? = some machine ∧
    b.readers[machine.reader]? = some reader ∧ reader.read.1 = .error f
  located : b'.located = b.located

structure Places (b : Bench σ Q E) (m : Nat) (n : Int) (g f : Fault) (b' : Bench σ Q E) :
    Prop where
  stands : b.StandsAt m n
  held : b'.Holds m g
  kind : g.kind = .tokenize
  identity : g.identity = f.identity
  missing : f.offsetIn b.located = none
  placed : f.offsetIn b'.located = some n

section Effects

variable {m i : Nat} {config : Config Q E} {reader : Reader} {latch : Latch} {f g : Fault}

theorem Seats.passes (h : b.Seats m i config reader latch) {w : World σ ν Q E}
    {place : Option Int}
    (passed : (b.scene reader latch).setError (some f) = (.ok place, w)) :
    w.journal = [.log (.latched reader.offset (some (f.locate reader.offset b.located).1))] ∧
      b.Passes m reader.offset f (f.locate reader.offset b.located).1 (b.leave m w) := by
  obtain rfl := World.setError_eq_ok passed
  refine ⟨rfl, h.standsAt, ?_, f.locate_fst _ _, ?_, ?_⟩
  · rw [h.holds_leave, if_pos rfl]
    rfl
  · rw [h.leave]
    exact f.offsetIn_locate_self _ _
  · intro placed
    rw [Fault.locate_of_placed placed]

theorem Seats.raises (h : b.Seats m i config reader latch) {v : World σ ν Q E}
    (read : (b.scene reader latch).read = (.error f, v)) :
    (∃ pulls, (v.latchFault f).journal = .log (.readFault reader.offset f) :: pulls ∧
      ∀ e ∈ pulls, e.latched? = none) ∧
    b.Raises m reader.offset f (b.leave m (v.latchFault f)) := by
  obtain rfl : v = (b.scene reader latch).read.2 := by rw [read]
  have raised : reader.read.1 = .error f := congrArg Prod.fst read
  have still : reader.read.2.offset = reader.offset :=
    Reader.offset_read_error (Prod.ext raised rfl)
  refine ⟨⟨(b.scene reader latch).read.2.journal, ?_, ?_⟩, h.standsAt, ?_, ?_, ?_⟩
  · rw [← still]
    rfl
  · intro e member
    change e ∈ List.replicate _ _ ++ [] at member
    rw [List.append_nil] at member
    rw [List.eq_of_mem_replicate member]
    rfl
  · rw [h.holds_leave, if_pos rfl]
    rfl
  · exact ⟨_, _, h.machine, h.reader, raised⟩
  · rw [h.leave]
    rfl

end Effects

namespace Stroke

theorem offsetIn_cases (h : Stroke b chronicle b') (f : Fault) :
    f.offsetIn b'.located = f.offsetIn b.located ∨
      ∃ m n g, chronicle = [(m, .log (.latched n (some g)))] ∧ b.Places m n g f b' := by
  cases h with
  | quiet located => exact .inl (by rw [located])
  | @latch m i config reader latch g place w seats passed =>
    obtain ⟨journal, passes⟩ := seats.passes passed
    have located : (b.leave m w).located = (g.locate reader.offset b.located).2 := by
      obtain rfl := World.setError_eq_ok passed
      rw [seats.leave]
      rfl
    rw [entries, journal]
    obtain kept | ⟨missing, placed, kind, identity, same⟩ :=
      f.offsetIn_locate g reader.offset b.located
    · exact .inl (by rw [located, kept])
    · rw [same] at passes ⊢
      refine .inr ⟨m, reader.offset, g, rfl, ?_⟩
      exact ⟨passes.stands, passes.held, kind, identity, missing, by rw [located, placed]⟩
  | fault seats read => exact .inl (by rw [(seats.raises read).2.located])

theorem entry_cases (h : Stroke b chronicle b') {m : Nat} {e : Event ν Q E} {g : Fault}
    (entry : (m, e) ∈ chronicle) (latched : e.latched? = some g) :
    (∃ n f, e = .log (.latched n (some g)) ∧ b.Passes m n f g b') ∨
      ∃ n, e = .log (.readFault n g) ∧ b.Raises m n g b' := by
  cases h with
  | quiet _ _ silent => cases (silent _ entry).symm.trans latched
  | @latch m' i config reader latch f place w seats passed =>
    obtain ⟨journal, passes⟩ := seats.passes passed
    rw [entries, journal] at entry
    cases List.mem_singleton.mp entry
    cases latched
    exact .inl ⟨_, f, rfl, passes⟩
  | @fault m' i config reader latch f v seats read =>
    obtain ⟨⟨pulls, journal, silent⟩, raises⟩ := seats.raises read
    rw [entries, journal, List.map_reverse, List.mem_reverse, List.map_cons, List.mem_cons] at entry
    obtain now | pulled := entry
    · cases now
      cases latched
      exact .inr ⟨_, rfl, raises⟩
    · obtain ⟨e', member, same⟩ := List.mem_map.mp pulled
      cases same
      cases (silent e member).symm.trans latched

theorem holds_cases (h : Stroke b chronicle b') {m : Nat} {g : Fault} (held : b'.Holds m g) :
    b.Holds m g ∨ ∃ e, (m, e) ∈ chronicle ∧ e.latched? = some g := by
  cases h with
  | quiet _ holds => exact .inl (holds m g held)
  | @latch m' i config reader latch f place w seats passed =>
    obtain rfl := World.setError_eq_ok passed
    rw [seats.holds_leave] at held
    split at held
    · next same =>
      subst same
      cases held
      exact .inr ⟨_, List.mem_singleton_self _, rfl⟩
    · exact .inl held
  | @fault m' i config reader latch f v seats read =>
    rw [seats.holds_leave] at held
    split at held
    · next same =>
      subst same
      cases held
      refine .inr ⟨.log (.readFault v.offset g), ?_, rfl⟩
      simp [entries, World.latchFault, World.log, World.record, World.offset]
    · exact .inl held

end Stroke

namespace Strokes

theorem offsetIn_of_some (h : Strokes b chronicle b') {f : Fault} {n : Int}
    (placed : f.offsetIn b.located = some n) : f.offsetIn b'.located = some n := by
  induction h with
  | refl => exact placed
  | head stroke _ ih =>
    obtain kept | ⟨m, k, g, -, found⟩ := stroke.offsetIn_cases f
    · exact ih (kept.trans placed)
    · cases found.missing.symm.trans placed

theorem exists_moment (h : Strokes b chronicle b') {f : Fault} {n : Int}
    (missing : f.offsetIn b.located = none) (placed : f.offsetIn b'.located = some n) :
    ∃ earlier first later b₁ b₂ m g, chronicle = earlier ++ first ++ later ∧
      Strokes b earlier b₁ ∧ Stroke b₁ first b₂ ∧ Strokes b₂ later b' ∧
      first = [(m, .log (.latched n (some g)))] ∧ b₁.Places m n g f b₂ := by
  induction h with
  | refl => cases missing.symm.trans placed
  | @head b b₁ b' first later stroke strokes ih =>
    obtain kept | ⟨m, k, g, entry, found⟩ := stroke.offsetIn_cases f
    · obtain ⟨earlier, middle, later, b₂, b₃, m, g, rfl, before, moment⟩ :=
        ih (kept.trans missing) placed
      refine ⟨first ++ earlier, middle, later, b₂, b₃, m, g, ?_, .head stroke before, moment⟩
      simp only [List.append_assoc]
    · -- The place found here is the one in the end.
      obtain rfl : k = n :=
        Option.some.inj ((strokes.offsetIn_of_some found.placed).symm.trans placed)
      exact ⟨[], first, later, b, b₁, m, g, rfl, .refl, stroke, strokes, entry, found⟩

end Strokes

/-- An error is given a place at most once. Whatever is done with any number of machines and
readers comes down to strokes, in whatever order these happen, also when a user function of one
machine uses the controller of another. Along any strokes, an error that has a place keeps it. One
that has none gets a place only at a moment when it is passed to the latch of a machine, and then
the place is where this machine stands. And in any stroke, the error that comes into a latch was
passed to it or raised by a read: one that was passed keeps a place it had, be it from its making or
from a latch, and one that was raised is held as it is, with no place found for it or any other. -/
theorem located_once (A : Automaton σ ν Q E) :
    (∀ (b : Bench σ Q E) (tasks : List (Task σ ν Q E)),
      Strokes b (undertakeAll A tasks b).1 (undertakeAll A tasks b).2) ∧
    (∀ {b b' : Bench σ Q E} {chronicle : List (Nat × Event ν Q E)}, Strokes b chronicle b' →
      (∀ (f : Fault) n, f.offsetIn b.located = some n → f.offsetIn b'.located = some n) ∧
      ∀ (f : Fault) n, f.offsetIn b.located = none → f.offsetIn b'.located = some n →
        ∃ earlier first later b₁ b₂ m g, chronicle = earlier ++ first ++ later ∧
          Strokes b earlier b₁ ∧ Stroke b₁ first b₂ ∧ Strokes b₂ later b' ∧
          first = [(m, .log (.latched n (some g)))] ∧ b₁.Places m n g f b₂) ∧
    ∀ {b b' : Bench σ Q E} {chronicle : List (Nat × Event ν Q E)}, Stroke b chronicle b' →
      (∀ m g, b'.Holds m g → b.Holds m g ∨ ∃ e, (m, e) ∈ chronicle ∧ e.latched? = some g) ∧
      ∀ m (e : Event ν Q E) g, (m, e) ∈ chronicle → e.latched? = some g →
        (∃ n f, e = .log (.latched n (some g)) ∧ b.Passes m n f g b') ∨
          ∃ n, e = .log (.readFault n g) ∧ b.Raises m n g b' := by
  refine ⟨fun b tasks => strokes_undertakeAll A tasks b, ?_, ?_⟩
  · intro b b' chronicle strokes
    exact ⟨fun f n => strokes.offsetIn_of_some, fun f n => strokes.exists_moment⟩
  · intro b b' chronicle stroke
    exact ⟨fun m g => stroke.holds_cases, fun m e g => stroke.entry_cases⟩

def brittle : Automaton Unit Unit Unit Empty where
  step _ u _ :=
    if u = [0x21] then
      .setError () (some { Fault.of .tokenize [] with identity := some 0 }) (.done () none)
    else .done () (some ())
  atEnd e := nomatch e

theorem located_once_brittle :
    let config : Config Unit Empty := ⟨some (), .stop⟩
    let common : Fault := { Fault.of .tokenize [] with identity := some 0 }
    let stray : Fault := { Fault.of .tokenize [] with identity := some 1 }
    let marked : Fault := { Fault.of .tokenize [] with identity := some 2, offset := some (-3) }
    let b := (undertakeAll brittle
      [.addReader (.ofText [0x61, 0x21]), .addReader (.ofText [0x21]),
        .addReader (.ofSource (.ofItems .stream [.fault stray])), .addMachine config 0,
        .addMachine config 1, .addMachine config 2, .run 0 9, .run 2 9] (empty ())).2
    let tasks : List (Task Unit Unit Unit Empty) :=
      [.run 1 9, .control 1 (.latch (some stray) fun _ => .latch (some marked) fun _ =>
        .done () ())]
    let done := undertakeAll brittle tasks b
    common.offsetIn b.located = some 2 ∧ b.Holds 2 stray ∧ stray.offsetIn b.located = none ∧
    done.2.Holds 1 marked ∧ common.offsetIn done.2.located = some 2 ∧
    marked.offsetIn done.2.located = some (-3) ∧
    ∃ earlier first later b₁ b₂ m g, done.1 = earlier ++ first ++ later ∧
      Strokes b earlier b₁ ∧ Stroke b₁ first b₂ ∧ Strokes b₂ later done.2 ∧
      first = [(m, .log (.latched 1 (some g)))] ∧ b₁.Places m 1 g stray b₂ ∧
      ∃ f, b₁.Passes m 1 f g b₂ := by
  intro config common stray marked b tasks done
  obtain ⟨strokes, lives, sources⟩ := located_once brittle
  have course : Strokes b done.1 done.2 := strokes b tasks
  obtain ⟨kept, moment⟩ := lives course
  have missing : stray.offsetIn b.located = none := by decide +kernel
  refine ⟨by decide +kernel, by decide +kernel, missing, by decide +kernel, ?_, ?_, ?_⟩
  · exact kept common 2 (by decide +kernel)
  · exact kept marked (-3) rfl
  · obtain ⟨earlier, first, later, b₁, b₂, m, g, split, before, stroke, after, entry, places⟩ :=
      moment stray 1 missing (by decide +kernel)
    refine ⟨earlier, first, later, b₁, b₂, m, g, split, before, stroke, after, entry, places, ?_⟩
    have latched : (m, .log (.latched 1 (some g))) ∈ first := by simp [entry]
    obtain ⟨n, f, same, passes⟩ | ⟨n, raised, -⟩ := (sources stroke).2 m _ g latched rfl
    · cases same
      exact ⟨f, passes⟩
    · cases raised

end Bench

end RuneMachine
