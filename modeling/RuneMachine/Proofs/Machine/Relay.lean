import RuneMachine.Proofs.Machine.Bench
import RuneMachine.Proofs.Machine.Exits
import RuneMachine.Proofs.Reader.Decoding
import RuneMachine.Proofs.Reader.Ending

namespace RuneMachine

namespace Delivery

def points : Delivery → Text
  | .text t => t
  | _ => []

def isText : Delivery → Bool
  | .text _ => true
  | .failed _ => true
  | _ => false

/-- Calls that give a text in pieces, or its bytes in pieces, and that may fail in between. -/
inductive Spell (ds : List Delivery) (s : Text) : Prop
  | texts : (∀ d ∈ ds, d.isText) → ds.flatMap points = s → Spell ds s
  | bytes : (∀ d ∈ ds, d.isPiece) → (∀ c ∈ s, c.isScalar) →
      ds.flatMap bytes = s.flatMap Encoding.utf8 → Spell ds s

end Delivery

def Source.faults (s : Source) : List Fault := s.deliveries.filterMap Delivery.fault?

namespace Reader

variable {handler : Handler} {held : Bytes} {ds : List Delivery} {r : Reader}

theorem Awaits.read_text {t : Text} (h : Awaits handler held (.text t :: ds) r) :
    ∃ r' : Reader, r.read = { r' with chunk := t }.read ∧ Awaits handler held ds r' := by
  obtain ⟨next, later⟩ := Source.next_of_cons h.deliveries
  refine ⟨{ r with source := r.source.called r.source.items.tail }, ?_, ?_⟩
  · rw [read_eq_fill h.bare, fill, next, accept]
  · exact ⟨⟨h.bare.none, h.bare.empty, h.bare.going⟩, h.finite, later, h.keeps⟩

theorem exists_yields_of_texts (texts : ∀ d ∈ ds, d.isText) :
    ∃ results, runesOf results = Text.runes (ds.flatMap Delivery.points) ∧
      faultsOf results = ds.filterMap Delivery.fault? ∧
      ∀ r, Awaits .strict [] ds r → r.Yields results := by
  induction ds with
  | nil =>
    refine ⟨[], rfl, rfl, ?_⟩
    intro r awaits
    obtain ⟨r', read, none, ended⟩ := awaits.read_ended rfl .nothing
    exact .of_read_eq (.of_exhausted (by simp [exhausted, none, ended])) read
  | cons d ds ih =>
    obtain ⟨piece, others⟩ := List.forall_mem_cons.mp texts
    obtain ⟨results, runes, faults, yields⟩ := ih others
    cases d with
    | text t =>
      refine ⟨t.runes.map .ok ++ results, ?_, ?_, ?_⟩
      · rw [runesOf_map_ok, runes, List.flatMap_cons, Text.runes_append]
        rfl
      · rw [faultsOf_map_ok, faults]
        rfl
      · intro r awaits
        obtain ⟨r', read, h⟩ := awaits.read_text
        apply Yields.of_read_eq _ read
        apply Yields.of_chunk h.bare.none
        intro offset
        exact yields _ ⟨⟨h.bare.none, rfl, h.bare.going⟩, h.finite, h.deliveries, h.keeps⟩
    | failed f =>
      refine ⟨.error f :: results, runes, ?_, ?_⟩
      · rw [faultsOf_error, faults]
        rfl
      · intro r awaits
        obtain ⟨r', read, h⟩ := awaits.read_failed
        exact .result read (yields r' h)
    | data b => cases piece
    | junk v => cases piece
    | ended => cases piece

theorem yields_of_spell {source : Source} {s : Text} (finite : source.shape ≠ .reader)
    (spell : Delivery.Spell source.deliveries s) :
    ∃ results, runesOf results = s.runes ∧ faultsOf results = source.faults ∧
      (ofSource source).Yields results := by
  have awaits : Awaits .strict [] source.deliveries (ofSource source) :=
    .new finite ofName?_defaultEncoding .strict
  cases spell with
  | texts texts written =>
    obtain ⟨results, runes, faults, yields⟩ := exists_yields_of_texts texts
    exact ⟨results, written ▸ runes, faults, yields _ awaits⟩
  | bytes pieces scalar written =>
    have decoded : Decoder.Decodes .utf8 .strict true
        ([] ++ source.deliveries.flatMap Delivery.bytes) s [] := by
      rw [List.nil_append, written]
      exact .of_utf8 scalar true
    obtain ⟨results, runes, faults, -, yields⟩ := exists_yields rfl pieces .nothing decoded
    exact ⟨results, runes, faults, yields _ awaits⟩

end Reader

variable {σ ν Q E α : Type}

def Act.IsQuiet : Act σ ν α → Prop
  | .done _ _ => True
  | .note _ next => next.IsQuiet
  | .raise _ _ => False
  | .unread _ _ => False
  | .latch _ _ => False

def Automaton.IsQuiet (A : Automaton σ ν Q E) : Prop := ∀ q u m, (A.step q u m).IsQuiet

def Event.runes (events : List (Event ν Q E)) : List Rune :=
  (events.filterMap Event.call?).map Prod.snd

theorem Event.runes_append (earlier later : List (Event ν Q E)) :
    runes (earlier ++ later) = runes earlier ++ runes later := by
  simp [runes]

inductive Portion : (results : List (Except Fault Rune)) → (us : List Rune) → (success : Bool) →
    Latch → (rest : List (Except Fault Rune)) → Prop
  | finished : Portion [] [] false .empty []
  | faulted {f rest} : Portion (.error f :: rest) [] false (.failed f) rest
  | enough {u rest} : Portion (.ok u :: rest) [u] true .empty rest
  | more {u results us success latch rest} : Portion results us success latch rest →
      Portion (.ok u :: results) (u :: us) success latch rest

namespace Portion

variable {results rest : List (Except Fault Rune)} {us : List Rune} {success : Bool}
  {latch : Latch}

theorem runesOf_eq (h : Portion results us success latch rest) :
    Reader.runesOf results = us ++ Reader.runesOf rest := by
  induction h with
  | finished => rfl
  | faulted => rfl
  | enough => rfl
  | more _ ih => exact congrArg (_ :: ·) ih

theorem faultsOf_eq (h : Portion results us success latch rest) :
    Reader.faultsOf results = latch.fault?.toList ++ Reader.faultsOf rest := by
  induction h with
  | finished => rfl
  | faulted => rfl
  | enough => rfl
  | more _ ih => exact ih

theorem length_add (h : Portion results us success latch rest) :
    us.length + (Reader.runesOf rest).length = (Reader.runesOf results).length := by
  rw [h.runesOf_eq, List.length_append]

theorem faultsOf_subset (h : Portion results us success latch rest) :
    Reader.faultsOf rest ⊆ Reader.faultsOf results := by
  rw [h.faultsOf_eq]
  exact List.subset_append_right _ _

theorem of_success (h : Portion results us true latch rest) :
    latch = .empty ∧ us ≠ [] := by
  generalize good : true = success at h
  induction h with
  | finished => cases good
  | faulted => cases good
  | enough => exact ⟨rfl, List.cons_ne_nil _ _⟩
  | more _ ih => exact ⟨(ih good).1, List.cons_ne_nil _ _⟩

theorem eq_nil (h : Portion results us false latch rest) (none : latch.fault? = none) :
    rest = [] := by
  generalize bad : false = success at h
  induction h with
  | finished => rfl
  | faulted => cases none
  | enough => cases bad
  | more _ ih => exact ih none bad

theorem trans {later : List Rune} {rest' : List (Except Fault Rune)} {latch' : Latch}
    (h : Portion results us true latch rest)
    (h' : Portion rest later success latch' rest') :
    Portion results (us ++ later) success latch' rest' := by
  generalize good : true = first at h
  induction h with
  | finished => cases good
  | faulted => cases good
  | enough => exact .more h'
  | more _ ih => exact .more (ih h' good)

end Portion

namespace World

variable {A : Automaton σ ν Q E} {w : World σ ν Q E} {results : List (Except Fault Rune)}

def given (w : World σ ν Q E) : List Rune := w.calls.map Prod.snd

theorem runes_reverse_journal (w : World σ ν Q E) :
    Event.runes w.journal.reverse = w.given.reverse := by
  rw [Event.runes, List.filterMap_reverse, List.map_reverse]
  rfl

theorem perform_of_quiet {act : Act σ ν α} (quiet : act.IsQuiet) (w : World σ ν Q E) :
    ∃ result w', w.perform act = (.ok result, w') ∧ w'.reader = w.reader ∧ w'.latch = w.latch ∧
      w'.given = w.given := by
  induction act generalizing w with
  | done m a => exact ⟨a, _, rfl, rfl, rfl, rfl⟩
  | note entry next ih => exact ih quiet (w.record (.note (entry w.located)))
  | raise m f => cases quiet
  | unread u next => cases quiet
  | latch fault next => cases quiet

theorem deliver_of_quiet (quiet : A.IsQuiet) (empty : w.latch = .empty) (q : Q) (u : Rune) :
    ∃ state w', w.deliver A q u = (.next state, w') ∧ w'.reader = w.reader ∧ w'.latch = .empty ∧
      w'.given = u :: w.given := by
  obtain ⟨state, w', performed, reader, latch, given⟩ :=
    perform_of_quiet (quiet q u w.memory) (w.record (.call q u))
  have still : w'.latch = .empty := latch.trans empty
  exact ⟨state, w', deliver_of_going performed (by rw [still]; rfl), reader, still, given⟩

theorem turn_of_ok {u : Rune} {r : Reader} (quiet : A.IsQuiet) (empty : w.latch = .empty)
    (read : w.reader.read = (.ok u, r)) (policy : Policy E) (q : Q) :
    ∃ state w', w.turn A policy q = (.next state, w') ∧ w'.reader = r ∧ w'.latch = .empty ∧
      w'.given = u :: w.given := by
  obtain ⟨v, read, reader, latch, -, -, calls, -⟩ := read_eq read
  obtain ⟨state, w', delivered, reader', still, given⟩ :=
    deliver_of_quiet quiet (latch.trans empty) q u
  refine ⟨state, w', ?_, reader'.trans reader, still, ?_⟩
  · simp only [World.turn, read, delivered]
  · rw [given]
    exact congrArg (u :: List.map Prod.snd ·) calls

theorem turn_of_fault (A : Automaton σ ν Q E) {f : Fault} {r : Reader} (ordinary : f.isOrdinary)
    (read : w.reader.read = (.error f, r)) (policy : Policy E) (q : Q) :
    ∃ w', w.turn A policy q = (.over (.returned false), w') ∧ w'.reader = r ∧
      w'.latch = .failed f ∧ w'.given = w.given := by
  obtain ⟨v, read, reader, -, -, -, calls, -⟩ := read_eq read
  obtain ⟨dirty, catchable⟩ := Fault.isOrdinary_iff.mp ordinary
  refine ⟨v.latchFault f, ?_, reader, rfl, congrArg (List.map Prod.snd) calls⟩
  simp [World.turn, read, dirty, catchable]

theorem turn_of_end (A : Automaton σ ν Q E) {r : Reader} (empty : w.latch = .empty)
    (read : w.reader.read = (.error Fault.endOfInput, r)) (q : Q) :
    ∃ w', w.turn A .stop q = (.over (.returned false), w') ∧ w'.reader = r ∧
      w'.latch = .empty ∧ w'.given = w.given := by
  obtain ⟨v, read, reader, latch, -, -, calls, -⟩ := read_eq read
  have clean : Fault.endOfInput.isClean = true := rfl
  refine ⟨v.log (.stopping v.offset), ?_, reader, latch.trans empty,
    congrArg (List.map Prod.snd) calls⟩
  simp [World.turn, read, clean, meetEnd, latch, empty]

theorem proceed_of_quiet (quiet : A.IsQuiet) (yields : w.reader.Yields results)
    (empty : w.latch = .empty) (ordinary : ∀ f ∈ Reader.faultsOf results, f.isOrdinary)
    {turns : Nat} (enough : (Reader.runesOf results).length < turns) (q : Q) :
    ∃ us success latch rest w', w.proceed A .stop turns (some q) = (.returned success, w') ∧
      Portion results us success latch rest ∧ w'.latch = latch ∧ w'.reader.Yields rest ∧
      w'.given = us.reverse ++ w.given := by
  -- Each turn takes one result, and only a rune leads to another turn.
  induction turns generalizing w q results with
  | zero => cases enough
  | succ turns ih =>
    cases yields with
    | finished read exhausted =>
      obtain ⟨w', turned, reader, latch, given⟩ := turn_of_end A empty read q
      refine ⟨[], _, _, [], w', ?_, .finished, latch, .of_exhausted (reader ▸ exhausted), given⟩
      simp only [proceed, turned]
    | @result r r' result results read later =>
      cases result with
      | error f =>
        obtain ⟨now, -⟩ := List.forall_mem_cons.mp ordinary
        obtain ⟨w', turned, reader, latch, given⟩ := turn_of_fault A now read .stop q
        refine ⟨[], _, _, results, w', ?_, .faulted, latch, reader ▸ later, given⟩
        simp only [proceed, turned]
      | ok u =>
        obtain ⟨state, v, turned, reader, still, given⟩ := turn_of_ok quiet empty read .stop q
        cases state with
        | none =>
          refine ⟨[u], _, _, results, v, ?_, .enough, still, reader ▸ later, given⟩
          simp only [proceed, turned]
        | some q' =>
          have ahead : v.reader.Yields results := reader ▸ later
          obtain ⟨us, success, latch, rest, w', proceeded, portion, last, yields, given'⟩ :=
            ih ahead still ordinary (Nat.lt_of_succ_lt_succ enough) q'
          refine ⟨u :: us, success, latch, rest, w', ?_, portion.more, last, yields, ?_⟩
          · simp only [proceed, turned, proceeded]
          · rw [given', given, List.reverse_cons, List.append_assoc]
            rfl

end World

namespace Bench

def exhaust (A : Automaton σ ν Q E) (turns : Nat) :
    (passes : Nat) → Bench σ Q E → (m : Nat) → Option (List (Event ν Q E) × Bench σ Q E)
  | 0, _, _ => none
  | passes + 1, b, m => do
    match ← b.run A turns m with
    | (.returned true, events, b) =>
      let (later, b) ← exhaust A turns passes b m
      return (events ++ later, b)
    | (.returned false, events, b) => return (events, b)
    | _ => none

/-- Adds a machine at reader `i` and runs it as long as it is successful. If it has an error then,
the next machine goes on. -/
def relay (A : Automaton σ ν Q E) (turns passes : Nat) (config : Config Q E) (i : Nat) :
    (machines : Nat) → Bench σ Q E → Option (List (Event ν Q E) × Bench σ Q E)
  | 0, _ => none
  | machines + 1, b => do
    let m := b.machines.length
    let (events, b) ← exhaust A turns passes (b.addMachine config i) m
    match ← b.report m with
    | (none, _) => return (events, b)
    | (some _, _) =>
      let (later, b) ← relay A turns passes config i machines b
      return (events ++ later, b)

variable {A : Automaton σ ν Q E} {b : Bench σ Q E} {m i : Nat} {q : Q} {reader : Reader}
  {results : List (Except Fault Rune)} {turns passes machines : Nat}

theorem exhaust_of_quiet (quiet : A.IsQuiet) (seats : b.Seats m i ⟨some q, .stop⟩ reader .empty)
    (yields : reader.Yields results) (ordinary : ∀ f ∈ Reader.faultsOf results, f.isOrdinary)
    (turned : (Reader.runesOf results).length < turns)
    (enough : (Reader.runesOf results).length < passes) :
    ∃ events us latch rest reader' b', exhaust A turns passes b m = some (events, b') ∧
      Portion results us false latch rest ∧ Event.runes events = us ∧
      reader'.Yields rest ∧ b'.Seats m i ⟨some q, .stop⟩ reader' latch ∧
      b'.machines = b.machines.set m ⟨⟨some q, .stop⟩, i, latch⟩ := by
  induction passes generalizing b reader results with
  | zero => cases enough
  | succ passes ih =>
    obtain ⟨us, success, latch, rest, w, passed, portion, rfl, ahead, given⟩ :=
      World.proceed_of_quiet (w := b.scene reader .empty) quiet yields rfl ordinary turned q
    have ran := seats.run A passed
    have runes : Event.runes w.journal.reverse = us := by
      rw [w.runes_reverse_journal, given]
      simp [World.given, World.calls, scene]
    have machines : (b.leave m w).machines = b.machines.set m ⟨⟨some q, .stop⟩, i, w.latch⟩ := by
      rw [seats.leave]
    cases success with
    | false =>
      refine ⟨_, us, w.latch, rest, w.reader, b.leave m w, ?_, portion, runes, ahead,
        seats.after w, machines⟩
      simp only [exhaust, ran]
      rfl
    | true =>
      obtain ⟨empty, nonempty⟩ := portion.of_success
      have fewer : (Reader.runesOf rest).length < (Reader.runesOf results).length := by
        have some := List.length_pos_iff.mpr nonempty
        have all := portion.length_add
        omega
      have seated := seats.after w
      rw [empty] at seated
      obtain ⟨events, later, latch, rest', reader', b', exhausted, portion', runes', ahead', seats',
        machines'⟩ := ih seated ahead (fun f member => ordinary f (portion.faultsOf_subset member))
          (Nat.lt_trans fewer turned) (Nat.lt_of_lt_of_le fewer (Nat.le_of_lt_succ enough))
      refine ⟨w.journal.reverse ++ events, us ++ later, latch, rest', reader', b', ?_,
        portion.trans portion', ?_, ahead', seats', ?_⟩
      · simp only [exhaust, ran, Option.bind_eq_bind, Option.bind_some, exhausted]
        rfl
      · rw [Event.runes_append, runes, runes']
      · rw [machines', machines, List.set_set]

theorem relay_of_quiet (quiet : A.IsQuiet) (stands : b.readers[i]? = some reader)
    (yields : reader.Yields results) (ordinary : ∀ f ∈ Reader.faultsOf results, f.isOrdinary)
    (turned : (Reader.runesOf results).length < turns)
    (passed : (Reader.runesOf results).length < passes)
    (enough : (Reader.faultsOf results).length < machines) (q : Q) :
    ∃ events b', relay A turns passes ⟨some q, .stop⟩ i machines b = some (events, b') ∧
      Event.runes events = Reader.runesOf results ∧
      b'.machines.map (·.latch.fault?) =
        b.machines.map (·.latch.fault?) ++ (Reader.faultsOf results).map some ++ [none] := by
  induction machines generalizing b reader results with
  | zero => cases enough
  | succ machines ih =>
    have seats : (b.addMachine ⟨some q, .stop⟩ i).Seats b.machines.length i ⟨some q, .stop⟩ reader
        .empty := ⟨by simp [addMachine], stands⟩
    obtain ⟨events, us, latch, rest, reader', b', exhausted, portion, runes, ahead, seats',
      machines'⟩ := exhaust_of_quiet quiet seats yields ordinary turned passed
    have added : b'.machines = b.machines ++ [⟨⟨some q, .stop⟩, i, latch⟩] := by
      rw [machines', addMachine]
      simp
    cases fault : latch.fault? with
    | none =>
      obtain rfl := portion.eq_nil fault
      refine ⟨events, b', ?_, ?_, ?_⟩
      · simp [relay, exhausted, seats'.report, fault]
      · rw [portion.runesOf_eq, runes]
        exact (List.append_nil us).symm
      · rw [added, portion.faultsOf_eq, fault]
        simp [fault, Reader.faultsOf]
    | some f =>
      have fewer := portion.length_add
      have faults := portion.faultsOf_eq
      rw [fault] at faults
      rw [faults] at enough
      obtain ⟨later, b'', relayed, runes', faults'⟩ :=
        ih seats'.reader ahead (fun f member => ordinary f (portion.faultsOf_subset member))
          (by omega) (by omega) (Nat.lt_of_succ_lt_succ enough)
      refine ⟨events ++ later, b'', ?_, ?_, ?_⟩
      · simp [relay, exhausted, seats'.report, fault, relayed]
      · rw [Event.runes_append, runes, runes', portion.runesOf_eq]
      · rw [faults', added, faults]
        simp [fault]

/-- When machines take over from one another at one reader, no rune is lost and none comes twice. If
the source gives a text in pieces and fails in between, always with ordinary faults, then the states
of all machines together are called with the runes of the text in order. Each fault has stopped one
machine, whose error it is, and the last machine has none. -/
theorem relay_runes (quiet : A.IsQuiet) {source : Source} {s : Text}
    (finite : source.shape ≠ .reader) (spell : Delivery.Spell source.deliveries s)
    (ordinary : ∀ f ∈ source.faults, f.isOrdinary) (turned : s.length < turns)
    (passed : s.length < passes) (enough : source.faults.length < machines) (memory : σ) (q : Q) :
    ∃ events b, relay A turns passes ⟨some q, .stop⟩ 0 machines
        ((empty memory).addReader (.ofSource source)) = some (events, b) ∧
      Event.runes events = s.runes ∧
      b.machines.map (·.latch.fault?) = source.faults.map some ++ [none] ∧
      b.machines.length = source.faults.length + 1 := by
  obtain ⟨results, runes, faults, yields⟩ := Reader.yields_of_spell finite spell
  rw [← Text.length_runes, ← runes] at turned passed
  rw [← faults] at ordinary enough
  let bench : Bench σ Q E := (empty memory).addReader (.ofSource source)
  have stands : bench.readers[0]? = some (.ofSource source) := rfl
  obtain ⟨events, b, relayed, given, errors⟩ :=
    relay_of_quiet quiet stands yields ordinary turned passed enough q
  rw [faults] at errors
  refine ⟨events, b, relayed, given.trans runes, errors, ?_⟩
  simpa [bench, addReader, Bench.empty] using congrArg List.length errors

def flaky : Source :=
  let blocked : Fault := { Fault.of .blocking [] with identity := some 0 }
  .ofItems .stream
    [.fault blocked, .data [0x61, 0x3b, 0xe2], .fault blocked, .fault (Fault.of .system []),
      .data [0x82], .fault (Fault.of .stopIteration []), .data [0xac],
      .fault (Fault.of .endOfFile [])]

theorem relay_runes_flaky :
    World.statements.IsQuiet ∧ flaky.shape ≠ .reader ∧
    Delivery.Spell flaky.deliveries [0x61, 0x3b, 0x20ac] ∧ flaky.faults.length = 5 ∧
    (∀ f ∈ flaky.faults, f.isOrdinary) ∧
    ∃ events b, relay World.statements 4 4 ⟨some (), .stop⟩ 0 6
        ((empty ()).addReader (.ofSource flaky)) = some (events, b) ∧
      Event.runes events = [[0x61], [0x3b], [0x20ac]] ∧
      b.machines.map (·.latch.fault?) = flaky.faults.map some ++ [none] ∧
      b.machines.length = 6 := by
  have quiet : World.statements.IsQuiet := fun _ _ _ => trivial
  have finite : flaky.shape ≠ .reader := by decide
  have spell : Delivery.Spell flaky.deliveries [0x61, 0x3b, 0x20ac] :=
    .bytes (by decide) (by decide) (by decide)
  have ordinary : ∀ f ∈ flaky.faults, f.isOrdinary := by decide
  have turned : [0x61, 0x3b, 0x20ac].length < 4 := by decide
  have enough : flaky.faults.length < 6 := by decide
  exact ⟨quiet, finite, spell, rfl, ordinary,
    relay_runes quiet finite spell ordinary turned turned enough () ()⟩

end Bench

end RuneMachine
