import RuneMachine.Proofs.Machine.Alike
import RuneMachine.Proofs.Machine.Bench
import RuneMachine.Proofs.Tokenizer.Calls

namespace RuneMachine

structure Tokenizer.Pure {μ τ : Type} (t : Tokenizer μ τ) : Prop where
  space : ∀ u user user', (t.options.space.holds u user).1 = (t.options.space.holds u user').1
  mapper : ∀ buffer user user', (t.mapper buffer user).1 = (t.mapper buffer user').1
  fresh : ∀ buffer user f, (t.mapper buffer user).1 = .failed f → f.identity = none

namespace Tokenizer

variable {μ τ : Type} {t : Tokenizer μ τ}

def Memory.Agree : Mode → Memory μ τ → Memory μ τ → Prop
  | .skipping, _, _ => True
  | .matching, m, m' => m.buffer = m'.buffer

theorem alike_noted {α : Type} {R : α → Memory μ τ → Memory μ τ → Prop}
    {act act' : Act (Memory μ τ) Note α} (h : act.Alike R act') (quiet : Bool) (note : Note) :
    Act.Alike R (if quiet then act else .note (fun _ => note) act)
      (if quiet then act' else .note (fun _ => note) act') := by
  cases quiet with
  | true => exact h
  | false => exact .note (fun _ _ => rfl) h

namespace Pure

theorem skip (pure : t.Pure) (u : Rune) (m m' : Memory μ τ) :
    (t.skip u m).Alike (fun next m m' => ∀ mode ∈ next, Memory.Agree mode m m') (t.skip u m') := by
  have answer := pure.space u m.user m'.user
  rcases held : t.options.space.holds u m.user with ⟨result, user⟩
  rcases held' : t.options.space.holds u m'.user with ⟨result', user'⟩
  rw [held, held'] at answer
  obtain rfl : result = result' := answer
  simp only [Tokenizer.skip, held, held']
  apply alike_noted
  cases result with
  | error f => exact .raise
  | ok space =>
    cases space with
    | true =>
      apply Act.Alike.done
      rintro _ ⟨⟩
      trivial
    | false =>
      apply Act.Alike.unread
      apply Act.Alike.done
      rintro _ ⟨⟩
      rfl

theorem judge (pure : t.Pure) {m m' : Memory μ τ} (buffer : m.buffer = m'.buffer) :
    (t.judge m).Alike (fun next m m' => ∀ mode ∈ next, Memory.Agree mode m m') (t.judge m') := by
  have verdict := pure.mapper m.buffer m.user m'.user
  rcases mapped : t.mapper m.buffer m.user with ⟨answer, user⟩
  rcases mapped' : t.mapper m.buffer m'.user with ⟨answer', user'⟩
  have fresh := pure.fresh m.buffer m.user
  rw [mapped, mapped'] at verdict
  rw [mapped] at fresh
  obtain rfl : answer = answer' := verdict
  simp only [Tokenizer.judge, ← buffer, mapped, mapped']
  apply Act.Alike.note (fun _ _ => rfl)
  cases answer with
  | token token =>
    apply Act.Alike.done
    rintro _ ⟨⟩
  | more =>
    apply Act.Alike.done
    rintro _ ⟨⟩
    rfl
  | failed f =>
    have made : f.identity = none := fresh f rfl
    dsimp only
    split
    · apply Act.Alike.note
      · intro l l'
        simp only [Fault.offsetIn, made, Option.bind_none]
      · apply Act.Alike.setError made
        apply Act.Alike.done
        rintro _ ⟨⟩
    · exact .raise

theorem extend (pure : t.Pure) (u : Rune) {m m' : Memory μ τ} (buffer : m.buffer = m'.buffer) :
    (t.extend u m).Alike (fun next m m' => ∀ mode ∈ next, Memory.Agree mode m m')
      (t.extend u m') := by
  unfold Tokenizer.extend
  split
  · apply pure.judge
    exact congrArg (· ++ _) buffer
  · apply Act.Alike.setError rfl
    apply Act.Alike.done
    rintro _ ⟨⟩
  · exact .raise

theorem alike (pure : t.Pure) : t.automaton.Alike Memory.Agree t.automaton where
  step {mode m m'} agree u := by
    cases mode with
    | skipping => exact pure.skip u m m'
    | matching => exact pure.extend u agree
  atEnd _ e := nomatch e

theorem pass (pure : t.Pure) {w v : Stage μ τ} (h : w.Alike v) (turns : Nat) :
    (w.pass t.automaton t.config turns).1 = (v.pass t.automaton t.config turns).1 ∧
      (w.pass t.automaton t.config turns).2.Alike (v.pass t.automaton t.config turns).2 ∧
      ((w.pass t.automaton t.config turns).1 = .returned true →
        (w.pass t.automaton t.config turns).2.memory.token =
          (v.pass t.automaton t.config turns).2.memory.token) := by
  have related : ∀ mode ∈ t.config.initial, Memory.Agree mode w.memory v.memory := by
    rintro _ ⟨⟩
    trivial
  obtain ⟨same, after⟩ := h.pass pure.alike related turns
  refine ⟨same, after, ?_⟩
  intro success
  rcases passed : w.pass t.automaton t.config turns with ⟨outcome, w'⟩
  rcases passed' : v.pass t.automaton t.config turns with ⟨outcome', v'⟩
  rw [passed, passed'] at same after
  rw [passed] at success
  obtain rfl : outcome = .returned true := success
  obtain rfl : .returned true = outcome' := same
  obtain ⟨buffer, user, token, earlier, journal, verdict, found⟩ := token_of_pass passed
  obtain ⟨buffer', user', token', earlier', journal', verdict', found'⟩ := token_of_pass passed'
  -- Both journals end with the buffer that was judged last.
  have last := journal.symm.trans (after.journal.trans journal')
  obtain rfl : buffer = buffer' := by
    injection last with note
    injection note with note
    injection note
  rw [pure.mapper buffer user user', verdict'] at verdict
  cases verdict
  exact found.trans found'.symm

end Pure

structure Report (τ : Type) where
  outcome : Outcome
  token : Option τ
  error : Option Fault
  offset : Int
  events : List (Event Note Mode Empty)

def Report.of (outcome : Outcome) (w : Stage μ τ) : Report τ :=
  ⟨outcome, if outcome = .returned true then w.memory.token else none, w.latch.fault?, w.offset,
    w.journal.reverse⟩

end Tokenizer

namespace Bench

open Tokenizer

variable {μ τ : Type} {t : Tokenizer μ τ}

def sharing {σ Q E : Type} (config : Config Q E) (readers : List Reader) (memory : σ) :
    Bench σ Q E :=
  ⟨readers, readers.mapIdx fun i _ => ⟨config, i, .empty⟩, memory, []⟩

def runReporting (t : Tokenizer μ τ) (b : Bench (Memory μ τ) Mode Empty) (m turns : Nat) :
    Option (Report τ × Bench (Memory μ τ) Mode Empty) := do
  let (outcome, events, b) ← b.run t.automaton turns m
  let (error, offset) ← b.report m
  let token := if outcome = .returned true then b.memory.token else none
  return (⟨outcome, token, error, offset, events⟩, b)

def runAll (t : Tokenizer μ τ) :
    List (Nat × Nat) → Bench (Memory μ τ) Mode Empty → Option (List (Nat × Report τ))
  | [], _ => some []
  | (m, turns) :: later, b => do
    let (report, b) ← b.runReporting t m turns
    let reports ← runAll t later b
    return (m, report) :: reports

def only {α : Type} (m : Nat) (l : List (Nat × α)) : List (Nat × α) :=
  (l.filter (·.1 = m)).map fun (_, a) => (0, a)

section Only

variable {α : Type} (a : α) (l : List (Nat × α))

@[simp] theorem only_cons_self (m : Nat) : only m ((m, a) :: l) = (0, a) :: only m l := by
  simp [only]

theorem only_cons_ne {m m' : Nat} (h : m' ≠ m) : only m ((m', a) :: l) = only m l := by
  simp [only, h]

end Only

theorem seats_sharing {σ Q E : Type} (config : Config Q E) {readers : List Reader} (memory : σ)
    {m : Nat} {reader : Reader} (h : readers[m]? = some reader) :
    (sharing config readers memory).Seats m m config reader .empty :=
  ⟨by simp [sharing, h], h⟩

theorem Seats.runReporting {b : Bench (Memory μ τ) Mode Empty} {m i : Nat} {reader : Reader}
    {latch : Latch} (h : b.Seats m i t.config reader latch) {turns : Nat} {outcome : Outcome}
    {w : Stage μ τ}
    (passed : (b.scene reader latch).pass t.automaton t.config turns = (outcome, w)) :
    b.runReporting t m turns = some (.of outcome w, b.leave m w) := by
  have memory : (b.leave m w).memory = w.memory := by rw [h.leave]
  simp [Bench.runReporting, h.run t.automaton passed, (h.after w).report, memory, Report.of,
    World.offset]

theorem Seats.unique {b : Bench (Memory μ τ) Mode Empty} {m i : Nat} {reader reader' : Reader}
    {latch latch' : Latch} (h : b.Seats m i t.config reader latch)
    (h' : b.Seats m i t.config reader' latch') : reader = reader' ∧ latch = latch' := by
  refine ⟨Option.some.inj (h.reader.symm.trans h'.reader), ?_⟩
  have same := Option.some.inj (h.machine.symm.trans h'.machine)
  exact congrArg Machine.latch same

theorem Pure.report (pure : t.Pure) {w v w' v' : Stage μ τ} {turns : Nat}
    {outcome outcome' : Outcome} (h : w.Alike v)
    (passed : w.pass t.automaton t.config turns = (outcome, w'))
    (passed' : v.pass t.automaton t.config turns = (outcome', v')) :
    Report.of outcome w' = Report.of outcome' v' ∧ w'.reader = v'.reader ∧ w'.latch = v'.latch := by
  obtain ⟨same, after, tokens⟩ := pure.pass h turns
  rw [passed, passed'] at same after tokens
  obtain rfl : outcome = outcome' := same
  have alike : w'.Alike v' := after
  refine ⟨?_, alike.reader, alike.latch⟩
  have token : (if outcome = .returned true then w'.memory.token else none) =
      if outcome = .returned true then v'.memory.token else none := by
    split
    · next success => exact tokens success
    · rfl
  simp only [Report.of, token, alike.latch, alike.offset, alike.journal]

theorem exists_runAll (pure : t.Pure) {n : Nat} {schedule : List (Nat × Nat)}
    (valid : ∀ run ∈ schedule, run.1 < n) {b : Bench (Memory μ τ) Mode Empty}
    (seated : ∀ m < n, ∃ reader latch, b.Seats m m t.config reader latch) :
    ∃ reports, b.runAll t schedule = some reports ∧
      ∀ {m reader latch} {p : Bench (Memory μ τ) Mode Empty},
        b.Seats m m t.config reader latch → p.Seats 0 0 t.config reader latch →
        p.runAll t (only m schedule) = some (only m reports) := by
  -- By induction on the schedule: a run of another machine does not move this one, and a run of
  -- this one is a run of the private one.
  induction schedule generalizing b with
  | nil => exact ⟨[], rfl, fun _ _ => rfl⟩
  | cons first later ih =>
    obtain ⟨k, turns⟩ := first
    obtain ⟨known, valid⟩ := List.forall_mem_cons.mp valid
    obtain ⟨reader, latch, seat⟩ := seated k known
    rcases passed : (b.scene reader latch).pass t.automaton t.config turns with ⟨outcome, w⟩
    have reported := seat.runReporting passed
    have seated' : ∀ m < n, ∃ reader latch, (b.leave k w).Seats m m t.config reader latch := by
      intro m inside
      by_cases same : k = m
      · subst same
        exact ⟨_, _, seat.after w⟩
      · obtain ⟨reader', latch', seat'⟩ := seated m inside
        exact ⟨reader', latch', seat.others seat' same same w⟩
    obtain ⟨reports, ran, apart⟩ := ih valid seated'
    refine ⟨(k, .of outcome w) :: reports, ?_, ?_⟩
    · simp only [runAll, reported, ran, Option.bind_eq_bind, Option.bind_some, Option.pure_def]
    · intro m reader' latch' p shared alone
      by_cases same : k = m
      · subst same
        obtain ⟨rfl, rfl⟩ := seat.unique shared
        rcases passed' : (p.scene reader latch).pass t.automaton t.config turns with ⟨outcome', v⟩
        have start : (b.scene reader latch : Stage μ τ).Alike (p.scene reader latch) :=
          ⟨rfl, rfl, rfl⟩
        obtain ⟨equal, reads, holds⟩ := Pure.report pure start passed passed'
        have next := apart (seat.after w) (reads ▸ holds ▸ alone.after v)
        simp only [only_cons_self, runAll, alone.runReporting passed', next, equal,
          Option.bind_eq_bind, Option.bind_some, Option.pure_def]
      · rw [only_cons_ne _ _ same, only_cons_ne _ _ same]
        exact apart (seat.others shared same same w) alone

/-- A tokenizer can be shared. Whatever the order in which machines with one tokenizer and readers
of their own are run, the runs of each of them show what they would show if the tokenizer were its
own: results, tokens, errors, offsets and all that happens on the way. -/
theorem runAll_sharing (pure : t.Pure) (readers : List Reader) (user : μ)
    {schedule : List (Nat × Nat)} (valid : ∀ run ∈ schedule, run.1 < readers.length) :
    ∃ reports, (sharing t.config readers (.new user)).runAll t schedule = some reports ∧
      ∀ {m : Nat} {reader : Reader}, readers[m]? = some reader → ∀ user' : μ,
        (sharing t.config [reader] (.new user')).runAll t (only m schedule) =
          some (only m reports) := by
  have seated : ∀ m < readers.length, ∃ reader latch,
      (sharing t.config readers (.new user) : Bench (Memory μ τ) Mode Empty).Seats m m t.config
        reader latch := by
    intro m inside
    exact ⟨readers[m], .empty, seats_sharing t.config _ (List.getElem?_eq_getElem inside)⟩
  obtain ⟨reports, ran, apart⟩ := exists_runAll pure valid seated
  refine ⟨reports, ran, ?_⟩
  intro m reader standing user'
  exact apart (seats_sharing t.config _ standing) (seats_sharing t.config _ rfl)

def touchyWords : Tokenizer Nat Bytes where
  mapper b n :=
    (match b.getLast? with
      | some 0x20 => .token b.dropLast
      | some 0x21 => .failed (Fault.of .tokenize [])
      | some 0x3f => .failed (Fault.of .value [])
      | _ => .more, n + 1)
  options := ⟨0x20, Text.ofString "utf-8", .standard⟩

theorem touchyWords_pure : touchyWords.Pure where
  space _ _ _ := rfl
  mapper _ _ _ := rfl
  fresh b n f failed := by
    simp only [touchyWords] at failed
    split at failed <;> cases failed <;> rfl

theorem runAll_sharing_touchyWords :
    let readers := [Reader.ofText [0x61, 0x3f, 0x62], .ofText [0x63, 0x20, 0x64], .ofText [0x21]]
    let schedule := [(0, 9), (1, 9), (2, 9), (0, 9), (1, 9), (2, 9)]
    touchyWords.Pure ∧ (∀ run ∈ schedule, run.1 < readers.length) ∧
      ∃ reports, (sharing touchyWords.config readers (.new 0)).runAll touchyWords schedule =
          some reports ∧
        (sharing touchyWords.config [.ofText [0x61, 0x3f, 0x62]] (.new 7)).runAll touchyWords
          [(0, 9), (0, 9)] = some (only 0 reports) ∧
        (only 0 reports).map (fun r => (r.2.outcome, r.2.token)) =
          [(.raised (Fault.of .value []), none), (.returned true, some [0x62])] := by
  intro readers schedule
  have valid : ∀ run ∈ schedule, run.1 < readers.length := by decide
  obtain ⟨reports, ran, apart⟩ := runAll_sharing touchyWords_pure readers 0 valid
  have standing : readers[0]? = some (.ofText [0x61, 0x3f, 0x62]) := rfl
  have first : (sharing touchyWords.config [.ofText [0x61, 0x3f, 0x62]] (.new 7)).runAll touchyWords
      [(0, 9), (0, 9)] = some (only 0 reports) := apart standing 7
  have seen : ((sharing touchyWords.config [.ofText [0x61, 0x3f, 0x62]] (.new 7)).runAll touchyWords
      [(0, 9), (0, 9)]).map (List.map fun r => (r.2.outcome, r.2.token)) =
        some [(.raised (Fault.of .value []), none), (.returned true, some [0x62])] := by
    rfl
  rw [first, Option.map_some, Option.some_inj] at seen
  exact ⟨touchyWords_pure, valid, reports, ran, first, seen⟩

end Bench

end RuneMachine
