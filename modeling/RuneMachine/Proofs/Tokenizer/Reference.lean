import Mathlib.Data.List.Infix
import RuneMachine.Proofs.Machine.Ahead
import RuneMachine.Scanner

/-! The tokens of a text, said without a machine. As long as tests and mapper go by what they are
shown and by nothing else, iterating over a scanner comes to a recursion on the text and its
sentinel: skip, take the first prefix that decides, go on with the rest. Pushback, the two modes,
the latch and the end of input leave no trace in it. -/

namespace RuneMachine

theorem Text.tail_inits_cons (c : CodePoint) (t : Text) :
    (c :: t).inits.tail = [c] :: t.inits.tail.map (c :: ·) := by
  have heads : t.inits = [] :: t.inits.tail := by cases t <;> rfl
  rw [List.inits_cons, List.tail_cons, heads, List.map_cons]
  rfl

namespace Tokenizer

inductive Ending (τ : Type) where
  | token (t : τ)
  | failed (f : Fault)
  | raised (f : Fault)
  deriving DecidableEq

def Ending.fault? {τ : Type} (n : Int) : Ending τ → Option Fault
  | .token _ => none
  | .failed f => some (f.locate n []).1.outOfIteration
  | .raised f => some f.outOfIteration

end Tokenizer

open Tokenizer (Ending)

/-- What decides the tokens of a text: the code points that are skipped between them, what writing a
code point comes to under the name by which the encoding was asked for, and the mapper's judgement
of a buffer. -/
structure Lexis (τ : Type) where
  skips : CodePoint → Bool
  name : Text
  write : CodePoint → Writing
  judge : Bytes → Verdict τ

namespace Lexis

variable {τ : Type}

def buffer (L : Lexis τ) (t : Text) : Bytes := t.flatMap fun c => ((L.write c).bytes?).getD []

/-- What a prefix decides, if it does: its newest code point cannot be written, or else the mapper
judges the whole buffer. -/
def decision? (L : Lexis τ) (t : Text) : Option (Ending τ) :=
  match t.getLast? with
  | none => none
  | some newest =>
    match L.write newest with
    | .refused => some (.failed (Tokenizer.unencodable L.name [newest]))
    | .raised f => some (.raised f)
    | .bytes _ =>
      match L.judge (L.buffer t) with
      | .token token => some (.token token)
      | .more => none
      | .failed f => some (.failed f)

def firstDecision? (L : Lexis τ) (t : Text) : Option (Ending τ × Text) :=
  t.inits.tail.findSome? fun start => (L.decision? start).map (·, t.drop start.length)

theorem decision?_of_firstDecision? {L : Lexis τ} {t rest : Text} {result : Ending τ}
    (h : L.firstDecision? t = some (result, rest)) :
    ∃ start, start <+: t ∧ start ≠ [] ∧ L.decision? start = some result ∧
      rest = t.drop start.length := by
  obtain ⟨start, member, decided⟩ := List.exists_of_findSome?_eq_some h
  obtain ⟨result, decision, same⟩ := Option.map_eq_some_iff.mp decided
  cases same
  refine ⟨start, (List.mem_inits start t).mp (List.mem_of_mem_tail member), ?_, decision, rfl⟩
  rintro rfl
  cases decision

theorem length_of_firstDecision? {L : Lexis τ} {t rest : Text} {result : Ending τ}
    (h : L.firstDecision? t = some (result, rest)) : rest.length < t.length := by
  obtain ⟨start, within, full, -, rfl⟩ := decision?_of_firstDecision? h
  have positive := List.length_pos_iff.mpr full
  have fits := within.length_le
  rw [List.length_drop]
  omega

def tokens (L : Lexis τ) (t : Text) : List τ × Option (Ending τ) :=
  match _decided : L.firstDecision? (t.dropWhile L.skips) with
  | none => ([], none)
  | some (.token token, rest) =>
    match L.tokens rest with
    | (tokens, ending) => (token :: tokens, ending)
  | some (ending, _) => ([], some ending)
termination_by t.length
decreasing_by
  have shorter := length_of_firstDecision? _decided
  have fits := (List.dropWhile_suffix L.skips (l := t)).length_le
  omega

variable {L : Lexis τ}

theorem tokens_of_none {t : Text} (h : L.firstDecision? (t.dropWhile L.skips) = none) :
    L.tokens t = ([], none) := by
  rw [tokens]
  split <;> simp_all

theorem tokens_of_failed {t rest : Text} {f : Fault}
    (h : L.firstDecision? (t.dropWhile L.skips) = some (.failed f, rest)) :
    L.tokens t = ([], some (.failed f)) := by
  rw [tokens]
  split <;> simp_all

theorem tokens_of_raised {t rest : Text} {f : Fault}
    (h : L.firstDecision? (t.dropWhile L.skips) = some (.raised f, rest)) :
    L.tokens t = ([], some (.raised f)) := by
  rw [tokens]
  split <;> simp_all

theorem tokens_of_token {t rest : Text} {token : τ}
    (h : L.firstDecision? (t.dropWhile L.skips) = some (.token token, rest)) :
    L.tokens t = (token :: (L.tokens rest).1, (L.tokens rest).2) := by
  rw [tokens]
  split <;> simp_all

theorem buffer_concat {t : Text} {c : CodePoint} {bytes : Bytes}
    (h : L.write c = .bytes bytes) : L.buffer (t ++ [c]) = L.buffer t ++ bytes := by
  simp [buffer, h, Writing.bytes?]

def decisionFrom? (L : Lexis τ) (done t : Text) : Option (Ending τ × Text) :=
  t.inits.tail.findSome? fun start => (L.decision? (done ++ start)).map (·, t.drop start.length)

theorem decisionFrom?_nil (t : Text) : L.decisionFrom? [] t = L.firstDecision? t := rfl

theorem decisionFrom?_cons (done : Text) (c : CodePoint) (t : Text) :
    L.decisionFrom? done (c :: t) =
      match L.decision? (done ++ [c]) with
      | some result => some (result, t)
      | none => L.decisionFrom? (done ++ [c]) t := by
  simp only [decisionFrom?, Text.tail_inits_cons, List.findSome?_cons, List.findSome?_map,
    Function.comp_def, List.length_cons, List.drop_succ_cons, List.length_nil, List.drop_zero,
    List.append_assoc, List.singleton_append]
  cases L.decision? (done ++ [c]) <;> rfl

end Lexis

/-- The tokenizer's tests, codecs and mapper give the answers of `L`, whatever they remember, and on
a buffer with an encoded text the mapper fails only with errors of an application. -/
structure Tokenizer.Follows {μ τ : Type} (t : Tokenizer μ τ) (L : Lexis τ) : Prop where
  space : ∀ c user, (t.options.space.holds [c] user).1 = .ok (L.skips c)
  encoding : t.options.encoding = L.name
  writes : ∀ c, t.write [c] = L.write c
  mapper : ∀ buffer user, (t.mapper buffer user).1 = L.judge buffer
  reports : ∀ text f, L.judge (L.buffer text) = .failed f → f.kind.isApplication = true

namespace Tokenizer.Follows

variable {μ τ : Type} {t : Tokenizer μ τ} {L : Lexis τ} {c : CodePoint}
  {w : World (Memory μ τ) Note Mode Empty}

structure Ready (c : CodePoint) (T : Text) (w : World (Memory μ τ) Note Mode Empty) : Prop where
  faces : w.Faces c T.runes
  unplaced : w.located = []

theorem Ready.length_le {T : Text} (h : Ready c T w) : T.length ≤ w.reader.bound + 1 := by
  rw [← Text.length_runes]
  exact h.faces.length_le

theorem Ready.record {T : Text} (h : Ready c T w) (note : Note) :
    Ready c T (w.record (.note note)) := ⟨h.faces.congr rfl rfl rfl, h.unplaced⟩

theorem Ready.call {T : Text} (h : Ready c T w) (mode : Mode) (u : Rune) :
    Ready c T (w.record (.call mode u)) := ⟨h.faces.congr rfl rfl rfl, h.unplaced⟩

theorem Ready.withMemory {T : Text} (h : Ready c T w) (m : Memory μ τ) :
    Ready c T { w with memory := m } := ⟨h.faces.congr rfl rfl rfl, h.unplaced⟩

theorem Ready.unread {T : Text} (h : Ready c T w) (d : CodePoint) :
    Ready c (d :: T) (w.unread [d]) := ⟨h.faces.unread [d], h.unplaced⟩

theorem Ready.turn {T : Text} {d : CodePoint} (h : Ready c (d :: T) w)
    (A : Automaton (Memory μ τ) Note Mode Empty) (mode : Mode) :
    ∃ w' : World (Memory μ τ) Note Mode Empty,
      w.turn A (.substitute c) mode = w'.deliver A mode [d] ∧ Ready c T w' ∧
      w'.memory = w.memory := by
  obtain ⟨w', turned, faces, memory, located, -, -⟩ := h.faces.turn_cons A mode
  exact ⟨w', turned, ⟨faces, located.trans h.unplaced⟩, memory⟩

theorem Ready.perform_noted {T : Text} {α : Type} (h : Ready c T w) (quiet : Bool)
    (entry : Locations → Note) (act : Act (Memory μ τ) Note α) :
    ∃ w' : World (Memory μ τ) Note Mode Empty, Ready c T w' ∧
      w.perform (if quiet then act else .note entry act) = w'.perform act := by
  cases quiet with
  | true => exact ⟨w, h, rfl⟩
  | false => exact ⟨_, h.record (entry w.located), rfl⟩

theorem perform_skip (follows : t.Follows L) {T : Text} (h : Ready c T w) (d : CodePoint)
    (m : Memory μ τ) :
    ∃ w' : World (Memory μ τ) Note Mode Empty,
      w.perform (t.skip [d] m) =
        (.ok (some (if L.skips d then .skipping else .matching)), w') ∧
      Ready c (if L.skips d then T else d :: T) w' ∧
      (L.skips d = false → w'.memory.buffer = []) := by
  have answer := follows.space d m.user
  rcases held : t.options.space.holds [d] m.user with ⟨result, user⟩
  rw [held] at answer
  subst answer
  simp only [skip, held]
  obtain ⟨w₀, h₀, noted⟩ := h.perform_noted t.options.space.isStandard (fun _ => .asked [d]) _
  rw [noted]
  cases L.skips d with
  | true => exact ⟨_, rfl, h₀.withMemory _, by simp⟩
  | false => exact ⟨_, rfl, (h₀.unread d).withMemory _, fun _ => rfl⟩

theorem turn_skip (follows : t.Follows L) {T : Text} {d : CodePoint} (h : Ready c (d :: T) w) :
    ∃ w' : World (Memory μ τ) Note Mode Empty,
      w.turn t.automaton (.substitute c) .skipping =
        (.next (some (if L.skips d then .skipping else .matching)), w') ∧
      Ready c (if L.skips d then T else d :: T) w' ∧
      (L.skips d = false → w'.memory.buffer = []) := by
  obtain ⟨w₁, turned, h₁, -⟩ := h.turn t.automaton .skipping
  obtain ⟨w₂, performed, h₂, emptied⟩ :=
    follows.perform_skip (h₁.call .skipping [d]) d w₁.memory
  refine ⟨w₂, ?_, h₂, emptied⟩
  rw [turned]
  have step : t.automaton.step .skipping [d] w₁.memory = t.skip [d] w₁.memory := rfl
  simp only [World.deliver, step, performed, h₂.faces.isFailed, Bool.false_eq_true, if_false]

theorem Ready.perform_setError {T : Text} {α : Type} (h : Ready c T w) {f : Fault}
    (application : f.kind.isApplication = true) (m : Memory μ τ)
    (next : Act (Memory μ τ) Note α) :
    w.perform (.setError m (some f) next) =
      ({ w with
          latch := .failed (f.locate w.offset []).1
          located := (f.locate w.offset []).2 }.log
        (.latched w.offset (some (f.locate w.offset []).1))).perform next := by
  have dirty : f.isClean = false := by
    cases kind : f.kind <;> simp [Fault.isClean, Fault.Kind.isClean, kind] at application ⊢
    cases application
  simp [Act.setError, World.perform, World.setError, dirty, h.unplaced]

theorem perform_extend (follows : t.Follows L) {done T : Text} (h : Ready c T w) (d : CodePoint)
    {m : Memory μ τ} (buffer : m.buffer = L.buffer done) :
    match L.decision? (done ++ [d]) with
    | none => ∃ w' : World (Memory μ τ) Note Mode Empty,
        w.perform (t.extend [d] m) = (.ok (some .matching), w') ∧ Ready c T w' ∧
        w'.memory.buffer = L.buffer (done ++ [d])
    | some (.token token) => ∃ w' : World (Memory μ τ) Note Mode Empty,
        w.perform (t.extend [d] m) = (.ok none, w') ∧ Ready c T w' ∧
        w'.memory.token = some token
    | some (.failed f) => ∃ w' : World (Memory μ τ) Note Mode Empty,
        w.perform (t.extend [d] m) = (.ok none, w') ∧
        w'.latch = .failed (f.locate w'.offset []).1
    | some (.raised f) => ∃ w' : World (Memory μ τ) Note Mode Empty,
        w.perform (t.extend [d] m) = (.error f, w') := by
  cases written : L.write d with
  | refused =>
    have decision : L.decision? (done ++ [d]) = some (.failed (unencodable L.name [d])) := by
      simp [Lexis.decision?, written]
    simp only [decision, extend, follows.encoding, follows.writes, written]
    rw [h.perform_setError rfl]
    exact ⟨_, rfl, rfl⟩
  | raised f =>
    have decision : L.decision? (done ++ [d]) = some (.raised f) := by
      simp [Lexis.decision?, written]
    simp only [decision, extend, follows.writes, written]
    exact ⟨_, rfl⟩
  | bytes b =>
    have grown : m.buffer ++ b = L.buffer (done ++ [d]) := by
      rw [buffer, Lexis.buffer_concat written]
    have verdict := follows.mapper (L.buffer (done ++ [d])) m.user
    rcases mapped : t.mapper (L.buffer (done ++ [d])) m.user with ⟨answer, user⟩
    rw [mapped] at verdict
    simp only [extend, follows.writes, written, judge, grown, mapped]
    cases answer with
    | token token =>
      have decision : L.decision? (done ++ [d]) = some (.token token) := by
        simp [Lexis.decision?, written, ← verdict]
      rw [decision]
      exact ⟨_, rfl, (h.record _).withMemory _, rfl⟩
    | more =>
      have decision : L.decision? (done ++ [d]) = none := by
        simp [Lexis.decision?, written, ← verdict]
      rw [decision]
      exact ⟨_, rfl, (h.record _).withMemory _, rfl⟩
    | failed f =>
      have decision : L.decision? (done ++ [d]) = some (.failed f) := by
        simp [Lexis.decision?, written, ← verdict]
      have application := follows.reports _ f verdict.symm
      simp only [decision, application, if_true, World.perform]
      rw [((h.record _).record _).perform_setError application]
      exact ⟨_, rfl, rfl⟩

def Settles (c : CodePoint) (outcome : Outcome) (w : World (Memory μ τ) Note Mode Empty) :
    Option (Ending τ × Text) → Prop
  | none => outcome = .returned false ∧ Ready c [] w
  | some (.token token, rest) =>
    outcome = .returned true ∧ Ready c rest w ∧ w.memory.token = some token
  | some (.failed f, _) => outcome = .returned false ∧ w.latch = .failed (f.locate w.offset []).1
  | some (.raised f, _) => outcome = .raised f

theorem proceed_nil (h : Ready c [] w) (A : Automaton (Memory μ τ) Note Mode Empty) {turns : Nat}
    (enough : 0 < turns) (mode : Mode) :
    ∃ outcome w', w.proceed A (.substitute c) turns (some mode) = (outcome, w') ∧
      Settles c outcome w' none := by
  obtain ⟨turns, rfl⟩ := Nat.exists_eq_add_one.mpr enough
  obtain ⟨w', turned, faces, -, located, -, -⟩ := h.faces.turn_nil A mode
  refine ⟨.returned false, w', ?_, rfl, faces, located.trans h.unplaced⟩
  simp only [World.proceed, turned]

theorem proceed_match (follows : t.Follows L) {done T : Text} (h : Ready c T w)
    (buffer : w.memory.buffer = L.buffer done) {turns : Nat} (enough : T.length < turns) :
    ∃ outcome w', w.proceed t.automaton (.substitute c) turns (some .matching) = (outcome, w') ∧
      Settles c outcome w' (L.decisionFrom? done T) := by
  -- By induction on the text ahead: the buffer always holds what has been taken from it so far.
  induction T generalizing w done turns with
  | nil => exact proceed_nil h t.automaton enough .matching
  | cons d T ih =>
    obtain ⟨turns, rfl⟩ := Nat.exists_eq_add_one.mpr (Nat.zero_lt_of_lt enough)
    obtain ⟨w₁, turned, h₁, memory⟩ := h.turn t.automaton .matching
    have step : t.automaton.step .matching [d] w₁.memory = t.extend [d] w₁.memory := rfl
    have extended := follows.perform_extend (h₁.call .matching [d]) d (memory ▸ buffer)
    rw [Lexis.decisionFrom?_cons]
    split at extended
    · next undecided =>
      obtain ⟨w₂, performed, h₂, buffer₂⟩ := extended
      obtain ⟨outcome, w', proceeded, settled⟩ :=
        ih h₂ buffer₂ (Nat.lt_of_succ_lt_succ enough)
      refine ⟨outcome, w', ?_, by rw [undecided]; exact settled⟩
      simp only [World.proceed, turned, World.deliver, step, performed, h₂.faces.isFailed,
        Bool.false_eq_true, if_false, proceeded]
    · next token decided =>
      obtain ⟨w₂, performed, h₂, token₂⟩ := extended
      refine ⟨.returned true, w₂, ?_, by rw [decided]; exact ⟨rfl, h₂, token₂⟩⟩
      cases turns <;>
        simp only [World.proceed, turned, World.deliver, step, performed, h₂.faces.isFailed,
          Bool.false_eq_true, if_false]
    · next f decided =>
      obtain ⟨w₂, performed, latched⟩ := extended
      have failed : w₂.latch.isFailed = true := by rw [latched]; rfl
      refine ⟨.returned false, w₂, ?_, by rw [decided]; exact ⟨rfl, latched⟩⟩
      simp only [World.proceed, turned, World.deliver, step, performed, failed, if_true]
    · next f decided =>
      obtain ⟨w₂, performed⟩ := extended
      refine ⟨.raised f, w₂, ?_, by rw [decided]; rfl⟩
      simp only [World.proceed, turned, World.deliver, step, performed]

theorem proceed_skip (follows : t.Follows L) {T : Text} (h : Ready c T w) {turns : Nat}
    (enough : T.length + 1 < turns) :
    ∃ outcome w', w.proceed t.automaton (.substitute c) turns (some .skipping) = (outcome, w') ∧
      Settles c outcome w' (L.firstDecision? (T.dropWhile L.skips)) := by
  induction T generalizing w turns with
  | nil => exact proceed_nil h t.automaton (Nat.zero_lt_of_lt enough) .skipping
  | cons d T ih =>
    obtain ⟨turns, rfl⟩ := Nat.exists_eq_add_one.mpr (Nat.zero_lt_of_lt enough)
    have fewer := Nat.lt_of_succ_lt_succ enough
    obtain ⟨w', turned, h', emptied⟩ := follows.turn_skip h
    simp only [World.proceed, turned]
    cases skips : L.skips d with
    | true =>
      simp only [skips, if_true, List.dropWhile_cons] at h' ⊢
      exact ih h' fewer
    | false =>
      -- The code point is taken back, so the token starts with it, before an empty buffer.
      simp only [skips, if_false, Bool.false_eq_true, List.dropWhile_cons] at h' ⊢
      have opened : w'.memory.buffer = L.buffer [] := emptied skips
      exact follows.proceed_match h' opened fewer

end Tokenizer.Follows

namespace Scanner

open Tokenizer.Follows

variable {μ τ : Type} {L : Lexis τ}

theorem error_of_going {s : Scanner μ τ} (going : s.world.latch.isFailed = false) :
    s.error = none := by simpa [Scanner.error, Latch.isFailed] using going

theorem error_of_latched {s : Scanner μ τ} {f : Fault} (latched : s.world.latch = .failed f) :
    s.error = some f := by
  rw [Scanner.error, latched]
  rfl

theorem scan_settles {s : Scanner μ τ} {T : Text} (follows : s.tokenizer.Follows L)
    (h : Ready s.tokenizer.options.sentinel T s.world) :
    ∃ outcome s', s.scan = (outcome, s') ∧ s'.tokenizer = s.tokenizer ∧
      Settles s.tokenizer.options.sentinel outcome s'.world
        (L.firstDecision? (T.dropWhile L.skips)) := by
  have enough : T.length + 1 < s.turnBound := by
    have bounded := h.length_le
    simp only [turnBound]
    omega
  obtain ⟨outcome, w, proceeded, settled⟩ := follows.proceed_skip h enough
  refine ⟨outcome, { s with world := w }, ?_, rfl, settled⟩
  simp only [scan, World.pass, h.faces.isFailed, Bool.false_eq_true, if_false, Tokenizer.config,
    proceeded]

theorem collect_eq {s : Scanner μ τ} {T : Text} (follows : s.tokenizer.Follows L)
    (h : Ready s.tokenizer.options.sentinel T s.world) {draws : Nat} (enough : T.length < draws) :
    ∃ s', s.collect draws =
      ((L.tokens T).1, (L.tokens T).2.bind (Ending.fault? s'.offset), s') := by
  induction draws generalizing s T with
  | zero => omega
  | succ draws ih =>
    obtain ⟨outcome, s', scanned, same, settled⟩ := scan_settles follows h
    rcases decided : L.firstDecision? (T.dropWhile L.skips) with - | ⟨token | f | f, rest⟩
    · rw [decided] at settled
      obtain ⟨rfl, ready⟩ := settled
      have clean := error_of_going ready.faces.isFailed
      refine ⟨s', ?_⟩
      rw [Lexis.tokens_of_none decided]
      simp only [collect, draw, scanned, clean, Draw.ofPass, Option.bind_none]
    · rw [decided] at settled
      obtain ⟨rfl, ready, latest⟩ := settled
      have shorter := Lexis.length_of_firstDecision? decided
      have fits := (List.dropWhile_suffix L.skips (l := T)).length_le
      rw [← same] at follows ready
      obtain ⟨s'', collected⟩ := ih follows ready (by omega)
      have token : s'.token = some token := latest
      refine ⟨s'', ?_⟩
      rw [Lexis.tokens_of_token decided]
      simp only [collect, draw, scanned, token, Draw.ofPass, collected]
    · rw [decided] at settled
      obtain ⟨rfl, latched⟩ := settled
      have error : s'.error = some (f.locate s'.offset []).1 := error_of_latched latched
      refine ⟨s', ?_⟩
      rw [Lexis.tokens_of_failed decided]
      simp only [collect, draw, scanned, error, Draw.ofPass, Option.bind_some, Ending.fault?]
    · rw [decided] at settled
      obtain rfl := settled
      refine ⟨s', ?_⟩
      rw [Lexis.tokens_of_raised decided]
      simp only [collect, draw, scanned, Draw.ofPass, Option.bind_some, Ending.fault?]

theorem ready_new (t : Tokenizer μ τ) {reader : Reader} {s : Text} (h : reader.Delivers s)
    (user : μ) :
    Ready t.options.sentinel (s ++ [t.options.sentinel]) (new t reader user).world :=
  ⟨.start h _, rfl⟩

theorem tokens_of_ready {s : Scanner μ τ} {T : Text} (follows : s.tokenizer.Follows L)
    (h : Ready s.tokenizer.options.sentinel T s.world) :
    ∃ after, s.tokens =
      ((L.tokens T).1, (L.tokens T).2.bind (Ending.fault? after.offset), after) := by
  apply collect_eq follows h
  have bounded := h.length_le
  omega

def asciiWords : Lexis Bytes where
  skips c := c == 0x20
  name := Text.ofString "ascii"
  write c := (Encoding.plain .ascii).write [c]
  judge b := if b.getLast? = some 0x20 then .token b.dropLast else .more

def countingWords : Tokenizer Nat Bytes where
  mapper b n := (asciiWords.judge b, n + 1)
  options := ⟨0x20, Text.ofString "ascii", .custom fun u n => (.ok (u == [0x20]), n + 1)⟩

end Scanner

end RuneMachine
