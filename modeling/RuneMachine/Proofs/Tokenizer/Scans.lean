import RuneMachine.Proofs.Reader.Ordinary
import RuneMachine.Proofs.Tokenizer.Calls

namespace RuneMachine

namespace World

variable {σ ν Q E : Type} {w w' : World σ ν Q E}

def spare (w : World σ ν Q E) : Nat := w.reader.bound + if w.latch = .empty then 1 else 0

theorem spare_congr (reader : w'.reader = w.reader) (latch : w'.latch = w.latch) :
    w'.spare = w.spare := by
  rw [spare, spare, reader, latch]

def Stopped (w : World σ ν Q E) : Prop :=
  w.latch.isFailed = true ∨ w.latch = .ended ∧ w.reader.exhausted = true

theorem Stopped.pass (h : w.Stopped) (A : Automaton σ ν Q E) {config : Config Q E} {q : Q}
    (starts : config.initial = some q) (turns : Nat) :
    w.pass A config (turns + 1) = (.returned false, w) := by
  obtain failed | ⟨ended, exhausted⟩ := h
  · exact pass_of_failed failed config (turns + 1)
  · have read : w.read = (.error Fault.endOfInput, w) := by
      simp [World.read, Reader.read_of_exhausted exhausted]
    have clean : Fault.endOfInput.isClean = true := rfl
    have turned : w.turn A config.policy q = (.over (.returned false), w) := by
      simp [World.turn, read, clean, meetEnd, ended]
    rw [pass_of_going (by rw [ended]; rfl), starts]
    simp only [proceed, turned]

theorem proceed_none (A : Automaton σ ν Q E) (policy : Policy E) (turns : Nat)
    (w : World σ ν Q E) : w.proceed A policy turns none = (.returned true, w) := by
  cases turns <;> rfl

theorem reader_read_of_read {result : Except Fault Rune} (h : w.read = (result, w')) :
    w.reader.read = (result, w'.reader) ∧ w'.latch = w.latch := by
  cases h
  exact ⟨rfl, rfl⟩

theorem raised_of_read {f : Fault} (ordinary : w.reader.IsOrdinary)
    (h : w.read = (.error f, w')) :
    w'.reader.IsOrdinary ∧
      (f.isClean = true → w'.reader.exhausted = true ∧ w'.reader.bound ≤ w.reader.bound) ∧
      (f.isClean = false → f.kind.isCatchable = true) := by
  obtain ⟨read, -⟩ := reader_read_of_read h
  obtain ⟨still, raised⟩ := (Reader.reads_of_read read).of_ordinary ordinary
  refine ⟨still, ?_⟩
  obtain raised | ⟨clean, exhausted, less⟩ := raised f rfl
  · obtain ⟨dirty, catchable⟩ := Fault.isOrdinary_iff.mp raised
    exact ⟨by simp [dirty], fun _ => catchable⟩
  · exact ⟨fun _ => ⟨exhausted, less⟩, by simp [clean]⟩

end World

theorem Reader.bound_unread (r : Reader) (u : Rune) : (r.unread u).bound = r.bound + 1 := by
  simp only [bound, unread, keptLength, List.length_cons]
  omega

namespace Tokenizer

variable {μ τ : Type} {t : Tokenizer μ τ} {u : Rune} {mode : Mode} {turn : Turn Mode}
  {w v w' : Stage μ τ}

structure IsTame (t : Tokenizer μ τ) : Prop where
  space : ∀ u user f, (t.options.space.holds u user).1 ≠ .error f
  encoding : ∀ u f, t.write u ≠ .raised f
  mapper : ∀ buffer user f, (t.mapper buffer user).1 = .failed f → f.kind.isApplication

inductive Takes (u : Rune) (w w' : Stage μ τ) : Mode → Turn Mode → Prop
  | skipped : w'.reader = w.reader → w'.latch = w.latch →
      Takes u w w' .skipping (.next (some .skipping))
  | opened : w'.reader = w.reader.unread u → w'.latch = w.latch →
      Takes u w w' .skipping (.next (some .matching))
  | extended : w'.reader = w.reader → w'.latch = w.latch →
      Takes u w w' .matching (.next (some .matching))
  | found : w'.reader = w.reader → w'.latch = w.latch → Takes u w w' .matching (.next none)
  | failed : w'.latch.isFailed = true → Takes u w w' .matching (.over (.returned false))

theorem IsTame.not_escapes (tame : t.IsTame) (f : Fault) : ¬t.Escapes f := by
  rintro (held | written | ⟨mapped, foreign⟩)
  · exact tame.space _ _ _ held
  · exact tame.encoding _ _ written
  · rw [tame.mapper _ _ _ mapped] at foreign
    cases foreign

theorem takes_of_deliver (tame : t.IsTame) (going : w.latch.isFailed = false)
    (h : w.deliver t.automaton mode u = (turn, w')) : Takes u w w' mode turn := by
  cases moves_of_deliver going h with
  | skipped reader latch => exact .skipped reader latch
  | opened reader latch => exact .opened reader latch
  | extended reader latch => exact .extended reader latch
  | found reader latch => exact .found reader latch
  | failed _ failed => exact .failed failed
  | raised escapes => exact absurd escapes (tame.not_escapes _)

def need : Mode → Stage μ τ → Nat
  | .skipping, w => w.spare + 1
  | .matching, w => w.spare

inductive Goes (w w' : Stage μ τ) (mode : Mode) : Turn Mode → Prop
  | found : w'.latch.isFailed = false → w'.reader.IsOrdinary → w'.spare < w.spare →
      Goes w w' mode (.next none)
  | onward {mode'} : w'.latch.isFailed = false → w'.reader.IsOrdinary → w'.spare ≤ w.spare →
      need mode' w' < need mode w → Goes w w' mode (.next (some mode'))
  | stopped : w'.Stopped → Goes w w' mode (.over (.returned false))

theorem goes_of_deliver (tame : t.IsTame) (ordinary : v.reader.IsOrdinary)
    (going : v.latch.isFailed = false) (less : v.spare < w.spare)
    (h : v.deliver t.automaton mode u = (turn, w')) : Goes w w' mode turn := by
  cases takes_of_deliver tame going h with
  | skipped reader latch =>
    have same := World.spare_congr reader latch
    refine .onward (latch ▸ going) (reader ▸ ordinary) (by omega) ?_
    simp only [need]
    omega
  | opened reader latch =>
    have more : w'.spare = v.spare + 1 := by
      rw [World.spare, World.spare, reader, latch, Reader.bound_unread]
      omega
    refine .onward (latch ▸ going) (reader ▸ ordinary) (by omega) ?_
    simp only [need]
    omega
  | extended reader latch =>
    have same := World.spare_congr reader latch
    refine .onward (latch ▸ going) (reader ▸ ordinary) (by omega) ?_
    simp only [need]
    omega
  | found reader latch =>
    have same := World.spare_congr reader latch
    exact .found (latch ▸ going) (reader ▸ ordinary) (by omega)
  | failed failed => exact .stopped (.inl failed)

theorem goes_of_turn (tame : t.IsTame) (ordinary : w.reader.IsOrdinary)
    (going : w.latch.isFailed = false)
    (h : w.turn t.automaton t.config.policy mode = (turn, w')) : Goes w w' mode turn := by
  cases World.turned_of_turn h with
  | delivered read delivered =>
    obtain ⟨read, latch⟩ := World.reader_read_of_read read
    obtain ⟨still, -⟩ := (Reader.reads_of_read read).of_ordinary ordinary
    have less := Reader.bound_read_lt read
    refine goes_of_deliver tame still (latch ▸ going) ?_ delivered
    rw [World.spare, World.spare, latch]
    omega
  | substituted read clean empty policy delivered =>
    obtain ⟨-, latch⟩ := World.reader_read_of_read read
    obtain ⟨still, ended, -⟩ := World.raised_of_read ordinary read
    have less := (ended clean).2
    refine goes_of_deliver tame ?_ ?_ ?_ delivered
    · exact still
    · rfl
    · simp only [World.spare, ← latch, empty, World.log, World.record]
      simpa using Nat.lt_succ_of_le less
  | consulted _ _ _ policy => cases policy
  | stopped _ _ _ policy => cases policy
  | refused _ _ _ policy => cases policy
  | finished read clean nonempty =>
    obtain ⟨-, ended, -⟩ := World.raised_of_read ordinary read
    refine .stopped ?_
    cases latched : w'.latch with
    | empty => exact absurd latched nonempty
    | failed g => exact .inl (by rw [latched]; rfl)
    | ended => exact .inr ⟨latched, (ended clean).1⟩
  | faulted => exact .stopped (.inl rfl)
  | interrupted read dirty uncatchable =>
    obtain ⟨-, -, caught⟩ := World.raised_of_read ordinary read
    rw [caught dirty] at uncatchable
    cases uncatchable

inductive Scanned (w w' : Stage μ τ) : Outcome → Prop
  | found : w'.reader.IsOrdinary → w'.spare < w.spare → Scanned w w' (.returned true)
  | stopped : w'.Stopped → Scanned w w' (.returned false)

theorem Scanned.of_le {outcome : Outcome} (h : Scanned v w' outcome) (less : v.spare ≤ w.spare) :
    Scanned w w' outcome := by
  cases h with
  | found ordinary fewer => exact .found ordinary (Nat.lt_of_lt_of_le fewer less)
  | stopped stopped => exact .stopped stopped

theorem scanned_of_proceed (tame : t.IsTame) {turns : Nat} {outcome : Outcome}
    (ordinary : w.reader.IsOrdinary) (going : w.latch.isFailed = false)
    (enough : need mode w < turns)
    (h : w.proceed t.automaton t.config.policy turns (some mode) = (outcome, w')) :
    Scanned w w' outcome := by
  induction turns generalizing w mode with
  | zero => cases enough
  | succ turns ih =>
    rcases turned : w.turn t.automaton t.config.policy mode with ⟨turn, v⟩
    simp only [World.proceed, turned] at h
    cases goes_of_turn tame ordinary going turned with
    | found _ still less =>
      simp only [World.proceed_none] at h
      cases h
      exact .found still less
    | onward unfailed still less fewer =>
      have enough' := Nat.lt_of_lt_of_le fewer (Nat.le_of_lt_succ enough)
      exact (ih still unfailed enough' h).of_le less
    | stopped stopped =>
      cases h
      exact .stopped stopped

end Tokenizer

namespace Scanner

variable {μ τ : Type}

def loop : (scans : Nat) → Scanner μ τ → Option (List τ × Scanner μ τ)
  | 0, _ => none
  | scans + 1, s =>
    match s.scan with
    | (.returned true, s) => do
      let token ← s.token
      let (tokens, last) ← loop scans s
      return (token :: tokens, last)
    | (.returned false, s) => some ([], s)
    | _ => none

inductive Runs : Scanner μ τ → List τ → Scanner μ τ → Prop
  | stopped {s last} : s.scan = (.returned false, last) → last.scan = (.returned false, last) →
      Runs s [] last
  | token {s s' token tokens last} : s.scan = (.returned true, s') → s'.token = some token →
      Runs s' tokens last → Runs s (token :: tokens) last

variable {s s' last : Scanner μ τ} {tokens : List τ}

theorem Runs.loop (h : s.Runs tokens last) {scans : Nat} (enough : tokens.length < scans) :
    s.loop scans = some (tokens, last) := by
  induction h generalizing scans with
  | stopped scanned _ =>
    obtain ⟨scans, rfl⟩ := Nat.exists_eq_add_one.mpr enough
    simp only [Scanner.loop, scanned]
  | token scanned token _ ih =>
    obtain ⟨scans, rfl⟩ := Nat.exists_eq_add_one.mpr (Nat.zero_lt_of_lt enough)
    simp [Scanner.loop, scanned, token, ih (Nat.lt_of_succ_lt_succ enough)]

theorem scan_of_stopped (h : s.world.Stopped) : s.scan = (.returned false, s) := by
  have starts : s.tokenizer.config.initial = some .skipping := rfl
  have passed := h.pass s.tokenizer.automaton starts (s.world.reader.bound + 3)
  simp only [scan, turnBound, passed]

theorem scanned_of_scan {outcome : Outcome} (tame : s.tokenizer.IsTame)
    (ordinary : s.world.reader.IsOrdinary) (h : s.scan = (outcome, s')) :
    s'.tokenizer = s.tokenizer ∧ Tokenizer.Scanned s.world s'.world outcome := by
  by_cases failed : s.world.latch.isFailed = true
  · rw [scan_of_stopped (.inl failed)] at h
    cases h
    exact ⟨rfl, .stopped (.inl failed)⟩
  · have going : s.world.latch.isFailed = false := by simpa using failed
    have enough : Tokenizer.need .skipping s.world < s.turnBound := by
      simp only [Tokenizer.need, World.spare, turnBound]
      split <;> omega
    rcases passed : s.world.pass s.tokenizer.automaton s.tokenizer.config s.turnBound with
      ⟨result, w⟩
    simp only [scan, passed] at h
    cases h
    rw [World.pass_of_going going] at passed
    exact ⟨rfl, Tokenizer.scanned_of_proceed tame ordinary going enough passed⟩

theorem token_of_scan (h : s.scan = (.returned true, s')) : ∃ token, s'.token = some token := by
  rcases passed : s.world.pass s.tokenizer.automaton s.tokenizer.config s.turnBound with ⟨result, w⟩
  simp only [scan, passed] at h
  cases h
  obtain ⟨-, -, token, -, -, -, latest⟩ := Tokenizer.token_of_pass passed
  exact ⟨token, latest⟩

theorem exists_runs (tame : s.tokenizer.IsTame) (ordinary : s.world.reader.IsOrdinary) :
    ∃ tokens last, s.Runs tokens last := by
  -- Every token leaves less to be read.
  induction spare : s.world.spare using Nat.strongRecOn generalizing s with
  | _ n ih =>
    rcases scanned : s.scan with ⟨outcome, s'⟩
    obtain ⟨tokenizer, result⟩ := scanned_of_scan tame ordinary scanned
    cases result with
    | stopped stopped => exact ⟨[], s', .stopped scanned (scan_of_stopped stopped)⟩
    | found still less =>
      obtain ⟨token, latest⟩ := token_of_scan scanned
      obtain ⟨tokens, last, runs⟩ := ih _ (spare ▸ less) (tokenizer ▸ tame) still rfl
      exact ⟨token :: tokens, last, .token scanned latest runs⟩

end Scanner

end RuneMachine
