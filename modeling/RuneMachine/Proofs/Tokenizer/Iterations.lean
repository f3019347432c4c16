import Mathlib.Logic.Function.Basic
import RuneMachine.Proofs.Tokenizer.Scans

namespace RuneMachine

variable {μ τ ι : Type}

inductive Demand (ι : Type) where
  | scan
  | next (i : ι)

inductive Response (τ : Type) where
  | scanned (outcome : Outcome) (token : Option τ)
  | drawn (d : Draw τ)

def Response.token? : Response τ → Option τ
  | .scanned (.returned true) token => token
  | .drawn (.token t) => some t
  | _ => none

def Draw.ofEnd : Option Fault → Draw τ
  | some f => .failed f.outOfIteration
  | none => .finished

namespace Scanner

variable {s s' last : Scanner μ τ} {tokens : List τ} {t : τ}

theorem Runs.scan_fst (h : s.Runs tokens last) : s.scan.1 = .returned (0 < tokens.length) := by
  cases h with
  | stopped scanned _ => rw [scanned]; rfl
  | token scanned _ _ => rw [scanned]; simp

theorem draw_of_success (scanned : s.scan = (.returned true, s')) (token : s'.token = some t) :
    s.draw = (.token t, s') := by
  simp only [draw, scanned, token, Draw.ofPass]

theorem draw_of_stop (scanned : s.scan = (.returned false, last)) :
    s.draw = (.ofEnd last.error, last) := by
  simp only [draw, scanned]
  cases last.error <;> rfl

theorem next_of_over {i : Iteration} (isOver : i.isOver = true) : s.next i = (.finished, i, s) :=
  if_pos isOver

theorem next_of_going {i : Iteration} {d : Draw τ} (going : i.isOver = false)
    (drawn : s.draw = (d, s')) : s.next i = (d, .after d, s') := by
  simp only [next, going, drawn, Bool.false_eq_true, if_false]

end Scanner

structure Session (μ τ ι : Type) where
  scanner : Scanner μ τ
  iterations : ι → Iteration

namespace Session

def start (s : Scanner μ τ) : Session μ τ ι := ⟨s, fun _ => .start⟩

def handedOut (log : List (Demand ι × Response τ)) : List τ :=
  log.filterMap fun entry => entry.2.token?

def Ended (i : ι) (log : List (Demand ι × Response τ)) : Prop :=
  ∃ d, (.next i, .drawn d) ∈ log ∧ d.isToken = false

theorem handedOut_cons (demand : Demand ι) (response : Response τ)
    (log : List (Demand ι × Response τ)) :
    handedOut ((demand, response) :: log) = response.token?.toList ++ handedOut log := by
  cases token : response.token? <;> simp [handedOut, token]

theorem ended_append {i : ι} {earlier later : List (Demand ι × Response τ)} :
    Ended i (earlier ++ later) ↔ Ended i earlier ∨ Ended i later := by
  simp only [Ended, List.mem_append, or_and_right, exists_or]

variable [DecidableEq ι]

def serve (session : Session μ τ ι) : Demand ι → Response τ × Session μ τ ι
  | .scan =>
    match session.scanner.scan with
    | (outcome, s) => (.scanned outcome s.token, { session with scanner := s })
  | .next i =>
    match session.scanner.next (session.iterations i) with
    | (d, iteration, s) => (.drawn d, ⟨s, Function.update session.iterations i iteration⟩)

def serveAll : List (Demand ι) → Session μ τ ι → List (Demand ι × Response τ) × Session μ τ ι
  | [], session => ([], session)
  | demand :: demands, session =>
    match session.serve demand with
    | (response, session) =>
      match serveAll demands session with
      | (log, session) => ((demand, response) :: log, session)

structure Expects (session : Session μ τ ι) (rest : List τ) (last : Scanner μ τ) : Prop where
  runs : session.scanner.Runs rest last
  fresh : rest ≠ [] → ∀ i, (session.iterations i).isOver = false

variable {session : Session μ τ ι} {rest : List τ} {last : Scanner μ τ}

theorem serve_next_of_over {i : ι} (isOver : (session.iterations i).isOver = true) :
    session.serve (.next i) = (.drawn .finished, session) := by
  simp only [serve, Scanner.next_of_over isOver, Function.update_eq_self]

theorem serve_next_of_going {i : ι} {d : Draw τ} {s : Scanner μ τ}
    (going : (session.iterations i).isOver = false) (drawn : session.scanner.draw = (d, s)) :
    session.serve (.next i) = (.drawn d, ⟨s, Function.update session.iterations i (.after d)⟩) := by
  simp only [serve, Scanner.next_of_going going drawn]

theorem Expects.serve (h : session.Expects rest last) (demand : Demand ι) :
    (session.serve demand).1.token? = rest.head? ∧
      (session.serve demand).2.Expects rest.tail last := by
  obtain ⟨runs, fresh⟩ := h
  cases runs with
  | stopped scanned again =>
    have stays : last.Runs [] last := .stopped again again
    cases demand with
    | scan =>
      simp only [Session.serve, scanned]
      exact ⟨rfl, stays, nofun⟩
    | next i =>
      cases isOver : (session.iterations i).isOver with
      | true =>
        rw [serve_next_of_over isOver]
        exact ⟨rfl, .stopped scanned again, nofun⟩
      | false =>
        rw [serve_next_of_going isOver (Scanner.draw_of_stop scanned)]
        refine ⟨?_, stays, nofun⟩
        cases last.error <;> rfl
  | @token _ s' t tokens _ scanned token later =>
    have going := fresh (List.cons_ne_nil _ _)
    cases demand with
    | scan =>
      simp only [Session.serve, scanned]
      exact ⟨token, later, fun _ => going⟩
    | next i =>
      rw [serve_next_of_going (going i) (Scanner.draw_of_success scanned token)]
      refine ⟨rfl, later, ?_⟩
      intro _ j
      change (Function.update session.iterations i (.after (.token t)) j).isOver = false
      by_cases same : j = i
      · rw [same, Function.update_self]
        rfl
      · rw [Function.update_of_ne same]
        exact going j

theorem Expects.serveAll (h : session.Expects rest last) (demands : List (Demand ι)) :
    handedOut (session.serveAll demands).1 = rest.take demands.length ∧
      (session.serveAll demands).2.Expects (rest.drop demands.length) last := by
  induction demands generalizing session rest with
  | nil => exact ⟨rfl, h⟩
  | cons demand demands ih =>
    obtain ⟨token, later⟩ := h.serve demand
    obtain ⟨tokens, expects⟩ := ih later
    have log : handedOut (session.serveAll (demand :: demands)).1 =
        (session.serve demand).1.token?.toList ++
          handedOut ((session.serve demand).2.serveAll demands).1 := handedOut_cons _ _ _
    rw [log, token, tokens]
    cases rest with
    | nil =>
      rw [List.tail_nil, List.drop_nil] at expects
      rw [List.drop_nil]
      exact ⟨by simp, expects⟩
    | cons t rest => exact ⟨rfl, expects⟩

theorem map_fst_serveAll (demands : List (Demand ι)) (session : Session μ τ ι) :
    (session.serveAll demands).1.map Prod.fst = demands := by
  induction demands generalizing session with
  | nil => rfl
  | cons demand demands ih => exact congrArg (demand :: ·) (ih _)

theorem isOver_serve (session : Session μ τ ι) (demand : Demand ι) (i : ι) :
    ((session.serve demand).2.iterations i).isOver = true ↔
      (session.iterations i).isOver = true ∨ Ended i [(demand, (session.serve demand).1)] := by
  cases demand with
  | scan => simp [serve, Ended]
  | next j =>
    cases isOver : (session.iterations j).isOver with
    | true =>
      rw [serve_next_of_over isOver]
      have already : Ended i [(.next j, .drawn (.finished : Draw τ))] →
          (session.iterations i).isOver = true := by
        rintro ⟨d, member, -⟩
        cases List.mem_singleton.mp member
        exact isOver
      exact ⟨.inl, fun h => h.elim id already⟩
    | false =>
      rw [serve_next_of_going isOver rfl]
      by_cases same : i = j
      · subst same
        simp [Ended, isOver, Iteration.after]
      · simp [Ended, same]

theorem isOver_serveAll (session : Session μ τ ι) (demands : List (Demand ι)) (i : ι) :
    ((session.serveAll demands).2.iterations i).isOver = true ↔
      (session.iterations i).isOver = true ∨ Ended i (session.serveAll demands).1 := by
  induction demands generalizing session with
  | nil => simp [serveAll, Ended]
  | cons demand demands ih =>
    have log : (session.serveAll (demand :: demands)).1 =
        [(demand, (session.serve demand).1)] ++
          ((session.serve demand).2.serveAll demands).1 := rfl
    rw [log, ended_append, ← or_assoc, ← isOver_serve]
    exact ih (session.serve demand).2

theorem exists_serve_of_log {demands : List (Demand ι)} {demand : Demand ι} {response : Response τ}
    {earlier later : List (Demand ι × Response τ)}
    (h : (session.serveAll demands).1 = earlier ++ (demand, response) :: later) :
    ∃ before, before.length = earlier.length ∧ (session.serveAll before).1 = earlier ∧
      ((session.serveAll before).2.serve demand).1 = response := by
  induction earlier generalizing demands session with
  | nil =>
    cases demands with
    | nil => cases h
    | cons first demands =>
      cases h
      exact ⟨[], rfl, rfl, rfl⟩
  | cons entry earlier ih =>
    cases demands with
    | nil => cases h
    | cons first demands =>
      obtain ⟨rfl, rest⟩ := List.cons.inj h
      obtain ⟨before, length, log, response⟩ := ih rest
      exact ⟨first :: before, congrArg Nat.succ length, congrArg (_ :: ·) log, response⟩

/-- However scans and the steps of iterations follow one another, they hand out the tokens of a loop
that scans, each once and in order: as many as there are demands, as long as there are any. After
the last token scans are without success. An iteration that is asked then raises the error of the
scanner, or finishes if there is none; after that it can only finish. -/
theorem serveAll_loop {s : Scanner μ τ} (tame : s.tokenizer.IsTame)
    (ordinary : s.world.reader.IsOrdinary) :
    ∃ tokens last, (∀ scans, tokens.length < scans → s.loop scans = some (tokens, last)) ∧
      ∀ (demands : List (Demand ι)) (log : List (Demand ι × Response τ)),
        ((start s).serveAll demands).1 = log →
        log.map Prod.fst = demands ∧ handedOut log = tokens.take demands.length ∧
        (∀ earlier outcome token later, log = earlier ++ (.scan, .scanned outcome token) :: later →
          outcome = .returned (earlier.length < tokens.length)) ∧
        ∀ earlier i d later, log = earlier ++ (.next i, .drawn d) :: later →
          (Ended i earlier → d = .finished) ∧
          (¬Ended i earlier → tokens.length ≤ earlier.length → d = .ofEnd last.error) := by
  obtain ⟨tokens, last, runs⟩ := Scanner.exists_runs tame ordinary
  have expects : (start s : Session μ τ ι).Expects tokens last := ⟨runs, fun _ _ => rfl⟩
  refine ⟨tokens, last, fun scans => runs.loop, ?_⟩
  rintro demands log rfl
  refine ⟨map_fst_serveAll demands _, (expects.serveAll demands).1, ?_, ?_⟩
  · intro earlier outcome token later split
    obtain ⟨before, length, rfl, response⟩ := exists_serve_of_log split
    obtain ⟨-, now⟩ := expects.serveAll before
    have scanned := now.runs.scan_fst
    have same : (serveAll before (start s)).2.scanner.scan.1 = outcome := by
      cases response
      rfl
    rw [same] at scanned
    rw [scanned, ← length]
    simp only [List.length_drop, Nat.sub_pos_iff_lt]
  · intro earlier i d later split
    obtain ⟨before, length, rfl, response⟩ := exists_serve_of_log split
    obtain ⟨-, now⟩ := expects.serveAll before
    have isOver_iff := isOver_serveAll (start s : Session μ τ ι) before i
    rw [or_iff_right (by simp [start, Iteration.start])] at isOver_iff
    constructor
    · intro ended
      rw [serve_next_of_over (isOver_iff.mpr ended)] at response
      cases response
      rfl
    · intro going all
      rw [← isOver_iff, Bool.not_eq_true] at going
      have none : tokens.drop before.length = [] := List.drop_eq_nil_of_le (length ▸ all)
      have runs := now.runs
      rw [none] at runs
      cases runs with
      | stopped scanned _ =>
        rw [serve_next_of_going going (Scanner.draw_of_stop scanned)] at response
        cases response
        rfl

def spaced : Tokenizer Unit Bytes where
  mapper b _ := (if b.getLast? ∈ [some 0x20, some 0x0a] then .token b.dropLast else .more, ())
  options := .default

theorem spaced_isTame : spaced.IsTame where
  space u user f := nofun
  encoding u f := by
    have utf8 : Encoding.ofName? spaced.options.encoding = some (.plain .utf8) := by decide
    change Codecs.standard spaced.options.encoding u ≠ _
    rw [Codecs.standard_of_ofName? utf8]
    exact Encoding.write_ne_raised _ u f
  mapper b user f failed := by
    simp only [spaced] at failed
    split at failed <;> cases failed

def stop : Fault := { Fault.of .stopIteration [] with identity := some 0 }

def halting : Source :=
  .ofItems .stream
    [.text [0x61, 0x62, 0x20, 0x63], .text [0x20, 0x64, 0x20, 0x65], .fault stop, .text [0x66]]

theorem serveAll_loop_halting :
    let s := Scanner.new spaced (.ofSource halting) ()
    let demands : List (Demand Bool) :=
      [.next false, .scan, .next true, .next true, .scan, .next false, .next true, .next false]
    let log := (serveAll demands (start s)).1
    s.tokenizer.IsTame ∧ s.world.reader.IsOrdinary ∧
    ∃ tokens last, s.loop 4 = some (tokens, last) ∧ tokens.length = 3 ∧
      last.error = some stop ∧ stop.outOfIteration.kind = .runtime ∧
      stop.outOfIteration.cause = some .stopIteration ∧
      log.map Prod.fst = demands ∧ handedOut log = tokens ∧
      ∀ earlier i d later, log = earlier ++ (.next i, .drawn d) :: later →
        (Ended i earlier → d = .finished) ∧
        (¬Ended i earlier → 3 ≤ earlier.length → d = .failed stop.outOfIteration) := by
  intro s demands log
  have ordinary : s.world.reader.IsOrdinary := by
    intro f member
    simp only [s, Scanner.new, Reader.ofSource, Reader.new, halting, Source.ofItems, Item.text,
      List.mem_cons, reduceCtorEq, false_or, List.not_mem_nil, or_false, Item.fault.injEq] at member
    rw [member]
    rfl
  obtain ⟨tokens, last, loop, all⟩ := serveAll_loop (ι := Bool) spaced_isTame ordinary
  obtain ⟨asked, handed, -, ends⟩ := all demands log rfl
  have given : handedOut log = [[0x61, 0x62], [0x63], [0x64]] := rfl
  have three : tokens.length = 3 := by
    have fewer : min 8 tokens.length = 3 := by
      simpa [given, demands] using congrArg List.length handed.symm
    omega
  have looped := loop 4 (by omega)
  have error : (s.loop 4).bind (·.2.error) = some stop := rfl
  rw [looped, Option.bind_some] at error
  refine ⟨spaced_isTame, ordinary, tokens, last, looped, three, error, rfl, rfl, asked, ?_, ?_⟩
  · rw [handed, List.take_of_length_le]
    exact Nat.le_trans (Nat.le_of_eq three) (by decide)
  · intro earlier i d later split
    obtain ⟨again, first⟩ := ends earlier i d later split
    rw [three, error] at first
    exact ⟨again, first⟩

end Session

end RuneMachine
