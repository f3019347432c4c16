import RuneMachine.Proofs.Tokenizer.Refinement

namespace RuneMachine

def Turn.isSuccess {Q : Type} : Turn Q → Bool
  | .next none | .over (.returned true) => true
  | _ => false

theorem Turn.isSuccess_over {Q : Type} (outcome : Outcome) :
    (Turn.over outcome : Turn Q).isSuccess = true ↔ outcome = .returned true := by
  rcases outcome with (_ | _) | f | _ <;> simp [isSuccess]

@[simp] theorem World.notes_setError {σ ν Q E : Type} (w : World σ ν Q E) (fault : Option Fault) :
    (w.setError fault).2.notes = w.notes := by
  cases fault with
  | none => rfl
  | some f =>
    simp only [setError]
    split <;> rfl

namespace Tokenizer

variable {μ τ : Type} {t : Tokenizer μ τ} {u : Rune} {w v w' : Stage μ τ}

inductive Answered (t : Tokenizer μ τ) (w w' : Stage μ τ) : Turn Mode → Prop
  | unasked {turn} : w'.shown = w.shown → w'.memory.token = w.memory.token →
      turn.isSuccess = false → Answered t w w' turn
  | token {buffer token} : w'.shown = w.shown ++ [buffer] →
      (t.mapper buffer w.memory.user).1 = .token token → w'.memory.token = some token →
      Answered t w w' (.next none)
  | other {buffer turn} : w'.shown = w.shown ++ [buffer] →
      (∀ token, (t.mapper buffer w.memory.user).1 ≠ .token token) →
      w'.memory.token = w.memory.token → turn.isSuccess = false → Answered t w w' turn

variable {mode : Mode} {turn : Turn Mode}

theorem Answered.of_eq (h : Answered t v w' turn) (shown : v.shown = w.shown)
    (memory : v.memory = w.memory) : Answered t w w' turn := by
  cases h with
  | unasked same kept failed =>
    exact .unasked (same.trans shown) (kept.trans (congrArg Memory.token memory)) failed
  | token grown mapped found =>
    rw [shown] at grown
    rw [memory] at mapped
    exact .token grown mapped found
  | other grown mapped kept failed =>
    rw [shown] at grown
    rw [memory] at mapped
    exact .other grown mapped (kept.trans (congrArg Memory.token memory)) failed

theorem perform_skip_frame (t : Tokenizer μ τ) (u : Rune) (m : Memory μ τ) (w : Stage μ τ) :
    (w.perform (t.skip u m)).2.shown = w.shown ∧
      (w.perform (t.skip u m)).2.memory.token = m.token := by
  have asked : (w.record (.note (.asked u))).shown = w.shown := by
    rw [World.shown_record]
    exact List.append_nil w.shown
  unfold skip
  cases t.options.space.isStandard with
  | true => rcases t.options.space.holds u m.user with ⟨f | _ | _, user⟩ <;> exact ⟨rfl, rfl⟩
  | false => rcases t.options.space.holds u m.user with ⟨f | _ | _, user⟩ <;> exact ⟨asked, rfl⟩

theorem answered_of_skip (h : w.deliver t.automaton .skipping u = (turn, w')) :
    Answered t w w' turn := by
  have frame := perform_skip_frame t u w.memory (w.record (.call .skipping u))
  rcases performed : (w.record (.call .skipping u)).perform (t.skip u w.memory) with ⟨result, v⟩
  obtain ⟨skips, -⟩ := skips_of_perform performed
  rw [performed] at frame
  obtain ⟨shown, token⟩ := frame
  have step : t.automaton.step .skipping u w.memory = t.skip u w.memory := rfl
  simp only [World.deliver, step, performed] at h
  cases skips with
  | raised =>
    cases h
    exact .unasked shown token rfl
  | skipped =>
    dsimp only at h
    split at h <;> cases h <;> exact .unasked shown token rfl
  | opened =>
    dsimp only at h
    split at h <;> cases h <;> exact .unasked shown token rfl

theorem deliver_of_setError {f : Fault} (application : f.kind.isApplication = true)
    {m : Memory μ τ}
    (performed : (w.record (.call mode u)).perform (t.automaton.step mode u w.memory) =
      v.perform (.setError m (some f) (.done m none)))
    (h : w.deliver t.automaton mode u = (turn, w')) :
    turn.isSuccess = false ∧ w'.shown = v.shown ∧ w'.memory = m := by
  have dirty := Fault.isClean_of_isApplication application
  have failed : (v.setError (some f)).2.latch.isFailed = true := by
    rw [World.latch_setError dirty]
    rfl
  have latching : v.perform (.setError m (some f) (.done m none)) =
      (.ok (none : Option Mode), { (v.setError (some f)).2 with memory := m }) := by
    simp only [Act.setError, World.perform, World.setError, dirty, Bool.false_eq_true, if_false]
  simp only [World.deliver, performed, latching, failed, if_true] at h
  cases h
  exact ⟨rfl, congrArg (·.reverse.filterMap Note.shown?) (v.notes_setError (some f)), rfl⟩

theorem answered_of_judge (bytes : Bytes) (going : w.latch.isFailed = false)
    (judges : t.automaton.step mode u w.memory =
      t.judge { w.memory with buffer := w.memory.buffer ++ bytes })
    (h : w.deliver t.automaton mode u = (turn, w')) : Answered t w w' turn := by
  let buffer := w.memory.buffer ++ bytes
  let v : Stage μ τ := (w.record (.call mode u)).record (.note (.mapped buffer))
  have grown : v.shown = w.shown ++ [buffer] := World.shown_record _ (.mapped buffer)
  have still : v.latch.isFailed = false := going
  rcases mapped : t.mapper buffer w.memory.user with ⟨token | _ | f, user⟩
  · have performed : (w.record (.call mode u)).perform (t.automaton.step mode u w.memory) =
        (.ok none, { v with memory := ⟨buffer, some token, user⟩ }) := by
      simp only [judges, judge, World.perform, mapped, buffer, v]
    cases (World.deliver_of_going performed still).symm.trans h
    exact .token grown (congrArg Prod.fst mapped) rfl
  · have performed : (w.record (.call mode u)).perform (t.automaton.step mode u w.memory) =
        (.ok (some .matching), { v with memory := ⟨buffer, w.memory.token, user⟩ }) := by
      simp only [judges, judge, World.perform, mapped, buffer, v]
    cases (World.deliver_of_going performed still).symm.trans h
    exact .other grown (by simp [mapped]) rfl rfl
  · have other : ∀ token, (t.mapper buffer w.memory.user).1 ≠ .token token := by simp [mapped]
    cases application : f.kind.isApplication with
    | true =>
      -- The error is noted and latched; the call returns as after a token, but the latch is seen.
      let rejected : Stage μ τ :=
        v.record (.note (.rejected buffer (f.text (f.offsetIn w.located))))
      have unseen : rejected.shown = v.shown := by
        rw [World.shown_record]
        exact List.append_nil v.shown
      have performed : (w.record (.call mode u)).perform (t.automaton.step mode u w.memory) =
          rejected.perform (.setError ⟨buffer, w.memory.token, user⟩ (some f)
            (.done ⟨buffer, w.memory.token, user⟩ none)) := by
        simp only [judges, judge, World.perform, mapped, application, if_true, buffer, rejected, v,
          World.record]
      obtain ⟨failed, shown, memory⟩ := deliver_of_setError application performed h
      exact .other (shown.trans (unseen.trans grown)) other (by rw [memory]) failed
    | false =>
      simp only [World.deliver, judges, judge, World.perform, mapped, application, buffer,
        Bool.false_eq_true, if_false] at h
      cases h
      exact .other grown other rfl rfl

theorem answered_of_extend (going : w.latch.isFailed = false)
    (h : w.deliver t.automaton .matching u = (turn, w')) : Answered t w w' turn := by
  have step : t.automaton.step .matching u w.memory = t.extend u w.memory := rfl
  cases written : t.write u with
  | raised f =>
    simp only [World.deliver, step, extend, written] at h
    cases h
    exact .unasked rfl rfl rfl
  | refused =>
    have latches : t.automaton.step .matching u w.memory =
        .setError w.memory (some (unencodable t.options.encoding u)) (.done w.memory none) := by
      simp only [step, extend, written]
    obtain ⟨failed, shown, memory⟩ :=
      deliver_of_setError rfl (congrArg (World.perform · _) latches) h
    exact .unasked shown (congrArg Memory.token memory) failed
  | bytes b => exact answered_of_judge b going (by simp only [step, extend, written]) h

theorem answered_of_deliver (going : w.latch.isFailed = false)
    (h : w.deliver t.automaton mode u = (turn, w')) : Answered t w w' turn := by
  cases mode with
  | skipping => exact answered_of_skip h
  | matching => exact answered_of_extend going h

theorem shown_read {result : Except Fault Rune} (h : w.read = (result, v)) :
    v.shown = w.shown ∧ v.memory = w.memory ∧ v.latch = w.latch := by
  have given : w.reader.read = (w.reader.read.1, w.reader.read.2) := rfl
  obtain ⟨v', read, -, latch, memory, -, -, -, notes⟩ := World.read_eq given
  cases h.symm.trans read
  exact ⟨congrArg (·.reverse.filterMap Note.shown?) notes, memory, latch⟩

theorem answered_of_turn (going : w.latch.isFailed = false)
    (h : w.turn t.automaton t.config.policy mode = (turn, w')) : Answered t w w' turn := by
  cases World.turned_of_turn h with
  | delivered read delivered =>
    obtain ⟨shown, memory, latch⟩ := shown_read read
    exact (answered_of_deliver (latch ▸ going) delivered).of_eq shown memory
  | substituted read _ _ _ delivered =>
    obtain ⟨shown, memory, -⟩ := shown_read read
    exact (answered_of_deliver rfl delivered).of_eq shown memory
  | consulted _ _ _ policy => cases policy
  | stopped _ _ _ policy => cases policy
  | refused _ _ _ policy => cases policy
  | finished read =>
    obtain ⟨shown, memory, -⟩ := shown_read read
    exact .unasked shown (by rw [memory]) rfl
  | faulted read =>
    obtain ⟨shown, memory, -⟩ := shown_read read
    exact .unasked shown (congrArg Memory.token memory) rfl
  | interrupted read =>
    obtain ⟨shown, memory, -⟩ := shown_read read
    exact .unasked shown (by rw [memory]) rfl

def answersBetween (t : Tokenizer μ τ) (w w' : Stage μ τ) : List (Bytes × Verdict τ) :=
  (w'.shown.drop w.shown.length).map fun buffer => (buffer, (t.mapper buffer w.memory.user).1)

def answersFrom (t : Tokenizer μ τ) :
    (turns : Nat) → Option Mode → Stage μ τ → List (Bytes × Verdict τ)
  | turns + 1, some mode, w =>
    match w.turn t.automaton t.config.policy mode with
    | (.next state, w') => t.answersBetween w w' ++ t.answersFrom turns state w'
    | (.over _, w') => t.answersBetween w w'
  | _, _, _ => []

def answers (t : Tokenizer μ τ) (turns : Nat) (w : Stage μ τ) : List (Bytes × Verdict τ) :=
  if w.latch.isFailed then [] else t.answersFrom turns t.config.initial w

def lastToken? (answers : List (Bytes × Verdict τ)) : Option τ :=
  match answers.getLast? with
  | some (_, .token token) => some token
  | _ => none

theorem lastToken?_append {earlier : List (Bytes × Verdict τ)} (none : lastToken? earlier = none)
    (later : List (Bytes × Verdict τ)) : lastToken? (earlier ++ later) = lastToken? later := by
  unfold lastToken? at none ⊢
  rw [List.getLast?_append]
  cases later.getLast? with
  | none => exact none
  | some answer => rfl

structure Tells (answers : List (Bytes × Verdict τ)) (success : Prop) (w w' : Stage μ τ) :
    Prop where
  shown : w'.shown = w.shown ++ answers.map Prod.fst
  success : success ↔ (lastToken? answers).isSome = true
  token : w'.memory.token = (lastToken? answers).or w.memory.token

theorem Answered.tells (h : Answered t w w' turn) :
    Tells (t.answersBetween w w') (turn.isSuccess = true) w w' := by
  cases h with
  | unasked same kept failed =>
    have answers : t.answersBetween w w' = [] := by simp [answersBetween, same]
    rw [answers]
    exact ⟨by simp [same], by simp [failed, lastToken?], kept⟩
  | @token buffer token grown mapped found =>
    have answers : t.answersBetween w w' = [(buffer, .token token)] := by
      simp [answersBetween, grown, mapped]
    rw [answers]
    exact ⟨grown, iff_of_true rfl rfl, found⟩
  | @other buffer _ grown mapped kept failed =>
    have answers : t.answersBetween w w' = [(buffer, (t.mapper buffer w.memory.user).1)] := by
      simp [answersBetween, grown]
    have none : lastToken? [(buffer, (t.mapper buffer w.memory.user).1)] = none := by
      cases verdict : (t.mapper buffer w.memory.user).1 with
      | token token => exact absurd verdict (mapped token)
      | more => rfl
      | failed f => rfl
    rw [answers]
    exact ⟨grown, by simp [failed, none], by simp [kept, none]⟩

theorem Tells.trans {earlier later : List (Bytes × Verdict τ)} {success : Prop}
    (h : Tells earlier False w v) (h' : Tells later success v w') :
    Tells (earlier ++ later) success w w' := by
  have none : lastToken? earlier = none := by simpa using h.success
  have kept : v.memory.token = w.memory.token := by simpa [none] using h.token
  refine ⟨?_, ?_, ?_⟩
  · rw [h'.shown, h.shown, List.map_append, List.append_assoc]
  · rw [lastToken?_append none]
    exact h'.success
  · rw [lastToken?_append none, h'.token, kept]

theorem tells_of_proceed {turns : Nat} {outcome : Outcome} (going : w.latch.isFailed = false)
    (h : w.proceed t.automaton t.config.policy turns (some mode) = (outcome, w')) :
    Tells (t.answersFrom turns (some mode) w) (outcome = .returned true) w w' := by
  -- By induction on the turns: none but the last of them can be a success.
  induction turns generalizing w mode with
  | zero =>
    cases h
    exact ⟨by simp [answersFrom], by simp [answersFrom, lastToken?], rfl⟩
  | succ turns ih =>
    rcases turned : w.turn t.automaton t.config.policy mode with ⟨state | result, v⟩
    · simp only [World.proceed, turned] at h
      simp only [answersFrom, turned]
      have first := (answered_of_turn going turned).tells
      have still := (World.leads_turn going turned).2
      cases state with
      | none =>
        have ended : v.proceed t.automaton t.config.policy turns none = (.returned true, v) := by
          cases turns <;> rfl
        have answers : t.answersFrom turns none v = [] := by cases turns <;> rfl
        cases ended.symm.trans h
        rw [answers, List.append_nil]
        simpa [Turn.isSuccess] using first
      | some mode' => exact Tells.trans (by simpa [Turn.isSuccess] using first) (ih still h)
    · simp only [World.proceed, turned] at h
      simp only [answersFrom, turned]
      cases h
      rw [← Turn.isSuccess_over]
      exact (answered_of_turn going turned).tells

/-- A pass succeeds exactly if the last answer that the mapper gave in it was a token, and then that
is the latest token. In all other cases the latest token is what it was before the pass: when the
input ends, when the pass is refused, when the source fails, when an error is latched, and when
something is raised. -/
theorem pass_succeeds_iff_lastToken (t : Tokenizer μ τ) (turns : Nat) (w : Stage μ τ) :
    let w' := (w.pass t.automaton t.config turns).2
    let answers := t.answers turns w
    w'.shown = w.shown ++ answers.map Prod.fst ∧
      ((w.pass t.automaton t.config turns).1 = .returned true ↔
        (lastToken? answers).isSome = true) ∧
      w'.memory.token = (lastToken? answers).or w.memory.token := by
  cases failed : w.latch.isFailed with
  | true =>
    simp only [answers, failed, if_true, World.pass_of_failed failed]
    exact ⟨by simp, by simp [lastToken?], rfl⟩
  | false =>
    simp only [answers, failed, Bool.false_eq_true, if_false, World.pass_of_going failed]
    obtain ⟨shown, success, token⟩ := tells_of_proceed failed
      (rfl : w.proceed t.automaton t.config.policy turns (some .skipping) = _)
    exact ⟨shown, success, token⟩

end Tokenizer

end RuneMachine
