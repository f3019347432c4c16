import RuneMachine.Proofs.Tokenizer.Calls
import RuneMachine.Proofs.Tokenizer.Course

namespace RuneMachine

namespace Tokenizer

def Note.shown? : Note → Option Bytes
  | .mapped buffer => some buffer
  | _ => none

end Tokenizer

variable {μ τ : Type}

def World.shown (w : Tokenizer.Stage μ τ) : List Bytes :=
  w.notes.reverse.filterMap Tokenizer.Note.shown?

theorem World.shown_record (w : Tokenizer.Stage μ τ) (note : Tokenizer.Note) :
    (w.record (.note note)).shown = w.shown ++ note.shown?.toList := by
  cases unseen : note.shown? <;>
    simp [World.shown, World.notes, World.record, Event.note?, unseen]

namespace Tokenizer

open Follows (Ready)

variable {t : Tokenizer μ τ} {c d : CodePoint} {T : Text} {m m' : Memory μ τ}
  {shown : List Bytes} {w w' : Stage μ τ}

structure Stands (c : CodePoint) (T : Text) (m : Memory μ τ) (shown : List Bytes)
    (w : Stage μ τ) : Prop where
  ready : Ready c T w
  memory : w.memory = m
  shown : w.shown = shown

def Ending.Leaves (c : CodePoint) (T : Text) (m : Memory μ τ) (shown : List Bytes)
    (w : Stage μ τ) : Ending τ → Prop
  | .failed f => w.latch = .failed (f.locate w.offset []).1 ∧ w.shown = shown
  | .token _ | .raised _ => Stands c T m shown w

def Ending.result : Ending τ → Except Fault (Option Mode)
  | .token _ | .failed _ => .ok none
  | .raised f => .error f

def Ending.turn : Ending τ → Turn Mode
  | .token _ => .next none
  | .failed _ => .over (.returned false)
  | .raised f => .over (.raised f)

theorem Ending.Leaves.deliver {ending : Ending τ} {A : Automaton (Memory μ τ) Note Mode Empty}
    {mode : Mode} {u : Rune} (h : ending.Leaves c T m shown w')
    (performed : (w.record (.call mode u)).perform (A.step mode u w.memory) =
      (ending.result, w')) :
    w.deliver A mode u = (ending.turn, w') := by
  cases ending with
  | token token =>
    simp only [World.deliver, performed, result, h.ready.faces.isFailed, Bool.false_eq_true,
      if_false, turn]
  | failed f =>
    have failed : w'.latch.isFailed = true := by rw [h.1]; rfl
    simp only [World.deliver, performed, result, failed, if_true, turn]
  | raised f => simp only [World.deliver, performed, result, turn]

namespace Stands

theorem noted (h : Stands c T m shown w) (note : Note) :
    Stands c T m (shown ++ note.shown?.toList) (w.record (.note note)) :=
  ⟨h.ready.record note, h.memory, by rw [World.shown_record, h.shown]⟩

theorem unseen (h : Stands c T m shown w) {note : Note} (unseen : note.shown? = none) :
    Stands c T m shown (w.record (.note note)) := by
  have noted := h.noted note
  rwa [unseen, Option.toList_none, List.append_nil] at noted

theorem call (h : Stands c T m shown w) (mode : Mode) (u : Rune) :
    Stands c T m shown (w.record (.call mode u)) := ⟨h.ready.call mode u, h.memory, h.shown⟩

theorem withMemory (h : Stands c T m shown w) (m' : Memory μ τ) :
    Stands c T m' shown { w with memory := m' } := ⟨h.ready.withMemory m', rfl, h.shown⟩

theorem unread (h : Stands c T m shown w) (d : CodePoint) :
    Stands c (d :: T) m shown (w.unread [d]) := ⟨h.ready.unread d, h.memory, h.shown⟩

theorem turn (h : Stands c (d :: T) m shown w) (A : Automaton (Memory μ τ) Note Mode Empty)
    (mode : Mode) :
    ∃ w' : Stage μ τ, w.turn A (.substitute c) mode = w'.deliver A mode [d] ∧
      Stands c T m shown w' := by
  obtain ⟨w', turned, faces, memory, located, -, -, notes⟩ := h.ready.faces.turn_cons A mode
  refine ⟨w', turned, ⟨faces, located.trans h.ready.unplaced⟩, memory.trans h.memory, ?_⟩
  rw [World.shown, notes]
  exact h.shown

theorem turn_nil (h : Stands c [] m shown w) (A : Automaton (Memory μ τ) Note Mode Empty)
    (mode : Mode) :
    ∃ w' : Stage μ τ, w.turn A (.substitute c) mode = (.over (.returned false), w') ∧
      Stands c [] m shown w' := by
  obtain ⟨w', turned, faces, memory, located, -, -, notes⟩ := h.ready.faces.turn_nil A mode
  refine ⟨w', turned, ⟨faces, located.trans h.ready.unplaced⟩, memory.trans h.memory, ?_⟩
  rw [World.shown, notes]
  exact h.shown

theorem deliver_skip (h : Stands c T m shown w) (d : CodePoint) :
    match t.options.space.holds [d] m.user with
    | (.error f, user) => ∃ w' : Stage μ τ,
        w.deliver t.automaton .skipping [d] = (.over (.raised f), w') ∧
        Stands c T { m with user := user } shown w'
    | (.ok true, user) => ∃ w' : Stage μ τ,
        w.deliver t.automaton .skipping [d] = (.next (some .skipping), w') ∧
        Stands c T { m with user := user } shown w'
    | (.ok false, user) => ∃ w' : Stage μ τ,
        w.deliver t.automaton .skipping [d] = (.next (some .matching), w') ∧
        Stands c (d :: T) { m with buffer := [], user := user } shown w' := by
  have step : t.automaton.step .skipping [d] w.memory = t.skip [d] m := by
    rw [h.memory]
    rfl
  have noted (act : Act (Memory μ τ) Note (Option Mode)) :
      ∃ v : Stage μ τ, Stands c T m shown v ∧
        (w.record (.call .skipping [d])).perform
          (if t.options.space.isStandard then act else .note (fun _ => .asked [d]) act) =
          v.perform act := by
    cases t.options.space.isStandard with
    | true => exact ⟨_, h.call .skipping [d], rfl⟩
    | false => exact ⟨_, (h.call .skipping [d]).unseen rfl, rfl⟩
  simp only [World.deliver, step, skip]
  obtain ⟨v, stands, same⟩ := noted _
  rw [same]
  rcases held : t.options.space.holds [d] m.user with ⟨f | _ | _, user⟩
  · exact ⟨_, rfl, stands.withMemory _⟩
  · have later := (stands.unread d).withMemory { m with buffer := [], user := user }
    refine ⟨_, ?_, later⟩
    simp only [World.perform, later.ready.faces.isFailed, Bool.false_eq_true, if_false]
  · have later := stands.withMemory { m with user := user }
    refine ⟨_, ?_, later⟩
    simp only [World.perform, later.ready.faces.isFailed, Bool.false_eq_true, if_false]

theorem perform_setError (h : Stands c T m' shown w) {f : Fault}
    (application : f.kind.isApplication = true) (m : Memory μ τ) :
    ∃ w' : Stage μ τ,
      w.perform (.setError m (some f) (.done m none)) = (Ending.result (τ := τ) (.failed f), w') ∧
      (Ending.failed f).Leaves c T m shown w' := by
  rw [h.ready.perform_setError application]
  exact ⟨_, rfl, rfl, h.shown⟩

theorem perform_judge (h : Stands c T m' shown w) (m : Memory μ τ) :
    match t.present m with
    | (none, m') => ∃ w' : Stage μ τ, w.perform (t.judge m) = (.ok (some .matching), w') ∧
        Stands c T m' (shown ++ [m.buffer]) w'
    | (some ending, m') => ∃ w' : Stage μ τ, w.perform (t.judge m) = (ending.result, w') ∧
        ending.Leaves c T m' (shown ++ [m.buffer]) w' := by
  have mapped : Stands c T m' (shown ++ [m.buffer]) (w.record (.note (.mapped m.buffer))) :=
    h.noted (.mapped m.buffer)
  rcases answer : t.mapper m.buffer m.user with ⟨token | _ | f, user⟩
  · simp only [judge, present, answer, World.perform]
    exact ⟨_, rfl, mapped.withMemory _⟩
  · simp only [judge, present, answer, World.perform]
    exact ⟨_, rfl, mapped.withMemory _⟩
  · simp only [judge, present, answer, World.perform]
    cases application : f.kind.isApplication with
    | true => exact (mapped.unseen rfl).perform_setError application _
    | false => exact ⟨_, rfl, mapped.withMemory _⟩

theorem deliver_extend (h : Stands c T m shown w) (d : CodePoint) :
    match t.feed d m with
    | (buffers, none, m') => ∃ w' : Stage μ τ,
        w.deliver t.automaton .matching [d] = (.next (some .matching), w') ∧
        Stands c T m' (shown ++ buffers) w'
    | (buffers, some ending, m') => ∃ w' : Stage μ τ,
        w.deliver t.automaton .matching [d] = (ending.turn, w') ∧
        ending.Leaves c T m' (shown ++ buffers) w' := by
  have step : t.automaton.step .matching [d] w.memory = t.extend [d] m := by
    rw [h.memory]
    rfl
  have called := h.call .matching [d]
  cases written : t.write [d] with
  | raised f =>
    simp only [feed, written, List.append_nil]
    have left : (Ending.raised f).Leaves c T m shown _ := called.withMemory m
    refine ⟨_, left.deliver ?_, left⟩
    simp only [step, extend, written]
    rfl
  | refused =>
    simp only [feed, written, List.append_nil]
    obtain ⟨w', performed, left⟩ :=
      called.perform_setError (f := unencodable t.options.encoding [d]) rfl m
    refine ⟨w', left.deliver ?_, left⟩
    simp only [step, extend, written, performed]
  | bytes b =>
    have judged := called.perform_judge (t := t) { m with buffer := m.buffer ++ b }
    simp only [feed, written]
    split at judged
    · next m' presented =>
      obtain ⟨w', performed, stands⟩ := judged
      simp only [presented]
      refine ⟨w', ?_, stands⟩
      simp only [World.deliver, step, extend, written, performed, stands.ready.faces.isFailed,
        Bool.false_eq_true, if_false]
    · next ending m' presented =>
      obtain ⟨w', performed, left⟩ := judged
      simp only [presented]
      refine ⟨w', left.deliver ?_, left⟩
      simp only [step, extend, written, performed]

end Stands

namespace Course

variable {k : Course μ τ}

def Leaves (c : CodePoint) (shown : List Bytes) (w : Stage μ τ) (k : Course μ τ) : Prop :=
  match k.ending with
  | some ending => ending.Leaves c k.rest k.memory (shown ++ k.shown) w
  | none => Stands c k.rest k.memory (shown ++ k.shown) w

theorem Leaves.shown_eq (h : k.Leaves c shown w) : w.shown = shown ++ k.shown := by
  unfold Leaves at h
  split at h
  · next ending _ =>
    cases ending with
    | token token => exact Stands.shown h
    | failed f => exact h.2
    | raised f => exact Stands.shown h
  · exact h.shown

theorem Leaves.stands (h : k.Leaves c shown w) (unfailed : ∀ f, k.ending ≠ some (.failed f)) :
    Stands c k.rest k.memory (shown ++ k.shown) w := by
  unfold Leaves at h
  split at h
  · next ending ended =>
    cases ending with
    | token token => exact h
    | failed f => exact absurd ended (unfailed f)
    | raised f => exact h
  · exact h

theorem Leaves.latch_eq {f : Fault} (h : k.Leaves c shown w)
    (failed : k.ending = some (.failed f)) : w.latch = .failed (f.locate w.offset []).1 := by
  simp only [Leaves, failed, Ending.Leaves] at h
  exact h.1

end Course

theorem Course.proceed_of_turn {k : Course μ τ} {ending : Ending τ} (ends : k.ending = some ending)
    {A : Automaton (Memory μ τ) Note Mode Empty} {mode : Mode}
    (turned : w.turn A (.substitute c) mode = (ending.turn, w')) (turns : Nat) :
    w.proceed A (.substitute c) (turns + 1) (some mode) = (k.outcome, w') := by
  cases ending <;> cases turns <;>
    simp only [World.proceed, turned, Ending.turn, outcome, ends]

theorem Stands.proceed_nil (h : Stands c [] m shown w)
    (A : Automaton (Memory μ τ) Note Mode Empty) {turns : Nat} (enough : 0 < turns) (mode : Mode) :
    ∃ w' : Stage μ τ,
      w.proceed A (.substitute c) turns (some mode) = (.returned false, w') ∧
      Stands c [] m shown w' := by
  obtain ⟨turns, rfl⟩ := Nat.exists_eq_add_one.mpr enough
  obtain ⟨w', turned, stands⟩ := h.turn_nil A mode
  refine ⟨w', ?_, stands⟩
  simp only [World.proceed, turned]

theorem Stands.proceed_match (h : Stands c T m shown w) {turns : Nat} (enough : T.length < turns) :
    ∃ w' : Stage μ τ,
      w.proceed t.automaton (.substitute c) turns (some .matching) =
        ((t.courseInside T m).outcome, w') ∧
      (t.courseInside T m).Leaves c shown w' := by
  -- By induction on the text ahead, as the course itself: one code point is one turn.
  induction T generalizing w m shown turns with
  | nil =>
    obtain ⟨w', proceeded, stands⟩ := h.proceed_nil t.automaton enough .matching
    rw [← List.append_nil shown] at stands
    exact ⟨w', proceeded, stands⟩
  | cons d T ih =>
    obtain ⟨turns, rfl⟩ := Nat.exists_eq_add_one.mpr (Nat.zero_lt_of_lt enough)
    obtain ⟨w₁, turned, h₁⟩ := h.turn t.automaton .matching
    have delivered := h₁.deliver_extend (t := t) d
    split at delivered
    · next buffers m' fed =>
      obtain ⟨w₂, delivered, h₂⟩ := delivered
      obtain ⟨w', proceeded, left⟩ := ih h₂ (Nat.lt_of_succ_lt_succ enough)
      rw [courseInside_of_more fed]
      refine ⟨w', ?_, ?_⟩
      · simp only [World.proceed, turned, delivered, proceeded]
        rfl
      · simpa only [Course.Leaves, List.append_assoc] using left
    · next buffers ending m' fed =>
      obtain ⟨w', delivered, left⟩ := delivered
      rw [courseInside_of_ending fed]
      exact ⟨w', Course.proceed_of_turn rfl (turned.trans delivered) turns, left⟩

theorem Stands.proceed_skip (h : Stands c T m shown w) {turns : Nat}
    (enough : T.length + 1 < turns) :
    ∃ w' : Stage μ τ,
      w.proceed t.automaton (.substitute c) turns (some .skipping) =
        ((t.course T m).outcome, w') ∧
      (t.course T m).Leaves c shown w' := by
  induction T generalizing w m shown turns with
  | nil =>
    obtain ⟨w', proceeded, stands⟩ :=
      h.proceed_nil t.automaton (Nat.zero_lt_of_lt enough) .skipping
    rw [← List.append_nil shown] at stands
    exact ⟨w', proceeded, stands⟩
  | cons d T ih =>
    obtain ⟨turns, rfl⟩ := Nat.exists_eq_add_one.mpr (Nat.zero_lt_of_lt enough)
    have fewer := Nat.lt_of_succ_lt_succ enough
    obtain ⟨w₁, turned, h₁⟩ := h.turn t.automaton .skipping
    have delivered := h₁.deliver_skip (t := t) d
    split at delivered
    · next f user held =>
      obtain ⟨w', delivered, stands⟩ := delivered
      rw [course_of_raised held]
      rw [← List.append_nil shown] at stands
      refine ⟨w', ?_, stands⟩
      simp only [World.proceed, turned, delivered, Course.outcome]
    · next user held =>
      obtain ⟨w₂, delivered, h₂⟩ := delivered
      obtain ⟨w', proceeded, left⟩ := ih h₂ fewer
      rw [course_of_space held]
      refine ⟨w', ?_, left⟩
      simp only [World.proceed, turned, delivered, proceeded]
      rfl
    · next user held =>
      -- The code point was taken back, so the next turn delivers it again.
      obtain ⟨w₂, delivered, h₂⟩ := delivered
      obtain ⟨w', proceeded, left⟩ := h₂.proceed_match (t := t) fewer
      rw [course_of_other held]
      refine ⟨w', ?_, left⟩
      simp only [World.proceed, turned, delivered, proceeded]

end Tokenizer

namespace Scanner

open Tokenizer

variable {s : Scanner μ τ} {T : Text} {m : Memory μ τ} {before : List Bytes}

def shown (s : Scanner μ τ) : List Bytes := s.world.shown

theorem scan_course (h : Stands s.tokenizer.options.sentinel T m before s.world) :
    ∃ s', s.scan = ((s.tokenizer.course T m).outcome, s') ∧ s'.tokenizer = s.tokenizer ∧
      (s.tokenizer.course T m).Leaves s.tokenizer.options.sentinel before s'.world := by
  have enough : T.length + 1 < s.turnBound := by
    have bounded := h.ready.length_le
    simp only [turnBound]
    omega
  obtain ⟨w, proceeded, left⟩ := h.proceed_skip (t := s.tokenizer) enough
  refine ⟨{ s with world := w }, ?_, rfl, left⟩
  simp only [scan, World.pass, h.ready.faces.isFailed, Bool.false_eq_true, if_false,
    Tokenizer.config, proceeded]

theorem stands_new (t : Tokenizer μ τ) {reader : Reader} {s : Text} (h : reader.Delivers s)
    (user : μ) :
    Stands t.options.sentinel (s ++ [t.options.sentinel]) (.new user) []
      (new t reader user).world := ⟨ready_new t h user, rfl, rfl⟩

theorem draw_course (h : Stands s.tokenizer.options.sentinel T m before s.world) :
    ∃ s', s.draw = ((s.tokenizer.course T m).draw s'.offset, s') ∧ s'.tokenizer = s.tokenizer ∧
      (s.tokenizer.course T m).Leaves s.tokenizer.options.sentinel before s'.world := by
  obtain ⟨s', scanned, same, left⟩ := scan_course h
  refine ⟨s', ?_, same, left⟩
  have found := (lawful_course s.tokenizer T m).found
  rw [draw, scanned]
  generalize s.tokenizer.course T m = k at left found
  rcases ended : k.ending with _ | token | f | f
  · simp only [Course.Leaves, ended] at left
    have clean := error_of_going left.ready.faces.isFailed
    simp only [Course.outcome, Course.draw, Course.token?, Course.fault?, ended, clean, Draw.ofPass,
      Option.bind_none]
  · simp only [Course.Leaves, ended, Ending.Leaves] at left
    have latest : s'.token = some token := by
      rw [Scanner.token, left.memory]
      exact (found token ended).2.1
    simp only [Course.outcome, Course.draw, Course.token?, ended, latest, Draw.ofPass]
  · have error : s'.error = some (f.locate s'.offset []).1 := error_of_latched (left.latch_eq ended)
    simp only [Course.outcome, Course.draw, Course.token?, Course.fault?, ended, error, Draw.ofPass,
      Option.bind_some, Ending.fault?]
  · simp only [Course.outcome, Course.draw, Course.token?, Course.fault?, ended, Draw.ofPass,
      Option.bind_some, Ending.fault?]

theorem collect_courses {t : Tokenizer μ τ} (same : s.tokenizer = t)
    (h : Stands t.options.sentinel T m before s.world) {draws : Nat} (enough : T.length < draws) :
    ∃ s', s.collect draws =
        ((t.courses T m).1.filterMap Course.token?, (t.courses T m).2.fault? s'.offset, s') ∧
      s'.shown = before ++ (t.courses T m).1.flatMap Course.shown ++ (t.courses T m).2.shown := by
  induction draws generalizing s T m before with
  | zero => omega
  | succ draws ih =>
    subst same
    obtain ⟨s', drawn, same, left⟩ := draw_course h
    cases token : (s.tokenizer.course T m).token? with
    | none =>
      rw [courses_of_other fun found ended => by simp [Course.token?, ended] at token]
      have shown : s'.shown = _ := left.shown_eq
      refine ⟨s', ?_, by simpa using shown⟩
      cases fault : (s.tokenizer.course T m).fault? s'.offset <;>
        simp only [collect, drawn, Course.draw, token, fault, List.filterMap_nil]
    | some found =>
      have ended := Course.ending_of_token? token
      simp only [Course.Leaves, ended, Ending.Leaves] at left
      have shorter := length_rest_course ended
      obtain ⟨s'', collected, shown⟩ := ih same left (by omega)
      rw [courses_of_token ended]
      refine ⟨s'', ?_, by simpa using shown⟩
      simp only [collect, drawn, Course.draw, token, collected, List.filterMap_cons]

theorem tokens_courses (t : Tokenizer μ τ) {reader : Reader} {s : Text} (h : reader.Delivers s)
    (user : μ) {found : List (Course μ τ)} {last : Course μ τ}
    (taken : t.courses (s ++ [t.options.sentinel]) (.new user) = (found, last)) :
    ∃ after,
      (new t reader user).tokens =
        (found.filterMap Course.token?, last.fault? after.offset, after) ∧
      after.shown = found.flatMap Course.shown ++ last.shown := by
  have stands := stands_new t h user
  have bounded := stands.ready.length_le
  have same : (new t reader user).tokenizer = t := rfl
  obtain ⟨after, collected, shown⟩ := collect_courses same stands (Nat.lt_succ_of_le bounded)
  rw [taken] at collected shown
  exact ⟨after, collected, by simpa using shown⟩

end Scanner

end RuneMachine
