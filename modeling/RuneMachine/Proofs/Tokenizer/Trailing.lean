import RuneMachine.Proofs.Machine.Sentinel
import RuneMachine.Proofs.Tokenizer.Refinement

namespace RuneMachine

theorem Fault.Twins.outOfIteration {f g : Fault} (h : f.Twins g) :
    f.outOfIteration.Twins g.outOfIteration := by
  cases h with
  | same => exact .same _
  | @placed f m n kind unplaced =>
    simpa [Fault.outOfIteration, kind] using Twins.placed m n kind unplaced

namespace Tokenizer

variable {μ τ : Type} {t : Tokenizer μ τ} {T done start : Text} {m m' : Memory μ τ}

/-- The mapper never asks for more when the buffer ends with the sentinel and holds something
before it. -/
def Concludes (t : Tokenizer μ τ) : Prop :=
  ∀ start buffer user, start ≠ [] →
    t.encodeEach? (start ++ [t.options.sentinel]) = some buffer →
    (t.mapper buffer user).1 ≠ .more

def Course.followedBy (k : Course μ τ) (text : Text) : Course μ τ :=
  { k with rest := k.rest ++ text }

theorem more_of_present (h : t.present m = (none, m')) :
    (t.mapper m.buffer m.user).1 = .more := by
  unfold present at h
  split at h
  · cases h
  · next mapped => rw [mapped]
  · cases h

theorem courseInside_concat (concludes : t.Concludes) (spells : m.Spells t done)
    (begun : done ++ start ≠ []) (more : Text) :
    ∃ ending, (t.courseInside (start ++ [t.options.sentinel]) m).ending = some ending ∧
      t.courseInside (start ++ [t.options.sentinel] ++ more) m =
        (t.courseInside (start ++ [t.options.sentinel]) m).followedBy more := by
  induction start generalizing done m with
  | nil =>
    rw [List.append_nil] at begun
    rcases fed : t.feed t.options.sentinel m with ⟨shown, _ | ending, m'⟩
    · cases feeds_of_feed fed with
      | shown written grown presented =>
        have whole := spells.concat written grown
        exact absurd (more_of_present presented) (concludes done m'.buffer _ begun whole)
    · refine ⟨ending, ?_, ?_⟩ <;> simp only [List.nil_append, List.singleton_append]
      · rw [courseInside_of_ending fed]
      · rw [courseInside_of_ending fed, courseInside_of_ending fed]
        rfl
  | cons d start ih =>
    rcases fed : t.feed d m with ⟨shown, _ | ending, m'⟩
    · cases feeds_of_feed fed with
      | shown written grown presented =>
        obtain ⟨ending, ended, same⟩ := ih (spells.concat written grown) (by simp)
        refine ⟨ending, ?_, ?_⟩ <;> simp only [List.cons_append]
        · rw [courseInside_of_more fed]
          exact ended
        · rw [courseInside_of_more fed, courseInside_of_more fed, same]
          rfl
    · refine ⟨ending, ?_, ?_⟩ <;> simp only [List.cons_append]
      · rw [courseInside_of_ending fed]
      · rw [courseInside_of_ending fed, courseInside_of_ending fed]
        rfl

variable {s : Text}

theorem course_concat
    (space : ∀ user, (t.options.space.holds [t.options.sentinel] user).1 = .ok true)
    (concludes : t.Concludes) (within : T <:+ s ++ [t.options.sentinel]) (m : Memory μ τ) :
    (t.course T m).ending = none ∧ (t.course (T ++ [t.options.sentinel]) m).ending = none ∨
      t.course (T ++ [t.options.sentinel]) m =
        (t.course T m).followedBy [t.options.sentinel] := by
  induction T generalizing m with
  | nil =>
    have accepted := space m.user
    rcases held : t.options.space.holds [t.options.sentinel] m.user with ⟨result, user⟩
    rw [held] at accepted
    subst accepted
    rw [List.nil_append, course_of_space held]
    exact .inl ⟨rfl, rfl⟩
  | cons d T ih =>
    rcases held : t.options.space.holds [d] m.user with ⟨f | _ | _, user⟩
    · rw [List.cons_append, course_of_raised held, course_of_raised held]
      exact .inr rfl
    · rw [List.cons_append, course_of_other held, course_of_other held, ← List.cons_append]
      obtain none | ⟨start, whole, -⟩ := List.suffix_concat_iff.mp within
      · cases none
      · -- The sentinel is space, so it is not the code point that was rejected.
        have begun : start ≠ [] := by
          rintro rfl
          obtain ⟨rfl, -⟩ := List.cons.inj whole
          have accepted := space m.user
          rw [held] at accepted
          cases accepted
        rw [whole]
        obtain ⟨-, -, same⟩ := courseInside_concat concludes .nil begun [t.options.sentinel]
        exact .inr same
    · rw [List.cons_append, course_of_space held, course_of_space held]
      have fewer := (List.suffix_cons d T).trans within
      obtain ⟨none, none'⟩ | same := ih fewer { m with user := user }
      · exact .inl ⟨none, none'⟩
      · rw [same]
        exact .inr rfl

theorem courses_concat
    (space : ∀ user, (t.options.space.holds [t.options.sentinel] user).1 = .ok true)
    (concludes : t.Concludes) (within : T <:+ s ++ [t.options.sentinel]) (m : Memory μ τ) :
    (t.courses (T ++ [t.options.sentinel]) m).1.filterMap Course.token? =
        (t.courses T m).1.filterMap Course.token? ∧
      (t.courses (T ++ [t.options.sentinel]) m).2.ending = (t.courses T m).2.ending := by
  induction T, m using courses.induct t with
  | case1 T m token ended _ _ _ ih =>
    obtain ⟨none, -⟩ | same := course_concat space concludes within m
    · cases ended.symm.trans none
    · have later : (t.course T m).rest <:+ T := ⟨_, (lawful_course t T m).text⟩
      obtain ⟨tokens, ending⟩ := ih (later.trans within)
      have ended' : (t.course (T ++ [t.options.sentinel]) m).ending = some (.token token) := by
        rw [same]
        exact ended
      rw [courses_of_token ended, courses_of_token ended', same]
      refine ⟨?_, ending⟩
      have first : (t.course T m).token? = some token := by simp only [Course.token?, ended]
      have first' : ((t.course T m).followedBy [t.options.sentinel]).token? = some token := first
      rw [List.filterMap_cons_some first, List.filterMap_cons_some first']
      exact congrArg (token :: ·) tokens
  | case2 T m other =>
    have alike : (t.course (T ++ [t.options.sentinel]) m).ending = (t.course T m).ending := by
      obtain ⟨none, none'⟩ | same := course_concat space concludes within m
      · rw [none, none']
      · rw [same]
        rfl
    rw [courses_of_other other, courses_of_other (by rw [alike]; exact other)]
    exact ⟨rfl, alike⟩

theorem Course.fault?_twins {k k' : Course μ τ} (alike : k.ending = k'.ending) (n n' : Int) :
    Option.Rel Fault.Twins (k.fault? n) (k'.fault? n') := by
  unfold fault?
  rw [alike]
  rcases k'.ending with _ | token | f | f
  · exact .none
  · exact .none
  · exact .some (f.twins_locate n n' [] []).outOfIteration
  · exact .some (.same _)

end Tokenizer

namespace Scanner

open Tokenizer

variable {μ τ : Type}

/-- If the sentinel is space, and the mapper always decides on a buffer that ends with the sentinel
and holds something before it, then iterating over a text and over the text followed by the sentinel
gives the same tokens and ends in the same way: both finish, or both raise the same error, except
for the offset that it is given. -/
theorem tokens_concat_sentinel {t : Tokenizer μ τ}
    (space : ∀ user, (t.options.space.holds [t.options.sentinel] user).1 = .ok true)
    (concludes : t.Concludes) {reader reader' : Reader} {s : Text} (short : reader.Delivers s)
    (long : reader'.Delivers (s ++ [t.options.sentinel])) (user : μ) :
    ∃ tokens fault fault' after after',
      (new t reader user).tokens = (tokens, fault, after) ∧
      (new t reader' user).tokens = (tokens, fault', after') ∧
      Option.Rel Fault.Twins fault fault' := by
  obtain ⟨same, alike⟩ := courses_concat space concludes List.suffix_rfl (.new user) (s := s)
  obtain ⟨after, tokens, -⟩ := tokens_courses t short user rfl
  obtain ⟨after', tokens', -⟩ := tokens_courses t long user rfl
  rw [same] at tokens'
  exact ⟨_, _, _, after, after', tokens, tokens', Course.fault?_twins alike.symm _ _⟩

def shortLines : Tokenizer Unit Bytes where
  mapper b _ :=
    (if b.getLast? = some 0x0a then
      if b.length ≤ 2 then .token b.dropLast
      else .failed (Fault.of .tokenize (Text.ofString "line too long"))
    else .more, ())
  options := .default

theorem shortLines_concludes : shortLines.Concludes := by
  intro start buffer user _ encoded
  have newest : shortLines.write [shortLines.options.sentinel] = .bytes [0x0a] := by decide
  rw [encodeEach?_concat, newest] at encoded
  obtain ⟨before, -, whole⟩ := Option.bind_eq_some_iff.mp encoded
  cases whole
  simp only [shortLines, List.getLast?_append, List.getLast?_singleton, Option.some_or, if_true]
  split <;> simp

theorem tokens_concat_sentinel_shortLines :
    let text : Text := [0x61, 0x0a, 0x62, 0x63, 0x64]
    (∀ user, (shortLines.options.space.holds [shortLines.options.sentinel] user).1 = .ok true) ∧
    shortLines.Concludes ∧ (Reader.ofText text).Delivers text ∧
    (Reader.ofText (text ++ [0x0a])).Delivers (text ++ [0x0a]) ∧
    ∃ tokens fault fault' after after',
      (new shortLines (Reader.ofText text) ()).tokens = (tokens, fault, after) ∧
      (new shortLines (Reader.ofText (text ++ [0x0a])) ()).tokens = (tokens, fault', after') ∧
      Option.Rel Fault.Twins fault fault' ∧ tokens = [[0x61]] ∧
      fault.bind (·.offset) = some 5 ∧ fault'.bind (·.offset) = some 6 := by
  intro text
  have space (user : Unit) :
      (shortLines.options.space.holds [shortLines.options.sentinel] user).1 = .ok true := rfl
  have short := Reader.delivers_ofText text
  have long := Reader.delivers_ofText (text ++ [0x0a])
  obtain ⟨tokens, fault, fault', after, after', first, second, twins⟩ :=
    tokens_concat_sentinel space shortLines_concludes short long ()
  have found : (new shortLines (Reader.ofText text) ()).tokens.1 = [[0x61]] := by decide
  have failed : (new shortLines (Reader.ofText text) ()).tokens.2.1.bind (·.offset) = some 5 := by
    decide
  have failed' :
      (new shortLines (Reader.ofText (text ++ [0x0a])) ()).tokens.2.1.bind (·.offset) = some 6 := by
    decide
  rw [first] at found failed
  rw [second] at failed'
  exact ⟨space, shortLines_concludes, short, long, tokens, fault, fault', after, after', first,
    second, twins, found, failed, failed'⟩

end Scanner

end RuneMachine
