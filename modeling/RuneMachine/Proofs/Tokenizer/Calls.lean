import RuneMachine.Proofs.Machine.Exits
import RuneMachine.Scanner

namespace RuneMachine

theorem Fault.isClean_of_isApplication {f : Fault} (h : f.kind.isApplication = true) :
    f.isClean = false := by
  have other : f.kind ≠ .endOfInput := by
    intro kind
    rw [kind] at h
    cases h
  simpa [isClean, Kind.isClean] using other

namespace Tokenizer

variable {μ τ : Type} {t : Tokenizer μ τ} {u : Rune} {m : Memory μ τ}

abbrev Stage (μ τ : Type) := World (Memory μ τ) Note Mode Empty

inductive Skips (t : Tokenizer μ τ) (u : Rune) (m : Memory μ τ) (w w' : Stage μ τ) :
    Except Fault (Option Mode) → Prop
  | raised {f} : (t.options.space.holds u m.user).1 = .error f → w'.reader = w.reader →
      Skips t u m w w' (.error f)
  | skipped : (t.options.space.holds u m.user).1 = .ok true → w'.reader = w.reader →
      Skips t u m w w' (.ok (some .skipping))
  | opened : (t.options.space.holds u m.user).1 = .ok false → w'.reader = w.reader.unread u →
      Skips t u m w w' (.ok (some .matching))

theorem skips_of_perform {w w' : Stage μ τ} {result : Except Fault (Option Mode)}
    (h : w.perform (t.skip u m) = (result, w')) : t.Skips u m w w' result ∧ w'.latch = w.latch := by
  have noted (act : Act (Memory μ τ) Note (Option Mode)) :
      ∃ v : Stage μ τ, v.reader = w.reader ∧ v.latch = w.latch ∧
        w.perform (if t.options.space.isStandard then act else .note (fun _ => .asked u) act) =
          v.perform act := by
    split
    · exact ⟨w, rfl, rfl, rfl⟩
    · exact ⟨w.record (.note (.asked u)), rfl, rfl, rfl⟩
  rw [skip] at h
  obtain ⟨v, reader, latch, same⟩ := noted _
  rw [same] at h
  rcases held : t.options.space.holds u m.user with ⟨f | space, user⟩
  · rw [held] at h
    cases h
    exact ⟨.raised (by rw [held]) reader, latch⟩
  · rw [held] at h
    cases space with
    | true =>
      cases h
      exact ⟨.skipped (by rw [held]) reader, latch⟩
    | false =>
      cases h
      exact ⟨.opened (by rw [held]) (congrArg (·.unread u) reader), latch⟩

inductive Extends (t : Tokenizer μ τ) (m : Memory μ τ) (w w' : Stage μ τ) :
    Except Fault (Option Mode) → Prop
  | unwritten {u f} : t.write u = .raised f → w'.latch = w.latch → Extends t m w w' (.error f)
  | latched {f} : f.isClean = false → w'.latch = .failed f → Extends t m w w' (.ok none)
  | token {buffer token} : (t.mapper buffer m.user).1 = .token token →
      w'.memory.token = some token → w'.journal = .note (.mapped buffer) :: w.journal →
      w'.latch = w.latch → Extends t m w w' (.ok none)
  | more : w'.latch = w.latch → Extends t m w w' (.ok (some .matching))
  | raised {buffer f} : (t.mapper buffer m.user).1 = .failed f → f.kind.isApplication = false →
      w'.latch = w.latch → Extends t m w w' (.error f)

theorem perform_setError {α : Type} {f : Fault} (application : f.kind.isApplication = true)
    (m : Memory μ τ) (next : Act (Memory μ τ) Note α) (w : Stage μ τ) :
    ∃ v : Stage μ τ, w.perform (.setError m (some f) next) = v.perform next ∧
      v.reader = w.reader ∧ ∃ g, g.isClean = false ∧ v.latch = .failed g := by
  have dirty := Fault.isClean_of_isApplication application
  refine ⟨(w.setError (some f)).2, ?_, ?_, _, ?_, World.latch_setError dirty w⟩
  · simp only [Act.setError, World.perform, World.setError_of_dirty dirty]
  · rw [World.setError_of_dirty dirty]
    rfl
  · rw [f.isClean_locate, dirty]

theorem extends_of_perform {w w' : Stage μ τ} {result : Except Fault (Option Mode)}
    (h : w.perform (t.extend u m) = (result, w')) :
    t.Extends m w w' result ∧ w'.reader = w.reader := by
  cases written : t.write u with
  | raised f =>
    simp only [extend, written] at h
    cases h
    exact ⟨.unwritten written rfl, rfl⟩
  | refused =>
    simp only [extend, written] at h
    obtain ⟨v, same, reader, g, dirty, latch⟩ :=
      perform_setError (f := unencodable t.options.encoding u) rfl m (.done m none) w
    rw [same] at h
    cases h
    exact ⟨.latched dirty latch, reader⟩
  | bytes b =>
    rcases mapped : t.mapper (m.buffer ++ b) m.user with ⟨verdict, user⟩
    simp only [extend, written, judge, mapped, World.perform] at h
    cases verdict with
    | token token =>
      cases h
      exact ⟨.token (by rw [mapped]) rfl rfl rfl, rfl⟩
    | more =>
      cases h
      exact ⟨.more rfl, rfl⟩
    | failed f =>
      dsimp only at h
      split at h
      · next application =>
        rw [World.perform] at h
        obtain ⟨v, same, reader, g, dirty, latch⟩ := perform_setError application _ _ _
        rw [same] at h
        cases h
        exact ⟨.latched dirty latch, reader⟩
      · next foreign =>
        cases h
        exact ⟨.raised (by rw [mapped]) (by simpa using foreign) rfl, rfl⟩

inductive Escapes (t : Tokenizer μ τ) : Fault → Prop
  | space {u user f} : (t.options.space.holds u user).1 = .error f → Escapes t f
  | encoding {u f} : t.write u = .raised f → Escapes t f
  | mapper {buffer user f} : (t.mapper buffer user).1 = .failed f → f.kind.isApplication = false →
      Escapes t f

inductive Moves (t : Tokenizer μ τ) (u : Rune) (w w' : Stage μ τ) : Mode → Turn Mode → Prop
  | skipped : w'.reader = w.reader → w'.latch = w.latch →
      Moves t u w w' .skipping (.next (some .skipping))
  | opened : w'.reader = w.reader.unread u → w'.latch = w.latch →
      Moves t u w w' .skipping (.next (some .matching))
  | extended : w'.reader = w.reader → w'.latch = w.latch →
      Moves t u w w' .matching (.next (some .matching))
  | found : w'.reader = w.reader → w'.latch = w.latch → Moves t u w w' .matching (.next none)
  | failed : w'.reader = w.reader → w'.latch.isFailed = true →
      Moves t u w w' .matching (.over (.returned false))
  | raised {mode f} : t.Escapes f → w'.reader = w.reader → w'.latch = w.latch →
      Moves t u w w' mode (.over (.raised f))

theorem moves_of_deliver {mode : Mode} {turn : Turn Mode} {w w' : Stage μ τ}
    (going : w.latch.isFailed = false) (h : w.deliver t.automaton mode u = (turn, w')) :
    Moves t u w w' mode turn := by
  rcases performed : (w.record (.call mode u)).perform (t.automaton.step mode u w.memory) with
    ⟨result, v⟩
  have goes {next : Option Mode} (ok : result = .ok next) (latch : v.latch = w.latch) :
      (turn, w') = (.next next, v) := by
    subst ok
    have still : v.latch.isFailed = false := (congrArg Latch.isFailed latch).trans going
    exact h.symm.trans (World.deliver_of_going performed still)
  have raises {f : Fault} (error : result = .error f) : (turn, w') = (.over (.raised f), v) := by
    rw [← h, World.deliver, performed, error]
  cases mode with
  | skipping =>
    obtain ⟨skips, latch⟩ := skips_of_perform performed
    cases skips with
    | raised held reader =>
      cases raises rfl
      exact .raised (.space held) reader latch
    | skipped _ reader =>
      cases goes rfl latch
      exact .skipped reader latch
    | opened _ reader =>
      cases goes rfl latch
      exact .opened reader latch
  | matching =>
    obtain ⟨extended, reader⟩ := extends_of_perform performed
    cases extended with
    | unwritten written latch =>
      cases raises rfl
      exact .raised (.encoding written) reader latch
    | raised mapped foreign latch =>
      cases raises rfl
      exact .raised (.mapper mapped foreign) reader latch
    | latched _ latch =>
      have failed : v.latch.isFailed = true := by rw [latch]; rfl
      simp only [World.deliver, performed, failed, if_true] at h
      cases h
      exact .failed reader failed
    | token _ _ _ latch =>
      cases goes rfl latch
      exact .found reader latch
    | more latch =>
      cases goes rfl latch
      exact .extended reader latch

theorem token_of_pass {w w' : Stage μ τ} {turns : Nat}
    (h : w.pass t.automaton t.config turns = (.returned true, w')) :
    ∃ buffer user token earlier, w'.journal = .note (.mapped buffer) :: earlier ∧
      (t.mapper buffer user).1 = .token token ∧ w'.memory.token = some token := by
  obtain ⟨unfailed, ⟨unstarted, -⟩ | ⟨mode, u, v, -, performed⟩⟩ := World.called_of_pass h
  · cases unstarted
  · cases mode with
    | skipping =>
      obtain ⟨skips, -⟩ := skips_of_perform performed
      cases skips
    | matching =>
      obtain ⟨extended, -⟩ := extends_of_perform performed
      cases extended with
      | latched _ latch =>
        rw [latch] at unfailed
        cases unfailed
      | token verdict token journal _ => exact ⟨_, _, _, _, journal, verdict, token⟩

end Tokenizer

theorem Scanner.scan_of_failed {μ τ : Type} {s : Scanner μ τ}
    (failed : s.world.latch.isFailed = true) : s.scan = (.returned false, s) := by
  simp only [scan, World.pass_of_failed failed]

end RuneMachine
