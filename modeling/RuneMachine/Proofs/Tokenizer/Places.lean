import RuneMachine.Proofs.Tokenizer.Positions
import RuneMachine.Proofs.Tokenizer.Sharing

namespace RuneMachine

theorem Fault.locate_of_new {f : Fault} (kind : f.kind = .tokenize) (offset : f.offset = none)
    (identity : f.identity = none) (n : Int) :
    (f.locate n []).1 = { f with offset := some n } := by
  simp [locate, offsetIn, kind, offset, identity]

namespace Scanner

open Tokenizer

variable {μ τ : Type}

theorem Position.place {s : Scanner μ τ} {taken rest : Text} {f : Fault}
    (position : s.Position taken rest) (error : s.error = some f) :
    ∃ before block g, taken = before ++ block ∧ s.tokenizer.Blames g s.shown block ∧
      f = (g.locate s.offset []).1 := by
  cases position with
  | going _ stands => cases (error_of_going stands.ready.faces.isFailed).symm.trans error
  | @failed before block g _ split blames latch =>
    cases (error_of_latched latch).symm.trans error
    exact ⟨before, block, g, split, blames, rfl⟩

/-- Where a scanner is and where its errors are. The runes that were delivered are a beginning of
the text and its sentinel, in order and each of them once. The offset is their number, except that
it stays at the end of the text when the sentinel was delivered; it is never negative and no scan
lowers it. If a tokenize error is latched, it comes from the newest code point of a block, which
could not be encoded or at which the mapper failed, and its offset is the number of code points up
to that one, or the length of the text if that is less. -/
theorem offset_and_place_exact {t : Tokenizer μ τ}
    (new : ∀ buffer user f, (t.mapper buffer user).1 = .failed f → f.kind = .tokenize →
      f.offset = none ∧ f.identity = none)
    {reader : Reader} {s : Text} (h : reader.Delivers s) (start : reader.offset = 0) (user : μ)
    (n : Nat) :
    let scanner := (Scanner.new t reader user).after
    let T := s ++ [t.options.sentinel]
    (scanner n).delivered <+: T.runes ∧
      (scanner n).offset = (min s.length (scanner n).delivered.length : Nat) ∧
      0 ≤ (scanner n).offset ∧ (scanner n).offset ≤ (scanner (n + 1)).offset ∧
      ∀ f, (scanner n).error = some f → f.kind = .tokenize →
        ∃ before block g, before ++ block <+: T ∧
          (scanner n).delivered = Text.runes (before ++ block) ∧
          t.Blames g (scanner n).shown block ∧
          f = { g with offset := some (min s.length (before ++ block).length : Nat) } := by
  intro scanner T
  have offset (i : Nat) :
      (scanner i).offset = (min s.length (scanner i).delivered.length : Nat) := by
    have counted := offset_after t h user i
    rwa [start, Int.zero_add] at counted
  obtain ⟨taken, rest, split, position⟩ := exists_position t h user n
  refine ⟨?_, offset n, by rw [offset n]; omega, ?_, ?_⟩
  · rw [position.delivered, show T = taken ++ rest from split, Text.runes_append]
    exact List.prefix_append _ _
  · obtain ⟨more, later, -, position'⟩ := position.scan
    have before : (scanner n).delivered = taken.runes := position.delivered
    have afterwards : (scanner (n + 1)).delivered = Text.runes (taken ++ more) :=
      position'.delivered
    rw [offset n, offset (n + 1), before, afterwards, Text.length_runes, Text.length_runes,
      List.length_append]
    omega
  · intro f error kind
    obtain ⟨before, block, g, rfl, blames, rfl⟩ := position.place error
    have place := offset n
    rw [tokenizer_after] at blames
    rw [position.delivered, Text.length_runes] at place
    rw [Fault.kind_locate] at kind
    obtain ⟨unplaced, unnamed⟩ : g.offset = none ∧ g.identity = none := by
      cases blames with
      | unencodable _ _ fault =>
        subst fault
        exact ⟨rfl, rfl⟩
      | rejected _ _ failed => exact new _ _ g failed kind
    refine ⟨before, block, g, ⟨rest, split.symm⟩, position.delivered, blames, ?_⟩
    rw [Fault.locate_of_new kind unplaced unnamed]
    exact congrArg (fun n => { g with offset := some n }) place

theorem offset_and_place_exact_touchyWords :
    let text : Text := [0x61, 0x20, 0x62, 0x21, 0x63]
    let scanner := (Scanner.new Bench.touchyWords (Reader.ofText text) 0).after
    (∀ buffer user f, (Bench.touchyWords.mapper buffer user).1 = .failed f → f.kind = .tokenize →
      f.offset = none ∧ f.identity = none) ∧
    (Reader.ofText text).Delivers text ∧ (Reader.ofText text).offset = 0 ∧
    (scanner 1).offset = 2 ∧ (scanner 1).offset ≤ (scanner 2).offset ∧
    ∃ f, (scanner 2).error = some f ∧ f.kind = .tokenize ∧ f.offset = some 4 ∧
      ∃ before block g, before ++ block <+: text ++ [0x20] ∧
        (scanner 2).delivered = Text.runes (before ++ block) ∧
        Bench.touchyWords.Blames g (scanner 2).shown block ∧
        f = { g with offset := some (min text.length (before ++ block).length : Nat) } := by
  intro text scanner
  have new : ∀ buffer user f, (Bench.touchyWords.mapper buffer user).1 = .failed f →
      f.kind = .tokenize → f.offset = none ∧ f.identity = none := by
    intro buffer user f failed _
    simp only [Bench.touchyWords] at failed
    split at failed <;> cases failed <;> exact ⟨rfl, rfl⟩
  have delivers := Reader.delivers_ofText text
  have start : (Reader.ofText text).offset = 0 := rfl
  obtain ⟨-, -, -, grows, -⟩ := offset_and_place_exact new delivers start 0 1
  obtain ⟨-, -, -, -, places⟩ := offset_and_place_exact new delivers start 0 2
  have error : (scanner 2).error = some { Fault.of .tokenize [] with offset := some 4 } := by
    decide +kernel
  exact ⟨new, delivers, start, by decide +kernel, grows, _, error, rfl, rfl, places _ error rfl⟩

end Scanner

end RuneMachine
