import RuneMachine.Proofs.Tokenizer.Positions
import RuneMachine.Proofs.Tokenizer.Sharing

namespace RuneMachine

namespace Tokenizer

variable {μ τ : Type} {t : Tokenizer μ τ} {d : CodePoint} {T : Text} {m m' : Memory μ τ}

structure Course.Agree (k k' : Course μ τ) : Prop where
  gap : k.gap = k'.gap
  block : k.block = k'.block
  rest : k.rest = k'.rest
  ending : k.ending = k'.ending

theorem Course.ending_of_outcome {k : Course μ τ} (success : k.outcome = .returned true) :
    ∃ token, k.ending = some (.token token) := by
  unfold outcome at success
  split at success
  · next token ended => exact ⟨token, ended⟩
  all_goals cases success

namespace Pure

theorem present (pure : t.Pure) (buffer : m.buffer = m'.buffer) :
    (t.present m).1 = (t.present m').1 := by
  have verdict := pure.mapper m.buffer m.user m'.user
  rcases mapped : t.mapper m.buffer m.user with ⟨answer, user⟩
  rcases mapped' : t.mapper m.buffer m'.user with ⟨answer', user'⟩
  rw [mapped, mapped'] at verdict
  obtain rfl : answer = answer' := verdict
  simp only [Tokenizer.present, ← buffer, mapped, mapped']
  cases answer <;> rfl

theorem feed (pure : t.Pure) (d : CodePoint) (buffer : m.buffer = m'.buffer) :
    (t.feed d m).2.1 = (t.feed d m').2.1 ∧
      (t.feed d m).2.2.buffer = (t.feed d m').2.2.buffer := by
  unfold Tokenizer.feed
  split
  · simp only [buffer_present, buffer, and_true]
    exact pure.present rfl
  · exact ⟨rfl, buffer⟩
  · exact ⟨rfl, buffer⟩

theorem courseInside (pure : t.Pure) (T : Text) (buffer : m.buffer = m'.buffer) :
    (t.courseInside T m).Agree (t.courseInside T m') := by
  induction T generalizing m m' with
  | nil => exact ⟨rfl, rfl, rfl, rfl⟩
  | cons d T ih =>
    obtain ⟨same, grown⟩ := pure.feed d buffer
    rcases fed : t.feed d m with ⟨shown, ending, m₁⟩
    rcases fed' : t.feed d m' with ⟨shown', ending', m₁'⟩
    rw [fed, fed'] at same grown
    obtain rfl : ending = ending' := same
    cases ending with
    | none =>
      obtain ⟨gap, block, rest, ending⟩ := ih grown
      rw [courseInside_of_more fed, courseInside_of_more fed']
      exact ⟨gap, congrArg (d :: ·) block, rest, ending⟩
    | some ending =>
      rw [courseInside_of_ending fed, courseInside_of_ending fed']
      exact ⟨rfl, rfl, rfl, rfl⟩

theorem course (pure : t.Pure) (T : Text) (m m' : Memory μ τ) :
    (t.course T m).Agree (t.course T m') := by
  induction T generalizing m m' with
  | nil => exact ⟨rfl, rfl, rfl, rfl⟩
  | cons d T ih =>
    have answer := pure.space [d] m.user m'.user
    rcases held : t.options.space.holds [d] m.user with ⟨result, user⟩
    rcases held' : t.options.space.holds [d] m'.user with ⟨result', user'⟩
    rw [held, held'] at answer
    obtain rfl : result = result' := answer
    rcases result with f | _ | _
    · rw [course_of_raised held, course_of_raised held']
      exact ⟨rfl, rfl, rfl, rfl⟩
    · rw [course_of_other held, course_of_other held']
      exact pure.courseInside (d :: T) rfl
    · obtain ⟨gap, block, rest, ending⟩ := ih { m with user := user } { m' with user := user' }
      rw [course_of_space held, course_of_space held']
      exact ⟨congrArg (d :: ·) gap, block, rest, ending⟩

end Pure

end Tokenizer

namespace Scanner

open Tokenizer

variable {μ τ : Type} {t : Tokenizer μ τ} {s s' : Scanner μ τ}

inductive Alongside (t : Tokenizer μ τ) (s s' : Scanner μ τ) : Prop
  | going {rest : Text} {m m' : Memory μ τ} {shown shown' : List Bytes} :
      Stands t.options.sentinel rest m shown s.world →
      Stands t.options.sentinel rest m' shown' s'.world → Alongside t s s'
  | failed {f : Fault} : s.world.latch = .failed (f.locate s.offset []).1 →
      s'.world.latch = .failed (f.locate s'.offset []).1 → Alongside t s s'

theorem Alongside.error (h : Alongside t s s') :
    ∃ fault : Option Fault, s.error = fault.map (fun f => (f.locate s.offset []).1) ∧
      s'.error = fault.map fun f => (f.locate s'.offset []).1 := by
  cases h with
  | going stands stands' =>
    exact ⟨none, error_of_going stands.ready.faces.isFailed,
      error_of_going stands'.ready.faces.isFailed⟩
  | @failed f latch latch' => exact ⟨some f, error_of_latched latch, error_of_latched latch'⟩

theorem scan_takes {T : Text} {m : Memory μ τ} {shown : List Bytes} (same : s.tokenizer = t)
    (h : Stands t.options.sentinel T m shown s.world) :
    s.scan.1 = (t.course T m).outcome ∧
      (t.course T m).Leaves t.options.sentinel shown s.scan.2.world ∧
      s.scan.2.delivered = s.delivered ++ ((t.course T m).gap ++ (t.course T m).block).runes ∧
      ∀ token, (t.course T m).ending = some (.token token) → s.scan.2.token = some token := by
  subst same
  obtain ⟨v, scanned, -, left⟩ := scan_course h
  have delivered := delivered_scan h
  rw [scanned] at delivered ⊢
  refine ⟨rfl, left, delivered, ?_⟩
  intro token ended
  obtain ⟨-, latest, -⟩ := (lawful_course s.tokenizer T m).found token ended
  have stands := left.stands (by simp [ended])
  rw [Scanner.token, stands.memory, latest]

theorem Alongside.scan (pure : t.Pure) (same : s.tokenizer = t) (same' : s'.tokenizer = t)
    (h : Alongside t s s') :
    s.scan.1 = s'.scan.1 ∧ (s.scan.1 = .returned true → s.scan.2.token = s'.scan.2.token) ∧
      Alongside t s.scan.2 s'.scan.2 ∧
      ∃ added, s.scan.2.delivered = s.delivered ++ added ∧
        s'.scan.2.delivered = s'.delivered ++ added := by
  cases h with
  | failed latch latch' =>
    have failed : s.world.latch.isFailed = true := by rw [latch]; rfl
    have failed' : s'.world.latch.isFailed = true := by rw [latch']; rfl
    rw [scan_of_failed failed, scan_of_failed failed']
    exact ⟨rfl, by simp, .failed latch latch', [], by simp⟩
  | @going rest m m' shown shown' stands stands' =>
    -- The scans take courses that agree, so both leave the same text ahead or latch the same fault.
    obtain ⟨gap, block, later, ending⟩ := pure.course rest m m'
    obtain ⟨outcome, left, delivered, found⟩ := scan_takes same stands
    obtain ⟨outcome', left', delivered', found'⟩ := scan_takes same' stands'
    generalize t.course rest m = k at *
    generalize t.course rest m' = k' at *
    rw [← gap, ← block] at delivered'
    have agree : k.outcome = k'.outcome := by rw [Course.outcome, Course.outcome, ending]
    refine ⟨by rw [outcome, outcome', agree], ?_, ?_, _, delivered, delivered'⟩
    · intro success
      rw [outcome] at success
      obtain ⟨token, ended⟩ := Course.ending_of_outcome success
      rw [found token ended, found' token (ending ▸ ended)]
    · by_cases unfailed : ∀ f, k.ending ≠ some (.failed f)
      · have stands := left.stands unfailed
        have stands' := left'.stands (ending ▸ unfailed)
        rw [← later] at stands'
        exact .going stands stands'
      · obtain ⟨f, failed⟩ := not_forall_not.mp unfailed
        exact .failed (left.latch_eq failed) (left'.latch_eq (ending ▸ failed))

theorem Alongside.after (pure : t.Pure) (same : s.tokenizer = t) (same' : s'.tokenizer = t)
    (h : Alongside t s s') (n : Nat) :
    Alongside t (s.after n) (s'.after n) ∧
      ∃ added, (s.after n).delivered = s.delivered ++ added ∧
        (s'.after n).delivered = s'.delivered ++ added := by
  induction n with
  | zero => exact ⟨h, [], by simp [Scanner.after]⟩
  | succ n ih =>
    obtain ⟨along, added, delivered, delivered'⟩ := ih
    obtain ⟨-, -, along', more, delivered₁, delivered₁'⟩ := along.scan pure
      ((tokenizer_after s n).trans same) ((tokenizer_after s' n).trans same')
    refine ⟨along', added ++ more, ?_, ?_⟩
    · rw [Scanner.after, delivered₁, delivered, List.append_assoc]
    · rw [Scanner.after, delivered₁', delivered', List.append_assoc]

theorem after_add (s : Scanner μ τ) (n i : Nat) : s.after (n + i) = (s.after n).after i := by
  induction i with
  | zero => rfl
  | succ i ih => rw [← Nat.add_assoc, Scanner.after, Scanner.after, ih]

theorem ahead_of_empty {c : CodePoint} {T : Text} {m : Memory μ τ} {shown : List Bytes}
    (h : Stands c T m shown s.world) (empty : s.world.latch = .empty) :
    ∃ ahead, T = ahead ++ [c] ∧ s.world.reader.Delivers ahead := by
  have faces := h.ready.faces
  generalize runes : T.runes = us at faces
  cases faces with
  | before _ _ holds =>
    obtain ⟨ahead, last, rfl, rfl, sentinel⟩ := List.map_eq_append_iff.mp runes
    obtain ⟨c', rfl, same⟩ := List.map_eq_singleton_iff.mp sentinel
    cases same
    exact ⟨ahead, rfl, holds⟩
  | after ended _ _ =>
    rw [ended] at empty
    cases empty

theorem offset_resumed {reader reader' : Reader} {before ahead : Text} {added : List Rune}
    (h : reader.Delivers (before ++ ahead)) (start : reader.offset = 0)
    (h' : reader'.Delivers ahead) (start' : reader'.offset = 0) {user user' : μ} {n i : Nat}
    (delivered : ((new t reader user).after n).delivered = before.runes ++ added)
    (delivered' : ((new t reader' user').after i).delivered = added) :
    ((new t reader user).after n).offset =
      ((new t reader' user').after i).offset + before.length := by
  rw [offset_after t h, offset_after t h', delivered, delivered', start, start',
    List.length_append, List.length_append, Text.length_runes]
  omega

/-- Scanning on is scanning the rest. After any number of scans that leave the latch empty, however
they ended, the scanner has read one part of the text and will deliver the other. Whatever scanner
is made for that other part, with the same test and mapper, each further scan of the first comes to
what the same scan of the new one comes to, and finds the same token if it finds one. The offset is
larger by what was read before. An error in one latch is the error in the other, and either has the
offset of its own scanner, unless the mapper made the error with an offset. -/
theorem scans_resume (pure : t.Pure) {reader : Reader} {s : Text} (h : reader.Delivers s)
    (start : reader.offset = 0) (user : μ) {n : Nat}
    (empty : ((new t reader user).after n).world.latch = .empty) :
    let stopped := (new t reader user).after n
    ∃ before ahead : Text, s = before ++ ahead ∧ stopped.offset = before.length ∧
      stopped.world.reader.Delivers ahead ∧
      ∀ reader' : Reader, reader'.Delivers ahead → reader'.offset = 0 → ∀ (user' : μ) (i : Nat),
        let resumed := stopped.after i
        let fresh := (new t reader' user').after i
        resumed.scan.1 = fresh.scan.1 ∧
          (resumed.scan.1 = .returned true → resumed.scan.2.token = fresh.scan.2.token) ∧
          resumed.offset = fresh.offset + before.length ∧
          ∃ fault : Option Fault,
            resumed.error = fault.map (fun f => (f.locate resumed.offset []).1) ∧
            fresh.error = fault.map fun f => (f.locate fresh.offset []).1 := by
  intro stopped
  obtain ⟨taken, rest, split, position⟩ := exists_position t h user n
  cases position with
  | failed _ _ _ latch =>
    rw [latch] at empty
    cases empty
  | @going m shown delivered stands =>
    rw [tokenizer_after] at stands
    obtain ⟨ahead, rfl, delivers⟩ := ahead_of_empty stands empty
    obtain rfl : s = taken ++ ahead := by
      rw [← List.append_assoc] at split
      exact List.append_cancel_right split
    have counted := offset_after t h user n
    rw [delivered, Text.length_runes, start, List.length_append] at counted
    refine ⟨taken, ahead, rfl, by rw [counted]; omega, delivers, ?_⟩
    intro reader' h' start' user' i resumed fresh
    have same : stopped.tokenizer = t := tokenizer_after _ n
    have along : Alongside t stopped (new t reader' user') := .going stands (stands_new t h' user')
    obtain ⟨along, added, delivered₁, delivered₂⟩ := along.after pure same rfl i
    obtain ⟨outcome, token, -⟩ := along.scan pure
      ((tokenizer_after stopped i).trans same) (tokenizer_after _ i)
    refine ⟨outcome, token, ?_, along.error⟩
    have later : resumed = (new t reader user).after (n + i) := (after_add _ n i).symm
    rw [delivered, ← after_add] at delivered₁
    rw [later]
    exact offset_resumed h start h' start' delivered₁ delivered₂

theorem scans_resume_touchyWords :
    let text : Text := [0x61, 0x3f, 0x62, 0x20, 0x21]
    let scanner := new Bench.touchyWords (Reader.ofText text) 0
    let stopped := scanner.after 1
    let fresh := new Bench.touchyWords (Reader.ofText [0x62, 0x20, 0x21]) 7
    Bench.touchyWords.Pure ∧ (Reader.ofText text).Delivers text ∧
      (Reader.ofText text).offset = 0 ∧ scanner.scan.1 = .raised (Fault.of .value []) ∧
      stopped.world.latch = .empty ∧ stopped.scan.1 = fresh.scan.1 ∧
      stopped.scan.2.token = fresh.scan.2.token ∧
      (stopped.after 2).offset = (fresh.after 2).offset + 2 ∧
      (stopped.after 2).error = some { Fault.of .tokenize [] with offset := some 5 } ∧
      (fresh.after 2).error = some { Fault.of .tokenize [] with offset := some 3 } := by
  intro text scanner stopped fresh
  have pure := Bench.touchyWords_pure
  have delivers := Reader.delivers_ofText text
  have start : (Reader.ofText text).offset = 0 := rfl
  have empty : stopped.world.latch = .empty := by decide +kernel
  obtain ⟨before, ahead, whole, offset, -, resumes⟩ := scans_resume pure delivers start 0 empty
  have two : before.length = 2 := by
    have read : stopped.offset = 2 := by decide +kernel
    rw [read] at offset
    omega
  obtain ⟨rfl, rfl⟩ : before = [0x61, 0x3f] ∧ ahead = [0x62, 0x20, 0x21] :=
    List.append_inj (whole.symm.trans rfl) two
  have again := resumes (Reader.ofText [0x62, 0x20, 0x21]) (Reader.delivers_ofText _) rfl 7
  obtain ⟨outcome, token, -⟩ := again 0
  obtain ⟨-, -, shifted, -⟩ := again 2
  have found : stopped.scan.1 = .returned true := by decide +kernel
  exact ⟨pure, delivers, start, by decide +kernel, empty, outcome, token found, shifted,
    by decide +kernel, by decide +kernel⟩

def placedWords : Tokenizer Nat Bytes where
  mapper b n :=
    (match b.getLast? with
      | some 0x20 => .token b.dropLast
      | some 0x21 => .failed { Fault.of .tokenize [] with offset := some 5 }
      | _ => .more, n + 1)
  options := ⟨0x20, Text.ofString "utf-8", .standard⟩

theorem placedWords_pure : placedWords.Pure where
  space _ _ _ := rfl
  mapper _ _ _ := rfl
  fresh b n f failed := by
    simp only [placedWords] at failed
    split at failed <;> cases failed
    rfl

/-- So an offset that the mapper gave to its error is not larger by what was read before. -/
theorem not_errors_resume_shifted :
    ¬∀ (t : Tokenizer Nat Bytes) (reader reader' : Reader) (before ahead : Text) (n i : Nat)
      (f f' : Fault), t.Pure → reader.Delivers (before ++ ahead) → reader.offset = 0 →
      reader'.Delivers ahead → reader'.offset = 0 →
      ((new t reader 0).after n).world.latch = .empty →
      ((new t reader 0).after n).offset = before.length →
      (((new t reader 0).after n).after i).error = some f →
      ((new t reader' 0).after i).error = some f' →
      f.offset = f'.offset.map (· + (before.length : Int)) := by
  intro shifted
  have place := shifted placedWords (Reader.ofText [0x61, 0x20, 0x21]) (Reader.ofText [0x21])
    [0x61, 0x20] [0x21] 1 1 { Fault.of .tokenize [] with offset := some 5 }
    { Fault.of .tokenize [] with offset := some 5 } placedWords_pure (Reader.delivers_ofText _) rfl
    (Reader.delivers_ofText _) rfl (by decide +kernel) (by decide +kernel) (by decide +kernel)
    (by decide +kernel)
  revert place
  decide

end Scanner

end RuneMachine
