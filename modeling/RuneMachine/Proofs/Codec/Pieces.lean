import RuneMachine.Proofs.Codec.Decodes
import RuneMachine.Proofs.Codec.RoundTrip

/-! UTF-8 in pieces. What the front of some bytes is does not change when more bytes come, unless
it was not clear yet, and then the bytes are kept. So decoding may stop anywhere and go on with what
was kept in front of the rest. -/

namespace RuneMachine

namespace Sighting

def isClear : Sighting → Bool
  | .partway _ _ => false
  | _ => true

def more : Sighting → Nat
  | .char _ more => more
  | .flawed more _ => more
  | .partway more _ => more

theorem eq_partway {s : Sighting} (h : s.isClear = false) :
    ∃ more flaw, s = .partway more flaw := by
  cases s with
  | partway more flaw => exact ⟨more, flaw, rfl⟩
  | char => cases h
  | flawed => cases h

end Sighting

namespace Utf8

theorem follow_append {owed code taken : Nat} {low high : UInt8} {rest : Bytes}
    (clear : (follow owed low high code taken rest).isClear) (later : Bytes) :
    follow owed low high code taken (rest ++ later) = follow owed low high code taken rest := by
  induction rest generalizing owed low high code taken with
  | nil =>
    cases owed with
    | zero => rw [follow, follow]
    | succ owed => simp [follow, Sighting.isClear] at clear
  | cons b rest ih =>
    cases owed with
    | zero => rw [follow, follow]
    | succ owed =>
      simp only [List.cons_append, follow] at clear ⊢
      split
      · next within =>
        rw [if_pos within] at clear
        exact ih clear
      · rfl

theorem more_follow_le (owed code taken : Nat) (low high : UInt8) (rest : Bytes) :
    (follow owed low high code taken rest).more ≤ taken + rest.length := by
  induction rest generalizing owed low high code taken with
  | nil => cases owed <;> simp [follow, Sighting.more]
  | cons b rest ih =>
    cases owed with
    | zero => simp [follow, Sighting.more]
    | succ owed =>
      simp only [follow]
      split
      · have bounded := ih owed (code * 0x40 + (b.toNat - 0x80)) (taken + 1) 0x80 0xbf
        rw [List.length_cons]
        omega
      · simp [Sighting.more]

variable {b : UInt8} {rest : Bytes}

theorem isCutSurrogate_of_ne (h : b ≠ 0xed) : isCutSurrogate b rest = false := by
  unfold isCutSurrogate
  split <;> simp [h]

theorem isCutSurrogate_append {later : Bytes} (full : rest ≠ []) (more : later ≠ []) :
    isCutSurrogate b (rest ++ later) = false := by
  match rest, later with
  | [_], _ :: _ => rfl
  | _ :: _ :: _, _ => rfl

theorem sight_cases (b : UInt8) :
    (∀ rest, sight b rest = .char b.toNat 0) ∨
      0x80 ≤ b ∧
        ((∀ rest, sight b rest = .flawed 0 .badStart) ∨
          ∃ owed low high code, ∀ rest, sight b rest =
            if isCutSurrogate b rest then .partway 0 .badContinuation
            else follow (owed + 1) low high code 0 rest) := by
  by_cases one : b < 0x80
  · exact .inl fun rest => by simp [sight, one]
  have high : 0x80 ≤ b := UInt8.not_lt.mp one
  by_cases bad : b < 0xc2
  · exact .inr ⟨high, .inl fun rest => by simp [sight, one, bad]⟩
  by_cases two : b < 0xe0
  · have proper : b ≠ 0xed := by
      rintro rfl
      exact absurd two (by decide)
    refine .inr ⟨high, .inr ⟨0, 0x80, 0xbf, b.toNat - 0xc0, fun rest => ?_⟩⟩
    simp [sight, one, bad, two, isCutSurrogate_of_ne proper]
  by_cases three : b < 0xf0
  · refine .inr ⟨high, .inr ⟨1, if b == 0xe0 then 0xa0 else 0x80,
      if b == 0xed then 0x9f else 0xbf, b.toNat - 0xe0, fun rest => ?_⟩⟩
    simp [sight, one, bad, two, three]
  by_cases four : b < 0xf5
  · refine .inr ⟨high, .inr ⟨2, if b == 0xf0 then 0x90 else 0x80,
      if b == 0xf4 then 0x8f else 0xbf, b.toNat - 0xf0, fun rest => ?_⟩⟩
    simp [sight, one, bad, two, three, four]
  · have proper : b ≠ 0xed := by
      rintro rfl
      exact absurd (by decide) three
    refine .inr ⟨high, .inl fun rest => ?_⟩
    simp [sight, one, bad, two, three, four, isCutSurrogate_of_ne proper]

theorem sight_append (clear : (sight b rest).isClear) (later : Bytes) :
    sight b (rest ++ later) = sight b rest := by
  obtain char | ⟨-, flawed | ⟨owed, low, high, code, seen⟩⟩ := sight_cases b
  · rw [char, char]
  · rw [flawed, flawed]
  · rw [seen] at clear
    split at clear
    · cases clear
    · next uncut =>
      by_cases none : later = []
      · rw [none, List.append_nil]
      have full : rest ≠ [] := by
        rintro rfl
        cases clear
      rw [seen, seen, if_neg uncut, isCutSurrogate_append full none, if_neg Bool.false_ne_true,
        follow_append clear]

theorem more_sight_le (b : UInt8) (rest : Bytes) : (sight b rest).more ≤ rest.length := by
  obtain char | ⟨-, flawed | ⟨owed, low, high, code, seen⟩⟩ := sight_cases b
  · rw [char]
    exact Nat.zero_le _
  · rw [flawed]
    exact Nat.zero_le _
  · rw [seen]
    split
    · exact Nat.zero_le _
    · simpa using more_follow_le (owed + 1) code 0 low high rest

theorem high_of_sight (b : UInt8) (rest : Bytes) (h : ∀ code more, sight b rest ≠ .char code more) :
    0x80 ≤ b := by
  obtain char | ⟨high, -⟩ := sight_cases b
  · exact absurd (char rest) (h _ _)
  · exact high

theorem isClear_sight_of_cut {c : CodePoint} (scalar : c.isScalar) {missing : Bytes}
    (written : Encoding.utf8 c = b :: (rest ++ missing)) (cut : missing ≠ []) :
    (sight b rest).isClear = false := by
  obtain ⟨b', more, written', seen⟩ := seen_of_isScalar scalar []
  rw [written] at written'
  cases written'
  rw [List.append_nil] at seen
  cases clear : (sight b rest).isClear with
  | false => rfl
  | true =>
    rw [sight_append clear] at seen
    have bounded := more_sight_le b rest
    have positive := List.length_pos_iff.mpr cut
    rw [seen, Sighting.more, List.length_append] at bounded
    omega

end Utf8

namespace Decoder.Decodes

variable {handler : Handler} {final : Bool}

theorem functional {charset : Charset} {data kept kept' : Bytes} {text text' : Text}
    (h : Decodes charset handler final data text kept)
    (h' : Decodes charset handler final data text' kept') : text = text' ∧ kept = kept' := by
  have scanned : scan charset handler final [] 0 0 data = .ok (text, kept) := scan_eq_ok_iff.mpr h
  have scanned' : scan charset handler final [] 0 0 data = .ok (text', kept') :=
    scan_eq_ok_iff.mpr h'
  rw [scanned] at scanned'
  cases scanned'
  exact ⟨rfl, rfl⟩

theorem again {charset : Charset} {data kept : Bytes} {text : Text}
    (h : Decodes charset handler false data text kept) :
    Decodes charset handler false kept [] kept := by
  induction h with
  | nothing => exact .nothing
  | kept going sighted => exact .kept going sighted
  | char _ _ ih => exact ih
  | mended _ _ _ ih => exact ih

/-- Decoding may stop anywhere: what is kept there is put in front of the rest. -/
theorem split {first second kept : Bytes} {text : Text}
    (h : Decodes .utf8 handler final (first ++ second) text kept) :
    ∃ start held rest, Decodes .utf8 handler false first start held ∧
      Decodes .utf8 handler final (held ++ second) rest kept ∧ text = start ++ rest := by
  match first with
  | [] => exact ⟨[], [], text, .nothing, h, rfl⟩
  | b :: first =>
    cases clear : (Utf8.sight b first).isClear with
    | false =>
      obtain ⟨more, flaw, sighted⟩ := Sighting.eq_partway clear
      exact ⟨[], b :: first, text, .kept rfl sighted, h, rfl⟩
    | true =>
      have same : Charset.utf8.sight b (first ++ second) = Utf8.sight b first :=
        Utf8.sight_append clear second
      have within := Utf8.more_sight_le b first
      rw [List.cons_append] at h
      cases h with
      | kept _ sighted =>
        rw [← same, sighted] at clear
        cases clear
      | char sighted later =>
        rw [same] at sighted
        rw [sighted, Sighting.more] at within
        rw [List.drop_append_of_le_length within] at later
        obtain ⟨start, held, rest, stopped, resumed, rfl⟩ := split later
        exact ⟨_ :: start, held, rest, .char sighted stopped, resumed, rfl⟩
      | @mended _ _ bad flaw mend more _ _ sighted resolved later =>
        rw [same] at sighted
        obtain sighted | ⟨-, sighted⟩ := sighted
        · rw [sighted, Sighting.more] at within
          rw [List.take_append_of_le_length within] at resolved
          have fits := (Handler.length_mended resolved).2
          rw [List.drop_append_of_le_length (by rw [List.length_take] at fits; omega)] at later
          obtain ⟨start, held, rest, stopped, resumed, rfl⟩ := split later
          refine ⟨mend ++ start, held, rest, .mended (.inl sighted) resolved stopped, resumed, ?_⟩
          rw [List.append_assoc]
        · rw [sighted] at clear
          cases clear
termination_by first.length
decreasing_by all_goals simp only [List.length_cons, List.length_drop]; omega

end Decoder.Decodes

def Handler.mends : Handler → Bool
  | .strict | .unknown _ => false
  | .ignore | .replace | .backslash | .escape => true

theorem Handler.isNameable_of_mends {handler : Handler} (h : handler.mends) :
    handler.isNameable := by
  cases handler with
  | unknown name => cases h
  | _ => rfl

theorem Handler.resolve_of_mends {handler : Handler} (h : handler.mends) {b : UInt8}
    (high : 0x80 ≤ b) (more : Bytes) : ∃ text n, handler.resolve b more = .mended text n := by
  cases handler with
  | strict => cases h
  | unknown name => cases h
  | ignore => exact ⟨_, _, rfl⟩
  | replace => exact ⟨_, _, rfl⟩
  | backslash => exact ⟨_, _, rfl⟩
  | escape => exact ⟨_, _, if_pos high⟩

namespace Decoder.Decodes

variable {handler : Handler}

theorem exists_of_mends (h : handler.mends) (data : Bytes) :
    ∃ text, Decodes .utf8 handler true data text [] := by
  match data with
  | [] => exact ⟨[], .nothing⟩
  | b :: rest =>
    have mend {bad : Nat} {flaw : Flaw} (high : 0x80 ≤ b)
        (sighted : Charset.utf8.sight b rest = .flawed bad flaw ∨
          true = true ∧ Charset.utf8.sight b rest = .partway bad flaw) :
        ∃ text, Decodes .utf8 handler true (b :: rest) text [] := by
      obtain ⟨first, more, resolved⟩ := Handler.resolve_of_mends h high (rest.take bad)
      obtain ⟨text, later⟩ := exists_of_mends h (rest.drop more)
      exact ⟨first ++ text, .mended sighted resolved later⟩
    cases sighted : Utf8.sight b rest with
    | char code more =>
      obtain ⟨text, later⟩ := exists_of_mends h (rest.drop more)
      exact ⟨code :: text, .char sighted later⟩
    | flawed bad flaw => exact mend (Utf8.high_of_sight b rest (by simp [sighted])) (.inl sighted)
    | partway bad flaw =>
      exact mend (Utf8.high_of_sight b rest (by simp [sighted])) (.inr ⟨rfl, sighted⟩)
termination_by data.length
decreasing_by all_goals simp only [List.length_cons, List.length_drop]; omega

end Decoder.Decodes

def Text.within (n : Nat) : Text → Text
  | [] => []
  | c :: t =>
    if (Encoding.utf8 c).length ≤ n then c :: within (n - (Encoding.utf8 c).length) t else []

namespace Decoder.Decodes

variable {handler : Handler}

theorem of_utf8 {s : Text} (scalar : ∀ c ∈ s, c.isScalar) (final : Bool) :
    Decodes .utf8 handler final (s.flatMap Encoding.utf8) s [] :=
  have scanned : scan .utf8 handler final [] 0 0 (s.flatMap Encoding.utf8) = .ok (s, []) :=
    scan_flatMap_utf8 scalar 0
  scan_eq_ok_iff.mp scanned

theorem within {s : Text} (scalar : ∀ c ∈ s, c.isScalar) {data later : Bytes}
    (cut : data ++ later = s.flatMap Encoding.utf8) :
    ∃ kept, Decodes .utf8 handler false data (s.within data.length) kept := by
  induction s generalizing data with
  | nil =>
    obtain ⟨rfl, -⟩ := List.append_eq_nil_iff.mp cut
    exact ⟨[], .nothing⟩
  | cons c s ih =>
    obtain ⟨proper, scalar⟩ := List.forall_mem_cons.mp scalar
    rw [List.flatMap_cons] at cut
    by_cases fits : (Encoding.utf8 c).length ≤ data.length
    · -- The first code point is complete, and the rest of the bytes begins the rest of the text.
      obtain ⟨data, rfl⟩ : Encoding.utf8 c <+: data :=
        List.prefix_of_prefix_length_le ⟨_, cut.symm⟩ ⟨later, rfl⟩ fits
      rw [List.append_assoc] at cut
      obtain ⟨kept, decoded⟩ := ih scalar (List.append_cancel_left cut)
      obtain ⟨b, more, written, seen⟩ := Utf8.seen_of_isScalar proper data
      refine ⟨kept, ?_⟩
      rw [Text.within, if_pos fits, List.length_append, Nat.add_sub_cancel_left, written,
        List.cons_append]
      apply Decodes.char (show Charset.utf8.sight b (more ++ data) = _ from seen)
      rwa [List.drop_left]
    · -- Not even the first code point is complete.
      obtain ⟨missing, written⟩ : data <+: Encoding.utf8 c :=
        List.prefix_of_prefix_length_le ⟨later, rfl⟩ ⟨_, cut.symm⟩ (Nat.le_of_not_le fits)
      have incomplete : missing ≠ [] := by
        rintro rfl
        rw [List.append_nil] at written
        exact fits (written ▸ Nat.le_refl _)
      rw [Text.within, if_neg fits]
      cases data with
      | nil => exact ⟨[], .nothing⟩
      | cons b data =>
        obtain ⟨more, flaw, sighted⟩ :=
          Sighting.eq_partway (Utf8.isClear_sight_of_cut proper written.symm incomplete)
        exact ⟨b :: data, .kept rfl sighted⟩

end Decoder.Decodes

end RuneMachine
