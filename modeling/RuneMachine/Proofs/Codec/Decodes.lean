import RuneMachine.Codec.Decoder

namespace RuneMachine

namespace Decoder

/-- The bytes come to a text, and some at their end are kept for later. -/
inductive Decodes (charset : Charset) (handler : Handler) (final : Bool) :
    Bytes → Text → Bytes → Prop
  | nothing : Decodes charset handler final [] [] []
  | kept {b rest more flaw} : final = false → charset.sight b rest = .partway more flaw →
      Decodes charset handler final (b :: rest) [] (b :: rest)
  | char {b rest code more text kept} : charset.sight b rest = .char code more →
      Decodes charset handler final (rest.drop more) text kept →
      Decodes charset handler final (b :: rest) (code :: text) kept
  | mended {b rest bad flaw first more text kept} :
      charset.sight b rest = .flawed bad flaw ∨
        final = true ∧ charset.sight b rest = .partway bad flaw →
      handler.resolve b (rest.take bad) = .mended first more →
      Decodes charset handler final (rest.drop more) text kept →
      Decodes charset handler final (b :: rest) (first ++ text) kept

variable {charset : Charset} {handler : Handler} {final : Bool} {whole : Bytes}

theorem scan_eq_ok_iff {position skip : Nat} {data kept : Bytes} {text : Text} :
    scan charset handler final whole position skip data = .ok (text, kept) ↔
      Decodes charset handler final (data.drop skip) text kept := by
  induction data generalizing position skip text with
  | nil =>
    rw [scan, List.drop_nil]
    constructor
    · intro h
      cases h
      exact .nothing
    · intro h
      cases h
      rfl
  | cons b rest ih =>
    cases skip with
    | succ skip =>
      rw [scan, List.drop_succ_cons]
      exact ih
    | zero =>
      rw [scan, List.drop_zero]
      constructor
      · intro h
        cases sighted : charset.sight b rest with
        | char code more =>
          simp only [sighted] at h
          split at h
          · next later =>
            cases h
            exact .char sighted (ih.mp later)
          · cases h
        | flawed bad flaw =>
          simp only [sighted] at h
          split at h
          · next resolved =>
            split at h
            · next later =>
              cases h
              exact .mended (.inl sighted) resolved (ih.mp later)
            · cases h
          · cases h
          · cases h
        | partway bad flaw =>
          simp only [sighted] at h
          split at h
          · next ending =>
            split at h
            · next resolved =>
              split at h
              · next later =>
                cases h
                exact .mended (.inr ⟨ending, sighted⟩) resolved (ih.mp later)
              · cases h
            · cases h
            · cases h
          · next going =>
            cases h
            exact .kept (by simpa using going) sighted
      · intro h
        cases h with
        | kept going sighted => simp [sighted, going]
        | char sighted later => simp [sighted, ih.mpr later]
        | mended sighted resolved later =>
          obtain sighted | ⟨ending, sighted⟩ := sighted
          · simp [sighted, resolved, ih.mpr later]
          · subst ending
            simp [sighted, resolved, ih.mpr later]

end Decoder

theorem Text.length_hex_byte : ∀ n < 0x100, (Text.hex 2 n).length = 2 := by decide +kernel

theorem Handler.length_mended {h : Handler} {b : UInt8} {more : Bytes} {text : Text} {n : Nat}
    (e : h.resolve b more = .mended text n) : text.length ≤ 4 * (n + 1) ∧ n ≤ more.length := by
  cases h with
  | strict => cases e
  | ignore => cases e; simp
  | replace => cases e; simp only [List.length_singleton]; omega
  | backslash =>
    -- The longest that any handler writes: four characters for each byte.
    cases e
    have four : ∀ l : Bytes,
        (l.flatMap fun c => Text.ofString "\\x" ++ Text.hex 2 c.toNat).length = 4 * l.length := by
      intro l
      induction l with
      | nil => rfl
      | cons c l ih =>
        have hex := Text.length_hex_byte c.toNat c.toNat_lt
        have mark : (Text.ofString "\\x").length = 2 := rfl
        simp only [List.flatMap_cons, List.length_append, List.length_cons, ih, hex, mark]
        omega
    rw [four]
    simp
  | escape =>
    simp only [resolve] at e
    split at e
    · cases e
      have high : more.takeWhile (fun c => decide (0x80 ≤ c)) <+: more := List.takeWhile_prefix _
      have fits := high.length_le
      simp only [List.length_cons, List.length_map]
      omega
    · cases e
  | unknown name => cases e

namespace Decoder

variable {charset : Charset} {handler : Handler} {final : Bool}

theorem Decodes.length_le {data kept : Bytes} {text : Text}
    (h : Decodes charset handler final data text kept) :
    text.length + 4 * kept.length ≤ 4 * data.length := by
  induction h with
  | nothing => simp
  | kept => simp
  | char sighted later ih =>
    simp only [List.length_cons, List.length_drop] at ih ⊢
    omega
  | @mended b rest bad flaw first more text kept sighted resolved later ih =>
    obtain ⟨short, within⟩ := Handler.length_mended resolved
    have taken := List.length_take_le' bad rest
    simp only [List.length_append, List.length_cons, List.length_drop] at ih ⊢
    omega

theorem length_run {d d' : Decoder} {data : Bytes} {final : Bool} {text : Text}
    (h : d.run data final = (.ok text, d')) :
    text.length + 4 * d'.kept.length ≤ 4 * data.length := by
  simp only [run] at h
  split at h
  · split at h
    · next scanned =>
      cases h
      exact (scan_eq_ok_iff.mp scanned).length_le
    · cases h
  · cases h

theorem length_decode {d d' : Decoder} {chunk : Bytes} {final : Bool} {text : Text}
    (h : d.decode chunk final = (.ok text, d')) :
    text.length + 4 * d'.kept.length ≤ 4 * (d.kept.length + chunk.length) := by
  rw [← List.length_append]
  simp only [decode] at h
  split at h
  · split at h
    · cases h
      simp
    · split at h
      · have bounded := length_run h
        rw [List.length_drop] at bounded
        omega
      · exact length_run h
  · exact length_run h

end Decoder

end RuneMachine
