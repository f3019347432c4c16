import RuneMachine.Proofs.Tokenizer.Words

namespace RuneMachine

def CodePoint.isAsciiSpace (c : CodePoint) : Bool := (0x09 ≤ c && c ≤ 0x0d) || c == 0x20

namespace CodePoint

theorem isAsciiSpace_iff {n : Nat} :
    isAsciiSpace n = true ↔ 0x09 ≤ n ∧ n ≤ 0x0d ∨ n = 0x20 := by
  simp [isAsciiSpace]

theorem isSpace_of_isAsciiSpace {n : Nat} (h : isAsciiSpace n = true) : isSpace n = true := by
  obtain ⟨low, high⟩ | rfl := isAsciiSpace_iff.mp h
  · simp [isSpace, low, high]
  · rfl

end CodePoint

theorem isSpaceByte_iff {b : UInt8} :
    isSpaceByte b = true ↔ 0x09 ≤ b.toNat ∧ b.toNat ≤ 0x0d ∨ b.toNat = 0x20 := by
  simp [isSpaceByte, UInt8.le_iff_toNat_le, ← UInt8.toNat_inj]

namespace Encoding

theorem isSpaceByte_byte {n : Nat} (h : n < 0x100) :
    isSpaceByte (byte n) = CodePoint.isAsciiSpace n := by
  rw [Bool.eq_iff_iff, isSpaceByte_iff, toNat_byte h, CodePoint.isAsciiSpace_iff]

theorem utf8_eq_concat {n : Nat} (beyond : ¬n < 0x80) :
    ∃ start, utf8 n = start ++ [byte (0x80 + n % 0x40)] := by
  unfold utf8
  rw [if_neg beyond]
  split
  · exact ⟨[_], rfl⟩
  · split
    · exact ⟨[_, _], rfl⟩
    · exact ⟨[_, _, _], rfl⟩

end Encoding

def Verdict.asciiWord (buffer : Bytes) : Verdict Text :=
  if buffer.getLast?.any isSpaceByte then
    match Rules.decodeBuffer buffer.dropLast with
    | .error f => .failed f
    | .ok t => .token t
  else .more

namespace Verdict

theorem asciiWord_of_isAsciiSpace {n : Nat} (h : CodePoint.isAsciiSpace n = true)
    {buffer : Bytes} {t : Text} (decoded : Rules.decodeBuffer buffer = .ok t) :
    asciiWord (buffer ++ Encoding.utf8 n) = .token t := by
  have ascii : n < 0x80 := by
    have cases := CodePoint.isAsciiSpace_iff.mp h
    omega
  have written : Encoding.utf8 n = [Encoding.byte n] := if_pos ascii
  have space : isSpaceByte (Encoding.byte n) = true := by
    rw [Encoding.isSpaceByte_byte (by omega), h]
  simp [asciiWord, written, space, decoded]

theorem asciiWord_of_not_isAsciiSpace {n : Nat} (h : CodePoint.isAsciiSpace n = false)
    (buffer : Bytes) : asciiWord (buffer ++ Encoding.utf8 n) = .more := by
  by_cases ascii : n < 0x80
  · have written : Encoding.utf8 n = [Encoding.byte n] := if_pos ascii
    have other : isSpaceByte (Encoding.byte n) = false := by
      rw [Encoding.isSpaceByte_byte (by omega), h]
    simp [asciiWord, written, other]
  · obtain ⟨start, written⟩ := Encoding.utf8_eq_concat ascii
    have other : isSpaceByte (Encoding.byte (0x80 + n % 0x40)) = false := by
      rw [Encoding.isSpaceByte_byte (by omega), Bool.eq_false_iff, ne_eq,
        CodePoint.isAsciiSpace_iff]
      omega
    simp [asciiWord, written, other]

end Verdict

namespace Tokenizer

variable {μ : Type}

def asciiWords : Tokenizer μ Text where
  mapper buffer user := (.asciiWord buffer, user)
  options := .default

def asciiLexis : Lexis Text where
  skips := CodePoint.isSpace
  name := Text.ofString "utf-8"
  write c := (Encoding.plain .utf8).write [c]
  judge := .asciiWord

theorem write_asciiLexis {c : CodePoint} (proper : c.isScalar) :
    asciiLexis.write c = .bytes (Encoding.utf8 c) :=
  (Encoding.write_utf8 c).trans (if_pos proper)

theorem judge_asciiLexis {c : CodePoint} (proper : c.isScalar) (start : Text) :
    asciiLexis.judge (asciiLexis.buffer (start ++ [c])) =
      if c.isAsciiSpace then .token (start.filter CodePoint.isScalar) else .more := by
  have decoded := Lexis.decodeBuffer_buffer (L := asciiLexis) (fun _ => rfl) start
  rw [Lexis.buffer_concat (write_asciiLexis proper)]
  cases space : c.isAsciiSpace with
  | true => exact Verdict.asciiWord_of_isAsciiSpace space decoded
  | false => exact Verdict.asciiWord_of_not_isAsciiSpace space _

theorem asciiLexis_endsAt : asciiLexis.EndsAt CodePoint.isAsciiSpace := by
  intro start c scalar
  obtain ⟨before, proper⟩ := List.forall_mem_append.mp scalar
  rw [List.forall_mem_singleton] at proper
  have judged := judge_asciiLexis proper start
  rw [List.filter_eq_self.mpr before] at judged
  simp only [Lexis.decision?, List.getLast?_append, List.getLast?_singleton, Option.some_or,
    write_asciiLexis proper, judged]
  cases c.isAsciiSpace <;> rfl

theorem asciiWords_follows : (asciiWords : Tokenizer μ Text).Follows asciiLexis where
  space := Options.default_separates.space
  encoding := rfl
  writes c := by
    have known := (Options.default_separates (μ := μ)).encoding
    exact congrFun (Codecs.standard_of_ofName? known) [c]
  mapper _ _ := rfl
  reports text f failed := by
    -- Code points at the end that cannot be written are not in the buffer.
    induction text using List.reverseRecOn with
    | nil => cases failed
    | append_singleton start c ih =>
      cases proper : c.isScalar with
      | true =>
        rw [judge_asciiLexis proper] at failed
        split at failed <;> cases failed
      | false =>
        apply ih
        rw [← failed]
        simp [Lexis.buffer, asciiLexis, Encoding.write_utf8, proper, Writing.bytes?]

end Tokenizer

namespace Text

theorem span_congr {p q : CodePoint → Bool} {t : Text} (h : ∀ c ∈ t, p c = q c) :
    t.takeWhile p = t.takeWhile q ∧ t.dropWhile p = t.dropWhile q := by
  induction t with
  | nil => exact ⟨rfl, rfl⟩
  | cons c t ih =>
    obtain ⟨now, later⟩ := List.forall_mem_cons.mp h
    obtain ⟨taken, dropped⟩ := ih later
    simp only [List.takeWhile_cons, List.dropWhile_cons, now, taken, dropped, and_self]

theorem fields_of_cons {skips ends : CodePoint → Bool} {t rest : Text} {c : CodePoint}
    (h : t.dropWhile skips = c :: rest) :
    t.fields skips ends =
      (c :: rest).takeWhile (!ends ·) ::
        fields skips ends ((c :: rest).dropWhile (!ends ·)).tail := by
  rw [fields]
  split <;> simp_all

theorem fields_congr {skips ends ends' : CodePoint → Bool} {t : Text}
    (h : ∀ c ∈ t, ends c = ends' c) : t.fields skips ends = t.fields skips ends' := by
  fun_induction fields skips ends t with
  | case1 t opened => rw [fields_of_nil opened]
  | case2 t c rest opened ih =>
    have within : c :: rest <:+ t := opened ▸ List.dropWhile_suffix skips
    have same : ∀ d ∈ c :: rest, ends d = ends' d := fun d member => h d (within.mem member)
    have negated : ∀ d ∈ c :: rest, (!ends d) = !ends' d := by
      intro d member
      rw [same d member]
    obtain ⟨taken, dropped⟩ := span_congr negated
    have after : ((c :: rest).dropWhile (!ends ·)).tail <:+ c :: rest :=
      (List.tail_suffix _).trans (List.dropWhile_suffix _)
    have later := ih fun d member => same d (after.mem member)
    have unfolded := @fields_of_cons skips ends' t rest c opened
    rw [unfolded, later, taken, dropped]

end Text

namespace Scanner

variable {μ : Type}

/-- The words that a mapper finds by the last byte of its buffer, in a text in scalar code points:
no fault puts an end to them, white space of any kind is skipped before them, and white space of
ASCII or the end of the text ends them. If the text has no other white space they are what splitting
it gives. -/
theorem tokens_asciiWords_eq_fields {s : Text} (scalar : ∀ c ∈ s, c.isScalar) {reader : Reader}
    (delivers : reader.Delivers s) (user : μ) :
    ∃ after, (new .asciiWords reader user).tokens =
        (s.fields CodePoint.isSpace CodePoint.isAsciiSpace, none, after) ∧
      ((∀ c ∈ s, c.isSpace = true → c.isAsciiSpace = true) →
        (new .asciiWords reader user).tokens = (s.split, none, after)) := by
  have reference : Tokenizer.asciiLexis.tokens (s ++ [0x0a]) =
      (s.fields CodePoint.isSpace CodePoint.isAsciiSpace, none) :=
    Tokenizer.asciiLexis_endsAt.tokens rfl rfl rfl scalar
  have ready : Tokenizer.Follows.Ready 0x0a (s ++ [0x0a])
      (new (.asciiWords : Tokenizer μ Text) reader user).world :=
    ready_new .asciiWords delivers user
  obtain ⟨after, iterated⟩ :=
    tokens_of_ready (s := new .asciiWords reader user) Tokenizer.asciiWords_follows ready
  rw [reference] at iterated
  refine ⟨after, iterated, ?_⟩
  intro ascii
  have same : ∀ c ∈ s, c.isAsciiSpace = c.isSpace := by
    intro c member
    rw [Bool.eq_iff_iff]
    exact ⟨CodePoint.isSpace_of_isAsciiSpace, ascii c member⟩
  rw [iterated, Text.fields_congr same]
  rfl

theorem tokens_asciiWords_eq_fields_twice :
    let s : Text := [0x3000, 0x61, 0x3000, 0x1f600, 0x09, 0x85, 0xe9]
    let t : Text := [0x20, 0xe9, 0x0d, 0x0a, 0x1f600]
    (∀ c ∈ s, c.isScalar) ∧ (∀ c ∈ t, c.isScalar) ∧
    (∀ c ∈ t, c.isSpace = true → c.isAsciiSpace = true) ∧
    (∃ after, (new .asciiWords (.ofText s) ()).tokens =
      ([[0x61, 0x3000, 0x1f600], [0xe9]], none, after)) ∧
    ∃ after, (new .asciiWords (.ofText t) ()).tokens = (t.split, none, after) := by
  intro s t
  have scalar : ∀ c ∈ s, c.isScalar := by decide
  have scalar' : ∀ c ∈ t, c.isScalar := by decide
  have ascii : ∀ c ∈ t, c.isSpace = true → c.isAsciiSpace = true := by decide
  obtain ⟨after, tokens, -⟩ := tokens_asciiWords_eq_fields scalar (Reader.delivers_ofText s) ()
  obtain ⟨after', -, tokens'⟩ := tokens_asciiWords_eq_fields scalar' (Reader.delivers_ofText t) ()
  have fields : s.fields CodePoint.isSpace CodePoint.isAsciiSpace =
      [[0x61, 0x3000, 0x1f600], [0xe9]] := by
    have opened : s.dropWhile CodePoint.isSpace = [0x61, 0x3000, 0x1f600, 0x09, 0x85, 0xe9] := by
      decide
    have opened' : List.dropWhile CodePoint.isSpace [0x85, 0xe9] = [0xe9] := by decide
    have nothing : Text.fields CodePoint.isSpace CodePoint.isAsciiSpace [] = [] :=
      Text.fields_of_nil rfl
    simp [Text.fields_of_cons opened, Text.fields_of_cons opened', nothing, CodePoint.isAsciiSpace]
  rw [fields] at tokens
  exact ⟨scalar, scalar', ascii, ⟨after, tokens⟩, after', tokens' ascii⟩

end Scanner

end RuneMachine
