import Mathlib.Data.List.TakeWhile
import RuneMachine.Proofs.Codec.RoundTrip
import RuneMachine.Proofs.Tokenizer.Reference
import RuneMachine.Rules.Mapper

namespace RuneMachine

namespace Text

def runs (P : CodePoint → Bool) (t : Text) : List Text :=
  (t.splitOnP P).filter fun run => !run.isEmpty

/-- Skips, takes everything up to the next code point that ends a field, and goes on after it. -/
def fields (skips ends : CodePoint → Bool) (t : Text) : List Text :=
  match _opened : t.dropWhile skips with
  | [] => []
  | c :: rest =>
    (c :: rest).takeWhile (!ends ·) ::
      fields skips ends ((c :: rest).dropWhile (!ends ·)).tail
termination_by t.length
decreasing_by
  have fits := (List.dropWhile_suffix skips (l := t)).length_le
  have shorter := (List.dropWhile_suffix (!ends ·) (l := c :: rest)).length_le
  simp only [_opened, List.length_cons, List.length_tail] at fits shorter ⊢
  omega

def split (t : Text) : List Text := t.fields CodePoint.isSpace CodePoint.isSpace

variable {P skips ends : CodePoint → Bool} {t : Text}

theorem fields_of_nil (h : t.dropWhile skips = []) : t.fields skips ends = [] := by
  rw [fields]
  split <;> simp_all

theorem runs_nil : runs P [] = [] := by
  simp [runs]

theorem runs_append_cons {c : CodePoint} (h : P c = true) (s t : Text) :
    runs P (s ++ c :: t) = runs P s ++ runs P t := by
  simp only [runs, List.splitOnP_append_cons s t h, List.filter_append]

theorem runs_dropWhile (t : Text) : runs P (t.dropWhile P) = runs P t := by
  induction t with
  | nil => rfl
  | cons c t ih =>
    cases separates : P c with
    | true =>
      have parted := runs_append_cons separates [] t
      rw [List.nil_append, runs_nil, List.nil_append] at parted
      rw [List.dropWhile_cons_of_pos separates, ih, parted]
    | false => rw [List.dropWhile_cons_of_neg (by simp [separates])]

theorem runs_of_forall_not (full : t ≠ []) (h : ∀ c ∈ t, P c = false) : runs P t = [t] := by
  simp [runs, List.splitOnP_eq_singleton h, full]

theorem runs_cons_of_not {c : CodePoint} (h : P c = false) (t : Text) :
    runs P (c :: t) =
      (c :: t).takeWhile (!P ·) :: runs P ((c :: t).dropWhile (!P ·)).tail := by
  have full : (c :: t).takeWhile (!P ·) ≠ [] := by simp [h]
  have one : runs P ((c :: t).takeWhile (!P ·)) = [(c :: t).takeWhile (!P ·)] := by
    apply runs_of_forall_not full
    intro d member
    simpa using List.mem_takeWhile_imp member
  have joined := List.takeWhile_append_dropWhile (p := (!P ·)) (l := c :: t)
  have ended := List.head?_dropWhile_not (!P ·) (c :: t)
  cases later : (c :: t).dropWhile (!P ·) with
  | nil =>
    rw [later, List.append_nil] at joined
    rw [joined] at one ⊢
    rw [List.tail_nil, runs_nil, one]
  | cons d rest =>
    rw [later] at joined ended
    have separates : P d = true := by simpa using ended
    calc
      runs P (c :: t) = runs P ((c :: t).takeWhile (!P ·) ++ d :: rest) := by rw [joined]
      _ = runs P ((c :: t).takeWhile (!P ·)) ++ runs P rest := runs_append_cons separates _ _
      _ = (c :: t).takeWhile (!P ·) :: runs P rest := by rw [one, List.singleton_append]

theorem fields_eq_runs (P : CodePoint → Bool) (t : Text) : t.fields P P = t.runs P := by
  fun_induction fields P P t with
  | case1 t opened => rw [← runs_dropWhile, opened, runs_nil]
  | case2 t c rest opened ih =>
    have first := List.head?_dropWhile_not P t
    rw [opened] at first
    rw [← runs_dropWhile, opened, runs_cons_of_not first, ih]

end Text

namespace Lexis

variable {L : Lexis Text} {ends : CodePoint → Bool} {t : Text}

def EndsAt (L : Lexis Text) (ends : CodePoint → Bool) : Prop :=
  ∀ start c, (∀ d ∈ start ++ [c], d.isScalar) →
    L.decision? (start ++ [c]) = if ends c then some (.token start) else none

theorem EndsAt.decisionFrom? (h : L.EndsAt ends) {c : CodePoint} (ended : ends c = true)
    {done : Text} (scalar : ∀ d ∈ done ++ (t ++ [c]), d.isScalar) :
    L.decisionFrom? done (t ++ [c]) =
      some (.token (done ++ t.takeWhile (!ends ·)), (t.dropWhile (!ends ·) ++ [c]).tail) := by
  induction t generalizing done with
  | nil =>
    rw [List.nil_append, decisionFrom?_cons, h done c scalar]
    simp [ended]
  | cons d t ih =>
    rw [List.cons_append, List.append_cons] at scalar
    have decision := h done d fun e member => scalar e (List.mem_append_left (t ++ [c]) member)
    rw [List.cons_append, decisionFrom?_cons, decision]
    cases stops : ends d with
    | true => simp [stops]
    | false =>
      simp only [Bool.false_eq_true, if_false, ih scalar, List.dropWhile_cons, stops,
        Bool.not_false, if_true, List.takeWhile_cons, List.append_assoc, List.singleton_append]

theorem EndsAt.tokens (h : L.EndsAt ends) {c : CodePoint} (skipped : L.skips c = true)
    (ended : ends c = true) (proper : c.isScalar) (scalar : ∀ d ∈ t, d.isScalar) :
    L.tokens (t ++ [c]) = (t.fields L.skips ends, none) := by
  fun_induction Text.fields L.skips ends t with
  | case1 t opened =>
    have nothing : (t ++ [c]).dropWhile L.skips = [] := by
      simp [List.dropWhile_append, opened, skipped]
    rw [tokens_of_none]
    rw [nothing]
    rfl
  | case2 t d rest opened ih =>
    have ahead : (t ++ [c]).dropWhile L.skips = d :: rest ++ [c] := by
      simp [List.dropWhile_append, opened]
    have within : d :: rest <:+ t := opened ▸ List.dropWhile_suffix L.skips
    have remaining : ∀ e ∈ d :: rest, e.isScalar := fun e member => scalar e (within.mem member)
    have decided : L.firstDecision? ((t ++ [c]).dropWhile L.skips) =
        some (.token ((d :: rest).takeWhile (!ends ·)),
          ((d :: rest).dropWhile (!ends ·) ++ [c]).tail) := by
      rw [ahead, ← decisionFrom?_nil]
      apply h.decisionFrom? ended
      simpa [or_imp, forall_and, proper] using remaining
    rw [tokens_of_token decided]
    cases later : (d :: rest).dropWhile (!ends ·) with
    | nil =>
      -- The field goes up to the end of the text, and it took the sentinel to end it.
      have nothing : L.tokens [] = ([], none) := tokens_of_none rfl
      have empty : Text.fields L.skips ends [] = [] := Text.fields_of_nil rfl
      rw [List.nil_append, List.tail_cons, List.tail_nil, nothing, empty]
    | cons e after =>
      -- A code point of the text ends the field, and the sentinel is still ahead.
      rw [later, List.tail_cons] at ih
      have suffix : e :: after <:+ d :: rest := later ▸ List.dropWhile_suffix (!ends ·)
      rw [List.cons_append, List.tail_cons, List.tail_cons, ih]
      intro f member
      exact remaining f (suffix.mem (List.mem_cons_of_mem e member))

theorem decodeBuffer_buffer (h : ∀ c, L.write c = (Encoding.plain .utf8).write [c]) (t : Text) :
    Rules.decodeBuffer (L.buffer t) = .ok (t.filter CodePoint.isScalar) := by
  have written : L.buffer t = (t.filter CodePoint.isScalar).flatMap Encoding.utf8 := by
    induction t with
    | nil => rfl
    | cons c t ih =>
      rw [buffer, List.flatMap_cons, h, Encoding.write_utf8]
      cases proper : c.isScalar with
      | true => simp [proper, ← ih, buffer, Writing.bytes?]
      | false => simp [proper, ← ih, buffer, Writing.bytes?]
  have scalar : ∀ c ∈ t.filter CodePoint.isScalar, c.isScalar :=
    fun c member => (List.mem_filter.mp member).2
  rw [written, Rules.decodeBuffer, Decoder.scan_flatMap_utf8 scalar]
  rfl

end Lexis

def Verdict.word (P : CodePoint → Bool) (buffer : Bytes) : Verdict Text :=
  match Rules.decodeBuffer buffer with
  | .error f => .failed f
  | .ok t =>
    match t.getLast? with
    | none => .more
    | some c => if P c then .token t.dropLast else .more

theorem Verdict.word_of_decodeBuffer {P : CodePoint → Bool} {buffer : Bytes} {t : Text}
    {c : CodePoint} (h : Rules.decodeBuffer buffer = .ok (t ++ [c])) :
    Verdict.word P buffer = if P c then .token t else .more := by
  simp [word, h]

/-- What goes with the separators `P`: they are skipped between words, the buffer is in UTF-8, and
the sentinel is one of them. -/
structure Options.Separates {μ : Type} (o : Options μ) (P : CodePoint → Bool) : Prop where
  space : ∀ c user, (o.space.holds [c] user).1 = .ok (P c)
  encoding : Encoding.ofName? o.encoding = some (.plain .utf8)
  sentinel : o.sentinel.isScalar
  ends : P o.sentinel = true

theorem Options.default_separates {μ : Type} :
    (Options.default : Options μ).Separates CodePoint.isSpace where
  space c user := by simp [Options.default, SpaceTest.holds]
  encoding := by
    have known : Encoding.ofName? (Text.ofString "utf-8") = some (.plain .utf8) := by decide
    exact known
  sentinel := rfl
  ends := rfl

namespace Tokenizer

variable {μ : Type} {P : CodePoint → Bool} {o : Options μ}

def words (P : CodePoint → Bool) (o : Options μ) : Tokenizer μ Text where
  mapper buffer user := (.word P buffer, user)
  options := o

def wordLexis (P : CodePoint → Bool) (o : Options μ) : Lexis Text where
  skips := P
  name := o.encoding
  write c := (Encoding.plain .utf8).write [c]
  judge := .word P

theorem wordLexis_endsAt : (wordLexis P o).EndsAt P := by
  intro start c scalar
  have proper : c.isScalar := scalar c (List.mem_append_right start (List.mem_singleton_self c))
  have decoded : Rules.decodeBuffer ((wordLexis P o).buffer (start ++ [c])) =
      .ok (start ++ [c]) := by
    rw [Lexis.decodeBuffer_buffer fun _ => rfl, List.filter_eq_self.mpr scalar]
  have judged : (wordLexis P o).judge ((wordLexis P o).buffer (start ++ [c])) =
      if P c then .token start else .more := Verdict.word_of_decodeBuffer decoded
  have written : (wordLexis P o).write c = .bytes (Encoding.utf8 c) :=
    (Encoding.write_utf8 c).trans (if_pos proper)
  simp only [Lexis.decision?, List.getLast?_append, List.getLast?_singleton, Option.some_or,
    written, judged]
  cases P c <;> rfl

theorem words_follows (h : o.Separates P) : (words P o).Follows (wordLexis P o) where
  space := h.space
  encoding := rfl
  writes c := congrFun (Codecs.standard_of_ofName? h.encoding) [c]
  mapper _ _ := rfl
  reports text f failed := by
    have decoded := Lexis.decodeBuffer_buffer (L := wordLexis P o) (fun _ => rfl) text
    have judged : Verdict.word P ((wordLexis P o).buffer text) = .failed f := failed
    simp only [Verdict.word, decoded] at judged
    split at judged
    · cases judged
    · split at judged <;> cases judged

end Tokenizer

namespace Scanner

variable {μ : Type}

theorem tokens_words_eq_fields {P : CodePoint → Bool} {o : Options μ} (h : o.Separates P)
    {reader : Reader} {s : Text} (scalar : ∀ c ∈ s, c.isScalar) (delivers : reader.Delivers s)
    (user : μ) :
    ∃ after, (new (.words P o) reader user).tokens = (s.fields P P, none, after) := by
  have reference : (Tokenizer.wordLexis P o).tokens (s ++ [o.sentinel]) = (s.fields P P, none) :=
    Tokenizer.wordLexis_endsAt.tokens h.ends h.ends h.sentinel scalar
  have ready : Tokenizer.Follows.Ready o.sentinel (s ++ [o.sentinel])
      (new (.words P o) reader user).world := ready_new (.words P o) delivers user
  obtain ⟨after, iterated⟩ :=
    tokens_of_ready (s := new (.words P o) reader user) (Tokenizer.words_follows h) ready
  refine ⟨after, ?_⟩
  rw [iterated, reference]
  rfl

/-- The words of a text in scalar code points are its runs between separators, whatever the
separators are, and no fault puts an end to them. With white space and a line feed for the end of
input they are what splitting the text gives. -/
theorem tokens_words_eq_runs {s : Text} (scalar : ∀ c ∈ s, c.isScalar) {reader : Reader}
    (delivers : reader.Delivers s) (user : μ) :
    (∀ (P : CodePoint → Bool) (o : Options μ), o.Separates P →
      ∃ after, (new (.words P o) reader user).tokens = (s.runs P, none, after)) ∧
    ∃ after, (new (.words CodePoint.isSpace .default) reader user).tokens =
      (s.split, none, after) := by
  refine ⟨?_, tokens_words_eq_fields Options.default_separates scalar delivers user⟩
  intro P o h
  rw [← Text.fields_eq_runs]
  exact tokens_words_eq_fields h scalar delivers user

def commas : Options Nat :=
  ⟨0x2c, Text.ofString "utf8", .custom fun u n => (.ok (u == [0x2c]), n + 1)⟩

theorem commas_separates : commas.Separates (· == 0x2c) where
  space c n := by simp [commas, SpaceTest.holds]
  encoding := by decide
  sentinel := by decide
  ends := by decide

theorem tokens_words_eq_runs_commas :
    ∃ after,
      (new (.words (· == 0x2c) commas) (.ofText [0x2c, 0x61, 0xe9, 0x2c, 0x2c, 0x20ac, 0x1f600])
        0).tokens = ([[0x61, 0xe9], [0x20ac, 0x1f600]], none, after) := by
  have runs : Text.runs (· == 0x2c) [0x2c, 0x61, 0xe9, 0x2c, 0x2c, 0x20ac, 0x1f600] =
      [[0x61, 0xe9], [0x20ac, 0x1f600]] := by
    simp [Text.runs, List.splitOnP_cons_eq_if_modifyHead]
  rw [← runs]
  exact (tokens_words_eq_runs (by decide) (Reader.delivers_ofText _) 0).1 _ _ commas_separates

end Scanner

end RuneMachine
