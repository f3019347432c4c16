import RuneMachine.Proofs.Tokenizer.Refinement

namespace RuneMachine

namespace Tokenizer

variable {μ τ : Type} {t : Tokenizer μ τ}

theorem encodeEach?_cons (t : Tokenizer μ τ) (c : CodePoint) (text : Text) :
    t.encodeEach? (c :: text) =
      (t.write [c]).bytes?.bind fun first => (t.encodeEach? text).map (first ++ ·) := by
  cases first : (t.write [c]).bytes? <;>
    cases later : text.mapM (fun c => (t.write [c]).bytes?) <;>
    simp [encodeEach?, first, later]

theorem encodeEach?_eq_encode? {e : Encoding} (writes : t.write = e.write) (unmarked : e.mark = [])
    (text : Text) : t.encodeEach? text = e.encode? text := by
  induction text with
  | nil => simp [encodeEach?, Encoding.encode?, unmarked]
  | cons c text ih =>
    rw [encodeEach?_cons, ih, writes, Encoding.bytes?_write]
    by_cases first : e.covers c = true <;> by_cases later : text.all e.covers = true <;>
      simp [Encoding.encode?, unmarked, first, later]

end Tokenizer

structure Stretch where
  gap : Text
  block : Text

namespace Stretch

def text (p : Stretch) : Text := p.gap ++ p.block

def prefixes (p : Stretch) : List Text := p.block.inits.tail

structure Opens (P : CodePoint → Bool) (p : Stretch) : Prop where
  gap : ∀ c ∈ p.gap, P c = true
  block : ∀ c ∈ p.block.head?, P c = false

def between (T : Text) (span : Nat × Nat) : Text := (T.take (span.2 + 1)).drop span.1

theorem prefixes_eq (p : Stretch) :
    p.prefixes = (List.range p.block.length).map fun k => p.block.take (k + 1) := by
  apply List.ext_getElem
  · simp [prefixes]
  · intro k _ _
    simp [prefixes]

theorem prefixes_eq_between (p : Stretch) (before after : Text) :
    p.prefixes =
      ((List.range p.block.length).map fun k => (before.length, before.length + k)).map
        (between (before ++ (p.block ++ after))) := by
  rw [prefixes_eq, List.map_map]
  apply List.map_congr_left
  intro k member
  have within := List.mem_range.mp member
  simp only [Function.comp_apply, between, Nat.add_assoc, List.take_length_add_append,
    List.drop_left, List.take_append_of_le_length within]

theorem exists_spans (stretches : List Stretch) (before after : Text) :
    ∃ spans : List (Nat × Nat),
      stretches.flatMap prefixes =
        spans.map (between (before ++ (stretches.flatMap text ++ after))) ∧
      (∀ span ∈ spans, before.length ≤ span.1 ∧ span.1 ≤ span.2 ∧
        span.2 < before.length + (stretches.flatMap text).length) ∧
      (spans.map Prod.snd).Pairwise (· < ·) := by
  induction stretches generalizing before with
  | nil => exact ⟨[], rfl, by simp, by simp⟩
  | cons p stretches ih =>
    obtain ⟨spans, later, bounds, increasing⟩ := ih (before ++ p.text)
    let rest := stretches.flatMap text ++ after
    let start := (before ++ p.gap).length
    have first := p.prefixes_eq_between (before ++ p.gap) rest
    have whole : before ++ ((p :: stretches).flatMap text ++ after) =
        before ++ p.gap ++ (p.block ++ rest) := by
      simp [text, rest]
    have again : before ++ p.text ++ rest = before ++ p.gap ++ (p.block ++ rest) := by
      simp [text]
    refine ⟨(List.range p.block.length).map (fun k => (start, start + k)) ++ spans, ?_, ?_, ?_⟩
    · rw [whole, List.flatMap_cons, List.map_append, ← first, later, again]
    · intro span member
      obtain ⟨k, within, rfl⟩ | other := List.mem_append.mp member |>.imp_left List.mem_map.mp
      · have short := List.mem_range.mp within
        simp only [start, text, List.length_append, List.flatMap_cons]
        omega
      · have bounded := bounds span other
        simp only [text, List.length_append, List.flatMap_cons] at bounded ⊢
        omega
    · simp only [List.map_append, List.map_map, Function.comp_def]
      refine List.pairwise_append.mpr ⟨?_, increasing, ?_⟩
      · exact List.pairwise_map.mpr (List.pairwise_lt_range.imp (Nat.add_lt_add_left · start))
      · -- The block ends before the spans of what comes after it begin.
        intro place first place' second
        obtain ⟨k, within, rfl⟩ := List.mem_map.mp first
        obtain ⟨span, other, rfl⟩ := List.mem_map.mp second
        have short := List.mem_range.mp within
        have bounded := bounds span other
        simp only [start, text, List.length_append] at bounded ⊢
        omega

/-- Stretches of the text `T` account for scans: each scan showed the prefixes of one block. -/
structure Account (P : CodePoint → Bool) (encode : Text → Option Bytes) (T : Text)
    (scans : List (Outcome × List Bytes)) (stretches : List Stretch) : Prop where
  shown : scans.map (fun scan => scan.2.map some) =
    stretches.map fun p => p.prefixes.map encode
  opens : ∀ p ∈ stretches, p.Opens P
  within : stretches.flatMap text <+: T
  finished : ∀ scan ∈ scans, scan.1 ≠ .unfinished

namespace Account

variable {P : CodePoint → Bool} {encode : Text → Option Bytes} {T rest : Text} {p : Stretch}
  {scan : Outcome × List Bytes} {scans : List (Outcome × List Bytes)} {stretches : List Stretch}

theorem cons (later : Account P encode rest scans stretches) (split : p.text ++ rest = T)
    (opens : p.Opens P) (shown : scan.2.map some = p.prefixes.map encode)
    (finished : scan.1 ≠ .unfinished) : Account P encode T (scan :: scans) (p :: stretches) where
  shown := by rw [List.map_cons, List.map_cons, shown, later.shown]
  opens := List.forall_mem_cons.mpr ⟨opens, later.opens⟩
  within := by
    rw [List.flatMap_cons, ← split]
    exact (List.prefix_append_right_inj _).mpr later.within
  finished := List.forall_mem_cons.mpr ⟨finished, later.finished⟩

theorem refused (P : CodePoint → Bool) (encode : Text → Option Bytes) (T : Text) (n : Nat) :
    Account P encode T (List.replicate n (.returned false, [])) (List.replicate n ⟨[], []⟩) := by
  induction n with
  | zero => exact ⟨rfl, by simp, List.nil_prefix, by simp⟩
  | succ n ih => exact ih.cons rfl ⟨by simp, by simp⟩ rfl (by simp)

end Account

end Stretch

namespace Tokenizer.Course

variable {μ τ : Type}

def stretch (k : Course μ τ) : Stretch := ⟨k.gap, k.block.take k.shown.length⟩

theorem opens_stretch {t : Tokenizer μ τ} {P : CodePoint → Bool}
    (space : ∀ c user, (t.options.space.holds [c] user).1 = .ok (P c)) (T : Text)
    (m : Memory μ τ) : (t.course T m).stretch.Opens P where
  gap d member := by
    obtain ⟨user, kept⟩ := gap_course t T m d member
    simpa [space] using kept
  block d first := by
    rw [stretch, List.head?_take] at first
    split at first
    · cases first
    · obtain ⟨user, rejected⟩ := head?_course t T m d first
      simpa [space] using rejected

end Tokenizer.Course

namespace Scanner

open Tokenizer

variable {μ τ : Type} {s : Scanner μ τ}

def scans (s : Scanner μ τ) : Nat → List (Outcome × List Bytes)
  | 0 => []
  | n + 1 =>
    match s.scan with
    | (outcome, s') => (outcome, s'.shown.drop s.shown.length) :: s'.scans n

theorem scans_of_failed (failed : s.world.latch.isFailed = true) (n : Nat) :
    s.scans n = List.replicate n (.returned false, []) := by
  have refused := scan_of_failed failed
  induction n with
  | zero => rfl
  | succ n ih =>
    simp only [scans, refused, List.drop_length, ih, List.replicate_succ]

theorem exists_account {t : Tokenizer μ τ} {P : CodePoint → Bool}
    (space : ∀ c user, (t.options.space.holds [c] user).1 = .ok (P c))
    (writes : ∀ c f, t.write [c] ≠ .raised f) (same : s.tokenizer = t) {T : Text}
    {m : Memory μ τ} {before : List Bytes} (h : Stands t.options.sentinel T m before s.world)
    (n : Nat) : ∃ stretches, Stretch.Account P t.encodeEach? T (s.scans n) stretches := by
  induction n generalizing s T m before with
  | zero => exact ⟨[], Stretch.Account.refused P t.encodeEach? T 0⟩
  | succ n ih =>
    subst same
    obtain ⟨s', scanned, same, left⟩ := scan_course h
    have laws := lawful_course s.tokenizer T m
    have opens := Course.opens_stretch space T m
    generalize s.tokenizer.course T m = k at scanned left laws opens
    have fresh : s'.shown.drop s.shown.length = k.shown := by
      simp only [Scanner.shown, left.shown_eq, h.shown, List.drop_left]
    have step : s.scans (n + 1) = (k.outcome, k.shown) :: s'.scans n := by
      simp only [scans, scanned, fresh]
    have own : k.shown.map some = k.stretch.prefixes.map s.tokenizer.encodeEach? := laws.shown
    rw [step]
    by_cases unfailed : ∀ f, k.ending ≠ some (.failed f)
    · obtain ⟨stretches, later⟩ := ih same (left.stands unfailed)
      have split : k.stretch.text ++ k.rest = T := by
        rw [Stretch.text, Course.stretch, laws.complete writes unfailed, List.take_length]
        exact laws.text
      exact ⟨_, later.cons split opens own k.outcome_ne_unfinished⟩
    · -- An error is latched, so that every scan from now on is refused.
      obtain ⟨f, ended⟩ := not_forall_not.mp unfailed
      have failed : s'.world.latch.isFailed = true := by rw [left.latch_eq ended]; rfl
      rw [scans_of_failed failed]
      have split : k.stretch.text ++ (k.block.drop k.shown.length ++ k.rest) = T := by
        rw [Stretch.text, Course.stretch, List.append_assoc, ← List.append_assoc (List.take _ _),
          List.take_append_drop, ← List.append_assoc]
        exact laws.text
      exact ⟨_, (Stretch.Account.refused P _ _ n).cons split opens own k.outcome_ne_unfinished⟩

/-- What the mapper is shown by any number of scans of a text, with UTF-8 for the buffer. The
buffers of one scan are the encodings of the prefixes of one block, the shortest first, none left
out and none shown twice; the block does not begin with space. Blocks follow one another in the
text and its sentinel, separated by space and nothing else. So the buffers that are ever shown end
in different places of the text, one after the other. -/
theorem scans_show_blocks {t : Tokenizer μ τ} {P : CodePoint → Bool}
    (space : ∀ c user, (t.options.space.holds [c] user).1 = .ok (P c))
    (utf8 : t.write = (Encoding.plain .utf8).write) {reader : Reader} {s : Text}
    (h : reader.Delivers s) (user : μ) (n : Nat) :
    let scans := (new t reader user).scans n
    let T := s ++ [t.options.sentinel]
    (∀ scan ∈ scans, scan.1 ≠ .unfinished) ∧
    (∃ stretches : List Stretch,
      scans.map (fun scan => scan.2.map some) =
        stretches.map (fun p => p.prefixes.map (Encoding.plain .utf8).encode?) ∧
      (∀ p ∈ stretches, p.Opens P) ∧ stretches.flatMap Stretch.text <+: T) ∧
    ∃ spans : List (Nat × Nat),
      (scans.flatMap Prod.snd).map some =
        spans.map (fun span => (Encoding.plain .utf8).encode? (Stretch.between T span)) ∧
      (∀ span ∈ spans, span.1 ≤ span.2 ∧ span.2 < T.length) ∧
      (spans.map Prod.snd).Pairwise (· < ·) := by
  intro scans T
  have each : t.encodeEach? = (Encoding.plain .utf8).encode? :=
    funext (encodeEach?_eq_encode? utf8 rfl)
  have writes (c : CodePoint) (f : Fault) : t.write [c] ≠ .raised f := by
    rw [utf8]
    exact Encoding.write_ne_raised _ _ f
  obtain ⟨stretches, shown, opens, within, finished⟩ :=
    exists_account space writes rfl (stands_new t h user) n
  rw [each] at shown
  refine ⟨finished, ⟨stretches, shown, opens, within⟩, ?_⟩
  obtain ⟨after, whole⟩ := within
  obtain ⟨spans, ends, bounds, increasing⟩ := Stretch.exists_spans stretches [] after
  rw [List.nil_append, whole] at ends
  refine ⟨spans, ?_, ?_, increasing⟩
  · have flat := congrArg List.flatten shown
    rw [← List.flatMap_def, ← List.flatMap_def] at flat
    calc (scans.flatMap Prod.snd).map some
      _ = stretches.flatMap fun p => p.prefixes.map (Encoding.plain .utf8).encode? := by
        rw [List.map_flatMap, flat]
      _ = (stretches.flatMap Stretch.prefixes).map (Encoding.plain .utf8).encode? := by
        rw [List.map_flatMap]
      _ = _ := by rw [ends, List.map_map]; rfl
  · intro span member
    obtain ⟨-, ordered, inside⟩ := bounds span member
    have shorter : (stretches.flatMap Stretch.text).length + after.length = T.length := by
      rw [← List.length_append, whole]
    rw [List.length_nil] at inside
    exact ⟨ordered, by omega⟩

def impatient : Tokenizer Nat Bytes where
  mapper b n :=
    (if b.length = 3 then .failed (Fault.bare .type)
      else if b.getLast? = some 0x0a then .token b else .more, n + 1)
  options := ⟨0x0a, Text.ofString "utf-8", .custom fun u n => (.ok (u == [0x20]), n + 1)⟩

theorem scans_show_blocks_impatient :
    let text : Text := [0x20, 0xe9, 0x62, 0x20, 0x63]
    let scans := (new impatient (Reader.ofText text) 0).scans 3
    (∀ c user, (impatient.options.space.holds [c] user).1 = .ok (c == 0x20)) ∧
    impatient.write = (Encoding.plain .utf8).write ∧
    (Reader.ofText text).Delivers text ∧
    scans.map Prod.snd = [[[0xc3, 0xa9], [0xc3, 0xa9, 0x62]], [[0x63], [0x63, 0x0a]], []] ∧
    ∃ spans : List (Nat × Nat),
      (scans.flatMap Prod.snd).map some =
        spans.map
          (fun span => (Encoding.plain .utf8).encode? (Stretch.between (text ++ [0x0a]) span)) ∧
      (spans.map Prod.snd).Pairwise (· < ·) := by
  intro text scans
  have space : ∀ c user, (impatient.options.space.holds [c] user).1 = .ok (c == 0x20) := by
    simp [impatient, SpaceTest.holds]
  have known : Encoding.ofName? impatient.options.encoding = some (.plain .utf8) := by decide
  have utf8 : impatient.write = (Encoding.plain .utf8).write := Codecs.standard_of_ofName? known
  have delivers := Reader.delivers_ofText text
  obtain ⟨-, -, spans, shown, -, increasing⟩ := scans_show_blocks space utf8 delivers 0 3
  exact ⟨space, utf8, delivers, by decide +kernel, spans, shown, increasing⟩

end Scanner

end RuneMachine
