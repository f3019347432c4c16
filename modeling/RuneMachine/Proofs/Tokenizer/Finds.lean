import RuneMachine.Proofs.Tokenizer.Blocks

namespace RuneMachine

variable {μ τ : Type}

namespace Tokenizer

structure Find (τ : Type) extends Stretch where
  buffer : Bytes
  token : τ

variable {t : Tokenizer μ τ} {find : Find τ} {finds earlier later : List (Find τ)}

/-- The buffer holds the block, the mapper answered it with the token, and the test rejected the
first code point of the block. -/
structure Find.Recognised (t : Tokenizer μ τ) (find : Find τ) : Prop where
  buffer : t.encodeEach? find.block = some find.buffer
  token : ∃ user, (t.mapper find.buffer user).1 = .token find.token
  opens : ∃ c rest, find.block = c :: rest ∧
    ∃ user, (t.options.space.holds [c] user).1 = .ok false

def Passes (t : Tokenizer μ τ) (c : CodePoint) : Prop :=
  ∀ user, (t.options.space.holds [c] user).1 ≠ .ok false

def Find.start (earlier : List (Find τ)) (find : Find τ) : Nat :=
  (earlier.flatMap (·.text) ++ find.gap).length

theorem exists_find {T : Text} {m : Memory μ τ} {token : τ}
    (ended : (t.course T m).ending = some (.token token)) :
    ∃ find : Find τ, find.Recognised t ∧ find.token = token ∧
      find.text = (t.course T m).gap ++ (t.course T m).block ∧
      (t.course T m).shown.getLast? = some find.buffer := by
  obtain ⟨-, -, -, found⟩ := lawful_course t T m
  obtain ⟨taken, -, buffer, user, encoded, last, mapped⟩ := found token ended
  obtain ⟨c, rest, block⟩ := List.exists_cons_of_ne_nil taken
  have rejected := head?_course t T m c (by rw [block]; rfl)
  refine ⟨⟨⟨(t.course T m).gap, (t.course T m).block⟩, buffer, token⟩, ?_, rfl, rfl, last⟩
  exact ⟨encoded, ⟨user, mapped⟩, c, rest, block, rejected⟩

theorem exists_finds (T : Text) (m : Memory μ τ) :
    ∃ finds : List (Find τ),
      (t.courses T m).1.filterMap Course.token? = finds.map (·.token) ∧
      (finds.map (·.buffer)).Sublist ((t.courses T m).1.flatMap Course.shown) ∧
      (∀ find ∈ finds, find.Recognised t) ∧ finds.flatMap (·.text) <+: T := by
  induction T, m using courses.induct t with
  | case1 T m token ended _ _ _ ih =>
    obtain ⟨finds, tokens, shown, recognised, within⟩ := ih
    obtain ⟨find, now, same, text, last⟩ := exists_find ended
    have whole : find.text ++ (t.course T m).rest = T := text ▸ (lawful_course t T m).text
    rw [courses_of_token ended]
    refine ⟨find :: finds, ?_, ?_, List.forall_mem_cons.mpr ⟨now, recognised⟩, ?_⟩
    · have first : (t.course T m).token? = some token := by simp only [Course.token?, ended]
      rw [List.filterMap_cons_some first, List.map_cons, same, tokens]
    · have buffer := List.singleton_sublist.mpr (List.mem_of_getLast? last)
      exact buffer.append shown
    · rw [List.flatMap_cons]
      exact whole ▸ (List.prefix_append_right_inj _).mpr within
  | case2 T m other =>
    rw [courses_of_other other]
    exact ⟨[], rfl, List.Sublist.refl _, by simp, List.nil_prefix⟩

variable {s : Text} {c : CodePoint}

theorem Find.start_lt_or (recognised : ∀ find ∈ finds, find.Recognised t)
    (within : finds.flatMap (·.text) <+: s ++ [c]) (split : finds = earlier ++ find :: later) :
    find.start earlier < s.length ∨
      earlier.flatMap (·.text) ++ find.gap = s ∧ find.block = [c] ∧ later = [] := by
  subst split
  obtain ⟨rest, whole⟩ := within
  obtain ⟨-, -, d, more, block, -⟩ := recognised find (by simp)
  have parted : (earlier.flatMap (·.text) ++ find.gap) ++
      d :: (more ++ (later.flatMap (·.text) ++ rest)) = s ++ [c] := by
    rw [← whole]
    simp [Stretch.text, block]
  have lengths := congrArg List.length parted
  simp only [List.length_append, List.length_cons, List.length_nil] at lengths
  by_cases inside : find.start earlier < s.length
  · exact .inl inside
  · rw [start, List.length_append] at inside
    obtain ⟨all, sentinel⟩ := List.append_inj parted (by rw [List.length_append]; omega)
    obtain ⟨rfl, nothing⟩ := List.cons.inj sentinel
    obtain ⟨rfl, nothing⟩ := List.append_eq_nil_iff.mp nothing
    refine .inr ⟨all, block, ?_⟩
    cases later with
    | nil => rfl
    | cons next later =>
      obtain ⟨-, -, d', more', block', -⟩ := recognised next (by simp)
      simp [Stretch.text, block'] at nothing

theorem Find.start_lt (recognised : ∀ find ∈ finds, find.Recognised t)
    (within : finds.flatMap (·.text) <+: s ++ [c]) (passes : t.Passes c)
    (split : finds = earlier ++ find :: later) : find.start earlier < s.length := by
  obtain inside | ⟨-, block, -⟩ := start_lt_or recognised within split
  · exact inside
  · obtain ⟨-, -, d, more, block', user, rejected⟩ := recognised find (by simp [split])
    cases block.symm.trans block'
    exact absurd rejected (passes user)

theorem Find.length_le (recognised : ∀ find ∈ finds, find.Recognised t)
    (within : finds.flatMap (·.text) <+: s ++ [c]) (passes : t.Passes c) {k : Nat}
    (space : ∀ d ∈ s.drop ((finds.take k).flatMap (·.text)).length, t.Passes d) :
    finds.length ≤ k := by
  by_contra more
  obtain ⟨find, later, rest⟩ : ∃ find later, finds.drop k = find :: later :=
    List.exists_cons_of_ne_nil (List.ne_nil_of_length_pos (by rw [List.length_drop]; omega))
  have split : finds = finds.take k ++ find :: later := by rw [← rest, List.take_append_drop]
  have inside := start_lt recognised within passes split
  obtain ⟨-, -, d, tail, block, user, rejected⟩ := recognised find (by rw [split]; simp)
  have opened : (finds.take k).flatMap (·.text) ++ (find.gap ++ [d]) <+: s := by
    refine List.prefix_of_prefix_length_le (List.IsPrefix.trans ?_ within) (s.prefix_append [c]) ?_
    · rw [split, List.take_left' (by simp; omega)]
      simp [Stretch.text, block]
    · simp only [start, List.length_append, List.length_singleton] at inside ⊢
      omega
  obtain ⟨rest, whole⟩ := opened
  refine space d ?_ user rejected
  rw [← whole, List.append_assoc, List.drop_left]
  simp

end Tokenizer

namespace Scanner

open Tokenizer

/-- Each token of an iteration is the mapper's answer to a buffer that it was shown, and the buffer
holds a block of the text and the sentinel. The blocks follow one another. If the test never rejects
the sentinel, then every block begins in the text, and once all that is left of the text is never
rejected either, there are no further tokens; so there are none at all if the text is empty or
space. Otherwise there is one exception: the last block may be the sentinel alone. -/
theorem tokens_begin_in_text (t : Tokenizer μ τ) {reader : Reader} {s : Text}
    (h : reader.Delivers s) (user : μ) :
    ∃ (finds : List (Find τ)) (fault : Option Fault) (after : Scanner μ τ),
      (new t reader user).tokens = (finds.map (·.token), fault, after) ∧
      (finds.map (·.buffer)).Sublist after.shown ∧ (∀ find ∈ finds, find.Recognised t) ∧
      finds.flatMap (·.text) <+: s ++ [t.options.sentinel] ∧
      (∀ earlier find later, finds = earlier ++ find :: later → find.start earlier < s.length ∨
        earlier.flatMap (·.text) ++ find.gap = s ∧ find.block = [t.options.sentinel] ∧
          later = []) ∧
      (t.Passes t.options.sentinel →
        (∀ earlier find later, finds = earlier ++ find :: later →
          find.start earlier < s.length) ∧
        ∀ k, (∀ d ∈ s.drop ((finds.take k).flatMap (·.text)).length, t.Passes d) →
          finds.length ≤ k) := by
  rcases taken : t.courses (s ++ [t.options.sentinel]) (.new user) with ⟨found, last⟩
  obtain ⟨after, tokens, shown⟩ := tokens_courses t h user taken
  obtain ⟨finds, named, buffers, recognised, within⟩ :=
    exists_finds (t := t) (s ++ [t.options.sentinel]) (.new user)
  rw [taken] at named buffers
  refine ⟨finds, last.fault? after.offset, after, ?_, ?_, recognised, within, ?_, ?_⟩
  · rw [tokens, named]
  · rw [shown]
    exact buffers.trans (List.sublist_append_left _ _)
  · intro earlier find later
    exact Find.start_lt_or recognised within
  · intro passes
    exact ⟨fun _ _ _ => Find.start_lt recognised within passes,
      fun _ => Find.length_le recognised within passes⟩

def semicolons : Tokenizer Unit Bytes where
  mapper b _ := (if b.getLast? = some 0x3b then .token b.dropLast else .more, ())
  options := { Options.default with sentinel := 0x3b }

theorem not_tokens_begin_in_text_semicolons :
    ¬∀ (t : Tokenizer Unit Bytes) (s : Text),
      ∃ (finds : List (Find Bytes)) (fault : Option Fault) (after : Scanner Unit Bytes),
        (new t (Reader.ofText s) ()).tokens = (finds.map (·.token), fault, after) ∧
        (∀ find ∈ finds, find.Recognised t) ∧
        finds.flatMap (·.text) <+: s ++ [t.options.sentinel] ∧
        ∀ earlier find later, finds = earlier ++ find :: later →
          find.start earlier < s.length := by
  intro always
  obtain ⟨finds, fault, after, tokens, -, -, inside⟩ := always semicolons []
  have one : (new semicolons (Reader.ofText []) ()).tokens.1 = [[]] := by decide
  rw [tokens] at one
  cases finds with
  | nil => cases one
  | cons find later => exact absurd (inside [] find later rfl) (Nat.not_lt_zero _)

theorem tokens_begin_in_text_line_feed :
    let t : Tokenizer Unit Bytes := { semicolons with options := .default }
    let field : Text := [0x20, 0x61, 0x3b, 0x20]
    let blank : Text := [0x20, 0x0a]
    (Reader.ofText field).Delivers field ∧ (Reader.ofText blank).Delivers blank ∧
    t.Passes t.options.sentinel ∧ (∀ d ∈ blank, t.Passes d) ∧
    (∃ (finds : List (Find Bytes)) (fault : Option Fault) (after : Scanner Unit Bytes),
      (new t (Reader.ofText field) ()).tokens = (finds.map (·.token), fault, after) ∧
      finds.map (·.token) = [[0x61]] ∧
      ∀ earlier find later, finds = earlier ++ find :: later →
        find.start earlier < field.length) ∧
    (new t (Reader.ofText blank) ()).tokens.1 = [] := by
  intro t field blank
  have passes : ∀ d ∈ blank, t.Passes d := by
    intro d space user
    have accepted : Text.isSpace [d] = true := by
      obtain rfl | rfl : d = 0x20 ∨ d = 0x0a := by simpa [blank] using space
      · decide
      · decide
    simp [t, Options.default, SpaceTest.holds, accepted]
  have sentinel : t.Passes t.options.sentinel := passes 0x0a (by simp [blank])
  obtain ⟨finds, fault, after, tokens, -, -, -, -, inside⟩ :=
    tokens_begin_in_text t (Reader.delivers_ofText field) ()
  obtain ⟨none, fault', after', tokens', -, -, -, -, few⟩ :=
    tokens_begin_in_text t (Reader.delivers_ofText blank) ()
  have one : (new t (Reader.ofText field) ()).tokens.1 = [[0x61]] := by decide
  rw [tokens] at one
  have empty : none = [] :=
    List.eq_nil_of_length_eq_zero (Nat.le_zero.mp ((few sentinel).2 0 passes))
  refine ⟨Reader.delivers_ofText field, Reader.delivers_ofText blank, sentinel, passes,
    ⟨finds, fault, after, tokens, one, (inside sentinel).1⟩, ?_⟩
  rw [tokens', empty]
  rfl

end Scanner

end RuneMachine
