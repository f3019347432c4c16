import RuneMachine.Proofs.Tokenizer.Deliveries
import RuneMachine.Proofs.Tokenizer.Refinement

namespace RuneMachine

theorem exists_error_of_stale {results : List (Except Fault Rune)}
    (stale : results.foldl staysFresh true = false) : ∃ f, .error f ∈ results := by
  induction results with
  | nil => cases stale
  | cons result results ih =>
    cases result with
    | ok u =>
      obtain ⟨f, member⟩ := ih stale
      exact ⟨f, List.mem_cons_of_mem _ member⟩
    | error f => exact ⟨f, List.mem_cons_self⟩

theorem Reader.Holds.offset_eq {r r' : Reader} {us : List Rune}
    {results : List (Except Fault Rune)} (h : r.Holds us) (given : r.Gives results r')
    (c : CodePoint) :
    r'.offset = r.offset + (min us.length (offered c true results).length : Nat) := by
  obtain ⟨rest, split, -, ends⟩ := h.gives given
  have all := congrArg List.length split
  have counted := length_offered c true results
  have moved := given.offset_eq
  rw [List.length_append] at all
  cases fresh : results.foldl staysFresh true with
  | true =>
    rw [fresh] at counted
    omega
  | false =>
    -- An end of input was met, so that all that was held has been read.
    obtain ⟨f, member⟩ := exists_error_of_stale fresh
    obtain ⟨-, rfl⟩ := ends f member
    simp only [fresh, Bool.toNat_false, Bool.toNat_true, List.length_nil] at counted all
    omega

namespace Tokenizer

variable {μ τ : Type} {t : Tokenizer μ τ} {c d : CodePoint} {T done : Text} {m : Memory μ τ}
  {shown : List Bytes} {w w' : Stage μ τ} {mode : Mode}

theorem Stands.calls_turn (h : Stands c (d :: T) m shown w)
    (A : Automaton (Memory μ τ) Note Mode Empty) (mode : Mode) :
    (w.turn A (.substitute c) mode).2.calls = (mode, [d]) :: w.calls := by
  obtain ⟨v, turned, -, -, -, calls, -, -⟩ := h.ready.faces.turn_cons A mode
  rw [turned, World.calls_deliver, calls]

theorem Stands.calls_turn_nil (h : Stands c [] m shown w)
    (A : Automaton (Memory μ τ) Note Mode Empty) (mode : Mode) :
    (w.turn A (.substitute c) mode).2.calls = w.calls := by
  obtain ⟨v, turned, -, -, -, calls, -, -⟩ := h.ready.faces.turn_nil A mode
  rw [turned, calls]

def Course.calls (k : Course μ τ) : List (Mode × Rune) :=
  k.gap.runes.map (.skipping, ·) ++ (k.block.runes.take 1).map (.skipping, ·) ++
    k.block.runes.map (.matching, ·)

theorem Course.beginOutside_calls (k : Course μ τ) : BeginOutside k.calls := by
  unfold calls BeginOutside
  cases k.gap <;> cases k.block <;> simp

theorem Course.deliveries_calls (k : Course μ τ) :
    deliveries k.calls = (k.gap ++ k.block).runes := by
  unfold calls
  rw [List.append_assoc, Text.runes_append]
  cases k.block with
  | nil => simp [deliveries_map_skipping]
  | cons d later =>
    have opens :
        BeginOutside ((.skipping, [d]) :: (Text.runes (d :: later)).map (.matching, ·)) := by
      simp [BeginOutside]
    have split := deliveries_append (k.gap.runes.map (.skipping, ·)) opens
    rw [deliveries_map_skipping, Text.runes_cons, List.map_cons, deliveries_opening,
      deliveries_map_matching] at split
    exact split

theorem Stands.calls_match (h : Stands c T m shown w) {turns : Nat} (enough : T.length < turns) :
    (w.proceed t.automaton (.substitute c) turns (some .matching)).2.calls =
      ((t.courseInside T m).block.runes.map (Mode.matching, ·)).reverse ++ w.calls := by
  induction T generalizing w m shown turns with
  | nil =>
    obtain ⟨turns, rfl⟩ := Nat.exists_eq_add_one.mpr enough
    obtain ⟨w', turned, -⟩ := h.turn_nil t.automaton .matching
    have called := h.calls_turn_nil t.automaton .matching
    rw [turned] at called
    simp only [World.proceed, turned]
    exact called
  | cons d T ih =>
    obtain ⟨turns, rfl⟩ := Nat.exists_eq_add_one.mpr (Nat.zero_lt_of_lt enough)
    obtain ⟨w₁, turned, h₁⟩ := h.turn t.automaton .matching
    have called := h.calls_turn t.automaton .matching
    have delivered := h₁.deliver_extend (t := t) d
    split at delivered
    · next buffers m' fed =>
      obtain ⟨w₂, delivered, h₂⟩ := delivered
      rw [turned, delivered] at called
      have later := ih h₂ (Nat.lt_of_succ_lt_succ enough)
      simp only [World.proceed, turned, delivered, later, courseInside_of_more fed, called]
      simp
    · next buffers ending m' fed =>
      obtain ⟨w', delivered, left⟩ := delivered
      rw [turned, delivered] at called
      have ends : (t.courseInside (d :: T) m).ending = some ending := by
        rw [courseInside_of_ending fed]
      rw [Course.proceed_of_turn ends (turned.trans delivered) turns, courseInside_of_ending fed]
      simpa using called

theorem calls_of_other {user : μ} (held : t.options.space.holds [d] m.user = (.ok false, user)) :
    (t.course (d :: T) m).calls = (.skipping, [d]) ::
      (t.courseInside (d :: T) { m with buffer := [], user := user }).block.runes.map
        (.matching, ·) := by
  rw [course_of_other held, Course.calls, gap_courseInside, Text.runes_nil, List.map_nil,
    List.nil_append]
  have opened := head?_courseInside t d T { m with buffer := [], user := user }
  cases block : (t.courseInside (d :: T) { m with buffer := [], user := user }).block with
  | nil => simp [block] at opened
  | cons d' later =>
    rw [block] at opened
    cases opened
    rfl

theorem Stands.calls_skip (h : Stands c T m shown w) {turns : Nat} (enough : T.length + 1 < turns) :
    (w.proceed t.automaton (.substitute c) turns (some .skipping)).2.calls =
      (t.course T m).calls.reverse ++ w.calls := by
  induction T generalizing w m shown turns with
  | nil =>
    obtain ⟨turns, rfl⟩ := Nat.exists_eq_add_one.mpr (Nat.zero_lt_of_lt enough)
    obtain ⟨w', turned, -⟩ := h.turn_nil t.automaton .skipping
    have called := h.calls_turn_nil t.automaton .skipping
    rw [turned] at called
    simp only [World.proceed, turned]
    exact called
  | cons d T ih =>
    obtain ⟨turns, rfl⟩ := Nat.exists_eq_add_one.mpr (Nat.zero_lt_of_lt enough)
    have fewer := Nat.lt_of_succ_lt_succ enough
    obtain ⟨w₁, turned, h₁⟩ := h.turn t.automaton .skipping
    have called := h.calls_turn t.automaton .skipping
    have delivered := h₁.deliver_skip (t := t) d
    split at delivered
    · next f user held =>
      obtain ⟨w', delivered, -⟩ := delivered
      rw [turned, delivered] at called
      simp only [World.proceed, turned, delivered, course_of_raised held]
      exact called
    · next user held =>
      obtain ⟨w₂, delivered, h₂⟩ := delivered
      rw [turned, delivered] at called
      have later := ih h₂ fewer
      simp only [World.proceed, turned, delivered, later, course_of_space held, called]
      simp [Course.calls]
    · next user held =>
      obtain ⟨w₂, delivered, h₂⟩ := delivered
      rw [turned, delivered] at called
      have later := h₂.calls_match (t := t) fewer
      simp only [World.proceed, turned, delivered, later, calls_of_other held, called]
      simp

/-- The error `f` comes from the newest code point of a block: that has no encoding, or the mapper
fails on the buffer that ends with it, which it was shown last. -/
inductive Blames (t : Tokenizer μ τ) (f : Fault) (shown : List Bytes) : (block : Text) → Prop
  | unencodable {buffer : Bytes} {block : Text} {newest : CodePoint} :
      t.encodeEach? block = some buffer → t.write [newest] = .refused →
      f = unencodable t.options.encoding [newest] → Blames t f shown (block ++ [newest])
  | rejected {buffer : Bytes} {user : μ} {block : Text} {newest : CodePoint} :
      t.encodeEach? (block ++ [newest]) = some buffer → shown.getLast? = some buffer →
      (t.mapper buffer user).1 = .failed f → Blames t f shown (block ++ [newest])

theorem failed_of_present {f : Fault} {m' : Memory μ τ}
    (h : t.present m = (some (.failed f), m')) : (t.mapper m.buffer m.user).1 = .failed f := by
  unfold present at h
  split at h
  · cases h
  · cases h
  · next mapped =>
    split at h <;> cases h
    rw [mapped]

theorem blames_courseInside {f : Fault} (shown : List Bytes) (spells : m.Spells t done)
    (failed : (t.courseInside T m).ending = some (.failed f)) :
    t.Blames f (shown ++ (t.courseInside T m).shown) (done ++ (t.courseInside T m).block) := by
  -- By induction on the text ahead, while the buffer spells the part of the block behind.
  induction T generalizing m done shown with
  | nil => cases failed
  | cons d T ih =>
    rcases fed : t.feed d m with ⟨buffers, _ | ending, m'⟩
    · rw [courseInside_of_more fed] at failed ⊢
      cases feeds_of_feed fed with
      | shown written grown =>
        have later := ih (shown ++ [m'.buffer]) (spells.concat written grown) failed
        simpa using later
    · rw [courseInside_of_ending fed] at failed ⊢
      cases failed
      cases feeds_of_feed fed with
      | unencodable refused => exact .unencodable spells refused rfl
      | shown written grown presented =>
        have longer := spells.concat written grown
        have rejected := failed_of_present (m := { m with buffer := m'.buffer }) presented
        exact .rejected longer (by simp) rejected

theorem blames_course {f : Fault} (shown : List Bytes)
    (failed : (t.course T m).ending = some (.failed f)) :
    t.Blames f (shown ++ (t.course T m).shown) (t.course T m).block := by
  induction T generalizing m with
  | nil => cases failed
  | cons d T ih =>
    rcases held : t.options.space.holds [d] m.user with ⟨f | _ | _, user⟩
    · rw [course_of_raised held] at failed
      cases failed
    · rw [course_of_other held] at failed ⊢
      exact blames_courseInside shown .nil failed
    · rw [course_of_space held] at failed ⊢
      exact ih failed

end Tokenizer

namespace Scanner

open Tokenizer

variable {μ τ : Type} {s : Scanner μ τ} {T taken rest : Text} {m : Memory μ τ} {shown : List Bytes}

theorem delivered_scan (h : Stands s.tokenizer.options.sentinel T m shown s.world) :
    s.scan.2.delivered = s.delivered ++
      ((s.tokenizer.course T m).gap ++ (s.tokenizer.course T m).block).runes := by
  have enough : T.length + 1 < s.turnBound := by
    have bounded := h.ready.length_le
    simp only [turnBound]
    omega
  have called := h.calls_skip (t := s.tokenizer) enough
  have passed : s.scan.2.world = (s.world.proceed s.tokenizer.automaton
      (.substitute s.tokenizer.options.sentinel) s.turnBound (some .skipping)).2 := by
    simp only [scan, World.pass_of_going h.ready.faces.isFailed]
    rfl
  rw [delivered, passed, called, List.reverse_append, List.reverse_reverse,
    deliveries_append _ (Course.beginOutside_calls _), Course.deliveries_calls]
  rfl

inductive Position (s : Scanner μ τ) (taken rest : Text) : Prop
  | going {m : Memory μ τ} {shown : List Bytes} : s.delivered = taken.runes →
      Stands s.tokenizer.options.sentinel rest m shown s.world → Position s taken rest
  | failed {before block : Text} {f : Fault} : s.delivered = taken.runes →
      taken = before ++ block → s.tokenizer.Blames f s.shown block →
      s.world.latch = .failed (f.locate s.offset []).1 → Position s taken rest

theorem Position.delivered (h : s.Position taken rest) : s.delivered = taken.runes := by
  cases h with
  | going delivered => exact delivered
  | failed delivered => exact delivered

theorem Position.scan (h : s.Position taken rest) :
    ∃ more later, rest = more ++ later ∧ s.scan.2.Position (taken ++ more) later := by
  cases h with
  | failed delivered split blames latch =>
    have failed : s.world.latch.isFailed = true := by rw [latch]; rfl
    rw [scan_of_failed failed]
    exact ⟨[], rest, rfl, by simpa using .failed delivered split blames latch⟩
  | @going m shown delivered stands =>
    obtain ⟨s', scanned, same, left⟩ := scan_course stands
    have text := (lawful_course s.tokenizer rest m).text
    have added := delivered_scan stands
    have blames (f : Fault) := blames_course (t := s.tokenizer) (T := rest) (m := m) (f := f) shown
    generalize s.tokenizer.course rest m = k at scanned left text added blames
    rw [delivered, ← Text.runes_append] at added
    rw [scanned] at added ⊢
    rw [← same] at left blames
    refine ⟨k.gap ++ k.block, k.rest, text.symm, ?_⟩
    by_cases unfailed : ∀ f, k.ending ≠ some (.failed f)
    · exact .going added (left.stands unfailed)
    · obtain ⟨f, failed⟩ := not_forall_not.mp unfailed
      have blamed := blames f failed
      have shows : s'.shown = shown ++ k.shown := left.shown_eq
      rw [← shows] at blamed
      exact .failed added (List.append_assoc taken _ _).symm blamed (left.latch_eq failed)

theorem position_new (t : Tokenizer μ τ) {reader : Reader} {s : Text} (h : reader.Delivers s)
    (user : μ) : (new t reader user).Position [] (s ++ [t.options.sentinel]) :=
  .going rfl (stands_new t h user)

theorem exists_position (t : Tokenizer μ τ) {reader : Reader} {s : Text} (h : reader.Delivers s)
    (user : μ) (n : Nat) :
    ∃ taken rest, s ++ [t.options.sentinel] = taken ++ rest ∧
      ((new t reader user).after n).Position taken rest := by
  induction n with
  | zero => exact ⟨[], _, rfl, position_new t h user⟩
  | succ n ih =>
    obtain ⟨taken, rest, split, position⟩ := ih
    obtain ⟨more, later, rfl, position'⟩ := position.scan
    exact ⟨taken ++ more, later, by rw [split, List.append_assoc], position'⟩

theorem offset_after (t : Tokenizer μ τ) {reader : Reader} {s : Text} (h : reader.Delivers s)
    (user : μ) (n : Nat) :
    ((new t reader user).after n).offset =
      reader.offset + (min s.length ((new t reader user).after n).delivered.length : Nat) := by
  obtain ⟨results, covers⟩ := exists_covers t reader user n
  have counted := h.offset_eq covers.gives t.options.sentinel
  rw [Text.length_runes] at counted
  have whole := covers.delivered
  rw [tokenizer_after] at whole
  rw [whole]
  exact counted

end Scanner

end RuneMachine
