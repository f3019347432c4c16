import RuneMachine.Proofs.Tokenizer.Reference

/-! The course of a scan, said without a machine. Tests and mapper may remember what they were asked
and raise what they like. Still a scan comes to a recursion on the text ahead of it: a gap is
skipped, then a block is shown to the mapper, prefix by prefix, until something ends the scan. Each
scan takes up the text where the one before it left off. -/

namespace RuneMachine

namespace Tokenizer

variable {μ τ : Type}

def encodeEach? (t : Tokenizer μ τ) (text : Text) : Option Bytes :=
  (text.mapM fun c => (t.write [c]).bytes?).map List.flatten

theorem encodeEach?_concat (t : Tokenizer μ τ) (text : Text) (c : CodePoint) :
    t.encodeEach? (text ++ [c]) =
      (t.encodeEach? text).bind fun before => (t.write [c]).bytes?.map (before ++ ·) := by
  cases before : text.mapM (fun c => (t.write [c]).bytes?) <;>
    cases newest : (t.write [c]).bytes? <;>
    simp [encodeEach?, List.mapM_append, before, newest]

/-- A scan over a text: what it skips, what it takes from there on, what it shows to the mapper,
what it leaves for later scans, and what ends it. Without an ending the text is used up. -/
structure Course (μ τ : Type) where
  gap : Text
  block : Text
  shown : List Bytes
  rest : Text
  memory : Memory μ τ
  ending : Option (Ending τ)

def present (t : Tokenizer μ τ) (m : Memory μ τ) : Option (Ending τ) × Memory μ τ :=
  match t.mapper m.buffer m.user with
  | (.token token, user) => (some (.token token), { m with token := some token, user := user })
  | (.more, user) => (none, { m with user := user })
  | (.failed f, user) =>
    (some (if f.kind.isApplication then .failed f else .raised f), { m with user := user })

def feed (t : Tokenizer μ τ) (c : CodePoint) (m : Memory μ τ) :
    List Bytes × Option (Ending τ) × Memory μ τ :=
  match t.write [c] with
  | .bytes b => ([m.buffer ++ b], t.present { m with buffer := m.buffer ++ b })
  | .refused => ([], some (.failed (unencodable t.options.encoding [c])), m)
  | .raised f => ([], some (.raised f), m)

def courseInside (t : Tokenizer μ τ) : Text → Memory μ τ → Course μ τ
  | [], m => ⟨[], [], [], [], m, none⟩
  | c :: text, m =>
    match t.feed c m with
    | (shown, some ending, m) => ⟨[], [c], shown, text, m, some ending⟩
    | (shown, none, m) =>
      let later := t.courseInside text m
      { later with block := c :: later.block, shown := shown ++ later.shown }

def course (t : Tokenizer μ τ) : Text → Memory μ τ → Course μ τ
  | [], m => ⟨[], [], [], [], m, none⟩
  | c :: text, m =>
    match t.options.space.holds [c] m.user with
    | (.error f, user) => ⟨[c], [], [], text, { m with user := user }, some (.raised f)⟩
    | (.ok true, user) =>
      let later := t.course text { m with user := user }
      { later with gap := c :: later.gap }
    | (.ok false, user) => t.courseInside (c :: text) { m with buffer := [], user := user }

variable {t : Tokenizer μ τ} {c d : CodePoint} {T done : Text} {m m' : Memory μ τ}
  {shown : List Bytes} {ending : Ending τ}

theorem courseInside_of_more (fed : t.feed d m = (shown, none, m')) :
    t.courseInside (d :: T) m =
      { t.courseInside T m' with
        block := d :: (t.courseInside T m').block
        shown := shown ++ (t.courseInside T m').shown } := by
  simp only [courseInside, fed]

theorem courseInside_of_ending (fed : t.feed d m = (shown, some ending, m')) :
    t.courseInside (d :: T) m = ⟨[], [d], shown, T, m', some ending⟩ := by
  simp only [courseInside, fed]

theorem gap_courseInside (t : Tokenizer μ τ) (T : Text) (m : Memory μ τ) :
    (t.courseInside T m).gap = [] := by
  induction T generalizing m with
  | nil => rfl
  | cons d T ih =>
    rcases fed : t.feed d m with ⟨shown, _ | ending, m'⟩
    · rw [courseInside_of_more fed]
      exact ih m'
    · rw [courseInside_of_ending fed]

theorem course_of_raised {f : Fault} {user : μ}
    (held : t.options.space.holds [d] m.user = (.error f, user)) :
    t.course (d :: T) m = ⟨[d], [], [], T, { m with user := user }, some (.raised f)⟩ := by
  simp only [course, held]

theorem course_of_space {user : μ} (held : t.options.space.holds [d] m.user = (.ok true, user)) :
    t.course (d :: T) m =
      { t.course T { m with user := user } with
        gap := d :: (t.course T { m with user := user }).gap } := by
  simp only [course, held]

theorem course_of_other {user : μ} (held : t.options.space.holds [d] m.user = (.ok false, user)) :
    t.course (d :: T) m = t.courseInside (d :: T) { m with buffer := [], user := user } := by
  simp only [course, held]

theorem buffer_present (t : Tokenizer μ τ) (m : Memory μ τ) :
    (t.present m).2.buffer = m.buffer := by
  unfold present
  split <;> rfl

theorem token_of_present {token : τ} (h : t.present m = (some (.token token), m')) :
    (t.mapper m.buffer m.user).1 = .token token ∧ m'.token = some token := by
  unfold present at h
  split at h
  · next mapped =>
    cases h
    exact ⟨by rw [mapped], rfl⟩
  · cases h
  · split at h <;> cases h

inductive Feeds (t : Tokenizer μ τ) (c : CodePoint) (m m' : Memory μ τ) :
    List Bytes → Option (Ending τ) → Prop
  | unwritten {f} : t.write [c] = .raised f → Feeds t c m m' [] (some (.raised f))
  | unencodable : t.write [c] = .refused →
      Feeds t c m m' [] (some (.failed (unencodable t.options.encoding [c])))
  | shown {bytes ending} : t.write [c] = .bytes bytes → m'.buffer = m.buffer ++ bytes →
      t.present { m with buffer := m'.buffer } = (ending, m') → Feeds t c m m' [m'.buffer] ending

theorem feeds_of_feed {ending : Option (Ending τ)} (h : t.feed c m = (shown, ending, m')) :
    Feeds t c m m' shown ending := by
  unfold feed at h
  split at h
  · next bytes written =>
    obtain ⟨rfl, presented⟩ := Prod.mk.inj h
    have grown : m'.buffer = m.buffer ++ bytes := by
      have kept := buffer_present t { m with buffer := m.buffer ++ bytes }
      rwa [presented] at kept
    rw [← grown]
    exact .shown written grown (by rw [grown, presented])
  · next refused =>
    cases h
    exact .unencodable refused
  · next unwritten =>
    cases h
    exact .unwritten unwritten

def Memory.Spells (t : Tokenizer μ τ) (done : Text) (m : Memory μ τ) : Prop :=
  t.encodeEach? done = some m.buffer

theorem Memory.Spells.concat (h : m.Spells t done) {bytes : Bytes}
    (written : t.write [d] = .bytes bytes) (grown : m'.buffer = m.buffer ++ bytes) :
    m'.Spells t (done ++ [d]) := by
  rw [Spells, encodeEach?_concat, h, written, grown]
  rfl

theorem Memory.Spells.nil {user : μ} : { m with buffer := [], user := user }.Spells t [] := rfl

/-- A course over `T` from a point where `done` is in the buffer. It shows the prefixes of its block
one by one, at the longest all of it, and a token is the mapper's answer to the last of them. -/
structure Course.Lawful (t : Tokenizer μ τ) (done T : Text) (k : Course μ τ) : Prop where
  text : k.gap ++ k.block ++ k.rest = T
  shown : k.shown.map some =
    (k.block.take k.shown.length).inits.tail.map fun start => t.encodeEach? (done ++ start)
  complete : (∀ c f, t.write [c] ≠ .raised f) → (∀ f, k.ending ≠ some (.failed f)) →
    k.shown.length = k.block.length
  found : ∀ token, k.ending = some (.token token) → k.block ≠ [] ∧
    k.memory.token = some token ∧ ∃ buffer user, t.encodeEach? (done ++ k.block) = some buffer ∧
      k.shown.getLast? = some buffer ∧ (t.mapper buffer user).1 = .token token

theorem lawful_courseInside (spells : m.Spells t done) :
    (t.courseInside T m).Lawful t done T := by
  -- What is fed moves from the text to the buffer, so the buffer spells `done` all along.
  induction T generalizing m done with
  | nil => exact ⟨rfl, rfl, fun _ _ => rfl, nofun⟩
  | cons d T ih =>
    rcases fed : t.feed d m with ⟨shown, _ | ending, m'⟩
    · rw [courseInside_of_more fed]
      cases feeds_of_feed fed with
      | shown written grown =>
        have newest := spells.concat written grown
        obtain ⟨text, others, complete, found⟩ := ih newest
        refine ⟨?_, ?_, ?_, ?_⟩
        · simpa [gap_courseInside] using text
        · simp only [Memory.Spells, List.append_assoc, List.singleton_append] at newest others
          simp only [List.singleton_append, List.map_cons, List.length_cons, List.take_succ_cons,
            Text.tail_inits_cons, List.map_map, Function.comp_def, newest, others]
        · intro writes unfailed
          simp [complete writes unfailed]
        · intro token ended
          obtain ⟨-, latest, buffer, user, encoded, last, mapped⟩ := found token ended
          refine ⟨List.cons_ne_nil _ _, latest, buffer, user, ?_, ?_, mapped⟩
          · simpa using encoded
          · rw [List.getLast?_append, last, Option.some_or]
    · rw [courseInside_of_ending fed]
      cases feeds_of_feed fed with
      | unwritten raised => exact ⟨rfl, rfl, fun writes => absurd raised (writes _ _), nofun⟩
      | unencodable refused =>
        exact ⟨rfl, rfl, fun _ unfailed => absurd rfl (unfailed _), nofun⟩
      | shown written grown presented =>
        have newest := spells.concat written grown
        refine ⟨rfl, ?_, fun _ _ => rfl, ?_⟩
        · have shown : t.encodeEach? (done ++ [d]) = some m'.buffer := newest
          simp [shown]
        · rintro token ⟨⟩
          obtain ⟨mapped, latest⟩ := token_of_present presented
          exact ⟨by simp, latest, m'.buffer, m.user, newest, rfl, mapped⟩

theorem lawful_course (t : Tokenizer μ τ) (T : Text) (m : Memory μ τ) :
    (t.course T m).Lawful t [] T := by
  induction T generalizing m with
  | nil => exact ⟨rfl, rfl, fun _ _ => rfl, nofun⟩
  | cons d T ih =>
    rcases held : t.options.space.holds [d] m.user with ⟨f | _ | _, user⟩
    · rw [course_of_raised held]
      exact ⟨rfl, rfl, fun _ _ => rfl, nofun⟩
    · rw [course_of_other held]
      exact lawful_courseInside .nil
    · rw [course_of_space held]
      obtain ⟨text, shown, complete, found⟩ := ih { m with user := user }
      exact ⟨congrArg (d :: ·) text, shown, complete, found⟩

theorem gap_course (t : Tokenizer μ τ) (T : Text) (m : Memory μ τ) :
    ∀ d ∈ (t.course T m).gap, ∃ user, (t.options.space.holds [d] user).1 ≠ .ok false := by
  induction T generalizing m with
  | nil => simp [course]
  | cons d T ih =>
    rcases held : t.options.space.holds [d] m.user with ⟨f | _ | _, user⟩
    · rw [course_of_raised held]
      simpa using ⟨m.user, by simp [held]⟩
    · rw [course_of_other held, gap_courseInside]
      simp
    · rw [course_of_space held]
      exact List.forall_mem_cons.mpr ⟨⟨m.user, by simp [held]⟩, ih _⟩

theorem head?_courseInside (t : Tokenizer μ τ) (d : CodePoint) (T : Text) (m : Memory μ τ) :
    (t.courseInside (d :: T) m).block.head? = some d := by
  rcases fed : t.feed d m with ⟨shown, _ | ending, m'⟩
  · rw [courseInside_of_more fed]
    rfl
  · rw [courseInside_of_ending fed]
    rfl

theorem head?_course (t : Tokenizer μ τ) (T : Text) (m : Memory μ τ) :
    ∀ d ∈ (t.course T m).block.head?, ∃ user, (t.options.space.holds [d] user).1 = .ok false := by
  induction T generalizing m with
  | nil => simp [course]
  | cons d T ih =>
    rcases held : t.options.space.holds [d] m.user with ⟨f | _ | _, user⟩
    · rw [course_of_raised held]
      simp
    · rw [course_of_other held, head?_courseInside]
      simpa using ⟨m.user, by rw [held]⟩
    · rw [course_of_space held]
      exact ih _

theorem length_rest_course {token : τ} (h : (t.course T m).ending = some (.token token)) :
    (t.course T m).rest.length < T.length := by
  obtain ⟨text, -, -, found⟩ := lawful_course t T m
  have taken := List.length_pos_iff.mpr (found token h).1
  have all := congrArg List.length text
  simp only [List.length_append] at all
  omega

namespace Course

variable {k : Course μ τ}

def outcome (k : Course μ τ) : Outcome :=
  match k.ending with
  | some (.token _) => .returned true
  | some (.raised f) => .raised f
  | some (.failed _) | none => .returned false

theorem outcome_ne_unfinished (k : Course μ τ) : k.outcome ≠ .unfinished := by
  unfold outcome
  split <;> simp

def token? (k : Course μ τ) : Option τ :=
  match k.ending with
  | some (.token token) => some token
  | _ => none

def fault? (n : Int) (k : Course μ τ) : Option Fault := k.ending.bind (Ending.fault? n)

def draw (n : Int) (k : Course μ τ) : Draw τ :=
  match k.token?, k.fault? n with
  | some token, _ => .token token
  | none, some f => .failed f
  | none, none => .finished

theorem ending_of_token? {token : τ} (h : k.token? = some token) :
    k.ending = some (.token token) := by
  unfold token? at h
  split at h
  · next ended =>
    cases h
    exact ended
  · cases h

end Course

def courses (t : Tokenizer μ τ) (T : Text) (m : Memory μ τ) : List (Course μ τ) × Course μ τ :=
  match _ended : (t.course T m).ending with
  | some (.token _) =>
    match t.courses (t.course T m).rest (t.course T m).memory with
    | (found, last) => (t.course T m :: found, last)
  | _ => ([], t.course T m)
termination_by T.length
decreasing_by exact length_rest_course _ended

theorem courses_of_token {token : τ} (h : (t.course T m).ending = some (.token token)) :
    t.courses T m =
      (t.course T m :: (t.courses (t.course T m).rest (t.course T m).memory).1,
        (t.courses (t.course T m).rest (t.course T m).memory).2) := by
  rw [courses]
  split <;> simp_all

theorem courses_of_other (other : ∀ token, (t.course T m).ending ≠ some (.token token)) :
    t.courses T m = ([], t.course T m) := by
  rw [courses]
  split
  · next ended => exact absurd ended (other _)
  · rfl

end Tokenizer

end RuneMachine
