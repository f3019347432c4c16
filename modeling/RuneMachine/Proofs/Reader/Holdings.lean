import RuneMachine.Reader

/-! What a reader has left to give, seen only through its reads. A reader that holds runes gives
them one after the other and then the end of input for good, wherever they come from: from what was
taken back, from text that was delivered before, or from calls of the source that are still to be
made. -/

namespace RuneMachine

def Text.runes (t : Text) : List Rune := t.map fun c => [c]

namespace Text

@[simp] theorem runes_nil : runes [] = [] := rfl

@[simp] theorem runes_cons (c : CodePoint) (t : Text) : runes (c :: t) = [c] :: t.runes := rfl

@[simp] theorem runes_append (s t : Text) : runes (s ++ t) = s.runes ++ t.runes := by
  simp [runes]

@[simp] theorem length_runes (t : Text) : t.runes.length = t.length := by simp [runes]

end Text

namespace Reader

theorem accept_eq {r r' : Reader} {d : Delivery} {text : Except Fault Text}
    (h : r.accept d = (text, r')) :
    ∃ decoder ended, r' = { r with decoder := decoder, ended := ended } := by
  cases d with
  | text t => cases h; exact ⟨_, _, rfl⟩
  | data b =>
    simp only [accept, decodeWith] at h
    split at h <;> cases h <;> exact ⟨_, _, rfl⟩
  | junk v =>
    simp only [accept, decodeWith] at h
    split at h <;> cases h <;> exact ⟨_, _, rfl⟩
  | ended =>
    simp only [accept, conclude] at h
    split at h
    · cases h; exact ⟨_, _, rfl⟩
    · split at h <;> cases h <;> exact ⟨_, _, rfl⟩
  | failed f => cases h; exact ⟨_, _, rfl⟩

theorem draw_eq (r : Reader) (items : List Item) :
    ∃ source decoder ended,
      (∃ f, r.draw items =
        (.error f, { r with source := source, decoder := decoder, ended := ended })) ∨
      ∃ c later, r.draw items =
        { r with source := source, decoder := decoder, ended := ended }.serve c later := by
  induction items generalizing r with
  | nil =>
    rw [draw]
    split
    · next accepted =>
      obtain ⟨decoder, ended, rfl⟩ := accept_eq accepted
      exact ⟨_, decoder, ended, .inl ⟨_, rfl⟩⟩
    · next accepted =>
      obtain ⟨decoder, ended, rfl⟩ := accept_eq accepted
      exact ⟨_, decoder, ended, .inl ⟨_, rfl⟩⟩
    · next accepted =>
      obtain ⟨decoder, ended, rfl⟩ := accept_eq accepted
      exact ⟨_, decoder, ended, .inr ⟨_, _, rfl⟩⟩
  | cons item items ih =>
    rw [draw]
    split
    · next accepted =>
      obtain ⟨decoder, ended, rfl⟩ := accept_eq accepted
      exact ⟨_, decoder, ended, .inl ⟨_, rfl⟩⟩
    · next accepted =>
      obtain ⟨decoder, ended, rfl⟩ := accept_eq accepted
      split
      · exact ⟨_, decoder, ended, .inl ⟨_, rfl⟩⟩
      · exact ih _
    · next accepted =>
      obtain ⟨decoder, ended, rfl⟩ := accept_eq accepted
      exact ⟨_, decoder, ended, .inr ⟨_, _, rfl⟩⟩

theorem offset_read_ok {r r' : Reader} {u : Rune} (h : r.read = (.ok u, r')) :
    r'.offset = r.offset + 1 := by
  unfold read at h
  split at h
  · cases h; rfl
  · split at h
    · cases h; rfl
    · split at h
      · cases h
      · obtain ⟨_, _, _, ⟨f, hf⟩ | ⟨c, later, hc⟩⟩ := r.draw_eq r.source.items
        · rw [hf] at h; cases h
        · rw [hc] at h; cases h; rfl

theorem read_error {r r' : Reader} {f : Fault} (h : r.read = (.error f, r')) :
    r'.offset = r.offset ∧ r.pushback = [] ∧ r'.pushback = [] := by
  unfold read at h
  split at h
  · cases h
  · next empty =>
    split at h
    · cases h
    · split at h
      · cases h
        exact ⟨rfl, empty, empty⟩
      · obtain ⟨_, _, _, ⟨g, hg⟩ | ⟨c, later, hc⟩⟩ := r.draw_eq r.source.items
        · rw [hg] at h
          cases h
          exact ⟨rfl, empty, empty⟩
        · rw [hc] at h; cases h

theorem offset_read_error {r r' : Reader} {f : Fault} (h : r.read = (.error f, r')) :
    r'.offset = r.offset := (read_error h).1

theorem read_of_exhausted {r : Reader} (h : r.exhausted = true) :
    r.read = (.error Fault.endOfInput, r) := by
  simp only [exhausted, Bool.and_eq_true, List.isEmpty_iff] at h
  obtain ⟨⟨ended, pushback⟩, chunk⟩ := h
  simp [read, pushback, chunk, ended]

/-- Reads give exactly these runes, and then the end of input for good. -/
inductive Holds : Reader → List Rune → Prop
  | finished {r r'} : r.read = (.error Fault.endOfInput, r') → r'.exhausted = true → Holds r []
  | rune {r r' u us} : r.read = (.ok u, r') → Holds r' us → Holds r (u :: us)

namespace Holds

theorem of_exhausted {r : Reader} (h : r.exhausted = true) : Holds r [] :=
  .finished (read_of_exhausted h) h

theorem unread {r : Reader} {us : List Rune} (h : Holds r us) (u : Rune) :
    Holds (r.unread u) (u :: us) := .rune (r.read_unread u) h

theorem read_cons {r : Reader} {u : Rune} {us : List Rune} (h : Holds r (u :: us)) :
    ∃ r', r.read = (.ok u, r') ∧ Holds r' us := by
  cases h with
  | rune read later => exact ⟨_, read, later⟩

theorem read_nil {r : Reader} (h : Holds r []) :
    ∃ r', r.read = (.error Fault.endOfInput, r') ∧ Holds r' [] := by
  cases h with
  | finished read exhausted => exact ⟨_, read, of_exhausted exhausted⟩

end Holds

def Delivers (r : Reader) (t : Text) : Prop := r.Holds t.runes

end Reader

end RuneMachine
