import RuneMachine.Proofs.Reader.Stack

namespace RuneMachine

namespace Source

def next (s : Source) : Delivery :=
  match s.items with
  | [] => s.shape.afterLast
  | item :: _ => s.shape.deliver item

/-- What calls give, one after the other, before the source says that it is at its end. -/
def Shape.deliveries (shape : Shape) : List Item → List Delivery
  | [] => []
  | item :: items =>
    match shape.deliver item with
    | .ended => []
    | d => d :: shape.deliveries items

def deliveries (s : Source) : List Delivery := s.shape.deliveries s.items

theorem next_of_nil {s : Source} (finite : s.shape.afterLast = .ended) (h : s.deliveries = []) :
    s.next = .ended := by
  unfold deliveries at h
  unfold next
  cases items : s.items with
  | nil => exact finite
  | cons item items =>
    simp only [items, Shape.deliveries] at h
    split at h
    · assumption
    · cases h

theorem next_of_cons {s : Source} {d : Delivery} {ds : List Delivery} (h : s.deliveries = d :: ds) :
    s.next = d ∧ (s.called s.items.tail).deliveries = ds := by
  unfold deliveries at h
  unfold next
  cases items : s.items with
  | nil => simp [items, Shape.deliveries] at h
  | cons item items =>
    simp only [items, Shape.deliveries] at h
    split at h
    · cases h
    · cases h
      exact ⟨rfl, rfl⟩

end Source

namespace Reader

theorem ended_of_conclude {r r' : Reader} {text : Text} (h : r.conclude = (.ok text, r')) :
    r'.ended = true := by
  unfold conclude at h
  split at h
  · cases h; rfl
  · split at h <;> cases h
    rfl

theorem read_withChunk {r : Reader} (none : r.pushback = []) (empty : r.chunk = []) (text : Text) :
    { r with chunk := text }.read =
      match text with
      | [] => if r.ended then (.error Fault.endOfInput, r) else r.draw r.source.items
      | c :: later => r.serve c later := by
  cases r
  cases text <;> simp_all [read, serve]

def fill (r : Reader) : Except Fault Text × Reader :=
  { r with source := r.source.called r.source.items.tail }.accept r.source.next

theorem fill_frame {r r' : Reader} {result : Except Fault Text} (h : r.fill = (result, r')) :
    r'.source = r.source.called r.source.items.tail ∧ r'.pushback = r.pushback ∧
      r'.chunk = r.chunk := by
  obtain ⟨decoder, ended, rfl⟩ := accept_eq h
  exact ⟨rfl, rfl, rfl⟩

theorem ended_of_fill_nil {r r' : Reader} {text : Text} (last : r.source.items = [])
    (h : r.fill = (.ok text, r')) : r'.ended = true := by
  unfold fill Source.next at h
  rw [last] at h
  cases shape : r.source.shape with
  | reader => simp [shape, Source.Shape.afterLast, accept] at h
  | stream | iterator | sequence =>
    rw [shape] at h
    exact ended_of_conclude h

structure Bare (r : Reader) : Prop where
  none : r.pushback = []
  empty : r.chunk = []
  going : r.ended = false

theorem read_eq_fill {r : Reader} (bare : r.Bare) :
    r.read =
      match r.fill with
      | (.error f, r') => (.error f, r')
      | (.ok text, r') => { r' with chunk := text }.read := by
  obtain ⟨none, empty, going⟩ := bare
  have drawn : r.read = r.draw r.source.items := by simp [read, none, empty, going]
  rw [drawn]
  rcases filled : r.fill with ⟨f | text, r'⟩
  · unfold fill Source.next at filled
    cases items : r.source.items <;> simp_all [draw]
  · obtain ⟨source, pushback, chunk⟩ := fill_frame filled
    change r.draw r.source.items = { r' with chunk := text }.read
    rw [read_withChunk (pushback.trans none) (chunk.trans empty), source]
    cases items : r.source.items with
    | nil =>
      have finished := ended_of_fill_nil items filled
      simp only [fill, Source.next, items, List.tail_nil] at filled
      rw [draw, filled]
      cases text <;> simp [finished]
    | cons item items' =>
      simp only [fill, Source.next, items, List.tail_cons] at filled
      rw [draw, filled]
      cases text <;> simp [Source.called]

inductive Yields : Reader → List (Except Fault Rune) → Prop
  | finished {r r'} : r.read = (.error Fault.endOfInput, r') → r'.exhausted = true → Yields r []
  | result {r r' result results} : r.read = (result, r') → Yields r' results →
      Yields r (result :: results)

namespace Yields

theorem of_exhausted {r : Reader} (h : r.exhausted = true) : Yields r [] :=
  .finished (read_of_exhausted h) h

theorem of_read_eq {r r' : Reader} {results : List (Except Fault Rune)} (h : r'.Yields results)
    (same : r.read = r'.read) : r.Yields results := by
  cases h with
  | finished read exhausted => exact .finished (same.trans read) exhausted
  | result read later => exact .result (same.trans read) later

theorem of_chunk {r : Reader} {results : List (Except Fault Rune)} (none : r.pushback = [])
    (later : ∀ offset, { r with chunk := [], offset := offset }.Yields results) (text : Text) :
    { r with chunk := text }.Yields (text.runes.map Except.ok ++ results) := by
  induction text generalizing r with
  | nil => exact later r.offset
  | cons c text ih =>
    have read : { r with chunk := c :: text }.read =
        (.ok [c], { r with chunk := text, offset := r.offset + 1 }) := by
      simp [Reader.read, none, serve]
    have rest := ih none (r := { r with offset := r.offset + 1 }) later
    exact .result read rest

theorem holds {r : Reader} {us : List Rune} (h : r.Yields (us.map .ok)) : r.Holds us := by
  induction us generalizing r with
  | nil =>
    cases h with
    | finished read exhausted => exact .finished read exhausted
  | cons u us ih =>
    cases h with
    | result read later => exact .rune read (ih later)

theorem serveAll_read {r : Reader} {results : List (Except Fault Rune)} (h : r.Yields results)
    (more : Nat) :
    (Request.serveAll Reader.reply (List.replicate (results.length + more) .read) r).1 =
      (results ++ List.replicate more (Except.error Fault.endOfInput)).map some := by
  induction h with
  | @finished r r' read exhausted =>
    rw [List.length_nil, Nat.zero_add, List.nil_append]
    induction more generalizing r with
    | zero => rfl
    | succ more ih =>
      have again := ih (read_of_exhausted exhausted)
      simp only [List.replicate_succ, Request.serveAll, reply, read, List.map_cons, again]
  | @result r r' result results read later ih =>
    rw [List.length_cons, Nat.succ_add, List.replicate_succ]
    simp only [Request.serveAll, reply, read, ih, List.cons_append, List.map_cons]

end Yields

end Reader

end RuneMachine
