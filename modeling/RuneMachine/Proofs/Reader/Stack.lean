import RuneMachine.Proofs.Reader.Holdings

/-! Over text, a reader is a stack. However the text is divided among the calls of the source, runes
come off the stack one by one and what is taken back goes on top, and the reader's books (offset,
runes pending, exhaustion) can be read off the stack. -/

namespace RuneMachine

namespace Source.Shape

/-- The items are text, and together they make up `s`; after them, or after the item that says so,
the source is at its end. -/
inductive Supplies (shape : Shape) : List Item → Text → Prop
  | last : shape.afterLast = .ended → Supplies shape [] []
  | ended {item items} : shape.deliver item = .ended → Supplies shape (item :: items) []
  | piece {item items t s} : shape.deliver item = .text t → Supplies shape items s →
      Supplies shape (item :: items) (t ++ s)

theorem Supplies.append {shape : Shape} {pieces : List Text} {after : List Item}
    (h : ∀ t ∈ pieces, shape.deliver (.text t) = .text t) (later : shape.Supplies after []) :
    shape.Supplies (pieces.map .text ++ after) pieces.flatten := by
  induction pieces with
  | nil => exact later
  | cons t pieces ih =>
    rw [List.map_cons, List.cons_append, List.flatten_cons]
    apply Supplies.piece
    · exact h t List.mem_cons_self
    · exact ih fun s hs => h s (List.mem_cons_of_mem t hs)

theorem supplies_ofText (t : Text) : (ofText t).shape.Supplies (ofText t).items t := by
  have whole : Supplies .sequence [.text t] (t ++ []) := .piece rfl (.last rfl)
  rwa [List.append_nil] at whole

theorem supplies_stream (pieces : List Text) (h : ∀ t ∈ pieces, t ≠ []) (after : List Item) :
    stream.Supplies (pieces.map .text ++ .text [] :: after) pieces.flatten := by
  apply Supplies.append
  · intro t ht
    have full : t.isEmpty = false := by simpa using h t ht
    simp [deliver, Item.text, Value.isVoid, full, Delivery.ofValue]
  · exact .ended rfl

end Source.Shape

namespace Reader

structure Carries (r : Reader) (s : Text) : Prop where
  undecoded : r.decoder = none
  left : (r.ended = true ∧ r.chunk = [] ∧ s = []) ∨
    (r.ended = false ∧ ∃ later, r.source.shape.Supplies r.source.items later ∧ s = r.chunk ++ later)

theorem carries_new {source : Source} {s : Text} (h : source.shape.Supplies source.items s)
    (encoding : Text) (handler : Handler) : (new source encoding handler).Carries s :=
  ⟨rfl, .inr ⟨rfl, s, h, rfl⟩⟩

theorem draw_of_supplies {r : Reader} {items : List Item} {s : Text} (undecoded : r.decoder = none)
    (going : r.ended = false) (h : r.source.shape.Supplies items s) :
    (s = [] ∧ ∃ source,
      r.draw items = (.error Fault.endOfInput, { r with source := source, ended := true })) ∨
    ∃ c source later rest, s = c :: (later ++ rest) ∧ source.shape.Supplies source.items rest ∧
      r.draw items = { r with source := source }.serve c later := by
  induction items generalizing r s with
  | nil =>
    cases h with
    | last ended =>
      exact .inl ⟨rfl, r.source.called [], by simp [draw, accept, conclude, ended, undecoded]⟩
  | cons item items ih =>
    cases h with
    | ended ended =>
      exact .inl ⟨rfl, r.source.called items, by simp [draw, accept, conclude, ended, undecoded]⟩
    | @piece _ _ t s delivered supplied =>
      cases t with
      | nil =>
        -- An empty piece is passed over, and the source is called again.
        have again :
            r.draw (item :: items) = { r with source := r.source.called items }.draw items := by
          simp [draw, accept, delivered, going]
        rw [again]
        exact ih undecoded going supplied
      | cons c later =>
        refine .inr ⟨c, r.source.called items, later, s, rfl, supplied, ?_⟩
        simp [draw, accept, delivered]

namespace Carries

theorem unread {r : Reader} {s : Text} (h : r.Carries s) (u : Rune) : (r.unread u).Carries s :=
  ⟨h.undecoded, h.left⟩

theorem read_pushback {r : Reader} {s : Text} {u : Rune} {us : List Rune} (h : r.Carries s)
    (top : r.pushback = u :: us) :
    ∃ r', r.read = (.ok u, r') ∧ r'.Carries s ∧ r'.pushback = us ∧ r'.ended = r.ended := by
  refine ⟨{ r with pushback := us, offset := r.offset + 1 }, ?_, ⟨h.undecoded, h.left⟩, rfl, rfl⟩
  simp [read, top]

theorem read_nil {r : Reader} (h : r.Carries []) (none : r.pushback = []) :
    ∃ r', r.read = (.error Fault.endOfInput, r') ∧ r'.Carries [] ∧ r'.pushback = [] ∧
      r'.ended = true := by
  obtain ⟨ended, chunk, -⟩ | ⟨going, later, supplied, left⟩ := h.left
  · refine ⟨r, ?_, h, none, ended⟩
    simp [read, none, chunk, ended]
  · obtain ⟨chunk, rfl⟩ := List.append_eq_nil_iff.mp left.symm
    obtain ⟨-, source, drawn⟩ | ⟨c, _, _, _, full, -⟩ := draw_of_supplies h.undecoded going supplied
    · refine ⟨{ r with source := source, ended := true }, ?_,
        ⟨h.undecoded, .inl ⟨rfl, chunk, rfl⟩⟩, none, rfl⟩
      simp [read, none, chunk, going, drawn]
    · cases full

theorem read_cons {r : Reader} {c : CodePoint} {s : Text} (h : r.Carries (c :: s))
    (none : r.pushback = []) :
    ∃ r', r.read = (.ok [c], r') ∧ r'.Carries s ∧ r'.pushback = [] ∧ r'.ended = r.ended := by
  obtain ⟨-, -, empty⟩ | ⟨going, later, supplied, left⟩ := h.left
  · cases empty
  · cases chunk : r.chunk with
    | nil =>
      rw [chunk, List.nil_append] at left
      subst left
      obtain ⟨empty, -⟩ | ⟨_, source, chunk', rest, same, supplies, drawn⟩ :=
        draw_of_supplies h.undecoded going supplied
      · cases empty
      · cases same
        refine ⟨({ r with source := source }.serve c chunk').2, ?_,
          ⟨h.undecoded, .inr ⟨going, rest, supplies, rfl⟩⟩, none, rfl⟩
        simp [read, none, chunk, going, drawn, serve]
    | cons d rest =>
      rw [chunk] at left
      cases left
      refine ⟨(r.serve c rest).2, ?_,
        ⟨h.undecoded, .inr ⟨going, later, supplied, rfl⟩⟩, none, rfl⟩
      simp [read, none, chunk, serve]

theorem holds {r : Reader} {s : Text} (h : r.Carries s) : r.Holds (r.pushback ++ s.runes) := by
  generalize top : r.pushback = us
  induction us generalizing r with
  | nil =>
    induction s generalizing r with
    | nil =>
      obtain ⟨r', read, h', none, ended⟩ := h.read_nil top
      obtain ⟨-, chunk, -⟩ | ⟨going, -⟩ := h'.left
      · exact .finished read (by simp [exhausted, none, ended, chunk])
      · rw [ended] at going; cases going
    | cons c s ih =>
      obtain ⟨r', read, h', none, -⟩ := h.read_cons top
      exact .rune read (ih h' none)
  | cons u us ih =>
    obtain ⟨r', read, h', rest, -⟩ := h.read_pushback top
    exact .rune read (ih h' rest)

end Carries

theorem delivers_new {source : Source} {s : Text} (h : source.shape.Supplies source.items s)
    (encoding : Text) (handler : Handler) : (new source encoding handler).Delivers s :=
  (carries_new h encoding handler).holds

theorem delivers_ofText (t : Text) : (ofText t).Delivers t :=
  delivers_new (Source.Shape.supplies_ofText t) defaultEncoding .strict

end Reader

inductive Request where
  | read
  | unread (u : Rune)
  deriving DecidableEq, Repr

abbrev Reply := Option (Except Fault Rune)

def Request.serveAll {S : Type} (serve : S → Request → Reply × S) :
    List Request → S → List Reply × S
  | [], state => ([], state)
  | request :: requests, state =>
    match serve state request with
    | (reply, state) =>
      match serveAll serve requests state with
      | (replies, state) => (reply :: replies, state)

def Reader.reply (r : Reader) : Request → Reply × Reader
  | .read =>
    match r.read with
    | (result, r) => (some result, r)
  | .unread u => (none, r.unread u)

namespace RuneStack

inductive Entry where
  | given (c : CodePoint)
  | pushed (u : Rune)
  deriving DecidableEq, Repr

def Entry.rune : Entry → Rune
  | .given c => [c]
  | .pushed u => u

def Entry.isPushed : Entry → Bool
  | .given _ => false
  | .pushed _ => true

end RuneStack

abbrev RuneStack := List RuneStack.Entry

namespace RuneStack

def ofText (t : Text) : RuneStack := t.map .given

def reply (stack : RuneStack) : Request → Reply × RuneStack
  | .read =>
    match stack with
    | [] => (some (.error Fault.endOfInput), [])
    | top :: rest => (some (.ok top.rune), rest)
  | .unread u => (none, .pushed u :: stack)

def pending (stack : RuneStack) : Nat := stack.countP Entry.isPushed

structure Mirrors (s : Text) (told : Prop) (r : Reader) (stack : RuneStack) : Prop where
  contents : ∃ left, r.Carries left ∧ stack = r.pushback.map .pushed ++ ofText left
  offset : r.offset = s.length - stack.length
  ended : r.ended = true ↔ told

namespace Mirrors

variable {s : Text} {told : Prop} {r : Reader} {stack : RuneStack}

theorem new {source : Source} (h : source.shape.Supplies source.items s) (encoding : Text)
    (handler : Handler) : Mirrors s False (Reader.new source encoding handler) (ofText s) where
  contents := ⟨s, Reader.carries_new h encoding handler, rfl⟩
  offset := by simp [Reader.new, ofText]
  ended := by simp [Reader.new]

theorem pending_eq (h : Mirrors s told r stack) : r.pending = stack.pending := by
  obtain ⟨left, -, rfl⟩ := h.contents
  have pushed : (r.pushback.map Entry.pushed).countP Entry.isPushed = r.pushback.length := by
    simp [List.countP_map, Function.comp_def, Entry.isPushed]
  have given : (ofText left).countP Entry.isPushed = 0 := by
    simp [ofText, List.countP_map, Function.comp_def, Entry.isPushed]
  rw [pending, List.countP_append, pushed, given]
  rfl

theorem exhausted_iff (h : Mirrors s told r stack) :
    r.exhausted = true ↔ stack = [] ∧ told := by
  obtain ⟨left, carries, rfl⟩ := h.contents
  rw [← h.ended]
  obtain ⟨ended, chunk, rfl⟩ | ⟨going, -⟩ := carries.left
  · simp [Reader.exhausted, ended, chunk, ofText]
  · simp [Reader.exhausted, going]

theorem reply (h : Mirrors s told r stack) (request : Request) :
    (r.reply request).1 = (stack.reply request).1 ∧
      Mirrors s (told ∨ some (.error Fault.endOfInput) = (r.reply request).1)
        (r.reply request).2 (stack.reply request).2 := by
  obtain ⟨left, carries, rfl⟩ := h.contents
  have offset := h.offset
  cases request with
  | unread u =>
    refine ⟨rfl, ⟨left, carries.unread u, rfl⟩, ?_, ?ended⟩
    case ended => simpa [Reader.reply, Reader.unread] using h.ended
    simp [Reader.reply, RuneStack.reply] at offset ⊢
    omega
  | read =>
    cases top : r.pushback with
    | cons u us =>
      obtain ⟨r', read, carries', rest, ended⟩ := carries.read_pushback top
      have counted := Reader.offset_read_ok read
      simp only [Reader.reply, read, List.map_cons, List.cons_append, RuneStack.reply]
      refine ⟨rfl, ⟨left, carries', by rw [rest]⟩, ?_, by simp [ended, h.ended]⟩
      simp [top] at offset
      simp
      omega
    | nil =>
      cases left with
      | nil =>
        obtain ⟨r', read, carries', none, ended⟩ := carries.read_nil top
        have counted := Reader.offset_read_error read
        simp only [Reader.reply, read]
        refine ⟨rfl, ⟨[], carries', by rw [none]; rfl⟩, ?_, by simp [ended]⟩
        simp [top, ofText] at offset
        simp [RuneStack.reply, ofText]
        omega
      | cons c left =>
        obtain ⟨r', read, carries', none, ended⟩ := carries.read_cons top
        have counted := Reader.offset_read_ok read
        simp only [Reader.reply, read]
        refine ⟨rfl, ⟨left, carries', by rw [none]; rfl⟩, ?_, by simp [ended, h.ended]⟩
        simp [top, ofText] at offset
        simp [RuneStack.reply, ofText]
        omega

theorem serveAll (h : Mirrors s told r stack) (requests : List Request) :
    ∃ replies r' stack',
      Request.serveAll Reader.reply requests r = (replies, r') ∧
      Request.serveAll RuneStack.reply requests stack = (replies, stack') ∧
      Mirrors s (told ∨ some (.error Fault.endOfInput) ∈ replies) r' stack' := by
  induction requests generalizing told r stack with
  | nil => exact ⟨[], r, stack, rfl, rfl, by simpa using h⟩
  | cons request requests ih =>
    obtain ⟨same, next⟩ := h.reply request
    obtain ⟨replies, r', stack', served, mirrored, last⟩ := ih next
    refine ⟨(r.reply request).1 :: replies, r', stack', ?_, ?_, ?_⟩
    · simp only [Request.serveAll, served]
    · simp only [Request.serveAll, mirrored, same]
    · rwa [or_assoc, ← List.mem_cons] at last

end Mirrors

/-- Over any source of text, a reader gives the replies of a stack that starts with the code points
of the text, whatever is read and taken back in whatever order. Its offset is the length of the text
less the height of the stack, the runes pending are the entries pushed and not popped, and it is
exhausted exactly if the stack is empty and the end of input has been raised. -/
theorem serveAll_reader_eq {source : Source} {s : Text}
    (h : source.shape.Supplies source.items s) (encoding : Text) (handler : Handler)
    (requests : List Request) :
    ∃ replies r stack,
      Request.serveAll Reader.reply requests (Reader.new source encoding handler) = (replies, r) ∧
      Request.serveAll RuneStack.reply requests (ofText s) = (replies, stack) ∧
      r.offset = s.length - stack.length ∧ r.pending = stack.pending ∧
      (r.exhausted = true ↔ stack = [] ∧ some (.error Fault.endOfInput) ∈ replies) := by
  obtain ⟨replies, r, stack, served, mirrored, last⟩ :=
    (Mirrors.new h encoding handler).serveAll requests
  refine ⟨replies, r, stack, served, mirrored, last.offset, last.pending_eq, ?_⟩
  rw [last.exhausted_iff, false_or]

theorem serveAll_reader_eq_of_stream :
    Source.Shape.stream.Supplies [.text [0x61, 0x62], .text [0x63], .text [], .text [0x64]]
      [0x61, 0x62, 0x63] ∧
    ∃ replies r stack,
      Request.serveAll Reader.reply
        [.unread [0x78, 0x79], .read, .read, .read, .read, .read, .unread [], .read, .read]
        (Reader.new (.ofItems .stream [.text [0x61, 0x62], .text [0x63], .text [], .text [0x64]])
          Reader.defaultEncoding .strict) = (replies, r) ∧
      Request.serveAll RuneStack.reply
        [.unread [0x78, 0x79], .read, .read, .read, .read, .read, .unread [], .read, .read]
        (ofText [0x61, 0x62, 0x63]) = (replies, stack) ∧
      r.offset = ([0x61, 0x62, 0x63] : Text).length - stack.length ∧
      r.pending = stack.pending ∧
      (r.exhausted = true ↔ stack = [] ∧ some (.error Fault.endOfInput) ∈ replies) :=
  have supplied :=
    Source.Shape.supplies_stream [[0x61, 0x62], [0x63]] (by decide) [.text [0x64]]
  ⟨supplied, serveAll_reader_eq supplied _ _ _⟩

end RuneStack

end RuneMachine
