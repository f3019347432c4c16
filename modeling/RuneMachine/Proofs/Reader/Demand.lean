import Mathlib.Order.Bounds.Defs
import RuneMachine.Proofs.Reader.Calls

namespace RuneMachine

def Text.supply (chunks : List Text) (k : Nat) : Nat := (chunks.take k).flatten.length

theorem Text.supply_succ {chunks later : List Text} {k : Nat} {t : Text}
    (h : chunks.drop k = t :: later) : supply chunks (k + 1) = supply chunks k + t.length := by
  simp [supply, List.take_add, h]

namespace Source

structure Deals (source : Source) (chunks : List Text) : Prop where
  uncalled : source.calls = 0
  finite : source.shape.afterLast = .ended
  deliveries : source.deliveries = chunks.map .text

theorem Shape.deliveries_map_text {shape : Shape} {chunks : List Text}
    (h : ∀ t ∈ chunks, shape.deliver (.text t) = .text t) :
    shape.deliveries (chunks.map .text) = chunks.map .text := by
  induction chunks with
  | nil => rfl
  | cons t chunks ih =>
    obtain ⟨first, others⟩ := List.forall_mem_cons.mp h
    simp only [List.map_cons, Shape.deliveries, first, ih others]

theorem deals_stream {chunks : List Text} (full : ∀ t ∈ chunks, t ≠ []) :
    (ofItems .stream (chunks.map .text)).Deals chunks := by
  have delivered : ∀ t ∈ chunks, Shape.stream.deliver (.text t) = .text t := by
    intro t member
    simp [Shape.deliver, Item.text, Value.isVoid, full t member, Delivery.ofValue]
  exact ⟨rfl, rfl, Shape.deliveries_map_text delivered⟩

theorem deals_iterator (chunks : List Text) :
    (ofItems .iterator (chunks.map .text)).Deals chunks :=
  ⟨rfl, rfl, Shape.deliveries_map_text fun _ _ => rfl⟩

theorem Shape.supplies_of_deliveries {shape : Shape} (finite : shape.afterLast = .ended)
    {items : List Item} {chunks : List Text} (h : shape.deliveries items = chunks.map .text) :
    shape.Supplies items chunks.flatten := by
  induction items generalizing chunks with
  | nil =>
    obtain rfl : chunks = [] := by simpa [deliveries] using h.symm
    exact .last finite
  | cons item items ih =>
    cases chunks with
    | nil =>
      simp only [deliveries, List.map_nil] at h
      split at h
      · next ended => exact .ended ended
      · cases h
    | cons t chunks =>
      simp only [deliveries, List.map_cons] at h
      split at h
      · cases h
      · obtain ⟨delivered, later⟩ := List.cons.inj h
        exact .piece delivered (ih later)

theorem Deals.supplies {source : Source} {chunks : List Text} (h : source.Deals chunks) :
    source.shape.Supplies source.items chunks.flatten :=
  Shape.supplies_of_deliveries h.finite h.deliveries

end Source

def Request.drawn : List Request → (pending : Nat) → Nat
  | [], _ => 0
  | .unread _ :: requests, pending => drawn requests (pending + 1)
  | .read :: requests, 0 => drawn requests 0 + 1
  | .read :: requests, pending + 1 => drawn requests pending

theorem Request.drawn_replicate_read (n : Nat) : drawn (List.replicate n .read) 0 = n := by
  induction n with
  | zero => rfl
  | succ n ih => rw [List.replicate_succ, drawn, ih]

namespace Reader

variable {chunks : List Text} {taken wanted : Nat} {r r' : Reader} {u : Rune}

structure Fed (chunks : List Text) (taken wanted : Nat) (r : Reader) : Prop where
  undecoded : r.decoder = none
  going : r.ended = false
  finite : r.source.shape.afterLast = .ended
  ahead : r.source.deliveries = (chunks.drop r.source.calls).map .text
  balance : Text.supply chunks r.source.calls = taken + r.chunk.length
  frugal : ∀ k < r.source.calls, Text.supply chunks k < wanted

namespace Fed

theorem new {source : Source} (h : source.Deals chunks) (encoding : Text) (handler : Handler) :
    (Reader.new source encoding handler).Fed chunks 0 0 where
  undecoded := rfl
  going := rfl
  finite := h.finite
  ahead := by simpa [Reader.new, h.uncalled] using h.deliveries
  balance := by simp [Reader.new, h.uncalled, Text.supply]
  frugal := by simp [Reader.new, h.uncalled]

theorem isLeast (h : r.Fed chunks taken taken) :
    IsLeast {k | taken ≤ Text.supply chunks k} r.source.calls := by
  constructor
  · calc
      taken ≤ taken + r.chunk.length := Nat.le_add_right _ _
      _ = Text.supply chunks r.source.calls := h.balance.symm
  · intro k enough
    apply Nat.le_of_not_lt
    intro fewer
    exact Nat.not_lt.mpr enough (h.frugal k fewer)

theorem unread (h : r.Fed chunks taken wanted) (u : Rune) : (r.unread u).Fed chunks taken wanted :=
  ⟨h.undecoded, h.going, h.finite, h.ahead, h.balance, h.frugal⟩

theorem mono (h : r.Fed chunks taken wanted) {more : Nat} (le : wanted ≤ more) :
    r.Fed chunks taken more :=
  ⟨h.undecoded, h.going, h.finite, h.ahead, h.balance,
    fun k called => Nat.lt_of_lt_of_le (h.frugal k called) le⟩

theorem read_chunk (h : r.Fed chunks taken wanted) (none : r.pushback = []) {c : CodePoint}
    {later : Text} (chunk : r.chunk = c :: later) :
    ∃ r', r.read = (.ok [c], r') ∧ r'.pushback = [] ∧ r'.Fed chunks (taken + 1) wanted := by
  have balance : Text.supply chunks r.source.calls = taken + 1 + later.length := by
    rw [h.balance, chunk, List.length_cons]
    omega
  refine ⟨(r.serve c later).2, ?_, none, h.undecoded, h.going, h.finite, h.ahead, balance,
    h.frugal⟩
  simp [read, none, chunk, serve]

theorem fill (h : r.Fed chunks taken (taken + 1)) (empty : r.chunk = []) {t : Text}
    {later : List Text} (left : chunks.drop r.source.calls = t :: later) :
    ∃ r', r.fill = (.ok t, r') ∧ chunks.drop r'.source.calls = later ∧ r'.pushback = r.pushback ∧
      { r' with chunk := t }.Fed chunks taken (taken + 1) := by
  have given := h.ahead
  rw [left, List.map_cons] at given
  obtain ⟨next, after⟩ := Source.next_of_cons given
  have dropped : chunks.drop (r.source.calls + 1) = later := by
    rw [← List.drop_drop, left]
    rfl
  have short : Text.supply chunks r.source.calls = taken := by
    rw [h.balance, empty]
    rfl
  refine ⟨{ r with source := r.source.called r.source.items.tail }, ?_, dropped, rfl,
    h.undecoded, h.going, h.finite, ?_, ?_, ?_⟩
  · simp only [Reader.fill, next, accept]
  · rw [after]
    exact congrArg (List.map Delivery.text) dropped.symm
  · exact (Text.supply_succ left).trans (by rw [short])
  · intro k called
    obtain before | rfl := Nat.lt_or_eq_of_le (Nat.le_of_lt_succ called)
    · exact h.frugal k before
    · rw [short]
      exact Nat.lt_succ_self taken

theorem read_bare (h : r.Fed chunks taken (taken + 1)) (none : r.pushback = [])
    (empty : r.chunk = []) :
    (∃ r', r.read = (.error Fault.endOfInput, r')) ∨
      ∃ u r', r.read = (.ok u, r') ∧ r'.pushback = [] ∧ r'.Fed chunks (taken + 1) (taken + 1) := by
  -- By induction on the chunks ahead, of which empty ones are passed over: all the while exactly
  -- `taken` code points have come, which is one too few.
  generalize left : chunks.drop r.source.calls = ahead
  induction ahead generalizing r with
  | nil =>
    have given := h.ahead
    rw [left] at given
    have ended := Source.next_of_nil h.finite given
    refine .inl ⟨{ r with source := r.source.called r.source.items.tail, ended := true }, ?_⟩
    rw [read_eq_fill ⟨none, empty, h.going⟩]
    simp [Reader.fill, ended, accept, conclude, h.undecoded, read, none, empty]
  | cons t ahead ih =>
    obtain ⟨r', filled, left', pushback, fed⟩ := h.fill empty left
    rw [read_eq_fill ⟨none, empty, h.going⟩, filled]
    cases t with
    | nil => exact ih fed (pushback.trans none) rfl left'
    | cons c later => exact .inr ⟨[c], fed.read_chunk (pushback.trans none) rfl⟩

theorem read_of_none (h : r.Fed chunks taken taken) (none : r.pushback = []) :
    (∃ r', r.read = (.error Fault.endOfInput, r')) ∨
      ∃ u r', r.read = (.ok u, r') ∧ r'.pushback = [] ∧ r'.Fed chunks (taken + 1) (taken + 1) := by
  have more := h.mono (Nat.le_succ taken)
  cases chunk : r.chunk with
  | nil => exact more.read_bare none chunk
  | cons c later => exact .inr ⟨[c], more.read_chunk none chunk⟩

theorem read_of_some (h : r.Fed chunks taken wanted) {us : List Rune}
    (some : r.pushback = u :: us) :
    ∃ r', r.read = (.ok u, r') ∧ r'.pushback = us ∧ r'.Fed chunks taken wanted := by
  refine ⟨{ r with pushback := us, offset := r.offset + 1 }, ?_, rfl, h.undecoded, h.going,
    h.finite, h.ahead, h.balance, h.frugal⟩
  simp [read, some]

theorem serveAll (h : r.Fed chunks taken taken) {requests : List Request} {replies : List Reply}
    (served : Request.serveAll Reader.reply requests r = (replies, r'))
    (unended : some (.error Fault.endOfInput) ∉ replies) :
    r'.Fed chunks (taken + Request.drawn requests r.pending)
      (taken + Request.drawn requests r.pending) := by
  induction requests generalizing r taken replies with
  | nil =>
    cases served
    exact h
  | cons request requests ih =>
    rcases replied : r.reply request with ⟨answer, s⟩
    rcases later : Request.serveAll Reader.reply requests s with ⟨answers, r''⟩
    simp only [Request.serveAll, replied, later] at served
    cases served
    rw [List.mem_cons, not_or] at unended
    obtain ⟨now, unended⟩ := unended
    cases request with
    | unread u =>
      cases replied
      exact ih (h.unread u) later unended
    | read =>
      cases pushback : r.pushback with
      | nil =>
        have pending : r.pending = 0 := congrArg List.length pushback
        obtain ⟨s', read⟩ | ⟨u, s', read, none, fed⟩ := h.read_of_none pushback
        · simp only [reply, read] at replied
          cases replied
          exact absurd rfl now
        · simp only [reply, read] at replied
          cases replied
          have rest := ih fed later unended
          have pending' : s.pending = 0 := congrArg List.length none
          rw [pending', Nat.add_assoc, Nat.add_comm 1] at rest
          rw [pending]
          exact rest
      | cons u us =>
        have pending : r.pending = us.length + 1 := congrArg List.length pushback
        obtain ⟨s', read, pushback', fed⟩ := h.read_of_some pushback
        simp only [reply, read] at replied
        cases replied
        have rest := ih fed later unended
        have pending' : s.pending = us.length := congrArg List.length pushback'
        rw [pending'] at rest
        rw [pending]
        exact rest

end Fed

end Reader

end RuneMachine
