import RuneMachine.Proofs.Reader.Ending

namespace RuneMachine

namespace Request

def isUnread : Request → Bool
  | .read => false
  | .unread _ => true

def settle (owed : List Rune) : Request → List Rune
  | .read => owed.tail
  | .unread u => u :: owed

def outstanding (requests : List Request) : List Rune := requests.foldl settle []

theorem outstanding_concat (requests : List Request) (request : Request) :
    outstanding (requests ++ [request]) = settle (outstanding requests) request := by
  rw [outstanding, List.foldl_append]
  rfl

end Request

def Reply.isRune : Reply → Bool
  | some (.ok _) => true
  | _ => false

namespace Reader

variable {r r' : Reader} {f : Fault} {result : Except Fault Rune}

theorem read_of_pushback {u : Rune} {us : List Rune} (h : r.pushback = u :: us) :
    r.read = (.ok u, { r with pushback := us, offset := r.offset + 1 }) := by
  simp [read, h]

theorem pushback_read (h : r.read = (result, r')) : r'.pushback = r.pushback.tail := by
  cases top : r.pushback with
  | cons u us =>
    rw [read_of_pushback top] at h
    cases h
    rfl
  | nil =>
    cases chunk : r.chunk with
    | cons c later =>
      simp only [read, top, chunk, serve] at h
      cases h
      rfl
    | nil =>
      simp only [read, top, chunk] at h
      split at h
      · cases h
        exact top
      · obtain ⟨_, _, _, ⟨g, drawn⟩ | ⟨c, later, drawn⟩⟩ := r.draw_eq r.source.items
        · cases drawn.symm.trans h
          exact top
        · cases drawn.symm.trans h
          exact top

theorem ended_of_decodeWith {text : Except Fault Text}
    {use : Decoder → Except Fault Text × Decoder} (h : r.decodeWith use = (text, r')) :
    r'.ended = r.ended := by
  unfold decodeWith at h
  split at h <;> cases h <;> rfl

theorem ended_of_accept_error {d : Delivery} (h : r.accept d = (.error f, r')) :
    r'.ended = r.ended := by
  cases d with
  | text t => cases h
  | data b => exact ended_of_decodeWith h
  | junk v =>
    rw [accept] at h
    exact ended_of_decodeWith h
  | ended => exact (balked_of_conclude h).1
  | failed g =>
    cases h
    rfl

theorem Reads.going_of_dirty (h : r.Reads (.error f) r') (dirty : f.isClean = false) :
    r'.ended = false := by
  -- Along the calls of the read, only the last one fails, and none before it has met the end.
  generalize failed : (Except.error f : Except Fault Rune) = result at h
  induction h with
  | served => cases failed
  | finished =>
    cases failed
    cases dirty
  | failed bare filled => exact (ended_of_accept_error filled).trans bare.going
  | called _ _ _ ih => exact ih failed

theorem exhausted_of_dirty (read : r.read = (.error f, r')) (dirty : f.isClean = false) :
    r'.exhausted = false := by
  simp [exhausted, (reads_of_read read).going_of_dirty dirty]

theorem serveAll_of_exhausted (h : r.exhausted = true) (n : Nat) :
    Request.serveAll reply (List.replicate n .read) r =
      (List.replicate n (some (.error Fault.endOfInput)), r) := by
  induction n with
  | zero => rfl
  | succ n ih =>
    simp only [List.replicate_succ, Request.serveAll, reply, read_of_exhausted h, ih]

structure Ledger (requests : List Request) (replies : List Reply) (r : Reader) : Prop where
  pushback : r.pushback = Request.outstanding requests
  offset : r.offset = replies.countP Reply.isRune - requests.countP Request.isUnread

namespace Ledger

variable {requests : List Request} {replies : List Reply}

theorem new (source : Source) (encoding : Text) (handler : Handler) :
    Ledger [] [] (new source encoding handler) := ⟨rfl, rfl⟩

theorem reply (h : Ledger requests replies r) (request : Request) :
    Ledger (requests ++ [request]) (replies ++ [(r.reply request).1]) (r.reply request).2 := by
  have offset := h.offset
  cases request with
  | unread u =>
    refine ⟨?_, ?_⟩
    · rw [Request.outstanding_concat, ← h.pushback]
      rfl
    · simp [Reader.reply, Reply.isRune, Request.isUnread]
      omega
  | read =>
    rcases read : r.read with ⟨result, r'⟩
    simp only [Reader.reply, read]
    refine ⟨?_, ?_⟩
    · rw [Request.outstanding_concat, ← h.pushback]
      exact pushback_read read
    · cases result with
      | ok u =>
        rw [offset_read_ok read]
        simp [Reply.isRune, Request.isUnread]
        omega
      | error f =>
        rw [offset_read_error read]
        simpa [Reply.isRune, Request.isUnread] using offset

theorem serveAll (h : Ledger requests replies r) (later : List Request) :
    Ledger (requests ++ later) (replies ++ (Request.serveAll Reader.reply later r).1)
      (Request.serveAll Reader.reply later r).2 := by
  induction later generalizing requests replies r with
  | nil => simpa [Request.serveAll] using h
  | cons request later ih =>
    have rest := ih (h.reply request)
    simpa [Request.serveAll] using rest

end Ledger

/-- After any requests, whatever the source gave and whatever the decoder made of it, the books of a
reader are in order. The offset is the number of reads that returned less the runes taken back. With
runes pending, a read returns the one that was taken back last and not read again, and leaves the
source alone. A read that fails leaves nothing pending and the offset as it was; unless the fault is
the end of input, the reader is not exhausted, and a rune that is taken back then is the next to be
read. Once the reader is exhausted, reads raise the end of input and change nothing. The decoders
are those for the encodings of `Charset.ofName?` and the handlers of `Handler.ofName`. -/
theorem serveAll_ledger {source : Source} {encoding : Text} {handler : Handler}
    {requests : List Request} {replies : List Reply} {r : Reader}
    (served : Request.serveAll reply requests (new source encoding handler) = (replies, r)) :
    r.offset = replies.countP Reply.isRune - requests.countP Request.isUnread ∧
    r.pending = (Request.outstanding requests).length ∧
    (0 < r.pending → ∃ u us r', Request.outstanding requests = u :: us ∧ r.read = (.ok u, r') ∧
      r'.pending = us.length ∧ r'.source = r.source) ∧
    (∀ f r', r.read = (.error f, r') → r'.pending = 0 ∧ r'.offset = r.offset ∧
      (f.isClean = false → r'.exhausted = false ∧ ∀ u, (r'.unread u).read = (.ok u, r'))) ∧
    (r.exhausted = true → ∀ n, Request.serveAll reply (List.replicate n .read) r =
      (List.replicate n (some (.error Fault.endOfInput)), r)) := by
  have ledger : Ledger requests replies r := by
    have all := (Ledger.new source encoding handler).serveAll requests
    rwa [served] at all
  refine ⟨ledger.offset, congrArg List.length ledger.pushback, ?_, ?_, serveAll_of_exhausted⟩
  · intro pending
    obtain ⟨u, us, top⟩ := List.exists_cons_of_length_pos pending
    exact ⟨u, us, _, ledger.pushback.symm.trans top, read_of_pushback top, rfl, rfl⟩
  · intro f r' failed
    obtain ⟨offset, -, none⟩ := read_error failed
    refine ⟨by rw [pending, none]; rfl, offset, ?_⟩
    intro dirty
    exact ⟨exhausted_of_dirty failed dirty, fun u => r'.read_unread u⟩

def patchy : Source :=
  .ofItems .stream
    [.text [0x61], .fault (Fault.of .blocking []), .value (.int 7), .data [0xff], .data [0x62, 0xe2]]

theorem serveAll_ledger_patchy :
    let requests : List Request :=
      [.read, .read, .unread [0x78], .unread [0x79, 0x7a], .read, .read, .read, .read, .read,
        .unread [], .read]
    let served := Request.serveAll reply requests (new patchy defaultEncoding .strict)
    served = (served.1, served.2) ∧
    served.1.countP Reply.isRune = 5 ∧ requests.countP Request.isUnread = 3 ∧
    served.2.offset = 2 ∧ served.2.pending = (Request.outstanding requests).length ∧
    ∃ f r', served.2.read = (.error f, r') ∧ f.isClean = false ∧ r'.pending = 0 ∧ r'.offset = 2 ∧
      r'.exhausted = false ∧ ∀ u, (r'.unread u).read = (.ok u, r') := by
  intro requests served
  obtain ⟨offset, pending, -, failing, -⟩ := serveAll_ledger (rfl : served = (served.1, served.2))
  have failed : served.2.read =
      (.error (Fault.bare (.undecodable ⟨.utf8, [0xe2], 0, 1, .cutShort⟩)), served.2.read.2) := rfl
  obtain ⟨none, same, after⟩ := failing _ _ failed
  obtain ⟨going, again⟩ := after rfl
  refine ⟨rfl, by decide, by decide, by decide, pending, _, _, failed, rfl, none, ?_, going, again⟩
  exact same.trans (by decide)

end Reader

end RuneMachine
