import RuneMachine.Proofs.Reader.Calls

namespace RuneMachine

namespace Fault

def isOrdinary (f : Fault) : Bool := !f.isClean && f.kind.isCatchable

theorem isOrdinary_iff {f : Fault} :
    f.isOrdinary = true ↔ f.isClean = false ∧ f.kind.isCatchable = true := by
  simp [isOrdinary]

end Fault

namespace Decoder

theorem isOrdinary_of_scan {charset : Charset} {handler : Handler} {final : Bool}
    {whole data : Bytes} {position skip : Nat} {f : Fault}
    (h : scan charset handler final whole position skip data = .error f) : f.isOrdinary := by
  induction data generalizing position skip with
  | nil =>
    rw [scan] at h
    cases h
  | cons b rest ih =>
    cases skip with
    | succ skip =>
      rw [scan] at h
      exact ih h
    | zero =>
      rw [scan] at h
      -- A fault comes from the bytes in front or from those after them.
      have refused (p : Undecodable) : (Fault.bare (.undecodable p)).isOrdinary := rfl
      have unknown (name : Text) : (Fault.unknownHandler name).isOrdinary := rfl
      cases sighted : charset.sight b rest with
      | char code more => grind
      | flawed bad flaw => grind
      | partway bad flaw => grind

theorem isOrdinary_of_run {d d' : Decoder} {data : Bytes} {final : Bool} {f : Fault}
    (h : d.run data final = (.error f, d')) : f.isOrdinary := by
  unfold run at h
  split at h
  · split at h
    · cases h
    · next failed =>
      cases h
      exact isOrdinary_of_scan failed
  · cases h; rfl

theorem isOrdinary_of_decode {d d' : Decoder} {chunk : Bytes} {final : Bool} {f : Fault}
    (h : d.decode chunk final = (.error f, d')) : f.isOrdinary := by
  simp only [decode] at h
  split at h
  · split at h
    · cases h
    · split at h <;> exact isOrdinary_of_run h
  · exact isOrdinary_of_run h

end Decoder

namespace Source

def answer (s : Source) (n : Nat) : Delivery :=
  match s.items[n]? with
  | some item => s.shape.deliver item
  | none => s.shape.afterLast

theorem answer_zero (s : Source) : s.answer 0 = s.next := by
  unfold answer next
  cases s.items <;> rfl

theorem answer_succ (s : Source) (n : Nat) :
    s.answer (n + 1) = (s.called s.items.tail).answer n := by
  unfold answer called
  cases s.items <;> rfl

end Source

namespace Reader

theorem bare_or_exhausted_or_served (r : Reader) :
    r.Bare ∨ r.exhausted = true ∨
      ∃ u r', r.read = (.ok u, r') ∧ r'.source = r.source ∧ r'.ended = r.ended := by
  cases none : r.pushback with
  | cons u us =>
    have served : r.read = (.ok u, { r with pushback := us, offset := r.offset + 1 }) := by
      simp [read, none]
    exact .inr (.inr ⟨u, _, served, rfl, rfl⟩)
  | nil =>
    cases empty : r.chunk with
    | cons c later =>
      have served : r.read = r.serve c later := by simp [read, none, empty]
      exact .inr (.inr ⟨[c], _, served, rfl, rfl⟩)
    | nil =>
      cases going : r.ended with
      | true => exact .inr (.inl (by simp [exhausted, none, empty, going]))
      | false => exact .inl ⟨none, empty, going⟩

inductive Reads : Reader → Except Fault Rune → Reader → Prop
  | served {r r' u} : r.read = (.ok u, r') → r'.source = r.source → r'.ended = r.ended →
      Reads r (.ok u) r'
  | finished {r} : r.exhausted = true → Reads r (.error Fault.endOfInput) r
  | failed {r r' f} : r.Bare → r.fill = (.error f, r') → Reads r (.error f) r'
  | called {r s r' text result} : r.Bare → r.fill = (.ok text, s) →
      Reads { s with chunk := text } result r' → Reads r result r'

def unspent (r : Reader) : Nat := if r.ended then 0 else r.source.items.length + 1

theorem unspent_fill {r r' : Reader} {text : Text} (bare : r.Bare) (h : r.fill = (.ok text, r')) :
    r'.unspent < r.unspent := by
  obtain ⟨source, -, -⟩ := fill_frame h
  unfold unspent
  rw [source, bare.going]
  cases items : r.source.items with
  | nil => simp [ended_of_fill_nil items h]
  | cons item items' =>
    simp only [Source.called, List.tail_cons, List.length_cons, Bool.false_eq_true, if_false]
    split <;> omega

theorem reads_of_read {r r' : Reader} {result : Except Fault Rune} (read : r.read = (result, r')) :
    r.Reads result r' := by
  obtain bare | exhausted | ⟨u, s, served, source, ended⟩ := r.bare_or_exhausted_or_served
  · rw [read_eq_fill bare] at read
    rcases filled : r.fill with ⟨f | text, s⟩
    · rw [filled] at read
      cases read
      exact .failed bare filled
    · rw [filled] at read
      have fewer := unspent_fill bare filled
      exact .called bare filled (reads_of_read read)
  · rw [read_of_exhausted exhausted] at read
    cases read
    exact .finished exhausted
  · rw [served] at read
    cases read
    exact .served served source ended
termination_by r.unspent

theorem Reads.of_ended {r r' : Reader} {result : Except Fault Rune} (h : r.Reads result r')
    (finished : r.ended = true) :
    r'.source = r.source ∧ r'.ended = true ∧ ∀ f, result = .error f → f = Fault.endOfInput := by
  cases h with
  | served _ source ended =>
    refine ⟨source, ended.trans finished, ?_⟩
    intro f h
    cases h
  | finished =>
    refine ⟨rfl, finished, ?_⟩
    intro f h
    exact (Except.error.inj h).symm
  | failed bare => exact absurd finished (by simp [bare.going])
  | called bare => exact absurd finished (by simp [bare.going])

theorem source_serveAll_of_ended {r : Reader} (finished : r.ended = true)
    (requests : List Request) :
    (Request.serveAll reply requests r).2.source = r.source := by
  induction requests generalizing r with
  | nil => rfl
  | cons request requests ih =>
    cases request with
    | unread u => exact ih (r := r.unread u) finished
    | read =>
      obtain ⟨source, ended, -⟩ := (reads_of_read rfl : r.Reads r.read.1 r.read.2).of_ended finished
      exact (ih ended).trans source

theorem calls_fill {r r' : Reader} {result : Except Fault Text} (h : r.fill = (result, r')) :
    r'.source.calls = r.source.calls + 1 := by
  rw [(fill_frame h).1]
  rfl

theorem Reads.calls_le {r r' : Reader} {result : Except Fault Rune} (h : r.Reads result r') :
    r.source.calls ≤ r'.source.calls := by
  induction h with
  | served _ source => exact Nat.le_of_eq (congrArg Source.calls source.symm)
  | finished => exact Nat.le_refl _
  | failed _ filled =>
    rw [calls_fill filled]
    exact Nat.le_succ _
  | called _ filled _ ih =>
    have later : _ ≤ _ := ih
    simp only [calls_fill filled] at later
    exact Nat.le_of_succ_le later

theorem Bare.calls_lt {r r' : Reader} {result : Except Fault Rune} (bare : r.Bare)
    (read : r.read = (result, r')) : r.source.calls < r'.source.calls := by
  rw [read_eq_fill bare] at read
  rcases filled : r.fill with ⟨f | text, s⟩
  · rw [filled] at read
    cases read
    rw [calls_fill filled]
    exact Nat.lt_succ_self _
  · rw [filled] at read
    have later : s.source.calls ≤ r'.source.calls := (reads_of_read read).calls_le
    rw [calls_fill filled] at later
    exact later

def Balked (r : Reader) (f : Fault) : Prop :=
  ∃ d d' : Decoder, d.decode [] true = (.error f, d') ∧ r.decoder = some d'

theorem balked_of_conclude {r r' : Reader} {f : Fault} (h : r.conclude = (.error f, r')) :
    r'.ended = r.ended ∧ r'.Balked f := by
  unfold conclude at h
  split at h
  · cases h
  · next d _ =>
    split at h
    · cases h
    · next d' decoded =>
      cases h
      exact ⟨rfl, d, d', decoded, rfl⟩

theorem fill_of_ended {r : Reader} (met : r.source.answer 0 = .ended) :
    r.fill = { r with source := r.source.called r.source.items.tail }.conclude := by
  rw [fill, ← r.source.answer_zero, met]
  rfl

theorem Reads.of_answer_ended {r r' : Reader} {result : Except Fault Rune} {n : Nat}
    (h : r.Reads result r') (made : r.source.calls + n < r'.source.calls)
    (met : r.source.answer n = .ended) :
    r'.source.calls = r.source.calls + n + 1 ∧
      (r'.ended = true ∧ (∀ f, result = .error f → f = Fault.endOfInput) ∨
        r'.Bare ∧ ∃ f, result = .error f ∧ r'.Balked f) := by
  -- Along the calls of the read, `n` counts down to the one that meets the end.
  induction h generalizing n with
  | served _ source =>
    rw [source] at made
    omega
  | finished => omega
  | @failed r r' f bare filled =>
    have calls := calls_fill filled
    obtain rfl : n = 0 := by omega
    obtain ⟨-, pushback, chunk⟩ := fill_frame filled
    rw [fill_of_ended met] at filled
    obtain ⟨ended, balked⟩ := balked_of_conclude filled
    refine ⟨calls, .inr ⟨⟨?_, ?_, ?_⟩, f, rfl, balked⟩⟩
    · exact pushback.trans bare.none
    · exact chunk.trans bare.empty
    · exact ended.trans bare.going
  | @called r s r' text result bare filled later ih =>
    have calls := calls_fill filled
    cases n with
    | zero =>
      rw [fill_of_ended met] at filled
      have finished : s.ended = true := ended_of_conclude filled
      obtain ⟨source, ended, only⟩ := later.of_ended finished
      exact ⟨(congrArg Source.calls source).trans calls, .inl ⟨ended, only⟩⟩
    | succ n =>
      obtain ⟨source, -, -⟩ := fill_frame filled
      rw [Source.answer_succ, ← source] at met
      have made : s.source.calls + n < r'.source.calls := by omega
      obtain ⟨last, result⟩ := ih made met
      exact ⟨by rw [last, calls]; omega, result⟩

/-- Once a read has met the end of the source, whatever is asked of the reader calls the source no
more, unless what was left in the decoder made that read fail: then the next read calls it again.
The decoders are those for the encodings of `Charset.ofName?` and the handlers of
`Handler.ofName`. -/
theorem calls_after_end_iff {r r' : Reader} {result : Except Fault Rune} {n : Nat}
    (read : r.read = (result, r')) (made : r.source.calls + n < r'.source.calls)
    (met : r.source.answer n = .ended) :
    r'.source.calls = r.source.calls + n + 1 ∧
      ((∀ requests, (Request.serveAll reply requests r').2.source.calls = r'.source.calls) ↔
        ∀ f, result = .error f → f = Fault.endOfInput) ∧
      ∀ f, result = .error f → f = Fault.endOfInput ∨ r'.Balked f := by
  obtain ⟨last, ⟨finished, only⟩ | ⟨bare, f, rfl, balked⟩⟩ :=
    (reads_of_read read).of_answer_ended made met
  · refine ⟨last, ⟨fun _ => only, ?_⟩, fun f failed => .inl (only f failed)⟩
    intro _ requests
    exact congrArg Source.calls (source_serveAll_of_ended finished requests)
  · have dirty : f ≠ Fault.endOfInput := by
      obtain ⟨d, d', decoded, -⟩ := balked
      rintro rfl
      cases Decoder.isOrdinary_of_decode decoded
    refine ⟨last, ⟨?_, fun only => absurd (only f rfl) dirty⟩, ?_⟩
    · intro still
      have again := bare.calls_lt rfl
      have same := still [.read]
      exact absurd same (Nat.ne_of_gt again)
    · intro g failed
      cases failed
      exact .inr balked

def truncated : Source := .ofItems .stream [.data [0x61, 0xe2], .data [0x82]]

theorem calls_after_end_iff_truncated :
    let r := (ofSource truncated).read.2
    r.source.calls + 1 < r.read.2.source.calls ∧ r.source.answer 1 = .ended ∧
      (∃ f, r.read.1 = .error f ∧ f ≠ Fault.endOfInput) ∧
      r.read.2.source.calls = r.source.calls + 1 + 1 ∧
      ((∀ requests, (Request.serveAll reply requests r.read.2).2.source.calls =
          r.read.2.source.calls) ↔ ∀ f, r.read.1 = .error f → f = Fault.endOfInput) ∧
      ∀ f, r.read.1 = .error f → f = Fault.endOfInput ∨ r.read.2.Balked f := by
  intro r
  have made : r.source.calls + 1 < r.read.2.source.calls := by decide
  have met : r.source.answer 1 = .ended := rfl
  have failed : ∃ f, r.read.1 = .error f ∧ f ≠ Fault.endOfInput :=
    ⟨Fault.bare (.undecodable ⟨.utf8, [0xe2, 0x82], 0, 2, .cutShort⟩), rfl, by decide⟩
  exact ⟨made, met, failed, calls_after_end_iff rfl made met⟩

/-- So the end of the source is not always the end of the calls. -/
theorem not_calls_after_end :
    ¬∀ (source : Source) (encoding : Text) (handler : Handler) (before after : List Request)
      (n : Nat),
      source.calls + n <
        (Request.serveAll reply before (new source encoding handler)).2.source.calls →
      source.answer n = .ended →
      (Request.serveAll reply (before ++ after) (new source encoding handler)).2.source.calls =
        (Request.serveAll reply before (new source encoding handler)).2.source.calls := by
  intro still
  have made : truncated.calls + 2 < (Request.serveAll reply [.read, .read]
      (new truncated defaultEncoding .strict)).2.source.calls := by decide
  have same := still truncated defaultEncoding .strict [.read, .read] [.read] 2 made rfl
  revert same
  decide

end Reader

end RuneMachine
