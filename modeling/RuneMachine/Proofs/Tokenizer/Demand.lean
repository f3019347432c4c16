import RuneMachine.Proofs.Reader.Demand
import RuneMachine.Proofs.Tokenizer.Finds
import RuneMachine.Proofs.Tokenizer.Resumption

namespace RuneMachine

variable {results : List (Except Fault Rune)}

theorem foldl_staysFresh_false (results : List (Except Fault Rune)) :
    results.foldl staysFresh false = false := by
  induction results with
  | nil => rfl
  | cons result results ih => cases result <;> exact ih

theorem not_mem_of_fresh (fresh : results.foldl staysFresh true = true) {f : Fault}
    (clean : f.isClean = true) : .error f ∉ results := by
  induction results with
  | nil => simp
  | cons result results ih =>
    rw [List.foldl_cons] at fresh
    cases result with
    | ok u => simpa using ih fresh
    | error g =>
      cases dirty : g.isClean with
      | true =>
        simp [staysFresh, dirty, foldl_staysFresh_false] at fresh
      | false =>
        simp only [staysFresh, dirty, Bool.not_false, Bool.and_self] at fresh
        rw [List.mem_cons, not_or]
        refine ⟨?_, ih fresh⟩
        rintro ⟨⟩
        rw [dirty] at clean
        cases clean

namespace Reader

variable {r r' : Reader}

theorem Gives.serveAll (h : r.Gives results r') :
    Request.serveAll Reader.reply (List.replicate results.length .read) r =
      (results.map some, r') := by
  induction h with
  | none => rfl
  | result read _ ih =>
    simp only [List.length_cons, List.replicate_succ, Request.serveAll, reply, read, ih,
      List.map_cons]

theorem Holds.faultsOf_eq_nil {us : List Rune} (h : r.Holds us) (given : r.Gives results r')
    (fresh : results.foldl staysFresh true = true) : faultsOf results = [] := by
  obtain ⟨rest, -, -, ends⟩ := h.gives given
  rw [faultsOf, List.filterMap_eq_nil_iff]
  intro result member
  cases result with
  | ok u => rfl
  | error f =>
    obtain ⟨rfl, -⟩ := ends f member
    exact absurd member (not_mem_of_fresh fresh rfl)

end Reader

theorem World.Faces.latch_eq_empty {σ ν Q E : Type} {w : World σ ν Q E} {c : CodePoint}
    {us : List Rune} (h : w.Faces c us) (unsubstituted : w.hasSubstituted = false) :
    w.latch = .empty := by
  cases h with
  | before empty => exact empty
  | after _ substituted =>
    rw [substituted] at unsubstituted
    cases unsubstituted

namespace Scanner

open Tokenizer

variable {μ τ : Type} {reader : Reader} {s : Text}

theorem find_of_scan (t : Tokenizer μ τ) (h : reader.Delivers s) (user : μ) {n : Nat}
    {after : Scanner μ τ} (scanned : ((new t reader user).after n).scan = (.returned true, after))
    (unsubstituted : after.world.hasSubstituted = false) :
    after.world.latch = .empty ∧
      ∃ (before : Text) (find : Find τ), find.Recognised t ∧ after.token = some find.token ∧
        after.shown.getLast? = some find.buffer ∧
        after.delivered = (before ++ find.text).runes ∧ before ++ find.text <+: s := by
  obtain ⟨taken, rest, split, position⟩ := exists_position t h user n
  cases position with
  | failed _ _ _ latch =>
    rw [scan_of_failed (by rw [latch]; rfl)] at scanned
    cases scanned
  | @going m shown delivered stands =>
    have same : ((new t reader user).after n).tokenizer = t := tokenizer_after _ n
    rw [same] at stands
    obtain ⟨outcome, left, added, found⟩ := scan_takes same stands
    rw [scanned] at outcome left added found
    obtain ⟨token, ended⟩ := Course.ending_of_outcome outcome.symm
    obtain ⟨find, recognised, rfl, text, last⟩ := exists_find ended
    have ahead := left.stands (by simp [ended])
    have empty := ahead.ready.faces.latch_eq_empty unsubstituted
    refine ⟨empty, taken, find, recognised, found _ ended, ?_, ?_, ?_⟩
    · rw [Scanner.shown, left.shown_eq, List.getLast?_append, last, Option.some_or]
    · rw [added, delivered, ← text, Text.runes_append]
    · -- The sentinel is the last of what is still ahead, so the rest of that is text.
      obtain ⟨unread, rest', -⟩ := ahead_of_empty ahead empty
      have whole := (lawful_course t rest m).text
      rw [← text, rest', ← List.append_assoc] at whole
      rw [← whole, ← List.append_assoc, ← List.append_assoc] at split
      exact ⟨unread, (List.append_cancel_right split).symm⟩

theorem isLeast_calls (t : Tokenizer μ τ) {source : Source} {chunks : List Text}
    (deals : source.Deals chunks) (encoding : Text) (handler : Handler) (user : μ) {n : Nat}
    {after : Scanner μ τ} (scans : (new t (.new source encoding handler) user).after n = after)
    (empty : after.world.latch = .empty) :
    IsLeast {k | after.delivered.length ≤ Text.supply chunks k} after.world.reader.source.calls := by
  obtain ⟨results, covers⟩ := exists_covers t (.new source encoding handler) user n
  rw [scans] at covers
  obtain ⟨gives, delivered, fresh⟩ := covers
  have fresh : results.foldl staysFresh true = true := by
    rw [← fresh (by rw [empty]; rfl), World.isFresh, empty]
    rfl
  have delivers := Reader.delivers_new deals.supplies encoding handler
  have faultless := Reader.eq_map_ok (Reader.Holds.faultsOf_eq_nil delivers gives fresh)
  have reads : after.delivered.length = results.length := by
    have counted := length_offered after.tokenizer.options.sentinel true results
    have all := congrArg List.length faultless
    rw [fresh] at counted
    rw [List.length_map] at all
    rw [delivered, all]
    exact Nat.add_right_cancel counted
  have unended : some (.error Fault.endOfInput) ∉ results.map some := by
    intro member
    obtain ⟨result, member, same⟩ := List.mem_map.mp member
    cases same
    exact not_mem_of_fresh fresh rfl member
  -- What was taken back was read again at once, so the scans come to so many reads straight on.
  have fed := (Reader.Fed.new deals encoding handler).serveAll gives.serveAll unended
  have drawn : Request.drawn (List.replicate results.length .read)
      (Reader.new source encoding handler).pending = results.length :=
    Request.drawn_replicate_read _
  rw [drawn, Nat.zero_add] at fed
  rw [reads]
  exact fed.isLeast

/-- No reading ahead. Whatever is read and taken back, as long as the end of input has not been
raised, the source was called the least number of times with which its chunks suffice for the reads
that found nothing taken back. So it is after a scan that has found a token without the sentinel:
the source was called the least number of times with which its chunks suffice for the text up to the
end of the token's buffer, which the mapper was shown last. -/
theorem calls_isLeast {source : Source} {chunks : List Text} (deals : source.Deals chunks)
    (encoding : Text) (handler : Handler) :
    (∀ requests replies r,
      Request.serveAll Reader.reply requests (.new source encoding handler) = (replies, r) →
      some (.error Fault.endOfInput) ∉ replies →
      IsLeast {k | Request.drawn requests 0 ≤ Text.supply chunks k} r.source.calls) ∧
    ∀ {μ τ : Type} (t : Tokenizer μ τ) (user : μ) (n : Nat) (after : Scanner μ τ),
      ((new t (.new source encoding handler) user).after n).scan = (.returned true, after) →
      after.world.hasSubstituted = false →
      ∃ (before : Text) (find : Find τ), find.Recognised t ∧ after.token = some find.token ∧
        after.shown.getLast? = some find.buffer ∧
        after.delivered = (before ++ find.text).runes ∧
        before ++ find.text <+: chunks.flatten ∧
        IsLeast {k | (before ++ find.text).length ≤ Text.supply chunks k}
          after.world.reader.source.calls := by
  constructor
  · intro requests replies r served unended
    have fed := (Reader.Fed.new deals encoding handler).serveAll served unended
    rw [Nat.zero_add] at fed
    exact fed.isLeast
  · intro μ τ t user n after scanned unsubstituted
    have delivers := Reader.delivers_new deals.supplies encoding handler
    have scans : (new t (.new source encoding handler) user).after (n + 1) = after :=
      congrArg Prod.snd scanned
    obtain ⟨empty, before, find, recognised, token, last, delivered, within⟩ :=
      find_of_scan t delivers user scanned unsubstituted
    have least := isLeast_calls t deals encoding handler user scans empty
    rw [delivered, Text.length_runes] at least
    exact ⟨before, find, recognised, token, last, delivered, within, least⟩

theorem calls_isLeast_countingWords :
    let full : List Text := [[0x61, 0x62], [0x63]]
    let stream : Source := .ofItems .stream (full.map .text)
    let requests : List Request := [.read, .unread [0x78], .read, .read]
    let served := Request.serveAll Reader.reply requests (.ofSource stream)
    let chunks : List Text := [[], [0x61], [], [0x20, 0x62], [0x63]]
    let iterator : Source := .ofItems .iterator (chunks.map .text)
    let scanned := (new countingWords (.ofSource iterator) 0).scan
    stream.Deals full ∧ some (.error Fault.endOfInput) ∉ served.1 ∧
      served.2.source.calls = 1 ∧ IsLeast {k | 2 ≤ Text.supply full k} 1 ∧
      iterator.Deals chunks ∧ scanned.1 = .returned true ∧
      scanned.2.world.hasSubstituted = false ∧ scanned.2.world.reader.source.calls = 4 ∧
      ∃ (before : Text) (find : Find Bytes), scanned.2.token = some find.token ∧
        before ++ find.text <+: chunks.flatten ∧
        IsLeast {k | (before ++ find.text).length ≤ Text.supply chunks k} 4 := by
  intro full stream requests served chunks iterator scanned
  have deals : stream.Deals full := Source.deals_stream (by decide)
  have deals' : iterator.Deals chunks := Source.deals_iterator chunks
  have unended : some (.error Fault.endOfInput) ∉ served.1 := by decide
  have success : scanned.1 = .returned true := by decide
  have unsubstituted : scanned.2.world.hasSubstituted = false := by decide
  obtain ⟨reads, -⟩ := calls_isLeast deals Reader.defaultEncoding .strict
  obtain ⟨-, scans⟩ := calls_isLeast deals' Reader.defaultEncoding .strict
  have least := reads requests served.1 served.2 rfl unended
  obtain ⟨before, find, -, token, -, -, within, least'⟩ :=
    scans countingWords 0 0 scanned.2 (congrArg (·, scanned.2) success) unsubstituted
  exact ⟨deals, unended, rfl, least, deals', success, unsubstituted, rfl, before, find, token,
    within, least'⟩

end Scanner

end RuneMachine
