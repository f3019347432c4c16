import Mathlib.Order.Lattice.Nat
import RuneMachine.Proofs.Reader.Decoding
import RuneMachine.Proofs.Reader.Ordinary

namespace RuneMachine

namespace Decoder

variable {d d' : Decoder} {f : Fault}

theorem kept_of_run_error {data : Bytes} {final : Bool} (h : d.run data final = (.error f, d')) :
    d'.kept = d.kept := by
  unfold run at h
  split at h
  · split at h <;> cases h
    rfl
  · cases h
    rfl

theorem kept_of_decode_error {chunk : Bytes} {final : Bool}
    (h : d.decode chunk final = (.error f, d')) : d'.kept = d.kept := by
  simp only [decode] at h
  split at h
  · split at h
    · cases h
    · split at h <;> exact kept_of_run_error (d := { d with atStart := false }) h
  · exact kept_of_run_error h

end Decoder

namespace Reader

variable {r s r' : Reader} {f : Fault} {u : Rune} {result : Except Fault Rune}
  {results later : List (Except Fault Rune)}

theorem keptLength_of_decodeWith_error {use : Decoder → Except Fault Text × Decoder}
    (used : ∀ d d', use d = (.error f, d') → d'.kept = d.kept)
    (h : r.decodeWith use = (.error f, r')) : r'.keptLength = r.keptLength := by
  unfold decodeWith at h
  split at h
  · next d current =>
    rcases result : use d with ⟨text, d'⟩
    rw [result] at h
    cases h
    rw [← keptLength_currentDecoder current, ← used d d' result]
    rfl
  · cases h
    rfl

theorem keptLength_of_accept_error {d : Delivery} (h : r.accept d = (.error f, r')) :
    r'.keptLength = r.keptLength := by
  cases d with
  | text t => cases h
  | data b => exact keptLength_of_decodeWith_error (fun _ _ => Decoder.kept_of_decode_error) h
  | junk v =>
    rw [accept] at h
    refine keptLength_of_decodeWith_error ?_ h
    intro d d' refused
    cases refused
    rfl
  | ended =>
    simp only [accept, conclude] at h
    split at h
    · cases h
    · next d some =>
      split at h
      · cases h
      · next d' decoded =>
        cases h
        simp only [keptLength, some, Decoder.kept_of_decode_error decoded]
  | failed g =>
    cases h
    rfl

theorem bound_fill_error (h : r.fill = (.error f, r')) : r'.bound ≤ r.bound := by
  have kept : r'.keptLength = r.keptLength :=
    keptLength_of_accept_error (r := { r with source := r.source.called r.source.items.tail }) h
  have taken := itemsBound_tail r.source
  obtain ⟨source, pushback, chunk⟩ := fill_frame h
  simp only [bound, source, pushback, chunk, kept, Source.called]
  omega

theorem bound_read_error (h : r.read = (.error f, r')) : r'.bound ≤ r.bound := by
  have reads := reads_of_read h
  generalize failed : (Except.error f : Except Fault Rune) = result at reads
  clear h
  induction reads with
  | served => cases failed
  | finished => exact Nat.le_refl _
  | failed _ filled => exact bound_fill_error filled
  | called bare filled _ ih => exact Nat.le_trans (ih failed) (bound_fill bare filled)

inductive Gives : Reader → List (Except Fault Rune) → Reader → Prop
  | none {r : Reader} : Gives r [] r
  | result {r s r' : Reader} {result results} : r.read = (result, s) → Gives s results r' →
      Gives r (result :: results) r'

namespace Gives

theorem single (h : r.read = (result, r')) : r.Gives [result] r' := .result h .none

theorem append (h : r.Gives results s) (h' : s.Gives later r') : r.Gives (results ++ later) r' := by
  induction h with
  | none => exact h'
  | result read _ ih => exact .result read (ih h')

theorem of_unread (h : (r.unread u).Gives (result :: results) r') :
    result = .ok u ∧ r.Gives results r' := by
  cases h with
  | result read given =>
    cases (r.read_unread u).symm.trans read
    exact ⟨rfl, given⟩

theorem offset_eq (h : r.Gives results r') : r'.offset = r.offset + (runesOf results).length := by
  induction h with
  | none => simp [runesOf]
  | @result r s r' result results read _ ih =>
    cases result with
    | ok u =>
      rw [ih, offset_read_ok read]
      simp only [runesOf, List.filterMap_cons, Except.toOption, List.length_cons]
      omega
    | error f =>
      rw [ih, offset_read_error read]
      rfl

theorem length_le (h : r.Gives results r') : (runesOf results).length + r'.bound ≤ r.bound := by
  induction h with
  | none => simp [runesOf]
  | @result r s r' result results read _ ih =>
    cases result with
    | ok u =>
      have less := bound_read_lt read
      simp only [runesOf, List.filterMap_cons, Except.toOption, List.length_cons] at ih ⊢
      omega
    | error f =>
      have less := bound_read_error read
      exact Nat.le_trans ih less

end Gives

def Amounts (r : Reader) (n : Nat) : Prop :=
  IsGreatest {m | ∃ results r', r.Gives results r' ∧ (runesOf results).length = m} n

theorem exists_amounts (r : Reader) : ∃ n, r.Amounts n := by
  let amounts := {m | ∃ results r', r.Gives results r' ∧ (runesOf results).length = m}
  have some : amounts.Nonempty := ⟨0, [], r, .none, rfl⟩
  have bounded : BddAbove amounts := by
    refine ⟨r.bound, ?_⟩
    rintro m ⟨results, r', given, rfl⟩
    exact Nat.le_trans (Nat.le_add_right _ _) given.length_le
  exact ⟨sSup amounts, Nat.sSup_mem some bounded, fun _ member => le_csSup bounded member⟩

theorem Holds.gives {us : List Rune} (h : r.Holds us) (given : r.Gives results r') :
    ∃ rest, us = runesOf results ++ rest ∧ r'.Holds rest ∧
      ∀ f, .error f ∈ results → f = Fault.endOfInput ∧ rest = [] := by
  induction given generalizing us with
  | none => exact ⟨us, rfl, h, by simp⟩
  | @result r s r' result results read _ ih =>
    cases us with
    | nil =>
      obtain ⟨r₁, read', holds⟩ := h.read_nil
      cases read'.symm.trans read
      obtain ⟨rest, split, holds', ends⟩ := ih holds
      obtain ⟨none, rfl⟩ := List.append_eq_nil_iff.mp split.symm
      refine ⟨[], split, holds', ?_⟩
      simpa using fun f member => (ends f member).1
    | cons u us =>
      obtain ⟨r₁, read', holds⟩ := h.read_cons
      cases read'.symm.trans read
      obtain ⟨rest, rfl, holds', ends⟩ := ih holds
      exact ⟨rest, rfl, holds', by simpa using ends⟩

end Reader

end RuneMachine
