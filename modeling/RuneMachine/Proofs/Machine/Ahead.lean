import RuneMachine.Machine.Pass
import RuneMachine.Proofs.Reader.Bounds
import RuneMachine.Proofs.Reader.Stack

/-! What is ahead of a machine that substitutes a sentinel for the end of input. Whether a rune
comes from the reader or is the sentinel makes no difference to the state that it is delivered to: a
turn delivers the first of the runes ahead, and ends the pass if there is none. -/

namespace RuneMachine

namespace Event

variable {ν Q E : Type}

def call? : Event ν Q E → Option (Q × Rune)
  | .call q u => some (q, u)
  | _ => none

def isSubstitution : Event ν Q E → Bool
  | .log (.substituting _ _) => true
  | _ => false

def note? : Event ν Q E → Option ν
  | .note entry => some entry
  | _ => none

end Event

namespace World

variable {σ ν Q E α : Type}

def start (reader : Reader) (memory : σ) : World σ ν Q E := ⟨reader, .empty, memory, [], []⟩

def calls (w : World σ ν Q E) : List (Q × Rune) := w.journal.filterMap Event.call?

def hasSubstituted (w : World σ ν Q E) : Bool := w.journal.any Event.isSubstitution

def notes (w : World σ ν Q E) : List ν := w.journal.filterMap Event.note?

def position (w : World σ ν Q E) : Int := w.offset + if w.hasSubstituted then 1 else 0

theorem position_eq_succ {w : World σ ν Q E} (h : w.hasSubstituted = true) :
    w.position = w.reader.offset + 1 := by simp [position, h, offset]

theorem position_eq_offset {w : World σ ν Q E} (h : w.hasSubstituted = false) :
    w.position = w.reader.offset := by simp [position, h, offset]

theorem position_unread (w : World σ ν Q E) (u : Rune) :
    (w.unread u).position = w.position - 1 := by
  change w.offset - 1 + (if w.hasSubstituted then 1 else 0) =
    w.offset + (if w.hasSubstituted then 1 else 0) - 1
  omega

theorem read_eq {w : World σ ν Q E} {result : Except Fault Rune} {r : Reader}
    (h : w.reader.read = (result, r)) :
    ∃ w' : World σ ν Q E, w.read = (result, w') ∧ w'.reader = r ∧ w'.latch = w.latch ∧
      w'.memory = w.memory ∧ w'.located = w.located ∧ w'.calls = w.calls ∧
      w'.hasSubstituted = w.hasSubstituted ∧ w'.notes = w.notes := by
  let pulls : List (Event ν Q E) :=
    List.replicate (r.source.calls - w.reader.source.calls) (.pull r.source.shape)
  refine ⟨{ w with reader := r, journal := pulls ++ w.journal }, ?_, rfl, rfl, rfl, rfl, ?_, ?_, ?_⟩
  · simp only [read, h, pulls]
  · simp [calls, pulls, Event.call?]
  · simp [hasSubstituted, pulls, Event.isSubstitution]
  · simp [notes, pulls, Event.note?]

/-- The runes that a machine with the sentinel `c` will deliver, unless runes are taken back: those
its reader holds, and the sentinel as long as it has not been delivered. -/
inductive Faces (c : CodePoint) : World σ ν Q E → List Rune → Prop
  | before {w us} : w.latch = .empty → w.hasSubstituted = false → w.reader.Holds us →
      Faces c w (us ++ [[c]])
  | after {w us} : w.latch = .ended → w.hasSubstituted = true → w.reader.Holds us → Faces c w us

namespace Faces

variable {c : CodePoint} {w : World σ ν Q E} {us : List Rune}

theorem start {r : Reader} {s : Text} (h : r.Delivers s) (memory : σ) :
    (World.start r memory : World σ ν Q E).Faces c (s ++ [c]).runes := by
  rw [Text.runes_append]
  exact .before rfl rfl h

theorem isFailed (h : w.Faces c us) : w.latch.isFailed = false := by
  cases h with
  | before empty _ _ => rw [empty]; rfl
  | after ended _ _ => rw [ended]; rfl

theorem unread (h : w.Faces c us) (u : Rune) : (w.unread u).Faces c (u :: us) := by
  cases h with
  | before empty not holds =>
    rw [← List.cons_append]
    exact .before empty not (holds.unread u)
  | after ended substituted holds => exact .after ended substituted (holds.unread u)

theorem congr {w' : World σ ν Q E} (h : w.Faces c us) (reader : w'.reader = w.reader)
    (latch : w'.latch = w.latch) (substituted : w'.hasSubstituted = w.hasSubstituted) :
    w'.Faces c us := by
  cases h with
  | before empty not holds =>
    exact .before (latch.trans empty) (substituted.trans not) (reader ▸ holds)
  | after ended already holds =>
    exact .after (latch.trans ended) (substituted.trans already) (reader ▸ holds)

theorem length_le (h : w.Faces c us) : us.length ≤ w.reader.bound + 1 := by
  cases h with
  | before _ _ holds =>
    have bounded := holds.length_le_bound
    rw [List.length_append, List.length_singleton]
    omega
  | after _ _ holds =>
    have bounded := holds.length_le_bound
    omega

theorem turn_cons {u : Rune} (h : w.Faces c (u :: us)) (A : Automaton σ ν Q E) (q : Q) :
    ∃ w' : World σ ν Q E, w.turn A (.substitute c) q = w'.deliver A q u ∧ w'.Faces c us ∧
      w'.memory = w.memory ∧ w'.located = w.located ∧ w'.calls = w.calls ∧
      w'.position = w.position + 1 ∧ w'.notes = w.notes := by
  generalize ahead : u :: us = all at h
  cases h with
  | @before rest empty not holds =>
    cases rest with
    | nil =>
      cases ahead
      obtain ⟨r, read, holds'⟩ := holds.read_nil
      obtain ⟨v, hv, reader, latch, memory, located, calls, substituted, notes⟩ := read_eq read
      have counted := Reader.offset_read_error read
      refine ⟨{ v with latch := .ended }.log (.substituting v.offset [c]), ?_,
        .after rfl rfl (reader ▸ holds'), memory, located, calls, ?_, notes⟩
      · have clean : Fault.endOfInput.isClean = true := rfl
        simp [turn, hv, clean, meetEnd, latch, empty]
      · rw [position_eq_succ rfl, position_eq_offset not, ← counted, ← reader]
        rfl
    | cons v rest =>
      cases ahead
      obtain ⟨r, read, holds'⟩ := holds.read_cons
      obtain ⟨v, hv, reader, latch, memory, located, calls, substituted, notes⟩ := read_eq read
      have counted := Reader.offset_read_ok read
      refine ⟨v, by simp [turn, hv], .before (latch.trans empty) (substituted.trans not)
        (reader ▸ holds'), memory, located, calls, ?_, notes⟩
      rw [position_eq_offset (substituted.trans not), position_eq_offset not, reader, counted]
  | after ended already holds =>
    subst ahead
    obtain ⟨r, read, holds'⟩ := holds.read_cons
    obtain ⟨v, hv, reader, latch, memory, located, calls, substituted, notes⟩ := read_eq read
    have counted := Reader.offset_read_ok read
    refine ⟨v, by simp [turn, hv], .after (latch.trans ended) (substituted.trans already)
      (reader ▸ holds'), memory, located, calls, ?_, notes⟩
    rw [position_eq_succ (substituted.trans already), position_eq_succ already, reader, counted]

theorem turn_nil (h : w.Faces c []) (A : Automaton σ ν Q E) (q : Q) :
    ∃ w' : World σ ν Q E, w.turn A (.substitute c) q = (.over (.returned false), w') ∧
      w'.Faces c [] ∧ w'.memory = w.memory ∧ w'.located = w.located ∧ w'.calls = w.calls ∧
      w'.position = w.position ∧ w'.notes = w.notes := by
  generalize ahead : [] = all at h
  cases h with
  | before empty not holds => simp at ahead
  | after ended already holds =>
    subst ahead
    obtain ⟨r, read, holds'⟩ := holds.read_nil
    obtain ⟨v, hv, reader, latch, memory, located, calls, substituted, notes⟩ := read_eq read
    have counted := Reader.offset_read_error read
    refine ⟨v, ?_, .after (latch.trans ended) (substituted.trans already) (reader ▸ holds'),
      memory, located, calls, ?_, notes⟩
    · have clean : Fault.endOfInput.isClean = true := rfl
      simp [turn, hv, clean, meetEnd, latch, ended]
    · rw [position_eq_succ (substituted.trans already), position_eq_succ already, reader, counted]

end Faces

end World

end RuneMachine
