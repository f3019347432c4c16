import RuneMachine.Machine.Bench

namespace RuneMachine

namespace Bench

variable {σ ν Q E : Type}

structure Seats (b : Bench σ Q E) (m i : Nat) (config : Config Q E) (reader : Reader)
    (latch : Latch) : Prop where
  machine : b.machines[m]? = some ⟨config, i, latch⟩
  reader : b.readers[i]? = some reader

def scene (b : Bench σ Q E) (reader : Reader) (latch : Latch) : World σ ν Q E :=
  ⟨reader, latch, b.memory, b.located, []⟩

namespace Seats

variable {b : Bench σ Q E} {m i : Nat} {config : Config Q E} {reader : Reader} {latch : Latch}

theorem report (h : b.Seats m i config reader latch) :
    b.report m = some (latch.fault?, reader.offset) := by
  simp [Bench.report, h.machine, h.reader]

theorem leave (h : b.Seats m i config reader latch) (w : World σ ν Q E) :
    b.leave m w =
      ⟨b.readers.set i w.reader, b.machines.set m ⟨config, i, w.latch⟩, w.memory, w.located⟩ := by
  simp [Bench.leave, h.machine]

theorem run (h : b.Seats m i config reader latch) (A : Automaton σ ν Q E) {turns : Nat}
    {outcome : Outcome} {w : World σ ν Q E}
    (passed : (b.scene reader latch).pass A config turns = (outcome, w)) :
    b.run A turns m = some (outcome, w.journal.reverse, b.leave m w) := by
  unfold scene at passed
  simp [Bench.run, operate, enter, h.machine, h.reader, passed]

theorem after (h : b.Seats m i config reader latch) (w : World σ ν Q E) :
    (b.leave m w).Seats m i config w.reader w.latch := by
  obtain ⟨inMachines, -⟩ := List.getElem?_eq_some_iff.mp h.machine
  obtain ⟨inReaders, -⟩ := List.getElem?_eq_some_iff.mp h.reader
  rw [h.leave]
  exact ⟨by simp [inMachines], by simp [inReaders]⟩

theorem others {m' i' : Nat} {config' : Config Q E} {reader' : Reader} {latch' : Latch}
    (h : b.Seats m i config reader latch) (h' : b.Seats m' i' config' reader' latch')
    (machine : m ≠ m') (separate : i ≠ i') (w : World σ ν Q E) :
    (b.leave m w).Seats m' i' config' reader' latch' := by
  rw [h.leave]
  refine ⟨?_, ?_⟩
  · rw [List.getElem?_set_ne machine]
    exact h'.machine
  · rw [List.getElem?_set_ne separate]
    exact h'.reader

end Seats

end Bench

end RuneMachine
