import RuneMachine.Proofs.Tokenizer.Deliveries

namespace RuneMachine

namespace World

variable {σ ν Q E : Type} {A : Automaton σ ν Q E} {policy : Policy E} {w : World σ ν Q E}

theorem proceed_of_le {turns more : Nat} {state : Option Q} (le : turns ≤ more)
    (finished : (w.proceed A policy turns state).1 ≠ .unfinished) :
    w.proceed A policy more state = w.proceed A policy turns state := by
  induction turns generalizing w state more with
  | zero =>
    cases state with
    | none => rw [proceed_none, proceed_none]
    | some q => exact absurd rfl finished
  | succ turns ih =>
    obtain ⟨more, rfl⟩ := Nat.exists_eq_add_one.mpr (Nat.zero_lt_of_lt le)
    cases state with
    | none => rw [proceed_none, proceed_none]
    | some q =>
      rcases turned : w.turn A policy q with ⟨state | outcome, v⟩
      · simp only [proceed, turned] at finished ⊢
        exact ih (Nat.le_of_succ_le_succ le) finished
      · simp only [proceed, turned]

theorem pass_of_le {config : Config Q E} {turns more : Nat} (le : turns ≤ more)
    (finished : (w.pass A config turns).1 ≠ .unfinished) :
    w.pass A config more = w.pass A config turns := by
  unfold pass at finished ⊢
  split at finished
  · next failed => simp only [failed, if_true]
  · next going =>
    simp only [going]
    exact proceed_of_le le finished

end World

namespace Scanner

open Tokenizer

variable {μ τ : Type} {t : Tokenizer μ τ} {s : Scanner μ τ} {reader : Reader} {user : μ}

theorem pass_of_turnBound_le (s : Scanner μ τ) {turns : Nat} (enough : s.turnBound ≤ turns) :
    s.world.pass s.tokenizer.automaton s.tokenizer.config turns =
      (s.scan.1, s.scan.2.world) := World.pass_of_le enough s.straight_of_scan.1

theorem length_delivered_le {results : List (Except Fault Rune)} {n : Nat}
    (covers : s.Covers reader results) (amounts : reader.Amounts n) :
    s.delivered.length ≤ n + 1 := by
  have most : (Reader.runesOf results).length ≤ n := amounts.2 ⟨results, _, covers.gives, rfl⟩
  have counted := length_offered s.tokenizer.options.sentinel true results
  rw [covers.delivered]
  simp only [Bool.toNat_true] at counted
  omega

theorem le_length_delivered {i : Nat}
    (successful : ∀ j < i, ((new t reader user).after j).scan.1 = .returned true) :
    i ≤ ((new t reader user).after i).delivered.length := by
  induction i with
  | zero => exact Nat.zero_le _
  | succ i ih =>
    obtain ⟨results, covers⟩ := exists_covers t reader user i
    obtain ⟨-, added, -, delivered, new⟩ := covers.scan
    have before := ih fun j less => successful j (Nat.lt_succ_of_lt less)
    have more := List.length_pos_iff.mpr (new (successful i (Nat.lt_succ_self i)))
    rw [after, delivered, List.length_append]
    omega

theorem exists_unsuccessful {n : Nat} (amounts : reader.Amounts n) (t : Tokenizer μ τ) (user : μ) :
    ∃ i ≤ n + 1, (∀ j < i, ((new t reader user).after j).scan.1 = .returned true) ∧
      ((new t reader user).after i).scan.1 ≠ .returned true := by
  have bounded {i : Nat}
      (successful : ∀ j < i, ((new t reader user).after j).scan.1 = .returned true) :
      i ≤ n + 1 := by
    obtain ⟨results, covers⟩ := exists_covers t reader user i
    exact (le_length_delivered successful).trans (length_delivered_le covers amounts)
  have stops : ∃ i, ((new t reader user).after i).scan.1 ≠ .returned true := by
    by_contra never
    have successful : ∀ i, ((new t reader user).after i).scan.1 = .returned true := by
      simpa using never
    have few := bounded (i := n + 2) fun j _ => successful j
    omega
  have successful (j : Nat) (before : j < Nat.find stops) :
      ((new t reader user).after j).scan.1 = .returned true := by
    simpa using Nat.find_min stops before
  exact ⟨Nat.find stops, bounded successful, successful, Nat.find_spec stops⟩

/-- Scanning terminates. A scan ends after a number of turns that is known before it, so that with
more turns it does the same; it returns or raises. A loop of scans comes to one without success
after at most one success more than there are runes. Up to any point the scans together have
delivered what came with a straight reading of the reader, each rune once and the sentinel once, and
every scan that is successful adds to that. -/
theorem scans_terminate (t : Tokenizer μ τ) (reader : Reader) (user : μ) :
    let scanner := (new t reader user).after
    (∀ i, (scanner i).scan.1 ≠ .unfinished ∧ ∀ turns ≥ (scanner i).turnBound,
      (scanner i).world.pass t.automaton t.config turns =
        ((scanner i).scan.1, (scanner (i + 1)).world)) ∧
    (∃ n, reader.Amounts n ∧ ∃ i ≤ n + 1,
      (∀ j < i, (scanner j).scan.1 = .returned true) ∧ (scanner i).scan.1 ≠ .returned true) ∧
    ∀ i, ∃ results added, reader.Gives results (scanner i).world.reader ∧
      (scanner i).delivered = offered t.options.sentinel true results ∧
      (scanner (i + 1)).delivered = (scanner i).delivered ++ added ∧
      ((scanner i).scan.1 = .returned true → added ≠ []) := by
  intro scanner
  have same (i : Nat) : (scanner i).tokenizer = t := tokenizer_after _ i
  refine ⟨?_, ?_, ?_⟩
  · intro i
    refine ⟨(scanner i).straight_of_scan.1, fun turns enough => ?_⟩
    have passed := (scanner i).pass_of_turnBound_le enough
    rw [same i] at passed
    exact passed
  · obtain ⟨n, amounts⟩ := reader.exists_amounts
    exact ⟨n, amounts, exists_unsuccessful amounts t user⟩
  · intro i
    obtain ⟨results, covers⟩ := exists_covers t reader user i
    obtain ⟨-, added, -, delivered, new⟩ := covers.scan
    have whole := covers.delivered
    rw [same i] at whole
    exact ⟨results, added, covers.gives, whole, delivered, new⟩

end Scanner

end RuneMachine
