import RuneMachine.Machine.World

namespace RuneMachine

namespace Fault

variable {f : Fault} {i : Nat} {k : Int}

theorem offsetIn_of_offset (h : f.offset = some k) (l : Locations) : f.offsetIn l = some k := by
  simp [offsetIn, h]

theorem offsetIn_of_identity (offset : f.offset = none) (identity : f.identity = some i)
    (l : Locations) : f.offsetIn l = l.get? i := by
  simp [offsetIn, offset, identity]

theorem offset_of_offsetIn {l : Locations} (h : f.offsetIn l = none) : f.offset = none := by
  cases offset : f.offset with
  | none => rfl
  | some k =>
    rw [offsetIn_of_offset offset] at h
    cases h

theorem locate_fst (f : Fault) (n : Int) (l : Locations) :
    { (f.locate n l).1 with offset := f.offset } = f := by
  unfold locate
  split
  · split <;> rfl
  · rfl

theorem kind_locate (f : Fault) (n : Int) (l : Locations) : (f.locate n l).1.kind = f.kind := by
  have same := congrArg kind (f.locate_fst n l)
  exact same

theorem isClean_locate (f : Fault) (n : Int) (l : Locations) :
    (f.locate n l).1.isClean = f.isClean := by
  rw [isClean, kind_locate, isClean]

theorem locate_of_identity (fresh : f.identity = none) (n : Int) (l l' : Locations) :
    (f.locate n l).1 = (f.locate n l').1 := by
  simp only [locate, offsetIn, fresh, Option.bind_none]
  split <;> rfl

theorem offsetIn_of_fresh (fresh : f.identity = none) (l : Locations) :
    f.offsetIn l = f.offset := by
  simp [offsetIn, fresh]

theorem offsetIn_locate (f g : Fault) (n : Int) (l : Locations) :
    f.offsetIn (g.locate n l).2 = f.offsetIn l ∨
      f.offsetIn l = none ∧ f.offsetIn (g.locate n l).2 = some n ∧ g.kind = .tokenize ∧
        g.identity = f.identity ∧ (g.locate n l).1 = g := by
  unfold locate
  split
  · next unplaced =>
    obtain ⟨kind, missing⟩ := unplaced
    cases identity : g.identity with
    | none => exact .inl rfl
    | some i =>
      by_cases same : f.offset = none ∧ f.identity = some i
      · obtain ⟨offset, identity'⟩ := same
        rw [offsetIn_of_identity (offset_of_offsetIn missing) identity] at missing
        rw [offsetIn_of_identity offset identity', offsetIn_of_identity offset identity']
        exact .inr ⟨missing, by simp, kind, identity'.symm, rfl⟩
      · left
        cases offset : f.offset with
        | some k => rw [offsetIn_of_offset offset, offsetIn_of_offset offset]
        | none =>
          cases identity' : f.identity with
          | none => simp [offsetIn, offset, identity']
          | some j =>
            have other : j ≠ i := by
              rintro rfl
              exact same ⟨offset, identity'⟩
            rw [offsetIn_of_identity offset identity', offsetIn_of_identity offset identity']
            simp [other]
  · exact .inl rfl

theorem locate_of_placed {l : Locations} (h : f.offsetIn l ≠ none) (n : Int) :
    f.locate n l = (f, l) := if_neg fun unplaced => h unplaced.2

theorem offsetIn_locate_self (f : Fault) (n : Int) (l : Locations) :
    (f.locate n l).1.offsetIn (f.locate n l).2 =
      (f.offsetIn l <|> if f.kind = .tokenize then some n else none) := by
  unfold locate
  split
  · next unplaced =>
    obtain ⟨kind, missing⟩ := unplaced
    have offset := offset_of_offsetIn missing
    rw [missing, if_pos kind]
    cases identity : f.identity with
    | none => simp [offsetIn]
    | some i => simp [offsetIn_of_identity offset identity]
  · next placed =>
    cases offset : f.offsetIn l with
    | some k => simp
    | none =>
      have other : f.kind ≠ .tokenize := fun kind => placed ⟨kind, offset⟩
      simp [other]

end Fault

namespace World

variable {σ ν Q E : Type} {f : Fault}

theorem setError_of_clean (clean : f.isClean = true) (w : World σ ν Q E) :
    w.setError (some f) = (.error refusal, w) := if_pos clean

theorem setError_of_dirty (dirty : f.isClean = false) (w : World σ ν Q E) :
    w.setError (some f) =
      (.ok (f.offsetIn w.located <|> if f.kind = .tokenize then some w.offset else none),
        { w with
          latch := .failed (f.locate w.offset w.located).1
          located := (f.locate w.offset w.located).2 }.log
            (.latched w.offset (some (f.locate w.offset w.located).1))) := by
  simp only [setError, dirty, Bool.false_eq_true, if_false, ← Fault.offsetIn_locate_self]

theorem latch_setError (dirty : f.isClean = false) (w : World σ ν Q E) :
    (w.setError (some f)).2.latch = .failed (f.locate w.offset w.located).1 := by
  rw [setError_of_dirty dirty]
  rfl

end World

end RuneMachine
