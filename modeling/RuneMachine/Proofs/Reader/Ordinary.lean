import RuneMachine.Proofs.Reader.Bounds
import RuneMachine.Proofs.Reader.Ending

namespace RuneMachine

theorem Fault.isOrdinary_unknownEncoding (name : Text) : (unknownEncoding name).isOrdinary := by
  unfold unknownEncoding
  split <;> rfl

theorem Decoder.isOrdinary_refusal (d : Decoder) (typeName : Text) :
    (d.refusal typeName).isOrdinary := by
  unfold refusal
  split <;> rfl

theorem Source.Shape.eq_fault_of_deliver {shape : Shape} {item : Item} {f : Fault}
    (h : shape.deliver item = .failed f) : item = .fault f := by
  unfold deliver at h
  split at h
  · split at h
    · cases h
    · next v _ => cases v <;> cases h
  · cases h
    rfl
  · cases h
  · next v _ _ => cases v <;> cases h
  · split at h
    · cases h
    · cases h
      rfl

theorem Source.mem_or_isOrdinary_of_next {s : Source} {f : Fault} (h : s.next = .failed f) :
    .fault f ∈ s.items ∨ f.isOrdinary := by
  unfold next at h
  split at h
  · unfold Shape.afterLast at h
    split at h
    · cases h
      exact .inr rfl
    · cases h
  · next item items given =>
    obtain rfl := Shape.eq_fault_of_deliver h
    exact .inl (by simp [given])

namespace Reader

variable {r r' : Reader} {f : Fault}

theorem items_fill {result : Except Fault Text} (h : r.fill = (result, r')) :
    r'.source.items ⊆ r.source.items := by
  intro item member
  rw [(fill_frame h).1] at member
  exact List.mem_of_mem_tail member

theorem isOrdinary_of_currentDecoder (h : r.currentDecoder = .error f) : f.isOrdinary := by
  unfold currentDecoder at h
  split at h
  · cases h
  · split at h
    · cases h
    · cases h
      exact Fault.isOrdinary_unknownEncoding r.encoding

theorem isOrdinary_of_decodeWith {use : Decoder → Except Fault Text × Decoder}
    (used : ∀ d d', use d = (.error f, d') → f.isOrdinary)
    (h : r.decodeWith use = (.error f, r')) : f.isOrdinary := by
  unfold decodeWith at h
  split at h
  · next d _ =>
    rcases result : use d with ⟨text, d'⟩
    rw [result] at h
    cases h
    exact used d d' result
  · next failed =>
    cases h
    exact isOrdinary_of_currentDecoder failed

theorem isOrdinary_of_accept {d : Delivery} (h : r.accept d = (.error f, r')) :
    d = .failed f ∨ f.isOrdinary := by
  cases d with
  | text t => cases h
  | data b => exact .inr (isOrdinary_of_decodeWith (fun _ _ => Decoder.isOrdinary_of_decode) h)
  | junk v =>
    rw [accept] at h
    refine .inr (isOrdinary_of_decodeWith ?_ h)
    intro d d' refused
    cases refused
    exact d.isOrdinary_refusal v.typeName
  | ended =>
    obtain ⟨-, d, d', decoded, -⟩ := balked_of_conclude h
    exact .inr (Decoder.isOrdinary_of_decode decoded)
  | failed g =>
    cases h
    exact .inl rfl

def IsOrdinary (r : Reader) : Prop := ∀ f, .fault f ∈ r.source.items → f.isOrdinary

namespace IsOrdinary

theorem of_fill {result : Except Fault Text} (ordinary : r.IsOrdinary)
    (h : r.fill = (result, r')) : r'.IsOrdinary := by
  intro f member
  exact ordinary f (items_fill h member)

theorem next (ordinary : r.IsOrdinary) (h : r.source.next = .failed f) : f.isOrdinary := by
  obtain member | raised := Source.mem_or_isOrdinary_of_next h
  · exact ordinary f member
  · exact raised

theorem fill (ordinary : r.IsOrdinary) (h : r.fill = (.error f, r')) : f.isOrdinary := by
  obtain failed | raised := isOrdinary_of_accept h
  · exact ordinary.next failed
  · exact raised

end IsOrdinary

theorem itemsBound_tail (s : Source) :
    deliveryBound s.next + itemsBound s.items.tail ≤ itemsBound s.items := by
  unfold Source.next
  cases s.items with
  | nil => cases s.shape <;> exact Nat.le_refl 0
  | cons item items =>
    exact Nat.add_le_add_right (deliveryBound_deliver s.shape item) (itemsBound items)

theorem bound_fill {text : Text} (bare : r.Bare) (h : r.fill = (.ok text, r')) :
    { r' with chunk := text }.bound ≤ r.bound := by
  have paid := length_accept h
  have taken := itemsBound_tail r.source
  obtain ⟨source, pushback, -⟩ := fill_frame h
  simp only [bound, source, pushback, bare.empty, keptLength, Source.called,
    List.length_nil] at paid ⊢
  omega

theorem Reads.of_ordinary {result : Except Fault Rune} (h : r.Reads result r')
    (ordinary : r.IsOrdinary) :
    r'.IsOrdinary ∧ ∀ f, result = .error f →
      f.isOrdinary ∨ f.isClean = true ∧ r'.exhausted = true ∧ r'.bound ≤ r.bound := by
  induction h with
  | served _ source => exact ⟨fun f member => ordinary f (source ▸ member), by simp⟩
  | finished exhausted =>
    refine ⟨ordinary, ?_⟩
    rintro f ⟨⟩
    exact .inr ⟨rfl, exhausted, Nat.le_refl _⟩
  | failed _ filled =>
    refine ⟨ordinary.of_fill filled, ?_⟩
    rintro f ⟨⟩
    exact .inl (ordinary.fill filled)
  | @called r s r' text result bare filled _ ih =>
    have still : s.IsOrdinary := ordinary.of_fill filled
    obtain ⟨later, raised⟩ := ih still
    refine ⟨later, ?_⟩
    intro f failed
    obtain raised | ⟨clean, exhausted, less⟩ := raised f failed
    · exact .inl raised
    · exact .inr ⟨clean, exhausted, Nat.le_trans less (bound_fill bare filled)⟩

def IsHonest (r : Reader) : Prop := ∀ f, .fault f ∈ r.source.items → f.isClean = false

theorem IsHonest.fill (honest : r.IsHonest) (h : r.fill = (.error f, r')) : f.isClean = false := by
  obtain failed | raised := isOrdinary_of_accept h
  · obtain member | raised := Source.mem_or_isOrdinary_of_next failed
    · exact honest f member
    · exact (Fault.isOrdinary_iff.mp raised).1
  · exact (Fault.isOrdinary_iff.mp raised).1

theorem Reads.of_honest {result : Except Fault Rune} (h : r.Reads result r')
    (honest : r.IsHonest) :
    r'.IsHonest ∧ ∀ f, result = .error f → f.isClean = true → r'.exhausted = true := by
  induction h with
  | served _ source => exact ⟨fun f member => honest f (source ▸ member), by simp⟩
  | finished exhausted => exact ⟨honest, fun _ _ _ => exhausted⟩
  | failed _ filled =>
    refine ⟨fun f member => honest f (items_fill filled member), ?_⟩
    rintro f ⟨⟩ clean
    rw [honest.fill filled] at clean
    cases clean
  | called _ filled _ ih => exact ih fun f member => honest f (items_fill filled member)

end Reader

end RuneMachine
