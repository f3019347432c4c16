import RuneMachine.Proofs.Codec.Decodes
import RuneMachine.Proofs.Reader.Holdings

namespace RuneMachine

namespace Reader

theorem length_conclude {r r' : Reader} {text : Text} (h : r.conclude = (.ok text, r')) :
    text.length + 4 * r'.keptLength ≤ 4 * r.keptLength := by
  simp only [conclude] at h
  split at h
  · next none =>
    cases h
    simp [keptLength, none]
  · next d some =>
    split at h
    · next decoded =>
      cases h
      simpa [keptLength, some] using Decoder.length_decode decoded
    · cases h

theorem keptLength_currentDecoder {r : Reader} {d : Decoder} (h : r.currentDecoder = .ok d) :
    d.kept.length = r.keptLength := by
  unfold currentDecoder at h
  split at h
  · next some => cases h; simp [keptLength, some]
  · next none =>
    split at h
    · cases h; simp [keptLength, none, Decoder.new]
    · cases h

def deliveryBound : Delivery → Nat
  | .text t => t.length
  | .data b => pointsPerByte * b.length
  | _ => 0

theorem deliveryBound_ofValue (v : Value) :
    deliveryBound (.ofValue v) ≤ itemBound (.value v) := by
  cases v <;> simp [Delivery.ofValue, deliveryBound, itemBound]

theorem deliveryBound_deliver (shape : Source.Shape) (item : Item) :
    deliveryBound (shape.deliver item) ≤ itemBound item := by
  unfold Source.Shape.deliver
  split
  · split
    · exact Nat.zero_le _
    · exact deliveryBound_ofValue _
  · exact Nat.zero_le _
  · exact Nat.zero_le _
  · exact deliveryBound_ofValue _
  · split <;> exact Nat.zero_le _

theorem length_accept {r r' : Reader} {d : Delivery} {text : Text}
    (h : r.accept d = (.ok text, r')) :
    text.length + pointsPerByte * r'.keptLength ≤
      pointsPerByte * r.keptLength + deliveryBound d := by
  cases d with
  | text t =>
    cases h
    simp only [deliveryBound]
    omega
  | data b =>
    simp only [accept, decodeWith] at h
    split at h
    · next d current =>
      cases decoded : d.decode b false
      rw [decoded] at h
      cases h
      have bounded := Decoder.length_decode decoded
      rw [keptLength_currentDecoder current] at bounded
      simp only [keptLength, deliveryBound, pointsPerByte] at bounded ⊢
      omega
    · cases h
  | junk v =>
    simp only [accept, decodeWith] at h
    split at h <;> cases h
  | ended => exact length_conclude h
  | failed f => cases h

theorem bound_draw {r r' : Reader} {items : List Item} {u : Rune}
    (h : r.draw items = (.ok u, r')) :
    r'.bound + 1 ≤
      r.pushback.length + pointsPerByte * r.keptLength + itemsBound items := by
  induction items generalizing r with
  | nil =>
    rw [draw] at h
    split at h
    · cases h
    · cases h
    · next c later r₁ accepted =>
      cases h
      have paid := length_accept accepted
      obtain ⟨decoder, ended, rfl⟩ := accept_eq accepted
      cases shape : r.source.shape <;>
        simp [shape, Source.Shape.afterLast, deliveryBound, keptLength, bound, Source.called,
          itemsBound] at paid ⊢ <;>
        omega
  | cons item items ih =>
    rw [draw] at h
    split at h
    · cases h
    · next r₁ accepted =>
      split at h
      · cases h
      · have paid := length_accept accepted
        have item := deliveryBound_deliver r.source.shape item
        have later := ih h
        obtain ⟨decoder, ended, rfl⟩ := accept_eq accepted
        simp [keptLength, itemsBound] at paid later ⊢
        omega
    · next c later r₁ accepted =>
      cases h
      have paid := length_accept accepted
      have item := deliveryBound_deliver r.source.shape item
      obtain ⟨decoder, ended, rfl⟩ := accept_eq accepted
      simp [keptLength, bound, itemsBound, Source.called] at paid ⊢
      omega

theorem bound_read_lt {r r' : Reader} {u : Rune} (h : r.read = (.ok u, r')) :
    r'.bound < r.bound := by
  unfold read at h
  split at h
  · next rest pushback =>
    cases h
    simp [bound, keptLength, pushback]
  · next pushback =>
    split at h
    · next c later chunk =>
      cases h
      simp [bound, keptLength, chunk]
    · next chunk =>
      split at h
      · cases h
      · have paid := bound_draw h
        simp only [bound, chunk] at paid ⊢
        omega

theorem Holds.length_le_bound {r : Reader} {us : List Rune} (h : r.Holds us) :
    us.length ≤ r.bound := by
  induction h with
  | finished => exact Nat.zero_le _
  | rune read _ ih =>
    have lower := bound_read_lt read
    rw [List.length_cons]
    omega

end Reader

end RuneMachine
