import RuneMachine.Codec.Decoder
import RuneMachine.Codec.Encoding

namespace RuneMachine

def CodePoint.isScalar (c : CodePoint) : Bool := c < 0x110000 && !c.isSurrogate

namespace Encoding

theorem toNat_byte {n : Nat} (h : n < 0x100) : (byte n).toNat = n := UInt8.toNat_ofNat_of_lt' h

theorem write_utf8 (c : CodePoint) :
    (plain .utf8).write [c] = if c.isScalar then .bytes (utf8 c) else .refused := by
  have encoded : (plain .utf8).encode? [c] = if c.isScalar then some (utf8 c) else none := by
    simp [encode?, covers, CodePoint.isScalar, mark, encodePoint]
  rw [write, encoded]
  cases c.isScalar <;> rfl

end Encoding

namespace Utf8

open Encoding

theorem follow_byte {owed code taken n : Nat} {low high : UInt8} {later : Bytes} (six : n < 0x40)
    (above : low.toNat ≤ 0x80 + n) (below : 0x80 + n ≤ high.toNat) :
    follow (owed + 1) low high code taken (byte (0x80 + n) :: later) =
      follow owed 0x80 0xbf (code * 0x40 + n) (taken + 1) later := by
  have value : (byte (0x80 + n)).toNat = 0x80 + n := toNat_byte (by omega)
  simp only [follow, UInt8.le_iff_toNat_le, value, above, below, decide_true, Bool.and_self,
    if_true, Nat.add_sub_cancel_left]

theorem follow_any {owed code taken n : Nat} {later : Bytes} (six : n < 0x40) :
    follow (owed + 1) 0x80 0xbf code taken (byte (0x80 + n) :: later) =
      follow owed 0x80 0xbf (code * 0x40 + n) (taken + 1) later :=
  follow_byte six (Nat.le_add_right _ _) (by simp; omega)

variable {b : UInt8} {rest : Bytes}

theorem sight_one (h : b.toNat < 0x80) : sight b rest = .char b.toNat 0 := by
  simp [sight, UInt8.lt_iff_toNat_lt, h]

theorem sight_two (low : 0xc2 ≤ b.toNat) (high : b.toNat < 0xe0) :
    sight b rest = follow 1 0x80 0xbf (b.toNat - 0xc0) 0 rest := by
  have past : ¬b.toNat < 0x80 := by omega
  simp [sight, UInt8.lt_iff_toNat_lt, past, Nat.not_lt.mpr low, high]

theorem sight_three {d e : UInt8} (low : 0xe0 ≤ b.toNat) (high : b.toNat < 0xf0) :
    sight b (d :: e :: rest) =
      follow 2 (if b == 0xe0 then 0xa0 else 0x80) (if b == 0xed then 0x9f else 0xbf)
        (b.toNat - 0xe0) 0 (d :: e :: rest) := by
  have past : ¬b.toNat < 0x80 ∧ ¬b.toNat < 0xc2 := by omega
  -- With two bytes to come, this is no surrogate that is cut short.
  simp [sight, isCutSurrogate, UInt8.lt_iff_toNat_lt, past, Nat.not_lt.mpr low, high]

theorem sight_four {d e : UInt8} (low : 0xf0 ≤ b.toNat) (high : b.toNat < 0xf5) :
    sight b (d :: e :: rest) =
      follow 3 (if b == 0xf0 then 0x90 else 0x80) (if b == 0xf4 then 0x8f else 0xbf)
        (b.toNat - 0xf0) 0 (d :: e :: rest) := by
  have past : ¬b.toNat < 0x80 ∧ ¬b.toNat < 0xc2 ∧ ¬b.toNat < 0xe0 := by omega
  simp [sight, isCutSurrogate, UInt8.lt_iff_toNat_lt, past, Nat.not_lt.mpr low, high]

theorem toNat_bound (b k low high : UInt8) :
    (if b == k then low else high).toNat =
      if b.toNat = k.toNat then low.toNat else high.toNat := by
  simp only [beq_iff_eq, ← UInt8.toNat_inj, apply_ite UInt8.toNat]

def Seen (c : CodePoint) : Prop :=
  ∀ later, ∃ b more, utf8 c = b :: more ∧ sight b (more ++ later) = .char c more.length

theorem seen_one {n : Nat} (h : n < 0x80) : Seen n := by
  intro later
  have lead : (byte n).toNat = n := toNat_byte (by omega)
  refine ⟨_, _, if_pos h, ?_⟩
  rw [sight_one (by omega), lead]
  rfl

theorem seen_two {n : Nat} (low : 0x80 ≤ n) (high : n < 0x800) : Seen n := by
  intro later
  have lead : (byte (0xc0 + n / 0x40)).toNat = 0xc0 + n / 0x40 := toNat_byte (by omega)
  have written : utf8 n = [byte (0xc0 + n / 0x40), byte (0x80 + n % 0x40)] := by
    rw [utf8, if_neg (Nat.not_lt.mpr low), if_pos high]
  have code : (0xc0 + n / 0x40 - 0xc0) * 0x40 + n % 0x40 = n := by omega
  refine ⟨_, _, written, ?_⟩
  rw [sight_two (by omega) (by omega), List.cons_append, follow_any (by omega), lead, code]
  rfl

theorem seen_three {n : Nat} (low : 0x800 ≤ n) (high : n < 0x10000)
    (proper : n < 0xd800 ∨ 0xdfff < n) : Seen n := by
  intro later
  have lead : (byte (0xe0 + n / 0x1000)).toNat = 0xe0 + n / 0x1000 := toNat_byte (by omega)
  have past : ¬n < 0x80 := by omega
  have written : utf8 n =
      [byte (0xe0 + n / 0x1000), byte (0x80 + n / 0x40 % 0x40), byte (0x80 + n % 0x40)] := by
    rw [utf8, if_neg past, if_neg (Nat.not_lt.mpr low), if_pos high]
  have code : ((0xe0 + n / 0x1000 - 0xe0) * 0x40 + n / 0x40 % 0x40) * 0x40 + n % 0x40 = n := by
    omega
  refine ⟨_, _, written, ?_⟩
  rw [List.cons_append, List.cons_append, sight_three (by omega) (by omega),
    follow_byte (by omega) ?above ?below, follow_any (by omega), lead, code]
  · rfl
  case above =>
    simp only [toNat_bound, lead, UInt8.reduceToNat]
    split <;> omega
  case below =>
    simp only [toNat_bound, lead, UInt8.reduceToNat]
    split <;> omega

theorem seen_four {n : Nat} (low : 0x10000 ≤ n) (high : n < 0x110000) : Seen n := by
  intro later
  have lead : (byte (0xf0 + n / 0x40000)).toNat = 0xf0 + n / 0x40000 := toNat_byte (by omega)
  have past : ¬n < 0x80 ∧ ¬n < 0x800 := by omega
  have written : utf8 n =
      [byte (0xf0 + n / 0x40000), byte (0x80 + n / 0x1000 % 0x40), byte (0x80 + n / 0x40 % 0x40),
        byte (0x80 + n % 0x40)] := by
    rw [utf8, if_neg past.1, if_neg past.2, if_neg (Nat.not_lt.mpr low)]
  have code :
      (((0xf0 + n / 0x40000 - 0xf0) * 0x40 + n / 0x1000 % 0x40) * 0x40 + n / 0x40 % 0x40) * 0x40 +
        n % 0x40 = n := by
    omega
  refine ⟨_, _, written, ?_⟩
  rw [List.cons_append, List.cons_append, sight_four (by omega) (by omega),
    follow_byte (by omega) ?above ?below, follow_any (by omega), List.cons_append,
    follow_any (by omega), lead, code]
  · rfl
  case above =>
    simp only [toNat_bound, lead, UInt8.reduceToNat]
    split <;> omega
  case below =>
    simp only [toNat_bound, lead, UInt8.reduceToNat]
    split <;> omega

theorem seen_of_isScalar {c : CodePoint} (scalar : c.isScalar) : Seen c := by
  obtain ⟨last, proper⟩ := Bool.and_eq_true_iff.mp scalar
  have last : (c : Nat) < 0x110000 := of_decide_eq_true last
  have proper : (c : Nat) < 0xd800 ∨ 0xdfff < (c : Nat) := by
    simp [CodePoint.isSurrogate] at proper
    omega
  by_cases one : (c : Nat) < 0x80
  · exact seen_one one
  by_cases two : (c : Nat) < 0x800
  · exact seen_two (Nat.not_lt.mp one) two
  by_cases three : (c : Nat) < 0x10000
  · exact seen_three (Nat.not_lt.mp two) three proper
  · exact seen_four (Nat.not_lt.mp three) last

end Utf8

namespace Decoder

variable {charset : Charset} {handler : Handler} {final : Bool} {whole : Bytes}

theorem scan_skip (position : Nat) (skipped later : Bytes) :
    scan charset handler final whole position skipped.length (skipped ++ later) =
      scan charset handler final whole (position + skipped.length) 0 later := by
  induction skipped generalizing position with
  | nil => rfl
  | cons b skipped ih =>
    rw [List.length_cons, List.cons_append, scan, ih]
    congr 1
    omega

theorem scan_utf8 {c : CodePoint} (scalar : c.isScalar) (position : Nat) (later : Bytes) :
    scan .utf8 handler final whole position 0 (Encoding.utf8 c ++ later) =
      (scan .utf8 handler final whole (position + (Encoding.utf8 c).length) 0 later).map
        fun (rest, kept) => (c :: rest, kept) := by
  obtain ⟨b, more, written, seen⟩ := Utf8.seen_of_isScalar scalar later
  have passed : position + (b :: more).length = position + 1 + more.length := by
    rw [List.length_cons]
    omega
  rw [written, List.cons_append, scan, passed, ← scan_skip]
  simp only [Charset.sight, seen]
  cases scan .utf8 handler final whole (position + 1) more.length (more ++ later) <;> rfl

theorem scan_flatMap_utf8 {t : Text} (scalar : ∀ c ∈ t, c.isScalar) (position : Nat) :
    scan .utf8 handler final whole position 0 (t.flatMap Encoding.utf8) = .ok (t, []) := by
  induction t generalizing position with
  | nil => rfl
  | cons c t ih =>
    obtain ⟨proper, scalar⟩ := List.forall_mem_cons.mp scalar
    rw [List.flatMap_cons, scan_utf8 proper, ih scalar]
    rfl

end Decoder

end RuneMachine
