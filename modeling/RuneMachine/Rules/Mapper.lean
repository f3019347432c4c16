import RuneMachine.Codec.Decoder
import RuneMachine.Text.Space
import RuneMachine.Tokenizer.Basic

namespace RuneMachine.Rules

inductive BufferTest where
  | always
  | space
  | textSpace
  | atLeast (n : Nat)
  | exactly (n : Nat)
  | endsWith (b : Bytes)
  | startsWith (b : Bytes)
  | contains (b : Bytes)
  | equals (b : Bytes)
  | notDigits (n : Nat)
  | all (tests : List BufferTest)
  deriving Repr, Inhabited

def decodeBuffer (buffer : Bytes) : Except Fault Text :=
  (Decoder.scan .utf8 .strict true buffer 0 0 buffer).map (·.1)

def isDigit (b : UInt8) : Bool := 0x30 ≤ b && b ≤ 0x39

def containsBytes (part : Bytes) : Bytes → Bool
  | [] => part.isEmpty
  | b :: rest => part.isPrefixOf (b :: rest) || containsBytes part rest

def dropLast {α : Type} (n : Nat) (l : List α) : List α := l.take (l.length - n)

mutual

def BufferTest.holds (buffer : Bytes) : BufferTest → Except Fault Bool
  | .always => .ok true
  | .space => .ok ((buffer.getLast?.map isSpaceByte).getD false)
  | .textSpace =>
    (decodeBuffer buffer).map fun t => (t.getLast?.map CodePoint.isSpace).getD false
  | .atLeast n => .ok (n ≤ buffer.length)
  | .exactly n => .ok (buffer.length == n)
  | .endsWith b => .ok (b.isSuffixOf buffer)
  | .startsWith b => .ok (b.isPrefixOf buffer)
  | .contains b => .ok (containsBytes b buffer)
  | .equals b => .ok (buffer == b)
  | .notDigits n => .ok (!(n < buffer.length && (dropLast n buffer).all isDigit))
  | .all tests => holdAll buffer tests

def holdAll (buffer : Bytes) : List BufferTest → Except Fault Bool
  | [] => .ok true
  | test :: tests =>
    match test.holds buffer with
    | .ok true => holdAll buffer tests
    | other => other

end

inductive Effect where
  | fail (f : Fault)
  | bytes (drop : Nat)
  | text (drop dropPoints : Nat)
  | number (drop : Nat)
  | value (v : Value)
  deriving Repr

namespace Effect

def digitLimit : Nat := 4300

def tooManyDigits (count : Nat) : Fault :=
  Fault.of .value
    (Text.ofString "Exceeds the limit (" ++ Text.ofNat digitLimit ++
      Text.ofString " digits) for integer string conversion: value has " ++ Text.ofNat count ++
      Text.ofString " digits; use sys.set_int_max_str_digits() to increase the limit")

def ofDigits (digits : Bytes) : Verdict Value :=
  if digitLimit < digits.length then .failed (tooManyDigits digits.length)
  else .token (.int (digits.foldl (fun n b => n * 10 + (b.toNat - 0x30 : Nat)) 0))

def ofValue : Value → Verdict Value
  | .none => .more
  | v => .token v

def apply (buffer : Bytes) : Effect → Verdict Value
  | .fail f => .failed f
  | .bytes drop => .token (.bytes (dropLast drop buffer))
  | .text drop dropPoints =>
    match decodeBuffer (dropLast drop buffer) with
    | .ok t => .token (.text (dropLast dropPoints t))
    | .error f => .failed f
  | .number drop => ofDigits (dropLast drop buffer)
  | .value v => ofValue v

end Effect

abbrev MapperTable := List (BufferTest × Effect)

namespace MapperTable

def judge (buffer : Bytes) : MapperTable → Verdict Value
  | [] => .more
  | (test, effect) :: rules =>
    match test.holds buffer with
    | .ok true => effect.apply buffer
    | .ok false => judge buffer rules
    | .error f => .failed f

def mapper (rules : MapperTable) : Mapper Unit Value := fun buffer _ => (rules.judge buffer, ())

end MapperTable

end RuneMachine.Rules
