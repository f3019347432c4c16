import RuneMachine.Fault.Basic
import RuneMachine.Value

namespace RuneMachine

inductive Item where
  | value (v : Value)
  | fault (f : Fault)
  deriving Repr

namespace Item

def text (t : Text) : Item := .value (.text t)

def data (b : Bytes) : Item := .value (.bytes b)

def values : List Item → Except Fault (List Value)
  | [] => .ok []
  | .fault f :: _ => .error f
  | .value v :: items =>
    match values items with
    | .ok vs => .ok (v :: vs)
    | .error f => .error f

end Item

inductive Delivery where
  | text (t : Text)
  | data (b : Bytes)
  | junk (v : Value)
  | ended
  | failed (f : Fault)
  deriving Repr

namespace Delivery

def ofValue : Value → Delivery
  | .text t => .text t
  | .bytes b => .data b
  | v => .junk v

end Delivery

namespace Source

inductive Shape where
  | stream | iterator | sequence | reader
  deriving DecidableEq, Repr

/-- A stream ends with the first value that counts as nothing. An iterator or a sequence ends with
the value `none` or by stopping, while empty text is an item like any other. -/
def Shape.deliver : Shape → Item → Delivery
  | .stream, .value v => if v.isVoid then .ended else .ofValue v
  | .stream, .fault f => .failed f
  | _, .value .none => .ended
  | _, .value v => .ofValue v
  | _, .fault f => if f.kind = .stopIteration then .ended else .failed f

def amountRefused : Fault :=
  Fault.of .type
    (Text.ofString "RuneReader.read() takes 1 positional argument but 2 were given")

def Shape.afterLast : Shape → Delivery
  | .reader => .failed amountRefused
  | _ => .ended

end Source

/-- A source with the items still to come, after the last of which its shape decides, and the number
of calls so far. -/
structure Source where
  shape : Source.Shape
  items : List Item
  calls : Nat
  deriving Repr

namespace Source

def chunkSize : Nat := 4096

def pieces {α : Type} (size : Nat) (l : List α) : List (List α) :=
  (List.range ((l.length + size - 1) / size)).map fun i => (l.drop (i * size)).take size

def ofItems (shape : Shape) (items : List Item) : Source := ⟨shape, items, 0⟩

def ofText (t : Text) : Source := ofItems .sequence [.text t]

def ofBytes (b : Bytes) : Source := ofItems .sequence [.data b]

def textStream (t : Text) : Source := ofItems .stream ((pieces chunkSize t).map .text)

def byteStream (b : Bytes) : Source := ofItems .stream ((pieces chunkSize b).map .data)

def ofReader : Source := ofItems .reader []

def ofValue : Value → Except Fault Source
  | .text t => .ok (ofText t)
  | .bytes b => .ok (ofBytes b)
  | .list items => .ok (ofItems .sequence (items.map .value))
  | .record fields => .ok (ofItems .sequence (fields.map fun (key, _) => .text key))
  | v =>
    .error (Fault.of .type
      (Text.ofString "Cannot read code points from " ++ v.typeName.quoted))

def called (s : Source) (items : List Item) : Source :=
  { s with items := items, calls := s.calls + 1 }

end Source

end RuneMachine
