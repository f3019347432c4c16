import RuneMachine.Codec.Decoder
import RuneMachine.Source

namespace RuneMachine

/-- A reader knows the encodings of `Charset.ofName?` and the handlers of `Handler.ofName`. What is
proved of readers is proved of these, and of names that are unknown. -/
structure Reader where
  source : Source
  encoding : Text
  handler : Handler
  decoder : Option Decoder
  chunk : Text
  pushback : List Rune
  /-- The source has said that it is at its end, and what it left undecoded was decoded. -/
  ended : Bool
  offset : Int
  deriving Repr

namespace Reader

def new (source : Source) (encoding : Text) (handler : Handler) : Reader :=
  ⟨source, encoding, handler, none, [], [], false, 0⟩

def defaultEncoding : Text := Text.ofString "utf-8"

def ofSource (source : Source) : Reader := new source defaultEncoding .strict

def ofText (t : Text) : Reader := ofSource (Source.ofText t)

def pending (r : Reader) : Nat := r.pushback.length

def exhausted (r : Reader) : Bool := r.ended && r.pushback.isEmpty && r.chunk.isEmpty

def unread (r : Reader) (u : Rune) : Reader :=
  { r with pushback := u :: r.pushback, offset := r.offset - 1 }

@[simp] theorem offset_unread (r : Reader) (u : Rune) :
    (r.unread u).offset = r.offset - 1 := rfl

def currentDecoder (r : Reader) : Except Fault Decoder :=
  match r.decoder with
  | some d => .ok d
  | none =>
    match Charset.ofName? r.encoding with
    | some charset => .ok (Decoder.new charset r.handler)
    | none => .error (Fault.unknownEncoding r.encoding)

def decodeWith (r : Reader) (use : Decoder → Except Fault Text × Decoder) :
    Except Fault Text × Reader :=
  match r.currentDecoder with
  | .ok d =>
    match use d with
    | (text, d) => (text, { r with decoder := some d })
  | .error f => (.error f, r)

/-- The source is at its end: what is left in the decoder is decoded as it stands. The reader counts
as ended only if that succeeds. -/
def conclude (r : Reader) : Except Fault Text × Reader :=
  match r.decoder with
  | none => (.ok [], { r with ended := true })
  | some d =>
    match d.decode [] true with
    | (.ok text, d) => (.ok text, { r with decoder := some d, ended := true })
    | (.error f, d) => (.error f, { r with decoder := some d })

def accept (r : Reader) : Delivery → Except Fault Text × Reader
  | .text t => (.ok t, r)
  | .data b => r.decodeWith fun d => d.decode b false
  | .junk v => r.decodeWith fun d => (.error (d.refusal v.typeName), d)
  | .ended => r.conclude
  | .failed f => (.error f, r)

def serve (r : Reader) (c : CodePoint) (later : Text) : Except Fault Rune × Reader :=
  (.ok [c], { r with chunk := later, offset := r.offset + 1 })

def draw (r : Reader) : List Item → Except Fault Rune × Reader
  | [] =>
    match { r with source := r.source.called [] }.accept r.source.shape.afterLast with
    | (.error f, r) => (.error f, r)
    | (.ok [], r) => (.error Fault.endOfInput, r)
    | (.ok (c :: later), r) => r.serve c later
  | item :: items =>
    match { r with source := r.source.called items }.accept (r.source.shape.deliver item) with
    | (.error f, r) => (.error f, r)
    | (.ok [], r) => if r.ended then (.error Fault.endOfInput, r) else draw r items
    | (.ok (c :: later), r) => r.serve c later

def read (r : Reader) : Except Fault Rune × Reader :=
  match r.pushback with
  | u :: rest => (.ok u, { r with pushback := rest, offset := r.offset + 1 })
  | [] =>
    match r.chunk with
    | c :: later => r.serve c later
    | [] => if r.ended then (.error Fault.endOfInput, r) else r.draw r.source.items

@[simp] theorem read_unread (r : Reader) (u : Rune) : (r.unread u).read = (.ok u, r) := by
  simp [read, unread]

def pointsPerByte : Nat := 4

def itemBound : Item → Nat
  | .value (.text t) => t.length
  | .value (.bytes b) => pointsPerByte * b.length
  | _ => 0

def itemsBound : List Item → Nat
  | [] => 0
  | item :: items => itemBound item + itemsBound items

def keptLength (r : Reader) : Nat :=
  match r.decoder with
  | none => 0
  | some d => d.kept.length

/-- No more runes than this can be read before the source ends or fails. -/
def bound (r : Reader) : Nat :=
  r.pushback.length + r.chunk.length + pointsPerByte * r.keptLength + itemsBound r.source.items

end Reader

end RuneMachine
