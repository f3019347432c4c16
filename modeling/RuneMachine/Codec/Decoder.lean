import RuneMachine.Codec.Handler
import RuneMachine.Fault.Basic

namespace RuneMachine

structure Decoder where
  charset : Charset
  handler : Handler
  kept : Bytes
  atStart : Bool
  deriving DecidableEq, Repr

namespace Decoder

def new (charset : Charset) (handler : Handler) : Decoder :=
  ⟨charset, handler, [], charset == .utf8Marked⟩

def scan (charset : Charset) (handler : Handler) (final : Bool) (whole : Bytes) :
    (position skip : Nat) → Bytes → Except Fault (Text × Bytes)
  | _, _, [] => .ok ([], [])
  | position, skip + 1, _ :: rest => scan charset handler final whole (position + 1) skip rest
  | position, 0, b :: rest =>
    let proceed (text : Text) (more : Nat) :=
      match scan charset handler final whole (position + 1) more rest with
      | .ok (later, kept) => .ok (text ++ later, kept)
      | .error f => .error f
    let mend (more : Bytes) (flaw : Flaw) :=
      match handler.resolve b more with
      | .mended text more => proceed text more
      | .refused =>
        .error (Fault.bare (.undecodable
          ⟨charset, whole, position, position + 1 + more.length, flaw⟩))
      | .unknown name => .error (Fault.unknownHandler name)
    match charset.sight b rest with
    | .char code more => proceed [code] more
    | .flawed more flaw => mend (rest.take more) flaw
    | .partway more flaw => if final then mend (rest.take more) flaw else .ok ([], b :: rest)

def run (d : Decoder) (data : Bytes) (final : Bool) : Except Fault Text × Decoder :=
  if d.handler.isNameable then
    match scan d.charset d.handler final data 0 0 data with
    | .ok (text, kept) => (.ok text, { d with kept := kept })
    | .error f => (.error f, d)
  else (.error Fault.nullInName, d)

/-- Decodes the next piece. As long as nothing but a part of the mark has come, everything is kept,
even at the end; the mark itself is dropped. -/
def decode (d : Decoder) (chunk : Bytes) (final : Bool) : Except Fault Text × Decoder :=
  let data := d.kept ++ chunk
  if d.atStart then
    if data.length < utf8Mark.length && data.isPrefixOf utf8Mark then
      (.ok [], { d with kept := data })
    else
      let started := { d with atStart := false }
      if utf8Mark.isPrefixOf data then started.run (data.drop utf8Mark.length) final
      else started.run data final
  else d.run data final

def refusal (d : Decoder) (typeName : Text) : Fault :=
  match d.charset with
  | .ascii | .latin1 =>
    Fault.of .type (Text.ofString "a bytes-like object is required, not " ++ typeName.quoted)
  | _ => Fault.of .type (Text.ofString "can't concat " ++ typeName ++ Text.ofString " to bytes")

end Decoder

end RuneMachine
