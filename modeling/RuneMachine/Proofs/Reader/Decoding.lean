import RuneMachine.Proofs.Codec.Pieces
import RuneMachine.Proofs.Reader.Calls

namespace RuneMachine

namespace Delivery

def bytes : Delivery → Bytes
  | .data b => b
  | _ => []

def fault? : Delivery → Option Fault
  | .failed f => some f
  | _ => none

def isPiece : Delivery → Bool
  | .data _ => true
  | .failed _ => true
  | _ => false

end Delivery

theorem Decoder.decode_utf8 {handler : Handler} {final : Bool} {held chunk kept : Bytes}
    {text : Text} (nameable : handler.isNameable)
    (h : Decodes .utf8 handler final (held ++ chunk) text kept) :
    decode ⟨.utf8, handler, held, false⟩ chunk final =
      (.ok text, ⟨.utf8, handler, kept, false⟩) := by
  have scanned : scan .utf8 handler final (held ++ chunk) 0 0 (held ++ chunk) = .ok (text, kept) :=
    scan_eq_ok_iff.mpr h
  simp [decode, run, nameable, scanned]

namespace Reader

def Keeps (r : Reader) (handler : Handler) (held : Bytes) : Prop :=
  r.decoder = some ⟨.utf8, handler, held, false⟩ ∨
    r.decoder = none ∧ held = [] ∧ r.handler = handler ∧ Charset.ofName? r.encoding = some .utf8

namespace Keeps

variable {r : Reader} {handler : Handler} {held kept : Bytes} {text : Text}

theorem accept_data (h : r.Keeps handler held) (nameable : handler.isNameable) {b : Bytes}
    (decoded : Decoder.Decodes .utf8 handler false (held ++ b) text kept) :
    r.accept (.data b) = (.ok text, { r with decoder := some ⟨.utf8, handler, kept, false⟩ }) := by
  have current : r.currentDecoder = .ok ⟨.utf8, handler, held, false⟩ := by
    obtain some | ⟨none, rfl, rfl, utf8⟩ := h
    · simp [currentDecoder, some]
    · simp [currentDecoder, none, utf8, Decoder.new]
  simp [accept, decodeWith, current, Decoder.decode_utf8 nameable decoded]

theorem accept_ended (h : r.Keeps handler held) (nameable : handler.isNameable)
    (decoded : Decoder.Decodes .utf8 handler true held text kept) :
    ∃ decoder, r.accept .ended = (.ok text, { r with decoder := decoder, ended := true }) := by
  obtain some | ⟨none, rfl, -, -⟩ := h
  · rw [← List.append_nil held] at decoded
    exact ⟨_, by simp [accept, conclude, some, Decoder.decode_utf8 nameable decoded]; rfl⟩
  · cases decoded
    exact ⟨.none, by simp [accept, conclude, none]⟩

end Keeps

structure Awaits (handler : Handler) (held : Bytes) (ds : List Delivery) (r : Reader) : Prop where
  bare : r.Bare
  finite : r.source.shape.afterLast = .ended
  deliveries : r.source.deliveries = ds
  keeps : r.Keeps handler held

namespace Awaits

variable {handler : Handler} {held kept : Bytes} {ds : List Delivery} {r : Reader} {text : Text}

theorem new {source : Source} (finite : source.shape ≠ .reader) {encoding : Text}
    (utf8 : Charset.ofName? encoding = some .utf8) (handler : Handler) :
    Awaits handler [] source.deliveries (Reader.new source encoding handler) where
  bare := ⟨rfl, rfl, rfl⟩
  finite := by
    change source.shape.afterLast = .ended
    cases shape : source.shape <;> simp_all [Source.Shape.afterLast]
  deliveries := rfl
  keeps := .inr ⟨rfl, rfl, rfl, utf8⟩

theorem read_data {b : Bytes} (h : Awaits handler held (.data b :: ds) r)
    (nameable : handler.isNameable)
    (decoded : Decoder.Decodes .utf8 handler false (held ++ b) text kept) :
    ∃ r' : Reader, r.read = { r' with chunk := text }.read ∧ Awaits handler kept ds r' := by
  obtain ⟨next, later⟩ := Source.next_of_cons h.deliveries
  refine ⟨{ r with
    source := r.source.called r.source.items.tail
    decoder := some ⟨.utf8, handler, kept, false⟩ }, ?_, ?_⟩
  · have keeps : { r with source := r.source.called r.source.items.tail }.Keeps handler held :=
      h.keeps
    rw [read_eq_fill h.bare, fill, next, keeps.accept_data nameable decoded]
  · exact ⟨⟨h.bare.none, h.bare.empty, h.bare.going⟩, h.finite, later, .inl rfl⟩

theorem read_failed {f : Fault} (h : Awaits handler held (.failed f :: ds) r) :
    ∃ r', r.read = (.error f, r') ∧ Awaits handler held ds r' := by
  obtain ⟨next, later⟩ := Source.next_of_cons h.deliveries
  refine ⟨{ r with source := r.source.called r.source.items.tail }, ?_, ?_⟩
  · rw [read_eq_fill h.bare, fill, next, accept]
  · exact ⟨⟨h.bare.none, h.bare.empty, h.bare.going⟩, h.finite, later, h.keeps⟩

theorem read_ended (h : Awaits handler held [] r) (nameable : handler.isNameable)
    (decoded : Decoder.Decodes .utf8 handler true held text kept) :
    ∃ r' : Reader, r.read = { r' with chunk := text }.read ∧ r'.pushback = [] ∧
      r'.ended = true := by
  have next := Source.next_of_nil h.finite h.deliveries
  have keeps : { r with source := r.source.called r.source.items.tail }.Keeps handler held :=
    h.keeps
  obtain ⟨decoder, accepted⟩ := keeps.accept_ended nameable decoded
  refine ⟨{ r with
    source := r.source.called r.source.items.tail
    decoder := decoder
    ended := true }, ?_, h.bare.none, rfl⟩
  rw [read_eq_fill h.bare, fill, next, accepted]

end Awaits

def runesOf (results : List (Except Fault Rune)) : List Rune := results.filterMap Except.toOption

def faultsOf (results : List (Except Fault Rune)) : List Fault :=
  results.filterMap fun
    | .ok _ => none
    | .error f => some f

section Results

variable (us : List Rune) (f : Fault) (results : List (Except Fault Rune))

@[simp] theorem runesOf_map_ok : runesOf (us.map .ok ++ results) = us ++ runesOf results := by
  induction us with
  | nil => rfl
  | cons u us ih => exact congrArg (u :: ·) ih

@[simp] theorem faultsOf_map_ok : faultsOf (us.map .ok ++ results) = faultsOf results := by
  induction us with
  | nil => rfl
  | cons u us ih => exact ih

@[simp] theorem faultsOf_error : faultsOf (.error f :: results) = f :: faultsOf results := rfl

end Results

variable {handler : Handler} {held kept : Bytes} {ds : List Delivery} {text : Text}
  {results : List (Except Fault Rune)}

/-- Every fault stands right behind the runes that are complete in the bytes before it. -/
def Placed (handler : Handler) (held : Bytes) (ds : List Delivery)
    (results : List (Except Fault Rune)) : Prop :=
  ∀ before f after, ds = before ++ .failed f :: after →
    ∃ left right, results = left ++ .error f :: right ∧
      faultsOf left = before.filterMap Delivery.fault? ∧
      ∀ start kept,
        Decoder.Decodes .utf8 handler false (held ++ before.flatMap Delivery.bytes) start kept →
        runesOf left = start.runes

theorem Placed.failed (idle : Decoder.Decodes .utf8 handler false held [] held)
    (h : Placed handler held ds results) (f : Fault) :
    Placed handler held (.failed f :: ds) (.error f :: results) := by
  intro before g after split
  cases before with
  | nil =>
    cases split
    refine ⟨[], results, rfl, rfl, ?_⟩
    intro start kept decoded
    rw [List.flatMap_nil, List.append_nil] at decoded
    obtain ⟨rfl, -⟩ := idle.functional decoded
    rfl
  | cons d before =>
    cases split
    obtain ⟨left, right, rfl, faults, runes⟩ := h before g after rfl
    refine ⟨.error f :: left, right, rfl, ?_, ?_⟩
    · rw [faultsOf_error, faults]
      rfl
    · intro start kept decoded
      exact runes start kept decoded

theorem Placed.data {b : Bytes} {start : Text}
    (decoded : Decoder.Decodes .utf8 handler false (held ++ b) start kept)
    (h : Placed handler kept ds results) :
    Placed handler held (.data b :: ds) (start.runes.map .ok ++ results) := by
  intro before g after split
  cases before with
  | nil => cases split
  | cons d before =>
    cases split
    obtain ⟨left, right, rfl, faults, runes⟩ := h before g after rfl
    refine ⟨start.runes.map .ok ++ left, right, (List.append_assoc _ _ _).symm, ?_, ?_⟩
    · rw [faultsOf_map_ok, faults]
      rfl
    · intro all last whole
      rw [List.flatMap_cons, ← List.append_assoc] at whole
      obtain ⟨start', kept', rest, stopped, resumed, rfl⟩ := Decoder.Decodes.split whole
      obtain ⟨rfl, rfl⟩ := decoded.functional stopped
      rw [runesOf_map_ok, runes rest last resumed, Text.runes_append]

theorem exists_yields (nameable : handler.isNameable) (pieces : ∀ d ∈ ds, d.isPiece)
    (idle : Decoder.Decodes .utf8 handler false held [] held)
    (decoded : Decoder.Decodes .utf8 handler true (held ++ ds.flatMap Delivery.bytes) text kept) :
    ∃ results, runesOf results = text.runes ∧ faultsOf results = ds.filterMap Delivery.fault? ∧
      Placed handler held ds results ∧ ∀ r, Awaits handler held ds r → r.Yields results := by
  induction ds generalizing held text with
  | nil =>
    rw [List.flatMap_nil, List.append_nil] at decoded
    refine ⟨text.runes.map .ok ++ [], ?_, ?_, ?_, ?_⟩
    · rw [runesOf_map_ok]
      exact List.append_nil _
    · rw [faultsOf_map_ok]
      rfl
    · intro before f after split
      simp at split
    · intro r awaits
      obtain ⟨r', read, none, ended⟩ := awaits.read_ended nameable decoded
      apply Yields.of_read_eq _ read
      apply Yields.of_chunk none
      intro offset
      exact .of_exhausted (by simp [exhausted, none, ended])
  | cons d ds ih =>
    obtain ⟨piece, others⟩ := List.forall_mem_cons.mp pieces
    cases d with
    | data b =>
      rw [List.flatMap_cons, Delivery.bytes, ← List.append_assoc] at decoded
      obtain ⟨start, held', rest, stopped, resumed, rfl⟩ := Decoder.Decodes.split decoded
      obtain ⟨results, runes, faults, placed, yields⟩ := ih others stopped.again resumed
      refine ⟨start.runes.map .ok ++ results, ?_, ?_, placed.data stopped, ?_⟩
      · rw [runesOf_map_ok, runes, Text.runes_append]
      · rw [faultsOf_map_ok, faults]
        rfl
      · intro r awaits
        obtain ⟨r', read, h⟩ := awaits.read_data nameable stopped
        apply Yields.of_read_eq _ read
        apply Yields.of_chunk h.bare.none
        intro offset
        exact yields _ ⟨⟨h.bare.none, rfl, h.bare.going⟩, h.finite, h.deliveries, h.keeps⟩
    | failed f =>
      obtain ⟨results, runes, faults, placed, yields⟩ := ih others idle decoded
      refine ⟨.error f :: results, runes, ?_, placed.failed idle f, ?_⟩
      · rw [faultsOf_error, faults]
        rfl
      · intro r awaits
        obtain ⟨r', read, h⟩ := awaits.read_failed
        exact .result read (yields r' h)
    | text t => cases piece
    | junk v => cases piece
    | ended => cases piece

theorem ofName?_defaultEncoding : Charset.ofName? defaultEncoding = some .utf8 := by decide

/-- Over bytes of UTF-8 that come in pieces, with calls that fail in between, reads give the runes
of the text in order and every fault once: after the runes whose bytes came before it, and before
the others. Then they give the end of input for good. -/
theorem serveAll_read_pieces {s : Text} (scalar : ∀ c ∈ s, c.isScalar) {source : Source}
    (finite : source.shape ≠ .reader) (pieces : ∀ d ∈ source.deliveries, d.isPiece)
    (written : source.deliveries.flatMap Delivery.bytes = s.flatMap Encoding.utf8) :
    ∃ results : List (Except Fault Rune),
      (∀ more, (Request.serveAll reply (List.replicate (results.length + more) .read)
        (ofSource source)).1 =
          (results ++ List.replicate more (Except.error Fault.endOfInput)).map some) ∧
      runesOf results = s.runes ∧
      faultsOf results = source.deliveries.filterMap Delivery.fault? ∧
      ∀ before f after, source.deliveries = before ++ .failed f :: after →
        ∃ left right, results = left ++ .error f :: right ∧
          runesOf left = (s.within (before.flatMap Delivery.bytes).length).runes ∧
          faultsOf left = before.filterMap Delivery.fault? := by
  have decoded : Decoder.Decodes .utf8 .strict true
      ([] ++ source.deliveries.flatMap Delivery.bytes) s [] := by
    rw [List.nil_append, written]
    exact .of_utf8 scalar true
  obtain ⟨results, runes, faults, placed, yields⟩ := exists_yields rfl pieces .nothing decoded
  refine ⟨results, ?_, runes, faults, ?_⟩
  · exact (yields _ (.new finite ofName?_defaultEncoding .strict)).serveAll_read
  · intro before f after split
    obtain ⟨left, right, same, faults, runes⟩ := placed before f after split
    refine ⟨left, right, same, ?_, faults⟩
    have cut : before.flatMap Delivery.bytes ++ after.flatMap Delivery.bytes =
        s.flatMap Encoding.utf8 := by
      rw [← written, split, List.flatMap_append, List.flatMap_cons]
      rfl
    obtain ⟨kept, start⟩ := Decoder.Decodes.within scalar cut
    exact runes _ kept start

def faltering : Source :=
  .ofItems .stream
    [.fault (Fault.of .blocking []), .data [0x61, 0xe2], .fault (Fault.of .system []), .data [0x82],
      .fault (Fault.of .stopIteration []), .data [0xac], .fault (Fault.of .interrupt []),
      .data [], .data [0xff]]

theorem serveAll_read_pieces_faltering :
    (∀ c ∈ ([0x61, 0x20ac] : Text), c.isScalar) ∧ faltering.shape ≠ .reader ∧
    (∀ d ∈ faltering.deliveries, d.isPiece) ∧
    faltering.deliveries.flatMap Delivery.bytes = [0x61, 0x20ac].flatMap Encoding.utf8 ∧
    ∃ results : List (Except Fault Rune),
      (∀ more, (Request.serveAll reply (List.replicate (results.length + more) .read)
        (ofSource faltering)).1 =
          (results ++ List.replicate more (Except.error Fault.endOfInput)).map some) ∧
      runesOf results = Text.runes [0x61, 0x20ac] ∧
      faultsOf results = faltering.deliveries.filterMap Delivery.fault? ∧
      ∀ before f after, faltering.deliveries = before ++ .failed f :: after →
        ∃ left right, results = left ++ .error f :: right ∧
          runesOf left =
            (Text.within (before.flatMap Delivery.bytes).length [0x61, 0x20ac]).runes ∧
          faultsOf left = before.filterMap Delivery.fault? :=
  have scalar : ∀ c ∈ ([0x61, 0x20ac] : Text), c.isScalar := by decide
  have pieces : ∀ d ∈ faltering.deliveries, d.isPiece := by decide
  ⟨scalar, by decide, pieces, by decide,
    serveAll_read_pieces scalar (by decide) pieces (by decide)⟩

theorem eq_map_ok (h : faultsOf results = []) : results = (runesOf results).map .ok := by
  induction results with
  | nil => rfl
  | cons result results ih =>
    cases result with
    | ok u => exact congrArg (.ok u :: ·) (ih h)
    | error f => cases h

theorem delivers_of_decodes {source : Source} (finite : source.shape ≠ .reader)
    {chunks : List Bytes} (given : source.deliveries = chunks.map .data)
    (nameable : handler.isNameable)
    (decoded : Decoder.Decodes .utf8 handler true chunks.flatten text kept) :
    (new source defaultEncoding handler).Delivers text := by
  have pieces : ∀ d ∈ source.deliveries, d.isPiece := by
    simp [given, Delivery.isPiece]
  have whole : source.deliveries.flatMap Delivery.bytes = chunks.flatten := by
    simp [given, List.flatMap_map, Delivery.bytes]
  have quiet : source.deliveries.filterMap Delivery.fault? = [] := by
    simp [given, Delivery.fault?]
  rw [← whole, ← List.nil_append (List.flatMap _ _)] at decoded
  obtain ⟨results, runes, faults, -, yields⟩ := exists_yields nameable pieces .nothing decoded
  have holds := yields _ (.new finite ofName?_defaultEncoding handler)
  rw [eq_map_ok (faults.trans quiet), runes] at holds
  exact holds.holds

/-- Where the handler mends bad bytes, nothing but the end of input is ever raised, and the cuts
make no difference: the runes are those of the bytes decoded at once. -/
theorem delivers_cut_as_whole (mends : handler.mends) {source : Source}
    (finite : source.shape ≠ .reader) {chunks : List Bytes}
    (given : source.deliveries = chunks.map .data) :
    ∃ text, (new source defaultEncoding handler).Delivers text ∧
      (new (.ofBytes chunks.flatten) defaultEncoding handler).Delivers text ∧
      ((Decoder.new .utf8 handler).decode chunks.flatten true).1 = .ok text := by
  have nameable := Handler.isNameable_of_mends mends
  obtain ⟨text, decoded⟩ := Decoder.Decodes.exists_of_mends mends chunks.flatten
  refine ⟨text, ?_, ?_, ?_⟩
  · exact delivers_of_decodes finite given nameable decoded
  · have whole : (Source.ofBytes chunks.flatten).deliveries = [chunks.flatten].map .data := rfl
    have one : [chunks.flatten].flatten = chunks.flatten := List.append_nil _
    exact delivers_of_decodes nofun whole nameable (one ▸ decoded)
  · rw [← List.nil_append chunks.flatten] at decoded
    exact congrArg Prod.fst (Decoder.decode_utf8 nameable decoded)

def splinters : List Bytes :=
  [[0x61, 0xe0], [0x80, 0xed], [0xa0], [0x80, 0xe2], [0x82, 0xac, 0xf0], [0x9f]]

theorem delivers_cut_as_whole_splinters :
    let cut := Source.ofItems .stream (splinters.map .data)
    let replaced : Text := [0x61, 0xfffd, 0xfffd, 0xfffd, 0xfffd, 0xfffd, 0x20ac, 0xfffd]
    let escaped : Text := [0x61, 0xdce0, 0xdc80, 0xdced, 0xdca0, 0xdc80, 0x20ac, 0xdcf0, 0xdc9f]
    Handler.replace.mends ∧ Handler.escape.mends ∧ cut.shape ≠ .reader ∧
    cut.deliveries = splinters.map .data ∧
    ∀ mended ∈ [(Handler.replace, replaced), (Handler.escape, escaped)],
      (new cut defaultEncoding mended.1).Delivers mended.2 ∧
      (new (.ofBytes splinters.flatten) defaultEncoding mended.1).Delivers mended.2 ∧
      ((Decoder.new .utf8 mended.1).decode splinters.flatten true).1 = .ok mended.2 := by
  intro cut replaced escaped
  have finite : cut.shape ≠ .reader := nofun
  have given : cut.deliveries = splinters.map .data := rfl
  refine ⟨rfl, rfl, finite, given, ?_⟩
  rintro ⟨handler, result⟩ member
  obtain ⟨mends, decoded⟩ : handler.mends ∧
      ((Decoder.new .utf8 handler).decode splinters.flatten true).1 = .ok result := by
    simp only [List.mem_cons, List.not_mem_nil, or_false, Prod.mk.injEq] at member
    obtain ⟨rfl, rfl⟩ | ⟨rfl, rfl⟩ := member <;> exact ⟨rfl, rfl⟩
  obtain ⟨text, pieces, whole, once⟩ := delivers_cut_as_whole mends finite given
  obtain rfl : result = text := Except.ok.inj (decoded.symm.trans once)
  exact ⟨pieces, whole, decoded⟩

end Reader

end RuneMachine
