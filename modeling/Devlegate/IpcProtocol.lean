import Devlegate.State
import Devlegate.Lib.JsonTexts

namespace Devlegate

open JsonText

/-!
# IPC framing and messages

`ipc_protocol`: frames with a length in front over a byte stream that takes and gives its bytes in
pieces, and the JSON messages inside the frames.

* `sendFrame`, `receiveFrame`: one frame over a `StreamReader` and a writer of any piece sizes.
* `encodeRequest`, `parseRequest` and the two kinds of response.
* `ipc_round_trips`: what is sent is received in order whatever the pieces are, a truncated or
  oversized frame raises, and messages keep their fields.
-/

/-! ### Frames -/

/-- `IPCProtocolError`. -/
structure IPCProtocolError where
  code : String
  message : String
  fatal : Bool := false
  deriving DecidableEq, Repr

/-- `MAX_PAYLOAD_BYTES`. -/
def maxPayloadBytes : Nat := 1048576

/-- `_HEADER.pack`. -/
def packHeader (n : Nat) : List UInt8 :=
  [UInt8.ofNat (n / 16777216), UInt8.ofNat (n / 65536 % 256), UInt8.ofNat (n / 256 % 256),
    UInt8.ofNat (n % 256)]

/-- `_HEADER.unpack`. -/
def unpackHeader (header : List UInt8) : Nat :=
  header.foldl (fun n b => n * 256 + b.toNat) 0

/-- `_HEADER.size`. -/
def headerSize : Nat := 4

/-- `encode_frame`. -/
def encodeFrame (payload : List UInt8) : Except IPCProtocolError (List UInt8) :=
  if payload.length > maxPayloadBytes then
    .error { code := "oversized_frame", message := "payload exceeds the maximum size" }
  else .ok (packHeader payload.length ++ payload)

/-- The loop of `send_frame`, from its `call`-th write on, with the bytes that the stream has taken.
    `write` says how many bytes each call takes; `none` is Python's `None`. -/
def sendPieces (write : Nat → Option Nat) (call : Nat) (left : List UInt8) :
    Except IPCProtocolError (List UInt8) :=
  if _h : left = [] then .ok []
  else match write call with
    | none | some 0 =>
      .error { code := "malformed_protocol", message := "stream write made no progress" }
    | some (n + 1) => do
      let rest ← sendPieces write (call + 1) (left.drop (n + 1))
      return left.take (n + 1) ++ rest
termination_by left.length
decreasing_by
  have hpos := List.length_pos_iff.mpr _h
  rw [List.length_drop]
  omega

/-- `send_frame`. -/
def sendFrame (write : Nat → Option Nat) (payload : List UInt8) :
    Except IPCProtocolError (List UInt8) := do
  let frame ← encodeFrame payload
  sendPieces write 0 frame

/-- The reading end of a stream: the bytes that the peer sends before it closes, and how many bytes
    each read returns beyond the first one, as far as there are any. -/
structure StreamReader where
  bytes : List UInt8
  extra : Nat → Nat
  reads : Nat := 0

/-- `stream.read(size)`. -/
def StreamReader.read (r : StreamReader) (size : Nat) : List UInt8 × StreamReader :=
  let n := min (r.extra r.reads + 1) size
  (r.bytes.take n, { r with bytes := r.bytes.drop n, reads := r.reads + 1 })

/-- The error of a stream that ends inside a frame. -/
def truncatedFrame : IPCProtocolError where
  code := "malformed_protocol"
  message := "frame is truncated"
  fatal := true

/-- The error of a header that announces too much. -/
def oversizedFrame : IPCProtocolError where
  code := "oversized_frame"
  message := "advertised payload exceeds the maximum size"
  fatal := true

/-- `_read_exact`, with the chunks read so far. -/
def readExact (allowCleanEof : Bool) (remaining : Nat) (chunks : List UInt8) (r : StreamReader) :
    Except IPCProtocolError (Option (List UInt8)) × StreamReader :=
  if _hremaining : remaining = 0 then (.ok (some chunks), r)
  else if _h : (r.read remaining).1 = [] then
    if allowCleanEof && chunks.isEmpty then (.ok none, (r.read remaining).2)
    else (.error truncatedFrame, (r.read remaining).2)
  else
    readExact allowCleanEof (remaining - (r.read remaining).1.length)
      (chunks ++ (r.read remaining).1) (r.read remaining).2
termination_by remaining
decreasing_by
  have hpos : 0 < (r.read remaining).1.length := List.length_pos_iff.mpr _h
  omega

/-- `receive_frame`. -/
def receiveFrame (r : StreamReader) : Except IPCProtocolError (Option (List UInt8)) × StreamReader :=
  match readExact true headerSize [] r with
  | (.error e, r) => (.error e, r)
  | (.ok none, r) => (.ok none, r)
  | (.ok (some header), r) =>
    let length := unpackHeader header
    if length > maxPayloadBytes then (.error oversizedFrame, r)
    else readExact false length [] r

/-- The results of the next calls of `receive_frame`. -/
def receiveFrames : Nat → StreamReader → List (Except IPCProtocolError (Option (List UInt8)))
  | 0, _ => []
  | n + 1, r => (receiveFrame r).1 :: receiveFrames n (receiveFrame r).2

/-- The frames of several payloads, each with the writes of its own call of `send_frame`. -/
def sendFrames : List (List UInt8 × (Nat → Option Nat)) → Except IPCProtocolError (List UInt8)
  | [] => .ok []
  | (payload, write) :: rest => do
    let bytes ← sendFrame write payload
    let more ← sendFrames rest
    return bytes ++ more

/-! ### Sending -/

section Framing

variable {write : Nat → Option Nat} {payload : List UInt8} {r : StreamReader}

/-- Every write takes at least one byte. -/
def Progresses (write : Nat → Option Nat) : Prop := ∀ call, ∃ n, write call = some (n + 1)

theorem sendPieces_eq (h : Progresses write) (call : Nat) (left : List UInt8) :
    sendPieces write call left = .ok left := by
  induction hlength : left.length using Nat.strong_induction_on generalizing call left with
  | _ length ih =>
    subst hlength
    unfold sendPieces
    by_cases hempty : left = []
    · rw [dif_pos hempty, hempty]
    · obtain ⟨n, hn⟩ := h call
      have hpos := List.length_pos_iff.mpr hempty
      have hlt : (left.drop (n + 1)).length < left.length := by
        rw [List.length_drop]
        omega
      rw [dif_neg hempty, hn]
      simp only [ih _ hlt (call + 1) (left.drop (n + 1)) rfl, bind, Except.bind, pure, Except.pure]
      rw [List.take_append_drop]

theorem sendFrame_eq (h : Progresses write) (hsize : payload.length ≤ maxPayloadBytes) :
    sendFrame write payload = .ok (packHeader payload.length ++ payload) := by
  have hfits : ¬ payload.length > maxPayloadBytes := by omega
  unfold sendFrame encodeFrame
  rw [if_neg hfits]
  exact sendPieces_eq h 0 _

/-! ### Receiving -/

theorem length_packHeader (n : Nat) : (packHeader n).length = headerSize := rfl

theorem unpackHeader_packHeader {n : Nat} (h : n < 4294967296) : unpackHeader (packHeader n) = n := by
  simp only [unpackHeader, packHeader, List.foldl_cons, List.foldl_nil, UInt8.toNat_ofNat']
  omega

/-- What is read does not depend on the pieces. -/
theorem readExact_eq (allowCleanEof : Bool) (remaining : Nat) (chunks : List UInt8) (r : StreamReader) :
    (remaining ≤ r.bytes.length → ∃ reads,
      readExact allowCleanEof remaining chunks r
        = (.ok (some (chunks ++ r.bytes.take remaining)),
          { r with bytes := r.bytes.drop remaining, reads := reads }))
      ∧ (r.bytes.length < remaining →
        (readExact allowCleanEof remaining chunks r).1
          = if allowCleanEof = true ∧ chunks = [] ∧ r.bytes = [] then .ok none
            else .error truncatedFrame) := by
  induction remaining using Nat.strong_induction_on generalizing chunks r with
  | _ remaining ih =>
    unfold readExact
    by_cases hzero : remaining = 0
    · subst hzero
      simp only [dif_pos, List.take_zero, List.append_nil, List.drop_zero]
      exact ⟨fun _ => ⟨r.reads, rfl⟩, fun hlt => absurd hlt (by omega)⟩
    · rw [dif_neg hzero]
      have hn : 0 < min (r.extra r.reads + 1) remaining := by omega
      by_cases hempty : r.bytes = []
      · have hchunk : (r.read remaining).1 = [] := by simp [StreamReader.read, hempty]
        rw [dif_pos hchunk]
        refine ⟨fun hle => absurd hle (by simp [hempty, hzero]), fun _ => ?_⟩
        by_cases hclean : allowCleanEof = true ∧ chunks = []
        · simp [hclean.1, hclean.2, hempty]
        · have hflag : ¬ (allowCleanEof && chunks.isEmpty) = true := by
            simpa [List.isEmpty_iff] using hclean
          rw [if_neg hflag, if_neg fun h => hclean ⟨h.1, h.2.1⟩]
      · have hpos := List.length_pos_iff.mpr hempty
        have hlength : (r.read remaining).1.length
            = min (min (r.extra r.reads + 1) remaining) r.bytes.length := by
          simp [StreamReader.read, List.length_take]
        have hchunk : (r.read remaining).1 ≠ [] := by
          intro hnil
          rw [hnil, List.length_nil] at hlength
          omega
        have hbytes : (r.read remaining).2.bytes = r.bytes.drop (r.read remaining).1.length := by
          rw [hlength]
          simp [StreamReader.read]
        have hpart : (r.read remaining).1 = r.bytes.take (r.read remaining).1.length := by
          rw [hlength]
          simp [StreamReader.read]
        have hnonempty : 0 < (r.read remaining).1.length := List.length_pos_iff.mpr hchunk
        have hlt : remaining - (r.read remaining).1.length < remaining := by omega
        have hextra : (r.read remaining).2.extra = r.extra := rfl
        have hall := congrArg List.length hbytes
        rw [List.length_drop] at hall
        rw [dif_neg hchunk]
        obtain ⟨hfull, hshort⟩ := ih _ hlt (chunks ++ (r.read remaining).1) (r.read remaining).2
        refine ⟨fun hle => ?_, fun hless => ?_⟩
        · obtain ⟨reads, hreads⟩ := hfull (by omega)
          refine ⟨reads, ?_⟩
          have hwhole : remaining = (r.read remaining).1.length
              + (remaining - (r.read remaining).1.length) := by omega
          rw [hreads, hbytes, hextra, List.drop_drop, List.append_assoc]
          conv_rhs => rw [hwhole, List.take_add, ← hpart]
        · rw [hshort (by omega), if_neg (by simp [hchunk]), if_neg (by simp [hempty])]

/-- A header is read as its length. -/
theorem receiveFrame_header {n : Nat} {rest : List UInt8} (hn : n < 4294967296)
    (hbytes : r.bytes = packHeader n ++ rest) : ∃ reads,
      receiveFrame r = if n > maxPayloadBytes then
          (.error oversizedFrame, { r with bytes := rest, reads := reads })
        else readExact false n [] { r with bytes := rest, reads := reads } := by
  have hfour : headerSize ≤ r.bytes.length := by
    rw [hbytes, List.length_append, length_packHeader]
    omega
  obtain ⟨reads, hreads⟩ := (readExact_eq true headerSize [] r).1 hfour
  have htake : r.bytes.take headerSize = packHeader n := by
    rw [hbytes]
    exact List.take_left' (length_packHeader n)
  have hdrop : r.bytes.drop headerSize = rest := by
    rw [hbytes]
    exact List.drop_left' (length_packHeader n)
  rw [htake, hdrop, List.nil_append] at hreads
  refine ⟨reads, ?_⟩
  unfold receiveFrame
  rw [hreads]
  simp only [unpackHeader_packHeader hn]

/-- A complete frame is received, and the bytes after it are left. -/
theorem receiveFrame_complete {rest : List UInt8} (hsize : payload.length ≤ maxPayloadBytes)
    (hbytes : r.bytes = packHeader payload.length ++ (payload ++ rest)) : ∃ reads,
      receiveFrame r = (.ok (some payload), { r with bytes := rest, reads := reads }) := by
  have hmax : maxPayloadBytes = 1048576 := rfl
  obtain ⟨reads, hreads⟩ := receiveFrame_header (by omega) hbytes
  have hfits : ¬ payload.length > maxPayloadBytes := by omega
  obtain ⟨reads', hrest⟩ := (readExact_eq false payload.length []
    { r with bytes := payload ++ rest, reads := reads }).1 (by simp)
  refine ⟨reads', ?_⟩
  rw [hreads, if_neg hfits, hrest]
  simp

theorem receiveFrame_end (hbytes : r.bytes = []) : (receiveFrame r).1 = .ok none := by
  have hshort := (readExact_eq true headerSize [] r).2 (by rw [hbytes]; decide)
  rw [if_pos ⟨rfl, rfl, hbytes⟩] at hshort
  unfold receiveFrame
  split <;> rename_i heq <;> rw [heq] at hshort <;> cases hshort

/-- A stream that ends inside a frame. -/
theorem receiveFrame_truncated (hsize : payload.length ≤ maxPayloadBytes)
    (hpart : r.bytes <+: packHeader payload.length ++ payload) (hnonempty : r.bytes ≠ [])
    (hproper : r.bytes ≠ packHeader payload.length ++ payload) :
    (receiveFrame r).1 = .error truncatedFrame := by
  obtain ⟨rest, hrest⟩ := hpart
  have hlost : rest ≠ [] := by
    rintro rfl
    rw [List.append_nil] at hrest
    exact hproper hrest
  have hmax : maxPayloadBytes = 1048576 := rfl
  by_cases hheader : r.bytes.length < headerSize
  · have hshort := (readExact_eq true headerSize [] r).2 hheader
    rw [if_neg fun h => hnonempty h.2.2] at hshort
    unfold receiveFrame
    split <;> rename_i heq <;> rw [heq] at hshort <;> cases hshort
    rfl
  · have hlength := length_packHeader payload.length
    obtain ⟨body, hbody⟩ : packHeader payload.length <+: r.bytes :=
      List.prefix_of_prefix_length_le (List.prefix_append _ _) ⟨rest, hrest⟩ (by omega)
    obtain ⟨reads, hreads⟩ := receiveFrame_header (n := payload.length) (by omega) hbody.symm
    have hmissing : body.length < payload.length := by
      have htotal := congrArg List.length hrest
      rw [← hbody, List.append_assoc, List.length_append, List.length_append, List.length_append]
        at htotal
      have hpos := List.length_pos_iff.mpr hlost
      omega
    have hshort := (readExact_eq false payload.length []
      { r with bytes := body, reads := reads }).2 hmissing
    rw [if_neg fun h => Bool.false_ne_true h.1] at hshort
    rw [hreads, if_neg (by omega)]
    exact hshort

/-- A header that announces too much. -/
theorem receiveFrame_oversized {n : Nat} {rest : List UInt8} (hlow : maxPayloadBytes < n)
    (hhigh : n < 4294967296) (hbytes : r.bytes = packHeader n ++ rest) :
    (receiveFrame r).1 = .error oversizedFrame := by
  obtain ⟨reads, hreads⟩ := receiveFrame_header hhigh hbytes
  rw [hreads, if_pos hlow]

/-- The bytes of several frames. -/
def framesOf (payloads : List (List UInt8)) : List UInt8 :=
  payloads.flatMap fun payload => packHeader payload.length ++ payload

theorem sendFrames_eq {frames : List (List UInt8 × (Nat → Option Nat))}
    (h : ∀ f ∈ frames, f.1.length ≤ maxPayloadBytes ∧ Progresses f.2) :
    sendFrames frames = .ok (framesOf (frames.map (·.1))) := by
  induction frames with
  | nil => rfl
  | cons f frames ih =>
    obtain ⟨payload, write⟩ := f
    obtain ⟨hsize, hwrite⟩ := h (payload, write) (by simp)
    have hrest := ih fun g hg => h g (by simp [hg])
    simp [sendFrames, sendFrame_eq hwrite hsize, hrest, framesOf, bind, Except.bind, pure,
      Except.pure]

/-- The frames of a stream are received one by one, whatever stands after them. -/
theorem receiveFrames_eq {payloads : List (List UInt8)} {tail : List UInt8}
    (h : ∀ payload ∈ payloads, payload.length ≤ maxPayloadBytes)
    (hbytes : r.bytes = framesOf payloads ++ tail) : ∃ reads,
      receiveFrames (payloads.length + 1) r
        = payloads.map (fun payload => .ok (some payload))
          ++ [(receiveFrame { r with bytes := tail, reads := reads }).1] := by
  induction payloads generalizing r with
  | nil =>
    refine ⟨r.reads, ?_⟩
    have hsame : { r with bytes := tail, reads := r.reads } = r := by
      rw [← show r.bytes = tail from hbytes]
    rw [hsame]
    rfl
  | cons payload payloads ih =>
    have hfirst : r.bytes
        = packHeader payload.length ++ (payload ++ (framesOf payloads ++ tail)) := by
      rw [hbytes]
      simp [framesOf]
    obtain ⟨reads, hreads⟩ := receiveFrame_complete (h payload (by simp)) hfirst
    obtain ⟨reads', hrest⟩ := ih (r := { r with bytes := framesOf payloads ++ tail, reads := reads })
      (fun p hp => h p (by simp [hp])) rfl
    refine ⟨reads', ?_⟩
    show (receiveFrame r).1 :: receiveFrames (payloads.length + 1) (receiveFrame r).2 = _
    rw [hreads, hrest]
    rfl

end Framing

/-! ### Messages -/

/-- `PROTOCOL_VERSION`. -/
def protocolVersion : Int := 1

/-- `IPCRequest`. -/
structure IPCRequest where
  version : Int
  requestId : Text
  method : Text
  payload : List (Text × Json)

/-- The `error` of a response. -/
structure IPCErrorDetails where
  code : Text
  message : Text

/-- `IPCResponse`. -/
structure IPCResponse where
  version : Int
  requestId : Text
  ok : Bool
  result : Option (List (Text × Json)) := none
  error : Option IPCErrorDetails := none

def invalidRequest (message : String) : IPCProtocolError where
  code := "invalid_request"
  message := message

def malformedProtocol (message : String) : IPCProtocolError where
  code := "malformed_protocol"
  message := message

def unsupportedVersion (message : String) : IPCProtocolError where
  code := "unsupported_version"
  message := message

/-- A value, or the error raised in its absence. -/
def demand {α : Type} (value : Option α) (error : IPCProtocolError) : Except IPCProtocolError α :=
  match value with
  | some a => .ok a
  | none => .error error

/-- `set(fields) - names` is empty. -/
def onlyFields (fields : List (Text × Json)) (names : List String) : Bool :=
  fields.all fun f => names.any fun name => text name == f.1

/-- `set(fields) == names`. -/
def hasExactly (fields : List (Text × Json)) (names : List String) : Bool :=
  fields.all (fun f => names.any fun name => text name == f.1)
    && names.all fun name => (getField fields name).isSome

/-- `isinstance(value, str) and value`, with the string. -/
def asNonEmpty (value : Option Json) : Option Text := do
  let s ← Json.asStr value
  guard (s ≠ [])
  return s

/-- `_require_text`. -/
def requireText (value : Text) (label : String) : Except IPCProtocolError Unit :=
  if value = [] then .error (invalidRequest (label ++ " must be non-empty text")) else .ok ()

/-- `_decode_json`. -/
def decodeJson (limits : Limits) (payload : List UInt8) : Except IPCProtocolError Json :=
  match Utf8.decode payload with
  | none => .error (malformedProtocol "payload is not valid UTF-8")
  | some t =>
    match parse limits t with
    | .ok value => .ok value
    | .error _ => .error (malformedProtocol "payload is not valid JSON")

/-- `_encode_json`. A value beyond the interpreter's limits counts as not encodable. -/
def encodeJson (limits : Limits) (value : Json) : Except IPCProtocolError (List UInt8) :=
  match dumps limits compact value with
  | .error _ => .error (invalidRequest "message is not JSON encodable")
  | .ok t => demand (Utf8.encode t) (invalidRequest "message is not JSON encodable")

/-- `parse_request`. -/
def parseRequest (limits : Limits) (payload : List UInt8) :
    Except IPCProtocolError IPCRequest := do
  let value ← decodeJson limits payload
  let fields ← demand (Json.asObj (some value)) (invalidRequest "request must be a JSON object")
  if !hasExactly fields ["version", "id", "method", "payload"] then
    throw (invalidRequest "request fields are invalid")
  let version ← demand (Json.asInt (getField fields "version"))
    (invalidRequest "request version must be an integer")
  if version ≠ protocolVersion then
    throw (unsupportedVersion "request version is unsupported")
  let requestId ← demand (asNonEmpty (getField fields "id"))
    (invalidRequest "request id must be non-empty text")
  let method ← demand (asNonEmpty (getField fields "method"))
    (invalidRequest "request method must be non-empty text")
  let requestPayload ← demand (Json.asObj (getField fields "payload"))
    (invalidRequest "request payload must be an object")
  return ⟨version, requestId, method, requestPayload⟩

/-- `encode_request`. -/
def encodeRequest (limits : Limits) (requestId method : Text) (payload : List (Text × Json)) :
    Except IPCProtocolError (List UInt8) := do
  requireText requestId "request id"
  requireText method "request method"
  encodeJson limits (.obj [(text "version", .int protocolVersion), (text "id", .str requestId),
    (text "method", .str method), (text "payload", .obj payload)])

/-- `parse_response`. -/
def parseResponse (limits : Limits) (payload : List UInt8) :
    Except IPCProtocolError IPCResponse := do
  let value ← decodeJson limits payload
  let fields ← demand (Json.asObj (some value))
    (malformedProtocol "response must be a JSON object")
  if !(["version", "id", "ok"].all fun name => (getField fields name).isSome) then
    throw (malformedProtocol "response fields are invalid")
  let version ← demand (Json.asInt (getField fields "version"))
    (malformedProtocol "response version must be an integer")
  if version ≠ protocolVersion then
    throw (unsupportedVersion "response version is unsupported")
  let requestId ← demand (Json.asStr (getField fields "id"))
    (malformedProtocol "response id must be text")
  let ok ← demand (Json.asBool (getField fields "ok"))
    (malformedProtocol "response ok must be boolean")
  if ok then
    if !hasExactly fields ["version", "id", "ok", "result"] then
      throw (malformedProtocol "successful response is invalid")
    let result ← demand (Json.asObj (getField fields "result"))
      (malformedProtocol "successful response is invalid")
    return { version := version, requestId := requestId, ok := true, result := some result }
  else
    if !hasExactly fields ["version", "id", "ok", "error"] then
      throw (malformedProtocol "error response is invalid")
    let error ← demand (Json.asObj (getField fields "error"))
      (malformedProtocol "error response is invalid")
    if !hasExactly error ["code", "message"] then
      throw (malformedProtocol "error details are invalid")
    let code ← demand (asNonEmpty (getField error "code"))
      (malformedProtocol "error details are invalid")
    let message ← demand (asNonEmpty (getField error "message"))
      (malformedProtocol "error details are invalid")
    return { version := version, requestId := requestId, ok := false,
             error := some ⟨code, message⟩ }

/-- `IPCResponse.as_dict`. -/
def IPCResponse.asDict (response : IPCResponse) : Json :=
  let body := [(text "version", Json.int response.version), (text "id", .str response.requestId),
    (text "ok", .bool response.ok)]
  if response.ok then .obj (body ++ [(text "result", (response.result.map .obj).getD .null)])
  else
    let details := response.error.map fun error =>
      Json.obj [(text "code", .str error.code), (text "message", .str error.message)]
    .obj (body ++ [(text "error", details.getD .null)])

/-- `encode_success_response`. -/
def encodeSuccessResponse (limits : Limits) (requestId : Text) (result : List (Text × Json)) :
    Except IPCProtocolError (List UInt8) := do
  requireText requestId "response id"
  let response : IPCResponse :=
    { version := protocolVersion, requestId := requestId, ok := true, result := some result }
  encodeJson limits response.asDict

/-- `encode_error_response`. -/
def encodeErrorResponse (limits : Limits) (requestId code message : Text) :
    Except IPCProtocolError (List UInt8) := do
  requireText code "error code"
  requireText message "error message"
  let response : IPCResponse :=
    { version := protocolVersion, requestId := requestId, ok := false,
      error := some ⟨code, message⟩ }
  encodeJson limits response.asDict

/-! ### Round trips -/

/-- A JSON object as a caller holds it: no object in it has a key twice. -/
structure JsonObject where
  fields : List (Text × Json)
  plain : Plain (fun _ => True) (.obj fields)

section Messages

variable {limits : Limits} {payload : List UInt8}

theorem requireText_ok {value : Text} {label : String} {u : Unit}
    (h : requireText value label = .ok u) : value ≠ [] := by
  unfold requireText at h
  split at h
  · cases h
  · assumption

/-- A value of texts without surrogates that fits is encoded. -/
theorem encodeJson_ok {v : Json} (h : Plain NoSurrogate v) (hfits : fits limits 0 v = true) :
    ∃ payload, encodeJson limits v = .ok payload := by
  have hplain : ∀ c ∈ dump compact 0 (sortKeys v), isSurrogate c = false :=
    forall_mem_dump writesOf_compact h.sortKeys 0
  obtain ⟨raw, hraw⟩ := Option.isSome_iff_exists.mp (Utf8.encode_isSome.mpr hplain)
  refine ⟨raw, ?_⟩
  unfold encodeJson dumps
  rw [if_pos hfits]
  simp only [hraw, demand]

/-- A surrogate among the characters is not. -/
theorem encodeJson_surrogate {v : Json} {c : CodePoint} (hc : c ∈ dump compact 0 (sortKeys v))
    (hsurrogate : isSurrogate c = true) :
    encodeJson limits v = .error (invalidRequest "message is not JSON encodable") := by
  have hnone : Utf8.encode (dump compact 0 (sortKeys v)) = none := by
    rw [← Option.not_isSome_iff_eq_none, Utf8.encode_isSome]
    intro hall
    rw [hall c hc] at hsurrogate
    cases hsurrogate
  unfold encodeJson dumps
  by_cases hfits : fits limits 0 v = true
  · rw [if_pos hfits]
    simp only [hnone, demand]
  · rw [if_neg hfits]

/-- A value is encoded if and only if it fits and no text in it has a surrogate. -/
theorem encodeJson_isOk {v : Json} (h : Plain (fun _ => True) v) :
    (∃ payload, encodeJson limits v = .ok payload)
      ↔ fits limits 0 v = true ∧ Plain NoSurrogate v := by
  refine ⟨?_, fun hv => encodeJson_ok hv.2 hv.1⟩
  rintro ⟨payload, hpayload⟩
  constructor
  · by_contra hfits
    unfold encodeJson dumps at hpayload
    rw [if_neg hfits] at hpayload
    cases hpayload
  · rw [plain_noSurrogate_iff h 0]
    intro c hc
    by_contra hsurrogate
    rw [Bool.not_eq_false] at hsurrogate
    rw [encodeJson_surrogate hc hsurrogate] at hpayload
    cases hpayload

/-- What is encoded is decoded, with its keys in order. -/
theorem decodeJson_encodeJson {v : Json} (h : Plain (fun _ => True) v)
    (hnumber : v.isNumber = false) (hpayload : encodeJson limits v = .ok payload) :
    decodeJson limits payload = .ok (sortKeys v) := by
  unfold encodeJson at hpayload
  split at hpayload
  · cases hpayload
  · rename_i t ht
    have hraw : Utf8.encode t = some payload := by
      cases hencode : Utf8.encode t with
      | none =>
        rw [hencode] at hpayload
        cases hpayload
      | some raw =>
        rw [hencode] at hpayload
        cases hpayload
        rfl
    have hplain : Plain (Reads compact) v := h.mono fun s _ => reads_compact s
    have hparse : parse limits (t ++ []) = .ok (sortKeys v) :=
      parse_dumps hplain hnumber ht fun _ hc => (List.not_mem_nil hc).elim
    rw [List.append_nil] at hparse
    unfold decodeJson
    rw [Utf8.decode_encode hraw]
    show (match parse limits t with | .ok value => _ | .error _ => _) = _
    rw [hparse]

/-- The keys of an object are the same in any order. -/
theorem hasExactly_sorted {fields sorted : List (Text × Json)}
    (hkeys : (sorted.map (·.1)).Perm (fields.map (·.1)))
    (hget : ∀ key, getField sorted key = (getField fields key).map sortKeys)
    (names : List String) : hasExactly sorted names = hasExactly fields names := by
  have hall : ∀ known : Text → Bool,
      sorted.all (fun f => known f.1) = fields.all fun f => known f.1 := by
    intro known
    have hmap := hkeys.all_eq (f := known)
    rw [List.all_map, List.all_map] at hmap
    exact hmap
  unfold hasExactly
  rw [hall fun key => names.any fun name => text name == key]
  simp [hget]

/-- An encoded object with the given members is decoded to one with the same keys. -/
theorem decodeJson_object {fields : List (Text × Json)} (h : Plain (fun _ => True) (.obj fields))
    (hpayload : encodeJson limits (.obj fields) = .ok payload) :
    ∃ sorted, decodeJson limits payload = .ok (.obj sorted)
      ∧ (∀ names, hasExactly sorted names = hasExactly fields names)
      ∧ ∀ key, getField sorted key = (getField fields key).map sortKeys := by
  obtain ⟨sorted, hsorted, hkeys, hget⟩ := exists_sortKeys_obj h
  refine ⟨sorted, ?_, hasExactly_sorted hkeys hget, hget⟩
  rw [decodeJson_encodeJson h rfl hpayload, hsorted]

theorem asNonEmpty_str {s : Text} (h : s ≠ []) : asNonEmpty (some (.str s)) = some s := by
  unfold asNonEmpty Json.asStr
  simp [h, guard]

/-- A request keeps its fields. -/
theorem parseRequest_encodeRequest {requestId method : Text} {o : JsonObject}
    (h : encodeRequest limits requestId method o.fields = .ok payload) : ∃ received,
      parseRequest limits payload = .ok ⟨protocolVersion, requestId, method, received⟩
        ∧ Same (.obj o.fields) (.obj received) := by
  unfold encodeRequest at h
  obtain ⟨_, hid, h⟩ := bind_eq_ok.mp h
  obtain ⟨_, hmethod, h⟩ := bind_eq_ok.mp h
  have hplain : Plain (fun _ => True) (.obj [(text "version", .int protocolVersion),
      (text "id", .str requestId), (text "method", .str method),
      (text "payload", .obj o.fields)]) := by
    have hkeys : List.Nodup [text "version", text "id", text "method", text "payload"] := by decide
    refine .obj hkeys (fun _ _ => trivial) ?_
    simp only [List.forall_mem_cons, List.not_mem_nil, false_implies, implies_true, and_true]
    exact ⟨.int _, .str trivial, .str trivial, o.plain⟩
  obtain ⟨sorted, hdecode, hexact, hget⟩ := decodeJson_object hplain h
  obtain ⟨received, hreceived, -⟩ := exists_sortKeys_obj o.plain
  have hsame : Same (.obj o.fields) (.obj received) := hreceived ▸ same_sortKeys o.plain
  refine ⟨received, ?_, hsame⟩
  have hnames : hasExactly sorted ["version", "id", "method", "payload"] = true := by
    rw [hexact]
    rfl
  have hversion : getField sorted "version" = some (.int protocolVersion) := by rw [hget]; rfl
  have hrequestId : getField sorted "id" = some (.str requestId) := by rw [hget]; rfl
  have hmethodField : getField sorted "method" = some (.str method) := by rw [hget]; rfl
  have hpayload : getField sorted "payload" = some (.obj received) := by
    rw [hget, ← hreceived]
    rfl
  unfold parseRequest
  rw [hdecode]
  simp only [bind, Except.bind, demand, Json.asObj, hnames, hversion, Json.asInt, hrequestId,
    asNonEmpty_str (requireText_ok hid), hmethodField, asNonEmpty_str (requireText_ok hmethod),
    hpayload, Bool.not_true, Bool.false_eq_true, if_false, ne_eq, not_true, pure, Except.pure]

/-- A successful response keeps its fields. -/
theorem parseResponse_encodeSuccessResponse {requestId : Text} {o : JsonObject}
    (h : encodeSuccessResponse limits requestId o.fields = .ok payload) : ∃ received,
      parseResponse limits payload
          = .ok { version := protocolVersion, requestId := requestId, ok := true,
                  result := some received }
        ∧ Same (.obj o.fields) (.obj received) := by
  unfold encodeSuccessResponse at h
  obtain ⟨_, -, h⟩ := bind_eq_ok.mp h
  have hplain : Plain (fun _ => True) (.obj [(text "version", .int protocolVersion),
      (text "id", .str requestId), (text "ok", .bool true), (text "result", .obj o.fields)]) := by
    have hkeys : List.Nodup [text "version", text "id", text "ok", text "result"] := by decide
    refine .obj hkeys (fun _ _ => trivial) ?_
    simp only [List.forall_mem_cons, List.not_mem_nil, false_implies, implies_true, and_true]
    exact ⟨.int _, .str trivial, .bool _, o.plain⟩
  obtain ⟨sorted, hdecode, hexact, hget⟩ := decodeJson_object hplain h
  obtain ⟨received, hreceived, -⟩ := exists_sortKeys_obj o.plain
  have hsame : Same (.obj o.fields) (.obj received) := hreceived ▸ same_sortKeys o.plain
  refine ⟨received, ?_, hsame⟩
  have hnames : hasExactly sorted ["version", "id", "ok", "result"] = true := by
    rw [hexact]
    rfl
  have hversion : getField sorted "version" = some (.int protocolVersion) := by rw [hget]; rfl
  have hrequestId : getField sorted "id" = some (.str requestId) := by rw [hget]; rfl
  have hok : getField sorted "ok" = some (.bool true) := by rw [hget]; rfl
  have hresult : getField sorted "result" = some (.obj received) := by
    rw [hget, ← hreceived]
    rfl
  have hcommon : (["version", "id", "ok"].all fun name => (getField sorted name).isSome)
      = true := by
    simp [hversion, hrequestId, hok]
  unfold parseResponse
  rw [hdecode]
  simp only [bind, Except.bind, demand, Json.asObj, hcommon, hversion, Json.asInt, hrequestId,
    Json.asStr, hok, Json.asBool, hnames, hresult, Bool.not_true, Bool.false_eq_true, if_false, if_true,
    ne_eq, not_true, pure, Except.pure]

/-- An error response keeps its fields. -/
theorem parseResponse_encodeErrorResponse {requestId code message : Text}
    (h : encodeErrorResponse limits requestId code message = .ok payload) :
    parseResponse limits payload
      = .ok { version := protocolVersion, requestId := requestId, ok := false,
              error := some ⟨code, message⟩ } := by
  unfold encodeErrorResponse at h
  obtain ⟨_, hcode, h⟩ := bind_eq_ok.mp h
  obtain ⟨_, hmessage, h⟩ := bind_eq_ok.mp h
  have hdetails : Plain (fun _ => True)
      (.obj [(text "code", .str code), (text "message", .str message)]) := by
    have hkeys : List.Nodup [text "code", text "message"] := by decide
    refine .obj hkeys (fun _ _ => trivial) ?_
    simp only [List.forall_mem_cons, List.not_mem_nil, false_implies, implies_true, and_true]
    exact ⟨.str trivial, .str trivial⟩
  have hplain : Plain (fun _ => True) (.obj [(text "version", .int protocolVersion),
      (text "id", .str requestId), (text "ok", .bool false),
      (text "error", .obj [(text "code", .str code), (text "message", .str message)])]) := by
    have hkeys : List.Nodup [text "version", text "id", text "ok", text "error"] := by decide
    refine .obj hkeys (fun _ _ => trivial) ?_
    simp only [List.forall_mem_cons, List.not_mem_nil, false_implies, implies_true, and_true]
    exact ⟨.int _, .str trivial, .bool _, hdetails⟩
  obtain ⟨sorted, hdecode, hexact, hget⟩ := decodeJson_object hplain h
  obtain ⟨details, hsorted, hkeys, hdetail⟩ := exists_sortKeys_obj hdetails
  have hnames : hasExactly sorted ["version", "id", "ok", "error"] = true := by
    rw [hexact]
    rfl
  have hversion : getField sorted "version" = some (.int protocolVersion) := by rw [hget]; rfl
  have hrequestId : getField sorted "id" = some (.str requestId) := by rw [hget]; rfl
  have hok : getField sorted "ok" = some (.bool false) := by rw [hget]; rfl
  have herror : getField sorted "error" = some (.obj details) := by
    rw [hget, ← hsorted]
    rfl
  have hcommon : (["version", "id", "ok"].all fun name => (getField sorted name).isSome)
      = true := by
    simp [hversion, hrequestId, hok]
  have hdetailNames : hasExactly details ["code", "message"] = true := by
    rw [hasExactly_sorted hkeys hdetail]
    rfl
  have hcodeField : getField details "code" = some (.str code) := by rw [hdetail]; rfl
  have hmessageField : getField details "message" = some (.str message) := by rw [hdetail]; rfl
  unfold parseResponse
  rw [hdecode]
  simp only [bind, Except.bind, demand, Json.asObj, hcommon, hversion, Json.asInt, hrequestId,
    Json.asStr, hok, Json.asBool, hnames, herror, hdetailNames, hcodeField, hmessageField,
    asNonEmpty_str (requireText_ok hcode), asNonEmpty_str (requireText_ok hmessage),
    Bool.not_true, Bool.false_eq_true, if_false, ne_eq, not_true, pure, Except.pure]

end Messages

/-- What the protocol keeps, over every stream and every message. -/
structure RoundTrips (limits : Limits) : Prop where
  /-- Frames arrive in order, and `None` after them. -/
  frames : ∀ frames : List (List UInt8 × (Nat → Option Nat)),
    (∀ f ∈ frames, f.1.length ≤ maxPayloadBytes ∧ Progresses f.2) →
      ∃ bytes, sendFrames frames = .ok bytes ∧ ∀ extra : Nat → Nat,
        receiveFrames (frames.length + 1) { bytes := bytes, extra := extra }
          = frames.map (fun f => .ok (some f.1)) ++ [.ok none]
  /-- A stream that ends inside a frame, after any number of whole ones. -/
  truncated : ∀ (before : List (List UInt8)) (payload cut : List UInt8) (extra : Nat → Nat),
    (∀ p ∈ before, p.length ≤ maxPayloadBytes) → payload.length ≤ maxPayloadBytes →
      cut ≠ [] → cut <+: packHeader payload.length ++ payload →
      cut ≠ packHeader payload.length ++ payload →
        receiveFrames (before.length + 1) { bytes := framesOf before ++ cut, extra := extra }
          = before.map (fun p => .ok (some p)) ++ [.error truncatedFrame]
  /-- A header that announces too much, after any number of whole frames. -/
  oversized : ∀ (before : List (List UInt8)) (n : Nat) (rest : List UInt8) (extra : Nat → Nat),
    (∀ p ∈ before, p.length ≤ maxPayloadBytes) → maxPayloadBytes < n → n < 4294967296 →
      receiveFrames (before.length + 1)
          { bytes := framesOf before ++ (packHeader n ++ rest), extra := extra }
        = before.map (fun p => .ok (some p)) ++ [.error oversizedFrame]
  /-- A payload that is too large is not sent. -/
  unsent : ∀ (payload : List UInt8) (write : Nat → Option Nat),
    maxPayloadBytes < payload.length → ∃ e, sendFrame write payload = .error e
  request : ∀ (requestId method : Text) (o : JsonObject) (payload : List UInt8),
    encodeRequest limits requestId method o.fields = .ok payload → ∃ received,
      parseRequest limits payload = .ok ⟨protocolVersion, requestId, method, received⟩
        ∧ Same (.obj o.fields) (.obj received)
  success : ∀ (requestId : Text) (o : JsonObject) (payload : List UInt8),
    encodeSuccessResponse limits requestId o.fields = .ok payload → ∃ received,
      parseResponse limits payload
          = .ok { version := protocolVersion, requestId := requestId, ok := true,
                  result := some received }
        ∧ Same (.obj o.fields) (.obj received)
  failure : ∀ (requestId code message : Text) (payload : List UInt8),
    encodeErrorResponse limits requestId code message = .ok payload →
      parseResponse limits payload
        = .ok { version := protocolVersion, requestId := requestId, ok := false,
                error := some ⟨code, message⟩ }

/-- **IPC.** Frames and messages are received as they were sent, whatever pieces the streams take
    and give. -/
theorem ipc_round_trips (limits : Limits) : RoundTrips limits where
  frames frames h := by
    refine ⟨_, sendFrames_eq h, fun extra => ?_⟩
    have hsize : ∀ p ∈ frames.map (·.1), p.length ≤ maxPayloadBytes := by
      intro p hp
      obtain ⟨f, hf, rfl⟩ := List.mem_map.mp hp
      exact (h f hf).1
    have hbytes : framesOf (frames.map (·.1)) = framesOf (frames.map (·.1)) ++ [] := by simp
    obtain ⟨reads, hreads⟩ := receiveFrames_eq
      (r := { bytes := framesOf (frames.map (·.1)), extra := extra }) hsize hbytes
    rw [List.length_map, List.map_map, receiveFrame_end rfl] at hreads
    exact hreads
  truncated before payload cut extra hbefore hsize hnonempty hpart hproper := by
    obtain ⟨reads, hreads⟩ := receiveFrames_eq
      (r := { bytes := framesOf before ++ cut, extra := extra }) hbefore rfl
    rw [receiveFrame_truncated hsize hpart hnonempty hproper] at hreads
    exact hreads
  oversized before n rest extra hbefore hlow hhigh := by
    obtain ⟨reads, hreads⟩ := receiveFrames_eq
      (r := { bytes := framesOf before ++ (packHeader n ++ rest), extra := extra }) hbefore rfl
    rw [receiveFrame_oversized hlow hhigh rfl] at hreads
    exact hreads
  unsent payload write hsize := by
    unfold sendFrame encodeFrame
    rw [if_pos hsize]
    exact ⟨_, rfl⟩
  request _ _ _ _ h := parseRequest_encodeRequest h
  success _ _ _ h := parseResponse_encodeSuccessResponse h
  failure _ _ _ _ h := parseResponse_encodeErrorResponse h

end Devlegate
