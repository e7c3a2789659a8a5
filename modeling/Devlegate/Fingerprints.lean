import Devlegate.ReportJson
import Devlegate.Receipts

namespace Devlegate

open JsonText

/-!
# Fingerprints of operator commands

A command is recorded with a fingerprint of its method and arguments; a resubmission is known by it.
The fingerprint is the digest of a JSON text, in which an argument that was omitted is left out or
stands as a text of its own.

* `Wire.OperatorCall.payload`: the eight shapes of a command.
* `OperatorCall.encoded_inj`: the octets that are hashed determine the method and the payload.
* `OperatorCall.fingerprint_separates_iff`: assuming that the digest does not collide, equal fingerprints mean
  equal commands, exactly when neither command gives the text that stands for the omitted target of
  the other.
-/

namespace Wire

/-! ### Commands -/

/-- A text from a frame or from the command line: a pair of surrogates was joined, and a byte that
    is no UTF-8 stands as a low surrogate. -/
abbrev OperatorText := {s : Text // Unpaired s}

/-- The mutating calls, with texts as they come in. -/
inductive OperatorCall where
  | retry (ticketId : OperatorText) (force : Bool)
  | drop (ticketId executionId : OperatorText)
  | recover (ticketId executionId observedHead : OperatorText)
  | reconcileUpdateBase (ticketId : OperatorText) (onto : Option OperatorText)
      (rewritePublished : Bool)
  | reconcileResume (ticketId : OperatorText)
  | reconcileAuto (ticketId : OperatorText) (onto : Option OperatorText)
  | reconcileControl (fromHead toHead : OperatorText)
  deriving DecidableEq

namespace OperatorCall

/-- The method of `submit_retry` and its siblings. -/
def method : OperatorCall → Method
  | .retry _ _ => .retry
  | .drop _ _ => .drop
  | .recover _ _ _ => .recover
  | .reconcileUpdateBase _ _ _ => .reconcileUpdateBase
  | .reconcileResume _ => .reconcileResume
  | .reconcileAuto _ _ => .reconcileAuto
  | .reconcileControl _ _ => .reconcileControl

/-- The text for an omitted target of an update of the base. -/
def currentProductHead : Text := text "<current-product-head>"

/-- The text for an omitted target of the automatic reconciliation. -/
def autoTarget : Text := text "<auto>"

/-- `onto if onto is not None else default`. -/
def ontoOr (onto : Option OperatorText) (default : Text) : Text := (onto.map (·.1)).getD default

/-- `"1" if flag else "0"`. -/
def flagText (flag : Bool) : Text := text (if flag then "1" else "0")

/-- The payload of the fingerprint. -/
def payload : OperatorCall → List (Text × Text)
  | .retry ticketId force =>
    if force then [(text "ticket_id", ticketId), (text "force", flagText force)]
    else [(text "ticket_id", ticketId)]
  | .drop ticketId executionId =>
    [(text "ticket_id", ticketId), (text "execution_id", executionId)]
  | .recover ticketId executionId observedHead =>
    [(text "ticket_id", ticketId), (text "execution_id", executionId),
      (text "observed_head", observedHead)]
  | .reconcileUpdateBase ticketId onto rewritePublished =>
    [(text "ticket_id", ticketId), (text "onto", ontoOr onto currentProductHead),
      (text "rewrite_published", flagText rewritePublished)]
  | .reconcileResume ticketId => [(text "ticket_id", ticketId)]
  | .reconcileAuto ticketId onto =>
    [(text "ticket_id", ticketId), (text "onto", ontoOr onto autoTarget)]
  | .reconcileControl fromHead toHead => [(text "from", fromHead), (text "to", toHead)]

end OperatorCall

/-- The value whose text is hashed. -/
def fingerprintValue (method : String) (payload : List (Text × Text)) : Json :=
  .obj [(text "method", .str (text method)),
    (text "payload", .obj (payload.map fun f => (f.1, .str f.2)))]

/-- The octets that `_mutation_fingerprint` hashes; none if they cannot be made. -/
def fingerprintOctets (method : String) (payload : List (Text × Text)) : Option (List UInt8) :=
  match dumps defaultLimits asciiCompact (fingerprintValue method payload) with
  | .ok s => Utf8.encode s
  | .error _ => none

/-- `_mutation_fingerprint`. -/
def mutationFingerprint [Sha256] (method : String) (payload : List (Text × Text)) : Option String :=
  (fingerprintOctets method payload).map Sha256.hexdigest

namespace OperatorCall

/-- The octets behind the fingerprint of a call. -/
def encoded (call : OperatorCall) : Option (List UInt8) :=
  fingerprintOctets call.method.word call.payload

/-- `_retry_request_fingerprint` and its siblings. -/
def fingerprint [Sha256] (call : OperatorCall) : Option String :=
  mutationFingerprint call.method.word call.payload

end OperatorCall

/-! ### The octets determine the command -/

section Octets

variable {method method' : String} {payload payload' : List (Text × Text)}

theorem plain_payload (hnodup : (payload.map (·.1)).Nodup)
    (hkeys : ∀ f ∈ payload, Unpaired f.1) (hvalues : ∀ f ∈ payload, Unpaired f.2) :
    Plain Unpaired (.obj (payload.map fun f => (f.1, .str f.2))) := by
  refine .obj ?_ ?_ ?_
  · rw [List.map_map]
    exact hnodup
  · rw [List.forall_mem_map]
    exact hkeys
  · rw [List.forall_mem_map]
    exact fun f hf => .str (hvalues f hf)

theorem plain_fingerprintValue (method : String)
    (h : Plain Unpaired (.obj (payload.map fun f => (f.1, .str f.2)))) :
    Plain Unpaired (fingerprintValue method payload) := by
  have hkeys : (["method", "payload"].map text).Nodup := by decide
  refine .obj hkeys ?_ ?_
  · simp only [List.forall_mem_cons, List.not_mem_nil, false_implies, implies_true, and_true]
    exact ⟨unpaired_text _, unpaired_text _⟩
  · simp only [List.forall_mem_cons, List.not_mem_nil, false_implies, implies_true, and_true]
    exact ⟨.str (unpaired_text _), h⟩

theorem fits_fingerprintValue (method : String) (payload : List (Text × Text)) :
    fits defaultLimits 0 (fingerprintValue method payload) = true := by
  have hopen : ∀ depth < 2, decide (depth < defaultLimits.nesting) = true := by decide
  have hpayload : (payload.map fun f => (f.1, Json.str f.2)).all
      (fun f => fits defaultLimits 2 f.2) = true := by
    rw [List.all_map, List.all_eq_true]
    exact fun _ _ => rfl
  simp only [fingerprintValue, fits, fitsFields, fitsFields_eq, hpayload, hopen 0 (by decide),
    hopen 1 (by decide), Bool.and_self]

/-- The octets exist, and the value can be read from them. -/
theorem exists_octets (method : String)
    (h : Plain Unpaired (.obj (payload.map fun f => (f.1, .str f.2)))) :
    ∃ raw, fingerprintOctets method payload = some raw
      ∧ loads defaultLimits raw = .ok (sortKeys (fingerprintValue method payload)) := by
  have hplain := plain_fingerprintValue method h
  have hreads : Plain (Reads asciiCompact) (fingerprintValue method payload) :=
    hplain.mono fun _ hs => reads_indented hs
  have hdumps : dumps defaultLimits asciiCompact (fingerprintValue method payload)
      = .ok (dump asciiCompact 0 (sortKeys (fingerprintValue method payload))) := by
    unfold dumps
    rw [if_pos (fits_fingerprintValue method payload)]
  have hencode : (Utf8.encode (dump asciiCompact 0
      (sortKeys (fingerprintValue method payload)))).isSome = true :=
    Utf8.encode_isSome.mpr fun c hc => isSurrogate_of_printable
      (forall_mem_dump writes_asciiCompact.of hplain.sortKeys 0 c hc)
  obtain ⟨raw, hraw⟩ := Option.isSome_iff_exists.mp hencode
  refine ⟨raw, ?_, loads_dumps hreads rfl hdumps hraw⟩
  unfold fingerprintOctets
  rw [hdumps]
  exact hraw

/-- The value behind a key of the payload, as the digest's input has it. -/
theorem member_eq (h : Plain Unpaired (.obj (payload.map fun f => (f.1, .str f.2))))
    {outer inner : List (Text × Json)}
    (houter : sortKeys (fingerprintValue method payload) = .obj outer)
    (hinner : getField outer "payload" = some (.obj inner)) (key : String) :
    getField inner key = (payload.lookup (text key)).map .str := by
  obtain ⟨sorted, hsorted, -, hget⟩ := exists_sortKeys_obj (plain_fingerprintValue method h)
  obtain ⟨members, hmembers, -, hmember⟩ := exists_sortKeys_obj h
  have heq : sorted = outer := by
    rw [fingerprintValue] at houter
    exact Json.obj.inj (hsorted.symm.trans houter)
  subst heq
  have hpayload : getField sorted "payload" = some (.obj members) := by
    rw [hget, ← hmembers]
    rfl
  obtain rfl : members = inner := Json.obj.inj (Option.some.inj (hpayload.symm.trans hinner))
  rw [hmember, getField, lookup_map_snd]
  cases payload.lookup (text key) <;> rfl

/-- **Octets.** Equal octets come from equal methods and from payloads that say the same under every
    key. -/
theorem octets_inj (h : Plain Unpaired (.obj (payload.map fun f => (f.1, .str f.2))))
    (h' : Plain Unpaired (.obj (payload'.map fun f => (f.1, .str f.2))))
    (heq : fingerprintOctets method payload = fingerprintOctets method' payload') :
    text method = text method' ∧ ∀ key, payload.lookup (text key) = payload'.lookup (text key) := by
  obtain ⟨raw, hraw, hloads⟩ := exists_octets method h
  obtain ⟨raw', hraw', hloads'⟩ := exists_octets method' h'
  have hraws : raw = raw' := by
    rw [hraw, hraw'] at heq
    exact Option.some.inj heq
  -- The same octets are read as the same value.
  have hvalue : sortKeys (fingerprintValue method payload)
      = sortKeys (fingerprintValue method' payload') := by
    rw [← hraws, hloads] at hloads'
    exact Except.ok.inj hloads'
  obtain ⟨outer, houter, -, hget⟩ := exists_sortKeys_obj (plain_fingerprintValue method h)
  obtain ⟨outer', houter', -, hget'⟩ := exists_sortKeys_obj (plain_fingerprintValue method' h')
  obtain rfl : outer = outer' := Json.obj.inj (houter.symm.trans (hvalue.trans houter'))
  obtain ⟨inner, hinner, -⟩ := exists_sortKeys_obj h
  have hpayload : getField outer "payload" = some (.obj inner) := by
    rw [hget, ← hinner]
    rfl
  constructor
  · have hfirst : getField outer "method" = some (.str (text method)) := hget "method"
    have hsecond : getField outer "method" = some (.str (text method')) := hget' "method"
    have hmethod := hfirst.symm.trans hsecond
    exact Json.str.inj (Option.some.inj hmethod)
  · intro key
    have hkey : (payload.lookup (text key)).map Json.str = (payload'.lookup (text key)).map .str :=
      (member_eq h houter hpayload key).symm.trans (member_eq h' (hvalue ▸ houter) hpayload key)
    exact Option.map_injective (fun _ _ => Json.str.inj) hkey

end Octets

/-! ### Commands and their fingerprints -/

namespace OperatorCall

theorem unpaired_ontoOr (onto : Option OperatorText) (default : String) :
    Unpaired (ontoOr onto (text default)) := by
  cases onto with
  | none => exact unpaired_text default
  | some given => exact given.2

/-- The keys of a payload are words, each once. -/
theorem exists_keys (call : OperatorCall) :
    ∃ keys : List String, (keys.map text).Nodup ∧ call.payload.map (·.1) = keys.map text := by
  cases call with
  | retry ticketId force =>
    cases force with
    | false => exact ⟨["ticket_id"], by decide, rfl⟩
    | true => exact ⟨["ticket_id", "force"], by decide, rfl⟩
  | drop ticketId executionId => exact ⟨["ticket_id", "execution_id"], by decide, rfl⟩
  | recover ticketId executionId observedHead =>
    exact ⟨["ticket_id", "execution_id", "observed_head"], by decide, rfl⟩
  | reconcileUpdateBase ticketId onto rewritePublished =>
    exact ⟨["ticket_id", "onto", "rewrite_published"], by decide, rfl⟩
  | reconcileResume ticketId => exact ⟨["ticket_id"], by decide, rfl⟩
  | reconcileAuto ticketId onto => exact ⟨["ticket_id", "onto"], by decide, rfl⟩
  | reconcileControl fromHead toHead => exact ⟨["from", "to"], by decide, rfl⟩

/-- The values of a payload are texts of the request or words. -/
theorem unpaired_payload (call : OperatorCall) : ∀ f ∈ call.payload, Unpaired f.2 := by
  cases call with
  | retry ticketId force =>
    cases force with
    | false => simpa [payload] using ticketId.2
    | true => simpa [payload] using ⟨ticketId.2, unpaired_text _⟩
  | drop ticketId executionId => simpa [payload] using ⟨ticketId.2, executionId.2⟩
  | recover ticketId executionId observedHead =>
    simpa [payload] using ⟨ticketId.2, executionId.2, observedHead.2⟩
  | reconcileUpdateBase ticketId onto rewritePublished =>
    simpa [payload] using ⟨ticketId.2, unpaired_ontoOr onto _, unpaired_text _⟩
  | reconcileResume ticketId => simpa [payload] using ticketId.2
  | reconcileAuto ticketId onto => simpa [payload] using ⟨ticketId.2, unpaired_ontoOr onto _⟩
  | reconcileControl fromHead toHead => simpa [payload] using ⟨fromHead.2, toHead.2⟩

/-- A payload is an object with keys of its own and proper texts. -/
theorem plain (call : OperatorCall) :
    Plain Unpaired (.obj (call.payload.map fun f => (f.1, .str f.2))) := by
  obtain ⟨keys, hnodup, hkeys⟩ := call.exists_keys
  refine plain_payload (hkeys ▸ hnodup) ?_ call.unpaired_payload
  intro f hf
  have hkey : f.1 ∈ keys.map text := hkeys ▸ List.mem_map_of_mem hf
  obtain ⟨key, -, hword⟩ := List.mem_map.mp hkey
  rw [← hword]
  exact unpaired_text key

/-- Every request has a fingerprint. -/
theorem exists_encoded (call : OperatorCall) : ∃ raw, call.encoded = some raw := by
  obtain ⟨raw, hraw, -⟩ := exists_octets call.method.word call.plain
  exact ⟨raw, hraw⟩

theorem method_inj {m m' : Method} (h : text m.word = text m'.word) : m = m' := by
  revert h
  cases m <;> cases m' <;> decide

/-- **Same octets.** They come from the same method, and from arguments that stand alike under every
    key. -/
theorem encoded_inj {a b : OperatorCall} (h : a.encoded = b.encoded) :
    a.method = b.method ∧ ∀ key, a.payload.lookup (text key) = b.payload.lookup (text key) :=
  have hsame := octets_inj a.plain b.plain h
  ⟨method_inj hsame.1, hsame.2⟩

theorem flagText_inj {flag flag' : Bool} (h : flagText flag = flagText flag') : flag = flag' := by
  revert h
  cases flag <;> cases flag' <;> decide

/-- One of the targets is omitted, and the other is the text that stands for it. -/
def OneOmits (default : Text) (onto onto' : Option OperatorText) : Prop :=
  (onto = none ∧ onto'.map (·.1) = some default) ∨ (onto.map (·.1) = some default ∧ onto' = none)

theorem ontoOr_eq_iff {default : Text} {onto onto' : Option OperatorText} :
    ontoOr onto default = ontoOr onto' default ↔ onto = onto' ∨ OneOmits default onto onto' := by
  cases onto with
  | none =>
    cases onto' with
    | none => simp [OneOmits]
    | some given => simp [ontoOr, OneOmits, eq_comm]
  | some given =>
    cases onto' with
    | none => simp [ontoOr, OneOmits]
    | some given' => simp [ontoOr, OneOmits, Subtype.ext_iff]

/-- Two requests that differ in this only: one omits the target and the other gives the text that
    stands for an omitted target. -/
def Clash : OperatorCall → OperatorCall → Prop
  | .reconcileUpdateBase ticketId onto rewritePublished,
    .reconcileUpdateBase ticketId' onto' rewritePublished' =>
    ticketId = ticketId' ∧ rewritePublished = rewritePublished'
      ∧ OneOmits currentProductHead onto onto'
  | .reconcileAuto ticketId onto, .reconcileAuto ticketId' onto' =>
    ticketId = ticketId' ∧ OneOmits autoTarget onto onto'
  | _, _ => False

/-- A clash is between two requests. -/
theorem Clash.ne {a b : OperatorCall} (h : Clash a b) : a ≠ b := by
  have hne : ∀ {default : Text} {onto : Option OperatorText}, ¬ OneOmits default onto onto := by
    rintro default onto (⟨rfl, hgiven⟩ | ⟨hgiven, rfl⟩) <;> exact absurd hgiven (by simp)
  rintro rfl
  cases a with
  | reconcileUpdateBase ticketId onto rewritePublished => exact hne h.2.2
  | reconcileAuto ticketId onto => exact hne h.2
  | retry _ _ | drop _ _ | recover _ _ _ | reconcileResume _ | reconcileControl _ _ => exact h

/-- The payloads of a clash are the same. -/
theorem Clash.encoded_eq {a b : OperatorCall} (h : Clash a b) : a.encoded = b.encoded := by
  cases a with
  | reconcileUpdateBase ticketId onto rewritePublished =>
    cases b with
    | reconcileUpdateBase ticketId' onto' rewritePublished' =>
      obtain ⟨rfl, rfl, homits⟩ := h
      have honto := ontoOr_eq_iff.mpr (.inr homits)
      simp only [encoded, method, payload, honto]
    | _ => exact absurd h id
  | reconcileAuto ticketId onto =>
    cases b with
    | reconcileAuto ticketId' onto' =>
      obtain ⟨rfl, homits⟩ := h
      have honto := ontoOr_eq_iff.mpr (.inr homits)
      simp only [encoded, method, payload, honto]
    | _ => exact absurd h id
  | retry _ _ | drop _ _ | recover _ _ _ | reconcileResume _ | reconcileControl _ _ =>
    exact absurd h id

/-- **Requests behind equal octets.** They are the same or clash. -/
theorem eq_or_clash {a b : OperatorCall} (h : a.encoded = b.encoded) : a = b ∨ Clash a b := by
  obtain ⟨hmethod, hkeys⟩ := encoded_inj h
  have heq : ∀ {x y : OperatorText}, some x.1 = some y.1 → x = y :=
    fun hsome => Subtype.ext (Option.some.inj hsome)
  -- The methods decide which shapes can meet.
  cases a with
  | retry ticketId force =>
    cases b with
    | retry ticketId' force' =>
      have hforce : force = force' := by
        have hflag := hkeys "force"
        cases force with
        | false =>
          cases force' with
          | false => rfl
          | true => exact absurd (show none = some (flagText true) from hflag) nofun
        | true =>
          cases force' with
          | false => exact absurd (show some (flagText true) = none from hflag) nofun
          | true => rfl
      subst hforce
      have hticket : some ticketId.1 = some ticketId'.1 := by
        have hid := hkeys "ticket_id"
        cases force <;> exact hid
      rw [heq hticket]
      exact .inl rfl
    | _ => cases hmethod
  | drop ticketId executionId =>
    cases b with
    | drop ticketId' executionId' =>
      rw [heq (hkeys "ticket_id"), heq (hkeys "execution_id")]
      exact .inl rfl
    | _ => cases hmethod
  | recover ticketId executionId observedHead =>
    cases b with
    | recover ticketId' executionId' observedHead' =>
      rw [heq (hkeys "ticket_id"), heq (hkeys "execution_id"), heq (hkeys "observed_head")]
      exact .inl rfl
    | _ => cases hmethod
  | reconcileUpdateBase ticketId onto rewritePublished =>
    cases b with
    | reconcileUpdateBase ticketId' onto' rewritePublished' =>
      have hflag : some (flagText rewritePublished) = some (flagText rewritePublished') :=
        hkeys "rewrite_published"
      have honto : some (ontoOr onto _) = some (ontoOr onto' _) := hkeys "onto"
      rw [heq (hkeys "ticket_id"), flagText_inj (Option.some.inj hflag)]
      rcases ontoOr_eq_iff.mp (Option.some.inj honto) with rfl | homits
      · exact .inl rfl
      · exact .inr ⟨rfl, rfl, homits⟩
    | _ => cases hmethod
  | reconcileResume ticketId =>
    cases b with
    | reconcileResume ticketId' =>
      rw [heq (hkeys "ticket_id")]
      exact .inl rfl
    | _ => cases hmethod
  | reconcileAuto ticketId onto =>
    cases b with
    | reconcileAuto ticketId' onto' =>
      have honto : some (ontoOr onto _) = some (ontoOr onto' _) := hkeys "onto"
      rw [heq (hkeys "ticket_id")]
      rcases ontoOr_eq_iff.mp (Option.some.inj honto) with rfl | homits
      · exact .inl rfl
      · exact .inr ⟨rfl, homits⟩
    | _ => cases hmethod
  | reconcileControl fromHead toHead =>
    cases b with
    | reconcileControl fromHead' toHead' =>
      rw [heq (hkeys "from"), heq (hkeys "to")]
      exact .inl rfl
    | _ => cases hmethod

section Fingerprint

variable [Sha256]

/-- **Separation.** Assuming that the digest does not collide on the two texts, equal fingerprints
    mean equal requests exactly when the two do not clash. -/
theorem fingerprint_separates_iff {a b : OperatorCall}
    (hfree : ∀ raw ∈ a.encoded, ∀ raw' ∈ b.encoded,
      Sha256.hexdigest raw = Sha256.hexdigest raw' → raw = raw') :
    (a.fingerprint = b.fingerprint → a = b) ↔ ¬ Clash a b := by
  constructor
  · intro hinj hclash
    refine hclash.ne (hinj ?_)
    exact congrArg (·.map Sha256.hexdigest) hclash.encoded_eq
  · intro hclash hsame
    obtain ⟨raw, hraw⟩ := a.exists_encoded
    obtain ⟨raw', hraw'⟩ := b.exists_encoded
    have hdigest : some (Sha256.hexdigest raw) = some (Sha256.hexdigest raw') := by
      have hsame' : a.encoded.map Sha256.hexdigest = b.encoded.map Sha256.hexdigest := hsame
      rwa [hraw, hraw'] at hsame'
    have hraws := hfree raw hraw raw' hraw' (Option.some.inj hdigest)
    exact (eq_or_clash (hraw.trans (hraws ▸ hraw'.symm))).resolve_right hclash

end Fingerprint

/-- The text of a request that names a ticket only. -/
theorem octets_of_ticket (method : String) (ticketId : Text)
    (hfits : fits defaultLimits 0 (fingerprintValue method [(text "ticket_id", ticketId)]) = true) :
    fingerprintOctets method [(text "ticket_id", ticketId)]
      = Utf8.encode
        (dump asciiCompact 0 (fingerprintValue method [(text "ticket_id", ticketId)])) := by
  have hsorted : sortKeys (fingerprintValue method [(text "ticket_id", ticketId)])
      = fingerprintValue method [(text "ticket_id", ticketId)] := by
    have hle : textLe (text "method") (text "payload") = true := by decide
    have hmembers : List.Pairwise (fun f g : Text × Json => textLe f.1 g.1 = true)
        [(text "method", .str (text method)),
          (text "payload", .obj [(text "ticket_id", .str ticketId)])] :=
      List.pairwise_pair.mpr hle
    simp only [fingerprintValue, sortKeys, sortFields, List.map_cons, List.map_nil,
      List.mergeSort_singleton]
    rw [List.mergeSort_of_pairwise hmembers]
  unfold fingerprintOctets dumps
  rw [if_pos hfits, hsorted]

theorem encoded_retry : (retry ⟨text "t1", unpaired_text _⟩ false).encoded = some (octets
    "\x7b\"method\":\"retry\",\"payload\":\x7b\"ticket_id\":\"t1\"\x7d\x7d") := by
  refine (octets_of_ticket "retry" (text "t1") (by decide)).trans ?_
  rw [octets_ofList]
  decide

theorem encoded_reconcileResume :
    (reconcileResume ⟨text "t1", unpaired_text _⟩).encoded = some (octets
      "\x7b\"method\":\"reconcile-resume\",\"payload\":\x7b\"ticket_id\":\"t1\"\x7d\x7d") := by
  refine (octets_of_ticket "reconcile-resume" (text "t1") (by decide)).trans ?_
  rw [octets_ofList]
  decide

/-- A retry and a reconciliation of one ticket, with the digests of their texts. -/
theorem retry_resume_separated :
    letI : Sha256 := ⟨fun raw =>
      if raw = octets "\x7b\"method\":\"retry\",\"payload\":\x7b\"ticket_id\":\"t1\"\x7d\x7d"
      then "92c34673d76cee8e59d032033b267ee84f2afa08b7de4887b538c3fc8fd75c8e"
      else "ccdf5ca16948d7e3c650d6bf774b64c0af72756586f2603c890ed3ce62eb341f"⟩
    ((retry ⟨text "t1", unpaired_text _⟩ false).fingerprint
        = (reconcileResume ⟨text "t1", unpaired_text _⟩).fingerprint →
      retry ⟨text "t1", unpaired_text _⟩ false = reconcileResume ⟨text "t1", unpaired_text _⟩)
      ↔ ¬ Clash (retry ⟨text "t1", unpaired_text _⟩ false)
        (reconcileResume ⟨text "t1", unpaired_text _⟩) := by
  refine @fingerprint_separates_iff (_) _ _ ?_
  rw [encoded_retry, encoded_reconcileResume]
  rintro _ ⟨⟩ _ ⟨⟩ hdigest
  exact absurd hdigest (by decide)

/-- An automatic reconciliation without a target and one onto the text `<auto>` have one
    fingerprint, whatever the digest. -/
theorem auto_target_collides : ∃ a b : OperatorCall,
    (∀ digest : List UInt8 → String,
      letI : Sha256 := ⟨digest⟩
      a.fingerprint = b.fingerprint) ∧ a ≠ b := by
  let a : OperatorCall := .reconcileAuto ⟨text "t1", unpaired_text _⟩ none
  let b : OperatorCall :=
    .reconcileAuto ⟨text "t1", unpaired_text _⟩ (some ⟨text "<auto>", unpaired_text _⟩)
  have hclash : Clash a b := ⟨rfl, .inl ⟨rfl, rfl⟩⟩
  refine ⟨a, b, fun digest => ?_, hclash.ne⟩
  exact congrArg (·.map digest) hclash.encoded_eq

end OperatorCall

end Wire

end Devlegate
