import Devlegate.ReportDict
import Devlegate.WorkerSupervisor
import Devlegate.Lib.JsonTexts

namespace Devlegate

open JsonText

/-!
# Execution reports as text

`ExecutionReport.to_json` and what the files of a report hold when they are read again.

* `Wire.ExecutionReport.toJson`: the dictionary in the indented style, with its keys in order.
* `translateNewlines`: what `read_text` makes of line ends.
* `BuiltReport`: a report that is built from the claim of decoded events.
* `BuiltReport.fromJson`: the text of such a report is decoded to the report.
-/

/-! ### Text files -/

/-- What universal newlines make of a text. -/
def translateNewlines : Text → Text
  | [] => []
  | [c] => if c = codePoint '\r' then [codePoint '\n'] else [c]
  | c :: d :: rest =>
    if c = codePoint '\r' then
      if d = codePoint '\n' then codePoint '\n' :: translateNewlines rest
      else codePoint '\n' :: translateNewlines (d :: rest)
    else c :: translateNewlines (d :: rest)

theorem translateNewlines_eq_self {s : Text} (h : codePoint '\r' ∉ s) : translateNewlines s = s := by
  fun_induction translateNewlines s with
  | case1 => rfl
  | case2 => simp at h
  | case3 c hc => rfl
  | case4 rest ih => simp at h
  | case5 d rest hd ih => simp at h
  | case6 c d rest hc ih =>
    rw [ih fun hmem => h (List.mem_cons_of_mem _ hmem)]

/-- A translated text holds no carriage return. -/
theorem not_mem_translateNewlines (s : Text) : codePoint '\r' ∉ translateNewlines s := by
  have hne : codePoint '\r' ≠ codePoint '\n' := by decide
  fun_induction translateNewlines s with
  | case1 => simp
  | case2 => simpa using hne
  | case3 c hc => simpa [eq_comm] using hc
  | case4 rest ih => simpa [hne] using ih
  | case5 d rest hd ih => simpa [hne] using ih
  | case6 c d rest hc ih =>
    rw [List.mem_cons, not_or]
    exact ⟨fun heq => hc heq.symm, ih⟩

theorem translateNewlines_eq_iff {s : Text} : translateNewlines s = s ↔ codePoint '\r' ∉ s := by
  constructor
  · intro h
    rw [← h]
    exact not_mem_translateNewlines s
  · exact translateNewlines_eq_self

namespace Wire

/-! ### The text of a report -/

/-- `ExecutionReport.to_json`. -/
def ExecutionReport.toJson (limits : Limits) (report : ExecutionReport) : Except LoadError Text := do
  let s ← dumps limits indented report.asDict
  return s ++ [codePoint '\n']

section Sorted

variable {fields sorted : List (Text × Json)}

theorem sortKeys_ofOptional (x : Option Text) : sortKeys (ofOptional x) = ofOptional x := by
  cases x <;> rfl

theorem sortKeys_ofTexts (xs : List Text) : sortKeys (ofTexts xs) = ofTexts xs := by
  unfold ofTexts
  rw [sortKeys, sortItems_eq, List.map_map]
  rfl

/-- A condition on all keys does not depend on their order. -/
theorem all_keys_sorted (hkeys : (sorted.map (·.1)).Perm (fields.map (·.1))) (p : Text → Bool) :
    sorted.all (fun f => p f.1) = fields.all fun f => p f.1 := by
  have hmap := hkeys.all_eq (f := p)
  rw [List.all_map, List.all_map] at hmap
  exact hmap

theorem knownFields_sorted (hkeys : (sorted.map (·.1)).Perm (fields.map (·.1)))
    (hget : ∀ key, getField sorted key = (getField fields key).map sortKeys) :
    knownFields sorted = knownFields fields := by
  unfold knownFields
  have hall := all_keys_sorted hkeys fun key =>
    (requiredFields ++ optionalFields).any fun name => text name == key
  rw [hall]
  simp [hget]

theorem exactFields_sorted (hkeys : (sorted.map (·.1)).Perm (fields.map (·.1))) :
    exactFields sorted = exactFields fields := by
  unfold exactFields
  have hcontains : ∀ key, (sorted.map Prod.fst).contains key = (fields.map Prod.fst).contains key := by
    intro key
    rw [Bool.eq_iff_iff, List.contains_iff_mem, List.contains_iff_mem]
    exact hkeys.mem_iff
  have hall := hkeys.all_eq (f := fun key => (claimFields ++ ["report"]).any fun name => key == text name)
  simp only [hcontains]
  rw [hall]

/-- A text or `None` is the same in order. -/
theorem optionalText_sorted {name : String} {x : Option Text}
    (hget : ∀ key, getField sorted key = (getField fields key).map sortKeys)
    (h : getField fields name = some (ofOptional x)) :
    optionalText (getField sorted name) = some x := by
  rw [hget, h, Option.map_some, sortKeys_ofOptional]
  exact optionalText_ofOptional x

/-- The claim of a report with its keys in order. -/
theorem claimValue_sorted {good : Text → Prop} {claim : WorkerClaim}
    (h : Plain good (.obj (claimMembers claim))) :
    ValidArguments (some (sortKeys (.obj (claimMembers claim)))) claim := by
  obtain ⟨sorted, hsorted, hkeys, hget⟩ := exists_sortKeys_obj h
  obtain ⟨fields, hfields, hexact, houtcome, hsummary, hremaining, hquestions, -⟩ :=
    validArguments_claimMembers claim
  cases hfields
  refine ⟨sorted, by rw [hsorted], by rw [exactFields_sorted hkeys]; exact hexact, ?_, ?_, ?_, ?_,
    optionalText_eq_some.mp (optionalText_sorted hget rfl)⟩
  · rw [hget, houtcome]
    rfl
  · rw [hget, hsummary]
    rfl
  · rw [hget, hremaining]
    exact congrArg some (sortKeys_ofTexts _)
  · rw [hget, hquestions]
    exact congrArg some (sortKeys_ofTexts _)

/-- The members of a report, in order, say its parts. -/
theorem dictOf_sorted {good : Text → Prop} {report : ExecutionReport}
    (h : Plain good report.asDict) (hexecution : isIdentifier report.executionId = true)
    (hticket : isIdentifier report.ticketId = true) :
    ∃ sorted, sortKeys report.asDict = .obj sorted ∧ DictOf sorted report := by
  obtain ⟨sorted, hsorted, hkeys, hget⟩ := exists_sortKeys_obj h
  have hdict := dictOf_members hexecution hticket
  have hkeep : ∀ {name : String} {value : Json}, getField report.members name = some value →
      getField sorted name = some (sortKeys value) := by
    intro name value hvalue
    rw [hget, hvalue]
    rfl
  have htexts : ∀ {name : String} {xs : List Text}, getField report.members name = some (ofTexts xs) →
      getField sorted name = some (ofTexts xs) := by
    intro name xs hxs
    rw [hkeep hxs, sortKeys_ofTexts]
  refine ⟨sorted, hsorted, ?_⟩
  exact {
    known := by rw [knownFields_sorted hkeys hget]; exact hdict.known
    schema := hkeep hdict.schema
    identity := ⟨hkeep hdict.identity.executionId, hkeep hdict.identity.ticketId,
      hkeep hdict.identity.codeBaseHead, hkeep hdict.identity.controlHead,
      hkeep hdict.identity.executionBranch, hkeep hdict.identity.executionPath,
      hkeep hdict.identity.reason, hexecution, hticket, optionalText_sorted hget rfl⟩
    reportArtifact := optionalText_sorted hget rfl
    reportSha256 := optionalText_sorted hget rfl
    process := by
      refine ⟨hkeep hdict.process.processReturncode, by rw [hkeep rfl]; rfl,
        optionalText_sorted hget rfl, optionalText_sorted hget rfl,
        hkeep hdict.process.transportOk, ?_⟩
      have hclaim : getField report.members "worker_claim"
          = some ((report.result.claim.map fun claim => .obj (claimMembers claim)).getD .null) := rfl
      show ClaimValue (getField sorted "worker_claim") report.result.claim
      rw [hkeep hclaim]
      cases hvalue : report.result.claim with
      | none => exact .inr rfl
      | some claim =>
        refine @claimValue_sorted good claim ?_
        rw [hvalue] at hclaim
        cases h with
        | obj hnodup _ hvalues => exact hvalues _ ((lookup_eq_some_iff_mem hnodup).mp hclaim)
    result := ⟨hkeep hdict.result.egressOk, hkeep hdict.result.conclusion, htexts rfl, htexts rfl⟩ }

end Sorted

/-! ### What a report is written from -/

/-- Every text of a report can be written and read. -/
structure ExecutionReport.Readable (report : ExecutionReport) : Prop where
  own : ∀ s ∈ [report.executionId, report.ticketId, report.codeBaseHead, report.controlHead,
    report.executionBranch, report.executionPath, report.result.reason], Unpaired s
  optional : ∀ x ∈ [report.workspaceHead, report.result.transportError, report.result.egressError,
    report.reportArtifact, report.reportSha256], ∀ s ∈ x, Unpaired s
  lists : ∀ s ∈ report.result.questions ++ report.result.remaining, Unpaired s
  claim : ∀ claim ∈ report.result.claim, Unpaired claim.summary
    ∧ (∀ s ∈ claim.questions ++ claim.remaining, Unpaired s) ∧ ∀ s ∈ claim.report, Unpaired s

section Plain

variable {good : Text → Prop}

theorem plain_ofOptional {x : Option Text} (h : ∀ s ∈ x, good s) : Plain good (ofOptional x) := by
  cases x with
  | none => exact .null
  | some s => exact .str (h s rfl)

theorem plain_ofTexts {xs : List Text} (h : ∀ s ∈ xs, good s) : Plain good (ofTexts xs) := by
  refine .arr fun item hitem => ?_
  obtain ⟨s, hs, rfl⟩ := List.mem_map.mp hitem
  exact .str (h s hs)

end Plain

theorem plain_claimMembers {claim : WorkerClaim} (hsummary : Unpaired claim.summary)
    (hlists : ∀ s ∈ claim.questions ++ claim.remaining, Unpaired s)
    (hreport : ∀ s ∈ claim.report, Unpaired s) : Plain Unpaired (.obj (claimMembers claim)) := by
  have hkeys : (["outcome", "summary", "remaining", "questions", "report"].map text).Nodup := by
    decide
  refine .obj hkeys ?_ ?_
  · simp only [claimMembers, List.forall_mem_cons, List.not_mem_nil, false_implies, implies_true,
      and_true]
    exact ⟨unpaired_text _, unpaired_text _, unpaired_text _, unpaired_text _, unpaired_text _⟩
  · simp only [claimMembers, List.forall_mem_cons, List.not_mem_nil, false_implies, implies_true,
      and_true]
    exact ⟨.str (unpaired_text _), .str hsummary,
      plain_ofTexts fun s hs => hlists s (List.mem_append_right _ hs),
      plain_ofTexts fun s hs => hlists s (List.mem_append_left _ hs), plain_ofOptional hreport⟩

/-- The dictionary of a report with readable texts. -/
theorem ExecutionReport.Readable.plain {report : ExecutionReport} (h : report.Readable) :
    Plain Unpaired report.asDict := by
  have hown := h.own
  have hoptional := h.optional
  simp only [List.forall_mem_cons, List.not_mem_nil, false_implies, implies_true, and_true]
    at hown hoptional
  obtain ⟨hexecution, hticket, hbase, hcontrol, hbranch, hpath, hreason⟩ := hown
  obtain ⟨hhead, htransport, hegress, hartifact, hdigest⟩ := hoptional
  refine .obj (nodup_members report) ?_ ?_
  · intro f hf
    simp only [ExecutionReport.members, List.mem_cons, List.not_mem_nil, or_false] at hf
    rcases hf with hf | hf | hf | hf | hf | hf | hf | hf | hf | hf | hf | hf | hf | hf | hf | hf |
      hf | hf | hf | hf | hf <;> exact hf ▸ unpaired_text _
  · have hclaim : Plain Unpaired
        ((report.result.claim.map fun claim => .obj (claimMembers claim)).getD .null) := by
      cases hvalue : report.result.claim with
      | none => exact .null
      | some claim =>
        obtain ⟨hsummary, hlists, hreport⟩ := h.claim claim hvalue
        exact plain_claimMembers hsummary hlists hreport
    simp only [ExecutionReport.members, List.forall_mem_cons, List.not_mem_nil, false_implies,
      implies_true, and_true]
    exact ⟨.str (unpaired_text _), .str hexecution, .str hticket, .str hbase, .str hcontrol,
      .str hbranch, .str hpath, plain_ofOptional hhead, .int _, .bool _, plain_ofOptional htransport,
      .bool _, plain_ofOptional hegress, .bool _, hclaim, .str (unpaired_text _),
      plain_ofTexts fun s hs => h.lists s (List.mem_append_left _ hs),
      plain_ofTexts fun s hs => h.lists s (List.mem_append_right _ hs), .str hreason,
      plain_ofOptional hartifact, plain_ofOptional hdigest⟩

/-! ### Accepted claims -/

/-- The egress parser accepts the claim from events that were decoded from a worker's output. -/
def Accepted (claim : WorkerClaim) : Prop :=
  ∃ events, (∀ event ∈ events, ∃ raw, loads defaultLimits raw = .ok event)
    ∧ (WorkerEgressParser.consumeAll {} events).finish = (some claim, none)

section Claim

variable {good : Text → Prop} {fields : List (Text × Json)} {value : Json}

theorem texts_lookup {key : Text} (h : ∀ f ∈ fields, Texts good f.2)
    (hlookup : fields.lookup key = some value) : Texts good value := by
  induction fields with
  | nil => cases hlookup
  | cons f fields ih =>
    rw [List.forall_mem_cons] at h
    rw [List.lookup_cons] at hlookup
    split at hlookup
    · cases hlookup
      exact h.1
    · exact ih h.2 hlookup

theorem texts_getField {name : String} (h : Texts good (.obj fields))
    (hget : getField fields name = some value) : Texts good value := by
  cases h with
  | obj h => exact texts_lookup h hget

theorem texts_str {s : Text} (h : Texts good (.str s)) : good s := by
  cases h with
  | str h => exact h

theorem texts_arr {xs : List Text} (h : Texts good (.arr (xs.map .str))) : ∀ s ∈ xs, good s := by
  cases h with
  | arr h => exact fun s hs => texts_str (h _ (List.mem_map.mpr ⟨s, hs, rfl⟩))

/-- The part of a report event is the object under its key `part`. -/
theorem part_of_reportPart {event : Json} {part : List (Text × Json)}
    (h : reportPart event = some part) :
    ∃ fields, event = .obj fields ∧ getField fields "part" = some (.obj part) := by
  unfold reportPart at h
  split at h
  · rename_i fields
    split at h
    · split at h
      · rename_i other hpart
        split at h
        · cases h
          exact ⟨fields, rfl, asObj_eq_some.mp hpart⟩
        · cases h
      · cases h
    · cases h
  · cases h

/-- No text of an accepted claim holds a pair of surrogates. -/
theorem Accepted.unpaired {claim : WorkerClaim} (h : Accepted claim) :
    Unpaired claim.summary ∧ (∀ s ∈ claim.questions ++ claim.remaining, Unpaired s)
      ∧ ∀ s ∈ claim.report, Unpaired s := by
  obtain ⟨events, hdecoded, hfinish⟩ := h
  obtain ⟨event, hevent, part, state, hpart, -, hstate, -, arguments, hinput, -, -, hsummary,
    hremaining, hquestions, hreport⟩ := WorkerEgressParser.finish_consumeAll_iff.mp hfinish
  have hmem : event ∈ events := by
    have hfiltered : event ∈ events.filter isReportEvent := by
      rw [hevent]
      exact List.mem_singleton_self event
    exact (List.mem_filter.mp hfiltered).1
  obtain ⟨raw, hraw⟩ := hdecoded event hmem
  obtain ⟨fields, rfl, hfields⟩ := part_of_reportPart hpart
  have hstateTexts := texts_getField (texts_getField (texts_loads hraw) hfields) hstate
  have hinputTexts := texts_getField hstateTexts hinput
  refine ⟨texts_str (texts_getField hinputTexts hsummary), ?_, ?_⟩
  · intro s hs
    rcases List.mem_append.mp hs with hs | hs
    · exact texts_arr (texts_getField hinputTexts hquestions) s hs
    · exact texts_arr (texts_getField hinputTexts hremaining) s hs
  · intro s hs
    rw [Option.mem_def.mp hs] at hreport
    exact texts_str (texts_getField hinputTexts hreport)

end Claim

/-! ### Reports that were built -/

section Canonical

variable {returncode : Int} {transport egress : Option Text} {claim : Option WorkerClaim}
  {started : Bool} {conclusion : Conclusion} {reason : Text}

theorem unpaired_orText {x : Option Text} (h : ∀ s ∈ x, Unpaired s) (default : String) :
    Unpaired (orText x default) := by
  unfold orText
  split
  · rename_i s
    split
    · exact unpaired_text default
    · exact h s rfl
  · exact unpaired_text default

/-- The reason is a text of Devlegate, with an error text at its end at most. -/
theorem unpaired_reason (htransport : ∀ s ∈ transport, Unpaired s) (hegress : ∀ s ∈ egress, Unpaired s)
    (h : canonicalResult returncode transport egress claim started = .ok (conclusion, reason)) :
    Unpaired reason := by
  unfold canonicalResult at h
  split at h
  · cases h
  split at h
  · cases h
    exact .append (fun _ => isSurrogate_of_mem_text) (unpaired_orText htransport _)
  split at h
  · cases h
    exact unpaired_text _
  split at h
  · cases h
    exact unpaired_text _
  split at h
  · cases h
    exact htransport _ rfl
  · split at h
    · cases h
      exact unpaired_text _
    · cases h
      exact unpaired_orText hegress _

end Canonical

theorem isSurrogate_of_mem_identifier {s : Text} (h : isIdentifier s = true) :
    ∀ c ∈ s, isSurrogate c = false := by
  unfold isIdentifier at h
  split at h
  · cases h
  · rename_i first rest
    rw [Bool.and_eq_true, List.all_eq_true] at h
    obtain ⟨hfirst, hrest⟩ := h
    rw [List.forall_mem_cons]
    refine ⟨isSurrogate_of_mem_text (List.contains_iff_mem.mp hfirst), fun c hc => ?_⟩
    rcases List.mem_append.mp (List.contains_iff_mem.mp (hrest c hc)) with hmem | hmem
    · exact isSurrogate_of_mem_text hmem
    · exact isSurrogate_of_mem_text hmem

/-- A report that `build_execution_report` returns for a run whose claim the egress parser
    accepted. -/
structure BuiltReport [Sha256] where
  identity : Identity
  run : RunResult
  report : ExecutionReport
  executionIdentifier : isIdentifier identity.executionId = true
  ticketIdentifier : isIdentifier identity.ticketId = true
  /-- Bytes of a path or a message that are no UTF-8 stand as low surrogates. -/
  own : ∀ s ∈ [identity.codeBaseHead, identity.controlHead, identity.executionBranch,
    identity.executionPath], Unpaired s
  optional : ∀ x ∈ [identity.workspaceHead, run.transportError, run.egressError],
    ∀ s ∈ x, Unpaired s
  /-- An exit status, or a signal's number negated. -/
  status : run.processReturncode.natAbs < 2 ^ 32
  accepted : ∀ claim ∈ run.claim, Accepted claim
  built : buildExecutionReport identity run = .ok report

namespace BuiltReport

variable [Sha256] (r : BuiltReport)

theorem consistent : r.report.Consistent := (consistent_of_build r.built).1

theorem identity_eq : r.report.toIdentity = r.identity := (consistent_of_build r.built).2

theorem run_eq : r.report.result.run = r.run := by
  have h := r.built
  unfold buildExecutionReport buildExecutionResult at h
  simp only [bind_eq_ok] at h
  obtain ⟨result, ⟨⟨conclusion, reason⟩, -, hresult⟩, digest, -, h⟩ := h
  rw [← Except.ok.inj h, ← Except.ok.inj hresult]
  rfl

theorem isIdentifier_executionId : isIdentifier r.report.executionId = true := by
  rw [r.identity_eq]
  exact r.executionIdentifier

theorem isIdentifier_ticketId : isIdentifier r.report.ticketId = true := by
  rw [r.identity_eq]
  exact r.ticketIdentifier

theorem accepted_claim : ∀ claim ∈ r.report.result.claim, Accepted claim := by
  have hclaim : r.report.result.claim = r.run.claim := congrArg RunResult.claim r.run_eq
  rw [hclaim]
  exact r.accepted

/-- The artifact and the digest hold no surrogate. -/
theorem unpaired_binding : (∀ s ∈ r.report.reportArtifact, Unpaired s)
    ∧ ∀ s ∈ r.report.reportSha256, Unpaired s := by
  have hdigest := r.consistent.digest
  rw [r.consistent.artifact]
  refine ⟨?_, ?_⟩
  · intro s hs
    obtain ⟨long, -, rfl⟩ := Option.map_eq_some_iff.mp (Option.mem_def.mp hs)
    have hplain : ∀ c ∈ artifactPath r.report.ticketId r.report.executionId,
        isSurrogate c = false := by
      intro c hc
      unfold artifactPath at hc
      simp only [List.mem_append] at hc
      rcases hc with (((hc | hc) | hc) | hc) | hc
      · exact isSurrogate_of_mem_text hc
      · exact isSurrogate_of_mem_identifier r.isIdentifier_ticketId c hc
      · exact isSurrogate_of_mem_text hc
      · exact isSurrogate_of_mem_identifier r.isIdentifier_executionId c hc
      · exact isSurrogate_of_mem_text hc
    exact unpaired_of_noSurrogate hplain
  · unfold digestOf at hdigest
    obtain ⟨digest, -, hdigest⟩ := bind_eq_ok.mp hdigest
    intro s hs
    rw [← Except.ok.inj hdigest] at hs
    obtain ⟨hex, -, rfl⟩ := Option.map_eq_some_iff.mp (Option.mem_def.mp hs)
    exact unpaired_text hex

theorem readable : r.report.Readable := by
  have hown := r.own
  have hoptional := r.optional
  simp only [List.forall_mem_cons, List.not_mem_nil, false_implies, implies_true, and_true]
    at hown hoptional
  obtain ⟨hbase, hcontrol, hbranch, hpath⟩ := hown
  obtain ⟨hhead, htransport, hegress⟩ := hoptional
  obtain ⟨hartifact, hdigest⟩ := r.unpaired_binding
  have hclaim := fun claim hmem => (r.accepted_claim claim hmem).unpaired
  have hidentity := r.identity_eq
  have hrun := r.run_eq
  have htransport' : ∀ s ∈ r.report.result.transportError, Unpaired s := by
    rw [← hrun] at htransport
    exact htransport
  have hegress' : ∀ s ∈ r.report.result.egressError, Unpaired s := by
    rw [← hrun] at hegress
    exact hegress
  rw [← hidentity] at hbase hcontrol hbranch hpath hhead
  refine ⟨?_, ?_, ?_, hclaim⟩
  · simp only [List.forall_mem_cons, List.not_mem_nil, false_implies, implies_true, and_true]
    exact ⟨unpaired_of_noSurrogate (isSurrogate_of_mem_identifier r.isIdentifier_executionId),
      unpaired_of_noSurrogate (isSurrogate_of_mem_identifier r.isIdentifier_ticketId), hbase, hcontrol,
      hbranch, hpath, unpaired_reason htransport' hegress' r.consistent.canonical⟩
  · simp only [List.forall_mem_cons, List.not_mem_nil, false_implies, implies_true, and_true]
    exact ⟨hhead, htransport', hegress', hartifact, hdigest⟩
  · rw [r.consistent.questions, r.consistent.remaining]
    cases hvalue : r.report.result.claim with
    | none => exact fun s hs => (List.not_mem_nil hs).elim
    | some claim => exact (hclaim claim hvalue).2.1

/-- A report is nested three deep and holds no integer but its exit status. -/
theorem fits_asDict : fits defaultLimits 0 r.report.asDict = true := by
  have hstatus : (dumpNat r.report.result.processReturncode.natAbs).length ≤ 4300 := by
    have hvalue : r.report.result.processReturncode = r.run.processReturncode :=
      congrArg RunResult.processReturncode r.run_eq
    rw [hvalue]
    unfold dumpNat
    split
    · decide
    · rw [List.length_map, List.length_reverse]
      have hlt : r.run.processReturncode.natAbs < 10 ^ 10 := r.status.trans (by decide)
      exact (Nat.digits_length_le_iff (by decide) _).mpr hlt |>.trans (by decide)
  have htexts : ∀ (depth : Nat) (xs : List Text), depth < 1000 →
      fits defaultLimits depth (ofTexts xs) = true := by
    intro depth xs hdepth
    have hall : (xs.map Json.str).all (fits defaultLimits (depth + 1)) = true := by
      rw [List.all_map, List.all_eq_true]
      exact fun _ _ => rfl
    have hdepth' : depth < defaultLimits.nesting := hdepth
    simp [ofTexts, fits, fitsItems_eq, hall, hdepth']
  have hoptional : ∀ (depth : Nat) (x : Option Text),
      fits defaultLimits depth (ofOptional x) = true := by
    intro depth x
    cases x <;> rfl
  have hopen : ∀ depth < 3, decide (depth < defaultLimits.nesting) = true := by decide
  have hclaim : fits defaultLimits 1
      ((r.report.result.claim.map fun claim => .obj (claimMembers claim)).getD .null) = true := by
    cases r.report.result.claim with
    | none => rfl
    | some claim =>
      show fits defaultLimits 1 (.obj (claimMembers claim)) = true
      simp only [fits, fitsFields, claimMembers, htexts _ _ (show 2 < 1000 by decide), hoptional,
        hopen 1 (by decide), Bool.and_self]
  unfold ExecutionReport.asDict ExecutionReport.members
  simp only [fits, fitsFields, htexts _ _ (show 1 < 1000 by decide), hoptional, hclaim,
    hopen 0 (by decide), Bool.and_self, Bool.and_true, Bool.true_and]
  exact decide_eq_true hstatus

/-- **Report text.** The text of a report that was built can be stored, and what is read back from
    the text is the report. -/
theorem exists_toJson : ∃ json, r.report.toJson defaultLimits = .ok json
    ∧ (∀ c ∈ json, isSurrogate c = false) ∧ translateNewlines json = json
    ∧ ∃ payload, parse defaultLimits json = .ok payload
      ∧ ExecutionReport.fromDict payload = .ok r.report := by
  have hplain : Plain Unpaired r.report.asDict := r.readable.plain
  have hreads : Plain (Reads indented) r.report.asDict := hplain.mono fun _ => reads_indented
  have hdumps : dumps defaultLimits indented r.report.asDict
      = .ok (dump indented 0 (sortKeys r.report.asDict)) := by
    unfold dumps
    rw [if_pos r.fits_asDict]
  have hwritten : ∀ c ∈ dump indented 0 (sortKeys r.report.asDict) ++ [codePoint '\n'],
      IsPrintable c ∨ c = codePoint '\n' := by
    intro c hc
    rcases List.mem_append.mp hc with hc | hc
    · exact forall_mem_dump writes_indented.of hplain.sortKeys 0 c hc
    · exact .inr (List.mem_singleton.mp hc)
  refine ⟨_, by rw [ExecutionReport.toJson, hdumps]; rfl, ?_, ?_, ?_⟩
  · intro c hc
    rcases hwritten c hc with hprint | rfl
    · exact isSurrogate_of_printable hprint
    · decide
  · refine translateNewlines_eq_self fun hmem => ?_
    rcases hwritten _ hmem with hprint | heq
    · exact absurd hprint (by decide)
    · exact absurd heq (by decide)
  · obtain ⟨sorted, hsorted, hdict⟩ := dictOf_sorted hplain r.isIdentifier_executionId r.isIdentifier_ticketId
    refine ⟨_, parse_dumps hreads rfl hdumps ?_, ?_⟩
    · intro c hc
      rw [List.mem_singleton.mp hc]
      decide
    · exact fromDict_eq_ok.mpr ⟨sorted, hsorted, hdict, r.consistent⟩

end BuiltReport

end Wire

end Devlegate
