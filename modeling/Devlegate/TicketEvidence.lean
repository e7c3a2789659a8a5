import Devlegate.StatusAttempt
import Devlegate.Lib.Git
import Mathlib.Data.List.Basic

namespace Devlegate

open Git JsonText

/-!
# The committed text of an active ticket

An execution keeps the body of its ticket as it was read when the execution was admitted.  Before a
later control commit may stand for the admitted one, the ticket file is read again from both commits,
and the body is cut out of the committed text a second time: behind the second of all delimiter
lines, where `splitTicket` looks for the first one behind the opening line.

* `ControlObjects`: what the control checkout answers about its commits.
* `activeTicketBody` / `proveBoundTicketDescendant`: the body cut out of the text, and the proof.
* `activeTicketBody_of_splitTicket`: both cut at the same line.
* `proveBoundTicketDescendant_eq_ok`: exactly what the proof accepts.
-/

/-! ### The proof -/

/-- The commits of the control checkout, and what `git show commit:path` prints; none where the
    command fails. -/
structure ControlObjects where
  graph : CommitGraph
  shown : String → String → Option (List UInt8)

/-- What ends a proof. -/
inductive ProofRefused where
  | workflowBlocked (message : String)
  | unicodeDecode
  deriving DecidableEq, Repr

/-- `git show commit:path` with `text=True`. -/
def ControlObjects.showText (objects : ControlObjects) (commit path : String) :
    Except ProofRefused (Option String) :=
  match objects.shown commit path with
  | none => .ok none
  | some raw =>
    match readText raw with
    | some text => .ok (some text)
    | none => .error .unicodeDecode

/-- A line that holds three hyphens and its end. -/
def isDelimiter (line : List Char) : Bool := stripLineEnd line = "---".toList

/-- The body cut out of a committed text. -/
def activeTicketBody (text : String) : Option String :=
  let originalLines := splitKeepingEnds [] text.toList
  match originalLines.findIdxs isDelimiter with
  | _ :: second :: _ => some (String.ofList (originalLines.drop (second + 1)).flatten)
  | _ => none

/-- The path of the ticket file in both commits. -/
def originalPath (todoPath ticketId : String) : String := todoPath ++ "/" ++ ticketId ++ ".md"

/-- `_prove_bound_ticket_descendant`. -/
def proveBoundTicketDescendant (objects : ControlObjects)
    (todoPath candidate controlHead ticketId selectedBody : String) : Except ProofRefused Unit := do
  if !objects.graph.isAncestor controlHead candidate then
    throw (.workflowBlocked "control history diverged from the execution admission generation")
  let original ← objects.showText controlHead (originalPath todoPath ticketId)
  let current ← objects.showText candidate (originalPath todoPath ticketId)
  if original.isNone || current.isNone || original != current then
    throw (.workflowBlocked
      "control descendant changed the active ticket; lifecycle replay refused")
  match original.bind activeTicketBody with
  | none => throw (.workflowBlocked "active ticket admission evidence is invalid")
  | some originalBody =>
    if selectedBody ≠ originalBody then
      throw (.workflowBlocked "persisted active ticket body does not match admission")

/-! ### Both ways to cut -/

/-- Of the lines behind the opening one, those up to the first delimiter go. -/
theorem drop_findIdxs_cons {lines : List (List Char)} {start second : Nat} {others : List Nat}
    (h : lines.findIdxs isDelimiter start = second :: others) :
    start ≤ second
      ∧ lines.drop (second - start + 1) = (lines.dropWhile fun line => !isDelimiter line).tail := by
  induction lines generalizing start with
  | nil => simp at h
  | cons line lines ih =>
    rw [List.findIdxs_cons] at h
    by_cases hline : isDelimiter line = true
    · rw [if_pos hline] at h
      obtain ⟨rfl, -⟩ := List.cons.inj h
      simp [hline]
    · rw [if_neg hline] at h
      obtain ⟨hle, hdrop⟩ := ih h
      refine ⟨by omega, ?_⟩
      have hnext : second - start + 1 = (second - (start + 1) + 1) + 1 := by omega
      rw [hnext, List.drop_succ_cons, hdrop]
      simp [hline]

/-- **Both splitters agree.** Where `splitTicket` finds a body, the second delimiter line of the
    whole text stands before the same body. -/
theorem activeTicketBody_of_splitTicket {text metadata body : String}
    (h : splitTicket text = .ok (metadata, body)) : activeTicketBody text = some body := by
  unfold splitTicket at h
  unfold activeTicketBody
  split at h
  · cases h
  rename_i first lines hlines
  split at h
  · cases h
  rename_i hfirst
  split at h
  · cases h
  rename_i closing rest hrest
  have hopening : isDelimiter first = true := by simpa [isDelimiter] using hfirst
  have hpred : (fun line => decide (stripLineEnd line ≠ "---".toList))
      = fun line => !isDelimiter line := by
    ext line
    simp [isDelimiter]
  rw [hpred] at hrest
  simp only at h
  split at h
  · cases h
  obtain ⟨-, rfl⟩ := Prod.mk.inj (Except.ok.inj h)
  -- The closing line is a delimiter, so the indices behind the opening one are not empty.
  have hclosing : isDelimiter closing = true := by
    have hhead := @List.head_dropWhile_not _ (fun line => !isDelimiter line) lines (by simp [hrest])
    simpa [hrest] using hhead
  have hmem : closing ∈ lines := (List.dropWhile_sublist _).subset (by rw [hrest]; simp)
  rw [hlines]
  simp only [List.findIdxs_cons, hopening, if_true]
  cases hindices : lines.findIdxs isDelimiter (0 + 1) with
  | nil =>
    have hnone := List.findIdxs_eq_nil_iff.mp hindices closing hmem
    simp [hclosing] at hnone
  | cons second others =>
    obtain ⟨hle, hdrop⟩ := drop_findIdxs_cons hindices
    have hsecond : second + 1 = (second - (0 + 1) + 1) + 1 := by omega
    simp only
    rw [hsecond, List.drop_succ_cons, hdrop, hrest, List.tail_cons]

/-- The body of a ticket is the one its file is split into. -/
theorem body_of_parseTicket [NanoYaml] {ticketId : String} {state : TicketState}
    {text metadata body : String} {ticket : Ticket}
    (hsplit : splitTicket text = .ok (metadata, body))
    (h : parseTicket ticketId state text = .ok ticket) : ticket.body = body := by
  unfold parseTicket at h
  rw [hsplit] at h
  obtain ⟨parts, hparts, h⟩ := bind_eq_ok.mp h
  cases hparts
  cases hmetadata : NanoYaml.loads metadata with
  | error message => simp [hmetadata, bind, Except.bind] at h
  | ok entries =>
    simp only [hmetadata] at h
    obtain ⟨_, hentries, h⟩ := bind_eq_ok.mp h
    cases hentries
    split at h
    case h_1 => simp [bind, Except.bind] at h
    case h_2 =>
      obtain ⟨-, -, h⟩ := bind_eq_ok.mp h
      obtain ⟨-, h⟩ := require_bind_eq_ok.mp h
      obtain ⟨-, h⟩ := require_bind_eq_ok.mp h
      obtain ⟨-, h⟩ := require_bind_eq_ok.mp h
      obtain ⟨title, -, h⟩ := bind_eq_ok.mp h
      obtain ⟨dependencies, -, h⟩ := bind_eq_ok.mp h
      rw [← Except.ok.inj h]

/-! ### What the proof accepts -/

section Accepted

variable {objects : ControlObjects}
  {todoPath candidate controlHead ticketId selectedBody : String}

/-- **What the proof accepts.** The admitted commit is an ancestor of the candidate, both show the
    same text of the ticket file, and the body cut out of it is the persisted one. -/
theorem proveBoundTicketDescendant_eq_ok :
    proveBoundTicketDescendant objects todoPath candidate controlHead ticketId selectedBody = .ok ()
      ↔ objects.graph.isAncestor controlHead candidate = true
        ∧ ∃ text, objects.showText controlHead (originalPath todoPath ticketId) = .ok (some text)
          ∧ objects.showText candidate (originalPath todoPath ticketId) = .ok (some text)
          ∧ activeTicketBody text = some selectedBody := by
  unfold proveBoundTicketDescendant
  cases hancestor : objects.graph.isAncestor controlHead candidate with
  | false => simp [bind, Except.bind, throw, throwThe, MonadExceptOf.throw]
  | true =>
    simp only [Bool.not_true, Bool.false_eq_true, if_false, true_and]
    constructor
    · intro h
      obtain ⟨original, horiginal, h⟩ := bind_eq_ok.mp h
      obtain ⟨current, hcurrent, h⟩ := bind_eq_ok.mp h
      split at h
      · cases h
      rename_i hsame
      simp only [Bool.or_eq_true, bne_iff_ne, not_or, not_not, Option.isNone_iff_eq_none] at hsame
      obtain ⟨⟨hsome, -⟩, rfl⟩ := hsame
      obtain ⟨text, rfl⟩ := Option.ne_none_iff_exists'.mp hsome
      refine ⟨text, horiginal, hcurrent, ?_⟩
      simp only [Option.bind_some] at h
      cases hbody : activeTicketBody text with
      | none => simp [hbody, throw, throwThe, MonadExceptOf.throw] at h
      | some originalBody =>
        rw [hbody] at h
        by_cases hselected : selectedBody = originalBody
        · rw [hselected]
        · simp [hselected, throw, throwThe, MonadExceptOf.throw] at h
    · rintro ⟨text, horiginal, hcurrent, hbody⟩
      simp [horiginal, hcurrent, hbody, bind, Except.bind, pure, Except.pure]

/-- Where the texts can be read, only a blocked workflow is reported. -/
theorem proveBoundTicketDescendant_blocked {original current : Option String}
    (horiginal : objects.showText controlHead (originalPath todoPath ticketId) = .ok original)
    (hcurrent : objects.showText candidate (originalPath todoPath ticketId) = .ok current)
    (h : proveBoundTicketDescendant objects todoPath candidate controlHead ticketId selectedBody
      ≠ .ok ()) :
    ∃ message, proveBoundTicketDescendant objects todoPath candidate controlHead ticketId
      selectedBody = .error (.workflowBlocked message) := by
  revert h
  unfold proveBoundTicketDescendant
  simp only [horiginal, hcurrent, bind, Except.bind, throw, throwThe, MonadExceptOf.throw,
    pure, Except.pure]
  by_cases hancestor : objects.graph.isAncestor controlHead candidate = true
  case neg => simp [hancestor]
  case pos =>
    simp only [hancestor, Bool.not_true, Bool.false_eq_true, if_false]
    split
    case isTrue => simp
    case isFalse =>
      cases original.bind activeTicketBody with
      | none => simp
      | some originalBody =>
        by_cases hselected : selectedBody = originalBody
        · simp [hselected]
        · simp [hselected]

/-- **An unchanged ticket is proved, a changed one refused.** For a ticket file that the loader
    splits, the body cut out of the committed text is the body of the ticket.  Where the admitted
    commit shows this text, the proof succeeds for a later commit exactly if that one shows the same
    text and the persisted body is this body; otherwise the workflow is blocked. -/
theorem boundTicketProof [NanoYaml] {text metadata body : String}
    (hsplit : splitTicket text = .ok (metadata, body)) :
    activeTicketBody text = some body
      ∧ (∀ {ticketId : String} {state : TicketState} {ticket : Ticket},
          parseTicket ticketId state text = .ok ticket → ticket.body = body)
      ∧ ∀ {objects : ControlObjects} {todoPath candidate controlHead ticketId : String}
          {current : Option String},
          objects.showText controlHead (originalPath todoPath ticketId) = .ok (some text) →
          objects.showText candidate (originalPath todoPath ticketId) = .ok current →
          ∀ selectedBody,
            (objects.graph.isAncestor controlHead candidate = true ∧ current = some text
                ∧ selectedBody = body →
              proveBoundTicketDescendant objects todoPath candidate controlHead ticketId
                selectedBody = .ok ())
            ∧ (current ≠ some text ∨ selectedBody ≠ body →
              ∃ message, proveBoundTicketDescendant objects todoPath candidate controlHead ticketId
                selectedBody = .error (.workflowBlocked message)) := by
  have hbody := activeTicketBody_of_splitTicket hsplit
  refine ⟨hbody, body_of_parseTicket hsplit, ?_⟩
  intro objects todoPath candidate controlHead ticketId current horiginal hcurrent selectedBody
  constructor
  · rintro ⟨hancestor, rfl, rfl⟩
    exact proveBoundTicketDescendant_eq_ok.mpr ⟨hancestor, text, horiginal, hcurrent, hbody⟩
  · intro hchanged
    apply proveBoundTicketDescendant_blocked horiginal hcurrent
    intro hok
    obtain ⟨-, text', horiginal', hcurrent', hbody'⟩ := proveBoundTicketDescendant_eq_ok.mp hok
    obtain rfl : text = text' := by simpa [horiginal] using horiginal'
    obtain rfl : current = some text := by simpa [hcurrent] using hcurrent'
    obtain rfl : body = selectedBody := by simpa [hbody] using hbody'
    simp at hchanged

end Accepted

/-- A control history of one commit with one ticket, whose body holds further delimiter lines. -/
def notedObjects : ControlObjects where
  graph := ⟨fun _ => [], fun _ => 0, by simp⟩
  shown _ path :=
    if path = "todo/alpha.md" then some (octets "---\ntype: x\n---\none\n---\ntwo") else none

theorem boundTicketProof_noted :
    activeTicketBody "---\ntype: x\n---\none\n---\ntwo" = some "one\n---\ntwo"
      ∧ proveBoundTicketDescendant notedObjects "todo" "c" "c" "alpha" "one\n---\ntwo" = .ok () := by
  let _ : NanoYaml := ⟨fun _ => .ok []⟩
  have hproof := @boundTicketProof _ "---\ntype: x\n---\none\n---\ntwo" "type: x\n"
    "one\n---\ntwo" (by decide)
  have hshown : notedObjects.showText "c" (originalPath "todo" "alpha")
      = .ok (some "---\ntype: x\n---\none\n---\ntwo") := by decide
  exact ⟨hproof.1, (hproof.2.2 hshown hshown _).1 ⟨by decide, rfl, rfl⟩⟩

end Devlegate
