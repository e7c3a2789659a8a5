import Devlegate.LogReader
import Devlegate.Lib.JsonStyle

namespace Devlegate.Log

open JsonText Lines

/-!
# Following an execution log

`follow_execution` prints the end of the log, opens the log once more, goes to its end and prints
what is appended from there on, until the report of the execution is there and the log has no more.
The writer appends records meanwhile.

* `World.write` / `Follow.turn`: the writer, and one look of the reader at the files.
* `Follow.Faithful`: the printed text is the last records at one moment and all that came later.
* `Follow.Undisturbed`: no record is written between the measure of the tail and the jump to the
  end, and none with a carriage return after it.
* `follow_faithful`: every run whose steps are undisturbed is faithful in every state.
* `FirstRecord.not_faithful`: a record written in between is never printed.
-/

/-- The line ends of `_read_file`, in characters. -/
def textBreaks : Breaks CodePoint where
  cr := ofCode 13
  lf := ofCode 10
  isBreak c := c = ofCode 10 || c = ofCode 13
  lf_isBreak := rfl
  cr_ne_lf := by decide

/-! ### The writer -/

/-- The log of the execution, whether its report is stored, and whether the state says that it is
    running. -/
structure World where
  file : Option (List UInt8)
  reported : Bool
  running : Bool
  deriving DecidableEq, Repr

/-- `_record`, of a message without its last line feeds. -/
def logRecord (timestamp message : Text) : Text :=
  (text "[" ++ timestamp ++ text "] " ++ message.rdropWhile (· = textBreaks.lf)) ++ [textBreaks.lf]

/-- `ExecutionLog.write`: nothing is appended where the record has no octets.  After the report
    nothing is written. -/
def World.write (w : World) (timestamp message : Text) : World :=
  if message = [] ∨ w.reported = true then w
  else
    match w.file, Utf8.encode (logRecord timestamp message) with
    | some content, some octets => { w with file := some (content ++ octets) }
    | _, _ => w

inductive WriterEvent where
  | opened
  | written (timestamp message : Text)
  | published
  | ran (running : Bool)
  deriving DecidableEq, Repr

def WriterEvent.apply (w : World) : WriterEvent → World
  | .opened => { w with file := some (w.file.getD []) }
  | .written timestamp message => w.write timestamp message
  | .published => { w with reported := true }
  | .ran running => { w with running := running }

/-- Before the execution. -/
def World.empty : World := ⟨none, false, false⟩

/-! ### The reader -/

/-- Where the reader stands.  `measured` and `peeked` are inside `_read_file`. -/
inductive Reader where
  | starting
  | checked (terminal : Bool)
  | looked (terminal active : Bool)
  | present
  | measured (size : Nat)
  | peeked (size : Nat) (endsWithNewline : Bool)
  | tailed
  | following (position : Nat)
  | atEnd (position : Nat)
  | draining (position : Nat)
  | returned (code : Nat)
  | raised (e : LogReaderError)
  deriving DecidableEq, Repr

/-- The call has ended. -/
def Reader.finished : Reader → Bool
  | .returned _ | .raised _ => true
  | _ => false

/-- A line as a handle with universal line ends gives it. -/
def universalNewline (line : Text) : Text :=
  if line.getLast? = some textBreaks.lf then
    if line.dropLast.getLast? = some textBreaks.cr then line.dropLast.dropLast ++ [textBreaks.lf]
    else line
  else if line.getLast? = some textBreaks.cr then line.dropLast ++ [textBreaks.lf]
  else line

/-- `handle.readline()` at a position: the line and the octets it took; `none` at the end. -/
def readline (content : List UInt8) (position : Nat) : Option (Option Text × Nat) :=
  match splitLines octetBreaks (content.drop position) with
  | [] => none
  | line :: _ => some ((Utf8.decode line).map universalNewline, line.length)

/-- The state of one call of `follow_execution`. -/
structure Follow where
  world : World
  reader : Reader
  printed : Text
  deriving DecidableEq, Repr

namespace Follow

/-- `print(line)` and on to the next one; at the end `next`. -/
def printLine (path : String) (c : Follow) (position : Nat) (again : Nat → Reader) (next : Reader) :
    Follow :=
  match readline (c.world.file.getD []) position with
  | none => { c with reader := next }
  | some (none, _) => { c with reader := .raised (.cannotRead path) }
  | some (some line, length) =>
    { c with printed := c.printed ++ line, reader := again (position + length) }

/-- The next look of the reader; the waits are left out.  The octets before the measured size are
    read after the last one was looked at: the writer does not change them. -/
def turn (path : String) (lines : Nat) (c : Follow) : Follow :=
  match c.reader with
  | .starting => { c with reader := .checked c.world.reported }
  | .checked terminal => { c with reader := .looked terminal c.world.running }
  | .looked terminal active =>
    if c.world.file.isSome then { c with reader := .present }
    else if terminal then { c with reader := .raised (.logNotFound path) }
    else if active then { c with reader := .starting }
    else { c with reader := .raised .noLongerActive }
  | .present =>
    if lines = 0 ∨ c.world.file.getD [] = [] then { c with reader := .tailed }
    else { c with reader := .measured (c.world.file.getD []).length }
  | .measured size =>
    { c with reader := .peeked size ((c.world.file.getD []).getLast? == some octetBreaks.lf) }
  | .peeked size endsWithNewline =>
    match decodeRecords path
      (readTail ((c.world.file.getD []).take size) endsWithNewline lines) with
    | .ok records => { c with printed := c.printed ++ records.flatten, reader := .tailed }
    | .error e => { c with reader := .raised e }
  | .tailed => { c with reader := .following (c.world.file.getD []).length }
  | .following position => c.printLine path position .following (.atEnd position)
  | .atEnd position =>
    if c.world.reported then { c with reader := .draining position }
    else { c with reader := .following position }
  | .draining position => c.printLine path position .draining (.returned 0)
  | .returned _ | .raised _ => c

/-- What happens next: the writer, the reader or `KeyboardInterrupt`. -/
inductive Event where
  | writer (e : WriterEvent)
  | reader
  | interrupt
  deriving DecidableEq, Repr

def step (path : String) (lines : Nat) (c : Follow) : Event → Follow
  | .writer e => { c with world := e.apply c.world }
  | .reader => c.turn path lines
  | .interrupt => if c.reader.finished then c else { c with reader := .returned 130 }

/-- A run from the call on. -/
def run (path : String) (lines : Nat) (c : Follow) (events : List Event) : Follow :=
  events.foldl (step path lines) c

/-- The call, after the writer did `earlier`. -/
def called (earlier : List WriterEvent) : Follow :=
  ⟨earlier.foldl WriterEvent.apply World.empty, .starting, []⟩

end Follow

/-! ### What a run is to print -/

/-- The last lines of a log. -/
def lastRecords (lines : Nat) (log : Text) : Text := ((splitLines textBreaks log).rtake lines).flatten

/-- The file holds this text. -/
def World.Holds (w : World) (log : Text) : Prop := Utf8.encode log = some (w.file.getD [])

/-- The file held this text at a moment of the run. -/
def Follow.Moment (path : String) (lines : Nat) (start : Follow) (events : List Follow.Event)
    (log : Text) : Prop :=
  ∃ past future, events = past ++ future ∧ (start.run path lines past).world.Holds log

/-- The printed text is the beginning of what is due for one moment of the call: the last records of
    that moment and everything after it.  Where the call has returned it is all of it, and the log
    is never refused as unreadable. -/
def Follow.Faithful (path : String) (lines : Nat) (start : Follow) (events : List Follow.Event) :
    Prop :=
  (∃ before after, start.Moment path lines events before
    ∧ (start.run path lines events).world.Holds (before ++ after)
    ∧ (start.run path lines events).printed <+: lastRecords lines before ++ after
    ∧ ((start.run path lines events).reader = .returned 0 →
      (start.run path lines events).printed = lastRecords lines before ++ after))
  ∧ (start.run path lines events).reader ≠ .raised (.cannotRead path)

/-- The tail is measured, and the position to go on from is not. -/
def Reader.between : Reader → Bool
  | .measured _ | .peeked _ _ | .tailed => true
  | _ => false

/-- The position to go on from is fixed. -/
def Reader.afterTail : Reader → Bool
  | .following _ | .atEnd _ | .draining _ => true
  | _ => false

/-- No record is lost or changed by this step. -/
def Follow.Undisturbed (lines : Nat) (c : Follow) : Follow.Event → Prop
  | .writer (.written timestamp message) =>
    (c.reader.between = true → lines = 0)
      ∧ (c.reader.afterTail = true → textBreaks.cr ∉ logRecord timestamp message)
  | _ => True

/-- Every step of a run is undisturbed. -/
def Follow.UndisturbedRun (path : String) (lines : Nat) : Follow → List Follow.Event → Prop
  | _, [] => True
  | c, e :: events => c.Undisturbed lines e ∧ UndisturbedRun path lines (c.step path lines e) events

/-! ### Octets and characters -/

theorem encode_append {s t : Text} {a b : List UInt8} (hs : Utf8.encode s = some a)
    (ht : Utf8.encode t = some b) : Utf8.encode (s ++ t) = some (a ++ b) := by
  induction s generalizing a with
  | nil =>
    cases hs
    exact ht
  | cons c s ih =>
    obtain ⟨hc, tail, htail, rfl⟩ := Utf8.encode_cons hs
    rw [List.cons_append, Utf8.encode_cons_eq, hc, ih htail, List.append_assoc]
    rfl

theorem exists_encode_of_append {s t : Text} {raw : List UInt8}
    (h : Utf8.encode (s ++ t) = some raw) :
    ∃ a b, Utf8.encode s = some a ∧ Utf8.encode t = some b ∧ raw = a ++ b := by
  induction s generalizing raw with
  | nil => exact ⟨[], raw, rfl, h, rfl⟩
  | cons c s ih =>
    obtain ⟨hc, tail, htail, rfl⟩ := Utf8.encode_cons h
    obtain ⟨a, b, ha, hb, rfl⟩ := ih htail
    refine ⟨Utf8.octetsOf c.val ++ a, b, ?_, hb, (List.append_assoc _ _ _).symm⟩
    rw [Utf8.encode_cons_eq, hc, ha]
    rfl

/-- The octets of a character outside ASCII are no line ends. -/
theorem not_break_of_mem_octetsOf {n : Nat} (hn : ¬ n < 0x80) (hmax : n < 0x110000) {b : UInt8}
    (hb : b ∈ Utf8.octetsOf n) : octetBreaks.isBreak b = false := by
  have hlarge : ∀ m, 0x80 ≤ m → m < 256 → octetBreaks.isBreak (UInt8.ofNat m) = false := by
    intro m hlow hhigh
    have hval : (UInt8.ofNat m).toNat = m := Utf8.toNat_ofNat hhigh
    have hlf : UInt8.ofNat m ≠ 10 := by
      intro heq
      rw [heq] at hval
      have : (10 : UInt8).toNat = 10 := rfl
      omega
    have hcr : UInt8.ofNat m ≠ 13 := by
      intro heq
      rw [heq] at hval
      have : (13 : UInt8).toNat = 13 := rfl
      omega
    simp [octetBreaks, hlf, hcr]
  unfold Utf8.octetsOf at hb
  rw [if_neg hn] at hb
  split at hb
  · simp only [List.mem_cons, List.not_mem_nil, or_false] at hb
    obtain rfl | rfl := hb
    · exact hlarge _ (by omega) (by omega)
    · exact hlarge _ (by omega) (by omega)
  split at hb
  · simp only [List.mem_cons, List.not_mem_nil, or_false] at hb
    obtain rfl | rfl | rfl := hb
    · exact hlarge _ (by omega) (by omega)
    · exact hlarge _ (by omega) (by omega)
    · exact hlarge _ (by omega) (by omega)
  · simp only [List.mem_cons, List.not_mem_nil, or_false] at hb
    obtain rfl | rfl | rfl | rfl := hb
    · exact hlarge _ (by omega) (by omega)
    · exact hlarge _ (by omega) (by omega)
    · exact hlarge _ (by omega) (by omega)
    · exact hlarge _ (by omega) (by omega)

theorem octet_eq_iff {c : CodePoint} {n : Nat} (hn : n < 0x80) (h : c.val < 0x80) :
    UInt8.ofNat c.val = UInt8.ofNat n ↔ c = ofCode n := by
  have hcode : (ofCode n).val = n := Nat.mod_eq_of_lt (by omega)
  rw [← UInt8.toNat_inj, Utf8.toNat_ofNat (by omega), Utf8.toNat_ofNat (by omega), Fin.ext_iff, hcode]

theorem isBreak_octet {c : CodePoint} (h : c.val < 0x80) :
    octetBreaks.isBreak (UInt8.ofNat c.val) = textBreaks.isBreak c := by
  have hlf : UInt8.ofNat c.val = UInt8.ofNat 10 ↔ c = ofCode 10 := octet_eq_iff (by decide) h
  have hcr : UInt8.ofNat c.val = UInt8.ofNat 13 ↔ c = ofCode 13 := octet_eq_iff (by decide) h
  show (decide (UInt8.ofNat c.val = UInt8.ofNat 10) || decide (UInt8.ofNat c.val = UInt8.ofNat 13))
    = (decide (c = ofCode 10) || decide (c = ofCode 13))
  rw [decide_eq_decide.mpr hlf, decide_eq_decide.mpr hcr]

theorem not_break_of_large {c : CodePoint} (h : ¬ c.val < 0x80) : textBreaks.isBreak c = false := by
  have hne : ∀ n < 0x80, c ≠ ofCode n := by
    intro n hn heq
    have hval : c.val = n := heq ▸ Nat.mod_eq_of_lt (by omega)
    omega
  show (decide (c = ofCode 10) || decide (c = ofCode 13)) = false
  rw [decide_eq_false (hne 10 (by decide)), decide_eq_false (hne 13 (by decide))]
  rfl

/-- The first octet of a text is a line feed if its first character is one. -/
theorem head_octets_iff {s : Text} {raw : List UInt8} (h : Utf8.encode s = some raw) :
    raw.head? = some octetBreaks.lf ↔ s.head? = some textBreaks.lf := by
  cases s with
  | nil =>
    cases h
    simp
  | cons d s =>
    obtain ⟨-, tail, -, rfl⟩ := Utf8.encode_cons h
    by_cases hone : d.val < 0x80
    · have hd : Utf8.octetsOf d.val = [UInt8.ofNat d.val] := by rw [Utf8.octetsOf, if_pos hone]
      rw [hd, List.singleton_append, List.head?_cons, List.head?_cons, Option.some_inj,
        Option.some_inj]
      exact octet_eq_iff (by decide) hone
    · have hd : d ≠ textBreaks.lf := by
        rintro rfl
        exact hone (by decide)
      have hne : Utf8.octetsOf d.val ≠ [] := by
        unfold Utf8.octetsOf
        split
        · simp
        split
        · simp
        split <;> simp
      obtain ⟨b, rest, hb⟩ := List.exists_cons_of_ne_nil hne
      have hbreak : octetBreaks.isBreak b = false :=
        not_break_of_mem_octetsOf hone d.isLt (hb ▸ List.mem_cons_self)
      have hlf : b ≠ octetBreaks.lf := by
        rintro rfl
        exact absurd hbreak (by decide)
      simp [hb, hlf, hd]

theorem octetsOf_of_lt {n : Nat} (h : n < 0x80) : Utf8.octetsOf n = [UInt8.ofNat n] := by
  rw [Utf8.octetsOf, if_pos h]

theorem ends_octet {c : CodePoint} {s : Text} {tail : List UInt8} (h : c.val < 0x80)
    (htail : Utf8.encode s = some tail) :
    octetBreaks.ends (UInt8.ofNat c.val) tail = textBreaks.ends c s := by
  have hcr : UInt8.ofNat c.val = octetBreaks.cr ↔ c = textBreaks.cr := octet_eq_iff (by decide) h
  rw [Breaks.ends, Breaks.ends, isBreak_octet h, decide_eq_decide.mpr (head_octets_iff htail),
    decide_eq_decide.mpr hcr]

/-- The octets of a character that does not end its line join the octets that follow. -/
theorem splitLines_octetsOf {c : CodePoint} {s : Text} {tail line : List UInt8}
    {lines : List (List UInt8)} (hends : ¬ textBreaks.ends c s = true)
    (htail : Utf8.encode s = some tail) (hlines : splitLines octetBreaks tail = line :: lines) :
    splitLines octetBreaks (Utf8.octetsOf c.val ++ tail) = (Utf8.octetsOf c.val ++ line) :: lines := by
  by_cases hone : c.val < 0x80
  · rw [octetsOf_of_lt hone]
    apply splitLines_of_not_ends _ hlines
    rw [ends_octet hone htail]
    exact Bool.eq_false_of_not_eq_true hends
  · exact splitLines_append_of_not_break (fun b hb => not_break_of_mem_octetsOf hone c.isLt hb) hlines

theorem splitLines_singleton {α : Type*} [DecidableEq α] (br : Breaks α) (c : α) :
    splitLines br [c] = [[c]] :=
  splitLines_eq_singleton (List.cons_ne_nil c []) (by simp)

/-- One character is one line. -/
theorem splitLines_octetsOf_nil (c : CodePoint) :
    splitLines octetBreaks (Utf8.octetsOf c.val) = [Utf8.octetsOf c.val] := by
  by_cases hone : c.val < 0x80
  · rw [octetsOf_of_lt hone]
    exact splitLines_singleton _ _
  · apply splitLines_eq_singleton
    · intro hnil
      have hlength := congrArg List.length hnil
      unfold Utf8.octetsOf at hlength
      split at hlength
      · simp at hlength
      split at hlength
      · simp at hlength
      split at hlength <;> simp at hlength
    · intro b hb
      exact not_break_of_mem_octetsOf hone c.isLt (List.mem_of_mem_dropLast hb)

/-- The lines of the octets of a text are the octets of its lines. -/
theorem forall₂_splitLines {s : Text} {raw : List UInt8} (h : Utf8.encode s = some raw) :
    List.Forall₂ (fun line octets => Utf8.encode line = some octets) (splitLines textBreaks s)
      (splitLines octetBreaks raw) := by
  induction s generalizing raw with
  | nil =>
    cases h
    exact .nil
  | cons c s ih =>
    obtain ⟨hc, tail, htail, rfl⟩ := Utf8.encode_cons h
    have hsingle : Utf8.encode [c] = some (Utf8.octetsOf c.val) := by
      rw [Utf8.encode_cons_eq, hc]
      simp [Utf8.encode]
    have hrest := ih htail
    by_cases hends : textBreaks.ends c s = true
    · -- the character ends its line, so it is a single octet
      have hone : c.val < 0x80 := by
        by_contra hlarge
        rw [Breaks.ends_of_not_break (not_break_of_large hlarge)] at hends
        exact absurd hends (by decide)
      rw [octetsOf_of_lt hone] at hsingle ⊢
      rw [List.singleton_append, splitLines_of_ends hends,
        splitLines_of_ends ((ends_octet hone htail).trans hends)]
      exact .cons hsingle hrest
    · cases s with
      | nil =>
        cases htail
        rw [List.append_nil, splitLines_octetsOf_nil, splitLines_singleton]
        exact .cons hsingle .nil
      | cons d s =>
        have hne : splitLines textBreaks (d :: s) ≠ [] := by simp [splitLines_eq_nil]
        obtain ⟨line, lines, hlines⟩ := List.exists_cons_of_ne_nil hne
        rw [hlines] at hrest
        obtain ⟨octets, more, hline, hmore, hoctets⟩ := List.forall₂_cons_left_iff.mp hrest
        rw [splitLines_octetsOf hends htail hoctets,
          splitLines_of_not_ends (Bool.eq_false_of_not_eq_true hends) hlines]
        exact .cons (encode_append hsingle hline) hmore

/-! ### The reader on a log of whole characters -/

theorem decode_of_forall₂ {texts : List Text} {records : List (List UInt8)}
    (h : List.Forall₂ (fun line octets => Utf8.encode line = some octets) texts records) :
    records.mapM Utf8.decode = some texts := by
  induction h with
  | nil => rfl
  | cons hline _ ih =>
    rw [List.mapM_cons, Utf8.decode_encode hline, ih]
    rfl

/-- The end of a log is read as its last records. -/
theorem decodeRecords_rtake (path : String) {log : Text} {raw : List UInt8}
    (h : Utf8.encode log = some raw) (lines : Nat) :
    decodeRecords path ((splitLines octetBreaks raw).rtake lines)
      = .ok ((splitLines textBreaks log).rtake lines) := by
  have hlines := forall₂_splitLines h
  have hrtake : List.Forall₂ (fun line octets => Utf8.encode line = some octets)
      ((splitLines textBreaks log).rtake lines) ((splitLines octetBreaks raw).rtake lines) := by
    rw [List.rtake, List.rtake, hlines.length_eq]
    exact List.forall₂_drop _ hlines
  rw [decodeRecords, decode_of_forall₂ hrtake]

theorem universalNewline_of_not_mem {line : Text} (h : textBreaks.cr ∉ line) :
    universalNewline line = line := by
  have hlast : line.getLast? ≠ some textBreaks.cr := fun heq => h (List.mem_of_getLast? heq)
  have hbefore : line.dropLast.getLast? ≠ some textBreaks.cr := fun heq =>
    h (List.mem_of_mem_dropLast (List.mem_of_getLast? heq))
  rw [universalNewline, if_neg hbefore, if_neg hlast, ite_self]

/-- A line is read from the position behind the text that was read. -/
theorem readline_eq {past after : Text} {content taken : List UInt8}
    (hcontent : Utf8.encode (past ++ after) = some content)
    (htaken : Utf8.encode past = some taken) (hcr : textBreaks.cr ∉ after) :
    (after = [] ∧ readline content taken.length = none)
      ∨ ∃ line rest octets, after = line ++ rest ∧ Utf8.encode line = some octets
        ∧ readline content taken.length = some (some line, octets.length) := by
  obtain ⟨a, b, ha, hb, rfl⟩ := exists_encode_of_append hcontent
  obtain rfl : taken = a := Option.some.inj (htaken.symm.trans ha)
  have hlines := forall₂_splitLines hb
  cases hsplit : splitLines textBreaks after with
  | nil =>
    left
    rw [hsplit, List.forall₂_nil_left_iff] at hlines
    refine ⟨splitLines_eq_nil.mp hsplit, ?_⟩
    rw [readline, List.drop_left, hlines]
  | cons line lines =>
    right
    rw [hsplit] at hlines
    obtain ⟨octets, more, hline, -, hoctets⟩ := List.forall₂_cons_left_iff.mp hlines
    have hafter : after = line ++ lines.flatten := by
      rw [← @flatten_splitLines _ _ textBreaks after, hsplit, List.flatten_cons]
    have hplain : textBreaks.cr ∉ line := fun hmem => hcr (hafter ▸ List.mem_append_left _ hmem)
    refine ⟨line, lines.flatten, octets, hafter, hline, ?_⟩
    rw [readline, List.drop_left, hoctets]
    simp only [Utf8.decode_encode hline, Option.map_some, universalNewline_of_not_mem hplain]

/-! ### The invariant of a run -/

section Invariant

variable {lines : Nat} {moment : Text → Prop} {w : World} {log printed : Text} {position : Nat}

/-- The reader has gone on from the end of `before` and has printed what follows up to its
    position. -/
def Reading (lines : Nat) (moment : Text → Prop) (log printed : Text) (position : Nat) : Prop :=
  ∃ before shown after taken, log = before ++ shown ++ after ∧ moment before
    ∧ Utf8.encode (before ++ shown) = some taken ∧ taken.length = position
    ∧ printed = lastRecords lines before ++ shown ∧ textBreaks.cr ∉ after

/-- The printed text is the beginning of what is due for a moment. -/
def Due (lines : Nat) (moment : Text → Prop) (log printed : Text) (complete : Prop) : Prop :=
  ∃ before after, moment before ∧ log = before ++ after
    ∧ printed <+: lastRecords lines before ++ after
    ∧ (complete → printed = lastRecords lines before ++ after)

/-- What holds where the reader stands. -/
def Stage (lines : Nat) (moment : Text → Prop) (w : World) (log printed : Text) : Reader → Prop
  | .starting | .checked _ | .looked _ _ | .present => printed = []
  | .raised e => printed = [] ∧ ∀ path, e ≠ .cannotRead path
  | .measured size => printed = [] ∧ 0 < lines ∧ size = (w.file.getD []).length
  | .peeked size endsWithNewline => printed = [] ∧ 0 < lines ∧ size = (w.file.getD []).length
    ∧ endsWithNewline = ((w.file.getD []).getLast? == some octetBreaks.lf)
  | .tailed => printed = lastRecords lines log
  | .following position | .atEnd position => Reading lines moment log printed position
  | .draining position => w.reported = true ∧ Reading lines moment log printed position
  | .returned code => (code = 0 → w.reported = true) ∧ Due lines moment log printed (code = 0)

def Inv (lines : Nat) (moment : Text → Prop) (c : Follow) : Prop :=
  ∃ log, c.world.Holds log ∧ Stage lines moment c.world log c.printed c.reader

theorem lastRecords_zero (log : Text) : lastRecords 0 log = [] := by
  rw [lastRecords, List.rtake_zero]
  rfl

theorem eq_nil_of_encode {s : Text} (h : Utf8.encode s = some []) : s = [] := by
  have hlines := forall₂_splitLines h
  rw [splitLines, List.forall₂_nil_right_iff] at hlines
  exact splitLines_eq_nil.mp hlines

theorem Reading.due (h : Reading lines moment log printed position) :
    Due lines moment log printed False := by
  obtain ⟨before, shown, after, taken, rfl, hmoment, -, -, rfl, -⟩ := h
  refine ⟨before, shown ++ after, hmoment, List.append_assoc _ _ _, ⟨after, ?_⟩, False.elim⟩
  rw [List.append_assoc]

/-- What is due in each state. -/
theorem Stage.due {reader : Reader} (h : Stage lines moment w log printed reader)
    (hmoment : moment log) : Due lines moment log printed (reader = .returned 0) := by
  have hnow : ∀ {complete : Prop}, ¬ complete → printed <+: lastRecords lines log →
      Due lines moment log printed complete := by
    intro complete hcomplete hprinted
    refine ⟨log, [], hmoment, (List.append_nil _).symm, ?_, fun h => absurd h hcomplete⟩
    rw [List.append_nil]
    exact hprinted
  have hreading : ∀ {complete : Prop} {position}, ¬ complete →
      Reading lines moment log printed position → Due lines moment log printed complete := by
    intro complete position hcomplete hread
    obtain ⟨before, after, hbefore, hlog, hprefix, -⟩ := hread.due
    exact ⟨before, after, hbefore, hlog, hprefix, fun h => absurd h hcomplete⟩
  cases reader with
  | starting | checked | looked | present =>
    exact hnow (by simp) (h ▸ List.nil_prefix)
  | measured | peeked | raised =>
    exact hnow (by simp) (h.1 ▸ List.nil_prefix)
  | tailed => exact hnow (by simp) (h ▸ List.prefix_rfl)
  | following | atEnd => exact hreading (by simp) h
  | draining => exact hreading (by simp) h.2
  | returned code =>
    obtain ⟨before, after, hbefore, hlog, hprefix, hcomplete⟩ := h.2
    refine ⟨before, after, hbefore, hlog, hprefix, fun heq => hcomplete ?_⟩
    injection heq

theorem Reading.mono {moment' : Text → Prop} (h : Reading lines moment log printed position)
    (hmono : ∀ t, moment t → moment' t) : Reading lines moment' log printed position := by
  obtain ⟨before, shown, after, taken, hlog, hmoment, hrest⟩ := h
  exact ⟨before, shown, after, taken, hlog, hmono _ hmoment, hrest⟩

theorem Inv.mono {moment' : Text → Prop} {c : Follow} (h : Inv lines moment c)
    (hmono : ∀ t, moment t → moment' t) : Inv lines moment' c := by
  obtain ⟨log, hholds, hstage⟩ := h
  refine ⟨log, hholds, ?_⟩
  cases hreader : c.reader with
  | following | atEnd =>
    rw [hreader] at hstage
    exact Reading.mono hstage hmono
  | draining =>
    rw [hreader] at hstage
    exact ⟨hstage.1, hstage.2.mono hmono⟩
  | returned =>
    rw [hreader] at hstage
    obtain ⟨hreported, before, after, hmoment, hrest⟩ := hstage
    exact ⟨hreported, before, after, hmono _ hmoment, hrest⟩
  | _ =>
    rw [hreader] at hstage
    exact hstage

/-! ### The writer's steps -/

/-- The writer leaves the log as it is or appends one record to it, before the report only. -/
theorem holds_apply (h : w.Holds log) (e : WriterEvent) :
    ((e.apply w).Holds log ∧ (e.apply w).file.getD [] = w.file.getD [])
      ∨ ∃ timestamp message, e = .written timestamp message ∧ w.reported = false
        ∧ (e.apply w).Holds (log ++ logRecord timestamp message) := by
  cases e with
  | opened | published | ran => exact Or.inl ⟨h, rfl⟩
  | written timestamp message =>
    have happly : (WriterEvent.written timestamp message).apply w = w.write timestamp message := rfl
    rw [happly, World.write]
    split
    case isTrue => exact Or.inl ⟨h, rfl⟩
    case isFalse hopen =>
      simp only [not_or, Bool.not_eq_true] at hopen
      split
      case h_1 content octets hfile hrecord =>
        refine Or.inr ⟨timestamp, message, rfl, hopen.2, ?_⟩
        rw [World.Holds, hfile] at h
        exact encode_append h hrecord
      case h_2 => exact Or.inl ⟨h, rfl⟩

theorem reported_apply (h : w.reported = true) (e : WriterEvent) : (e.apply w).reported = true := by
  cases e with
  | opened | ran => exact h
  | published => rfl
  | written timestamp message =>
    show (w.write timestamp message).reported = true
    rw [World.write, if_pos (Or.inr h)]
    exact h

theorem Reading.append (h : Reading lines moment log printed position) {added : Text}
    (hadded : textBreaks.cr ∉ added) : Reading lines moment (log ++ added) printed position := by
  obtain ⟨before, shown, after, taken, rfl, hmoment, htaken, hposition, hprinted, hcr⟩ := h
  refine ⟨before, shown, after ++ added, taken, ?_, hmoment, htaken, hposition, hprinted, ?_⟩
  · rw [List.append_assoc _ after added]
  · rw [List.mem_append]
    exact not_or.mpr ⟨hcr, hadded⟩

theorem Inv.writer {c : Follow} (h : Inv lines moment c) {e : WriterEvent}
    (hquiet : c.Undisturbed lines (.writer e)) :
    Inv lines moment { c with world := e.apply c.world } := by
  obtain ⟨log, hholds, hstage⟩ := h
  obtain ⟨hsame, hfile⟩ | ⟨timestamp, message, rfl, hopen, hadded⟩ := holds_apply hholds e
  · -- the octets are the same, and the report stays
    refine ⟨log, hsame, ?_⟩
    dsimp only
    cases hreader : c.reader with
    | measured | peeked =>
      rw [hreader] at hstage
      rw [Stage, hfile]
      exact hstage
    | draining =>
      rw [hreader] at hstage
      exact ⟨reported_apply hstage.1 e, hstage.2⟩
    | returned =>
      rw [hreader] at hstage
      exact ⟨fun hcode => reported_apply (hstage.1 hcode) e, hstage.2⟩
    | _ =>
      rw [hreader] at hstage
      exact hstage
  · -- one record more, and the report is not stored
    obtain ⟨hbetween, hafter⟩ := hquiet
    refine ⟨_, hadded, ?_⟩
    dsimp only
    cases hreader : c.reader with
    | measured | peeked =>
      rw [hreader] at hstage hbetween
      have hzero : lines = 0 := hbetween rfl
      have hpos : 0 < lines := hstage.2.1
      omega
    | tailed =>
      rw [hreader] at hstage hbetween
      have hzero : lines = 0 := hbetween rfl
      rw [Stage, hzero, lastRecords_zero] at hstage
      rw [Stage, hzero, lastRecords_zero]
      exact hstage
    | following | atEnd =>
      rw [hreader] at hstage hafter
      exact Reading.append hstage (hafter rfl)
    | draining =>
      rw [hreader] at hstage
      rw [hstage.1] at hopen
      cases hopen
    | returned code =>
      rw [hreader] at hstage
      obtain ⟨hreported, before, after, hmoment, rfl, ⟨rest, hrest⟩, -⟩ := hstage
      have hcode : code ≠ 0 := by
        intro hcode
        rw [hreported hcode] at hopen
        cases hopen
      refine ⟨fun h => absurd h hcode, before, after ++ _, hmoment, List.append_assoc _ _ _, ?_,
        fun h => absurd h hcode⟩
      rw [← List.append_assoc, ← hrest]
      exact ⟨_, (List.append_assoc _ _ _).symm⟩
    | _ =>
      rw [hreader] at hstage
      exact hstage

/-! ### The reader's steps -/

/-- A line is printed from its position on, or the log is at its end. -/
theorem Reading.printLine {path : String} {c : Follow} {again : Nat → Reader} {next : Reader}
    (hholds : c.world.Holds log) (h : Reading lines moment log c.printed position) :
    (c.printLine path position again next = { c with reader := next }
        ∧ Due lines moment log c.printed True)
      ∨ ∃ line length, c.printLine path position again next
          = { c with printed := c.printed ++ line, reader := again (position + length) }
        ∧ Reading lines moment log (c.printed ++ line) (position + length) := by
  obtain ⟨before, shown, after, taken, rfl, hmoment, htaken, rfl, hprinted, hcr⟩ := h
  obtain ⟨rfl, hread⟩ | ⟨line, rest, octets, rfl, hline, hread⟩ := readline_eq hholds htaken hcr
  · left
    refine ⟨by rw [Follow.printLine, hread], before, shown, hmoment, List.append_nil _, ?_,
      fun _ => hprinted⟩
    rw [hprinted]
  · right
    refine ⟨line, octets.length, by rw [Follow.printLine, hread], before, shown ++ line, rest,
      taken ++ octets, ?_, hmoment, ?_, List.length_append, ?_, ?_⟩
    · simp only [List.append_assoc]
    · rw [← List.append_assoc]
      exact encode_append htaken hline
    · rw [hprinted, List.append_assoc]
    · exact fun hmem => hcr (List.mem_append_right _ hmem)

theorem Inv.turn {path : String} {c : Follow} (h : Inv lines moment c)
    (hmoment : ∀ t, c.world.Holds t → moment t) : Inv lines moment (c.turn path lines) := by
  obtain ⟨log, hholds, hstage⟩ := h
  have hcontent : Utf8.encode log = some (c.world.file.getD []) := hholds
  unfold Follow.turn
  cases hreader : c.reader with
  | starting | checked =>
    rw [hreader] at hstage
    exact ⟨log, hholds, hstage⟩
  | looked terminal active =>
    rw [hreader] at hstage
    dsimp only
    split
    · exact ⟨log, hholds, hstage⟩
    split
    · exact ⟨log, hholds, hstage, fun _ => nofun⟩
    split
    · exact ⟨log, hholds, hstage⟩
    · exact ⟨log, hholds, hstage, fun _ => nofun⟩
  | present =>
    rw [hreader] at hstage
    dsimp only
    split
    case isTrue hnone =>
      refine ⟨log, hholds, ?_⟩
      show c.printed = lastRecords lines log
      rw [show c.printed = [] from hstage]
      obtain hzero | hempty := hnone
      · rw [hzero, lastRecords_zero]
      · rw [hempty] at hcontent
        rw [eq_nil_of_encode hcontent, lastRecords, splitLines, List.rtake_nil]
        rfl
    case isFalse hsome =>
      rw [not_or] at hsome
      exact ⟨log, hholds, hstage, Nat.pos_of_ne_zero hsome.1, rfl⟩
  | measured size =>
    rw [hreader] at hstage
    exact ⟨log, hholds, hstage.1, hstage.2.1, hstage.2.2, rfl⟩
  | peeked size endsWithNewline =>
    rw [hreader] at hstage
    obtain ⟨hprinted, hpos, rfl, rfl⟩ := hstage
    dsimp only
    rw [List.take_length, readTail_eq hpos, decodeRecords_rtake path hcontent]
    refine ⟨log, hholds, ?_⟩
    show c.printed ++ _ = lastRecords lines log
    rw [hprinted, List.nil_append, lastRecords]
  -- the tail is printed: what is read from now on follows it
  | tailed =>
    rw [hreader] at hstage
    refine ⟨log, hholds, log, [], [], c.world.file.getD [], ?_, hmoment log hholds, ?_, rfl, ?_, ?_⟩
    · simp
    · rw [List.append_nil]
      exact hcontent
    · rw [List.append_nil]
      exact hstage
    · exact List.not_mem_nil
  | following position =>
    rw [hreader] at hstage
    obtain ⟨heq, hdue⟩ | ⟨line, length, heq, hread⟩ := Reading.printLine hholds hstage
    · dsimp only
      rw [heq]
      exact ⟨log, hholds, hstage⟩
    · dsimp only
      rw [heq]
      exact ⟨log, hholds, hread⟩
  | atEnd position =>
    rw [hreader] at hstage
    dsimp only
    split
    case isTrue hreported => exact ⟨log, hholds, hreported, hstage⟩
    case isFalse => exact ⟨log, hholds, hstage⟩
  -- the end was reported before, so the file is read to its last octet here
  | draining position =>
    rw [hreader] at hstage
    obtain ⟨heq, hdue⟩ | ⟨line, length, heq, hread⟩ := Reading.printLine hholds hstage.2
    · dsimp only
      rw [heq]
      refine ⟨log, hholds, fun _ => hstage.1, ?_⟩
      obtain ⟨before, after, hbefore, hlog, hprefix, hcomplete⟩ := hdue
      exact ⟨before, after, hbefore, hlog, hprefix, fun _ => hcomplete trivial⟩
    · dsimp only
      rw [heq]
      exact ⟨log, hholds, hstage.1, hread⟩
  | returned | raised =>
    dsimp only
    rw [hreader] at hstage
    refine ⟨log, hholds, ?_⟩
    rw [hreader]
    exact hstage

end Invariant

/-! ### Runs -/

section Runs

variable {path : String} {lines : Nat}

theorem Follow.run_concat (c : Follow) (events : List Follow.Event) (e : Follow.Event) :
    c.run path lines (events ++ [e]) = (c.run path lines events).step path lines e := by
  rw [Follow.run, List.foldl_append]
  rfl

theorem Follow.UndisturbedRun.concat {c : Follow} {events : List Follow.Event} {e : Follow.Event}
    (h : c.UndisturbedRun path lines (events ++ [e])) :
    c.UndisturbedRun path lines events ∧ (c.run path lines events).Undisturbed lines e := by
  induction events generalizing c with
  | nil => exact ⟨trivial, h.1⟩
  | cons first events ih =>
    obtain ⟨hrest, hlast⟩ := ih h.2
    exact ⟨⟨h.1, hrest⟩, hlast⟩

theorem Follow.Moment.concat {c : Follow} {events : List Follow.Event} {log : Text}
    (h : c.Moment path lines events log) (e : Follow.Event) :
    c.Moment path lines (events ++ [e]) log := by
  obtain ⟨past, future, rfl, hholds⟩ := h
  exact ⟨past, future ++ [e], List.append_assoc _ _ _, hholds⟩

theorem Follow.moment_run {c : Follow} {events : List Follow.Event} {log : Text}
    (h : (c.run path lines events).world.Holds log) : c.Moment path lines events log :=
  ⟨events, [], (List.append_nil _).symm, h⟩

/-- One step of a run keeps the invariant. -/
theorem Inv.step {moment : Text → Prop} {c : Follow} (h : Inv lines moment c)
    (hmoment : ∀ t, c.world.Holds t → moment t) {e : Follow.Event}
    (hquiet : c.Undisturbed lines e) : Inv lines moment (c.step path lines e) := by
  cases e with
  | writer e => exact h.writer hquiet
  | reader => exact h.turn hmoment
  | interrupt =>
    rw [Follow.step]
    split
    case isTrue => exact h
    case isFalse hrunning =>
      obtain ⟨log, hholds, hstage⟩ := h
      have hcode : (130 : Nat) ≠ 0 := by decide
      refine ⟨log, hholds, fun h => absurd h hcode, ?_⟩
      obtain ⟨before, after, hbefore, hlog, hprefix, -⟩ := hstage.due (hmoment log hholds)
      exact ⟨before, after, hbefore, hlog, hprefix, fun h => absurd h hcode⟩

/-- The writer keeps the log a text. -/
theorem exists_holds_called (earlier : List WriterEvent) :
    ∃ log, (Follow.called earlier).world.Holds log := by
  have hfold : ∀ (w : World) (log : Text), w.Holds log →
      ∃ log', (earlier.foldl WriterEvent.apply w).Holds log' := by
    induction earlier with
    | nil => exact fun w log h => ⟨log, h⟩
    | cons e earlier ih =>
      intro w log h
      obtain ⟨hsame, -⟩ | ⟨timestamp, message, -, -, hadded⟩ := holds_apply h e
      · exact ih _ _ hsame
      · exact ih _ _ hadded
  exact hfold World.empty [] rfl

theorem inv_run (earlier : List WriterEvent) (events : List Follow.Event)
    (hquiet : (Follow.called earlier).UndisturbedRun path lines events) :
    Inv lines ((Follow.called earlier).Moment path lines events)
      ((Follow.called earlier).run path lines events) := by
  -- induction on the run from its end; what the run was faithful to stays a moment of it
  induction events using List.reverseRecOn with
  | nil =>
    obtain ⟨log, hlog⟩ := exists_holds_called earlier
    exact ⟨log, hlog, rfl⟩
  | append_singleton events e ih =>
    obtain ⟨hbefore, hlast⟩ := hquiet.concat
    rw [Follow.run_concat]
    refine Inv.step ((ih hbefore).mono fun _ ht => ht.concat e) ?_ hlast
    exact fun t ht => (Follow.moment_run ht).concat e

/-- **Following.** A run whose steps are undisturbed prints the last records of one moment and then
    every record that came later, once and in order; where it has returned it has printed them
    all. -/
theorem follow_faithful (path : String) (lines : Nat) (earlier : List WriterEvent)
    (events : List Follow.Event)
    (hquiet : (Follow.called earlier).UndisturbedRun path lines events) :
    (Follow.called earlier).Faithful path lines events := by
  obtain ⟨log, hholds, hstage⟩ := inv_run earlier events hquiet
  obtain ⟨before, after, hmoment, rfl, hprefix, hcomplete⟩ :=
    hstage.due (Follow.moment_run hholds)
  refine ⟨⟨before, after, hmoment, hholds, hprefix, hcomplete⟩, fun hraised => ?_⟩
  rw [hraised] at hstage
  exact hstage.2 path rfl

/-- A record that is written after the jump to the end is printed. -/
theorem follow_faithful_started : (Follow.called [.opened]).Faithful "log" 10
    (List.replicate 5 .reader
      ++ [.writer (.written (text "2026-01-01T00:00:00Z") (text "started")), .reader]) := by
  apply follow_faithful
  refine ⟨trivial, trivial, trivial, trivial, trivial, ⟨?_, ?_⟩, trivial, trivial⟩
  · decide
  · decide

end Runs

/-! ### A record written between the tail and the jump to the end -/

namespace FirstRecord

/-- The record is written when the reader has found the log empty and before it opens it again. -/
def events : List Follow.Event :=
  List.replicate 4 .reader
    ++ [.writer (.written (text "2026-01-01T00:00:00Z") (text "started"))]
    ++ List.replicate 2 .reader ++ [.writer .published] ++ List.replicate 2 .reader

/-- The record that is written. -/
def record : Text := logRecord (text "2026-01-01T00:00:00Z") (text "started")

theorem run_eq : (Follow.called [.opened]).run "log" 10 events
    = ⟨⟨Utf8.encode record, true, false⟩, .returned 0, []⟩ := by
  decide

/-- **Loss.** The call returns and the record was never printed. -/
theorem not_faithful : ¬ (Follow.called [.opened]).Faithful "log" 10 events := by
  rintro ⟨⟨before, after, -, hholds, -, hcomplete⟩, -⟩
  rw [run_eq] at hholds hcomplete
  obtain ⟨hlast, rfl⟩ := List.append_eq_nil_iff.mp (hcomplete rfl).symm
  rw [List.append_nil] at hholds
  have hencoded : Utf8.encode record = some ((Utf8.encode record).getD []) := by decide
  have hrecord : before = record := by
    have hbefore := Utf8.decode_encode hholds
    rw [Utf8.decode_encode hencoded] at hbefore
    exact (Option.some.inj hbefore).symm
  rw [hrecord] at hlast
  exact absurd hlast (by decide)

end FirstRecord

end Devlegate.Log
