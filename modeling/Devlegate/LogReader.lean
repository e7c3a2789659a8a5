import Devlegate.Lib.JsonTexts
import Devlegate.Lib.Lines

namespace Devlegate.Log

open JsonText Lines

/-!
# Reading the end of an execution log

`_read_file` reads a log backwards in chunks until it has met enough line feeds, splits what it has
into lines and decodes the last of them one by one.

* `readBack`: the loop over the chunks.
* `readTail`: the last lines, from the length and the last octet of the file.
* `readFile`: with the refusals.
* `readTail_eq`: the last lines of what was read are the last lines of the file.
* `readFile_eq`: so a read is the plain one, the whole file split into lines.
* `readFile_iff`: a read gives the texts whose octets are the last lines, and it fails if and only if
  one of these lines is not the octets of a text.
-/

/-- The line ends of `bytes.splitlines`. -/
def octetBreaks : Breaks UInt8 where
  cr := 13
  lf := 10
  isBreak b := b = 10 || b = 13
  lf_isBreak := rfl
  cr_ne_lf := by decide

/-- `LogReaderError`; the path is named, the codec's own text is not. -/
inductive LogReaderError where
  | negativeLines
  | logNotFound (path : String)
  | cannotRead (path : String)
  | noLongerActive
  deriving DecidableEq, Repr

/-- The most that one read takes. -/
def chunkLimit : Nat := 8192

/-- The loop of `_read_file`: the chunks read so far stand in the order of the file. -/
def readBack (content : List UInt8) (requiredNewlines : Nat) (position : Nat)
    (chunks : List (List UInt8)) (newlineCount : Nat) : List (List UInt8) :=
  if _h : position ≠ 0 ∧ newlineCount < requiredNewlines then
    let chunkSize := min chunkLimit position
    let chunk := (content.drop (position - chunkSize)).take chunkSize
    readBack content requiredNewlines (position - chunkSize) (chunk :: chunks)
      (newlineCount + chunk.count octetBreaks.lf)
  else chunks
termination_by position
decreasing_by
  have hpos : 0 < min chunkLimit position := Nat.lt_min.mpr ⟨by decide, Nat.pos_of_ne_zero _h.1⟩
  have hle : min chunkLimit position ≤ position := Nat.min_le_right _ _
  omega

/-- The last `lines` lines of `content`; whether the file ended with a line feed was looked up on
    its own. -/
def readTail (content : List UInt8) (endsWithNewline : Bool) (lines : Nat) : List (List UInt8) :=
  let requiredNewlines := lines + endsWithNewline.toNat
  (splitLines octetBreaks (readBack content requiredNewlines content.length [] 0).flatten).rtake lines

/-- `tuple(record.decode("utf-8") for record in records)`. -/
def decodeRecords (path : String) (records : List (List UInt8)) :
    Except LogReaderError (List Text) :=
  match records.mapM Utf8.decode with
  | some texts => .ok texts
  | none => .error (.cannotRead path)

/-- `_read_file`; without a file the path is no file. -/
def readFile (path : String) (file : Option (List UInt8)) (lines : Int) :
    Except LogReaderError (List Text) :=
  if lines < 0 then .error .negativeLines
  else
    match file with
    | none => .error (.logNotFound path)
    | some content =>
      if lines = 0 then .ok []
      else if content = [] then .ok []
      else
        let endsWithNewline := content.getLast? == some octetBreaks.lf
        decodeRecords path (readTail content endsWithNewline lines.toNat)

/-! ### The loop -/

/-- What the loop has read: the end of the file from a position on. -/
structure ReadFrom (content : List UInt8) (position : Nat) (chunks : List (List UInt8))
    (newlineCount : Nat) : Prop where
  inside : position ≤ content.length
  read : chunks.flatten = content.drop position
  counted : newlineCount = (content.drop position).count octetBreaks.lf

theorem readFrom_end (content : List UInt8) : ReadFrom content content.length [] 0 := by
  refine ⟨le_refl _, ?_, ?_⟩ <;> rw [List.drop_length] <;> rfl

variable {content : List UInt8} {position newlineCount : Nat} {chunks : List (List UInt8)}

/-- One more chunk is read. -/
theorem ReadFrom.step (h : ReadFrom content position chunks newlineCount) {chunkSize : Nat}
    (hsize : chunkSize ≤ position) :
    ReadFrom content (position - chunkSize)
      ((content.drop (position - chunkSize)).take chunkSize :: chunks)
      (newlineCount + ((content.drop (position - chunkSize)).take chunkSize).count octetBreaks.lf) := by
  have hback : position - chunkSize + chunkSize = position := by omega
  have hsplit : (content.drop (position - chunkSize)).take chunkSize ++ content.drop position
      = content.drop (position - chunkSize) := by
    have htake := List.take_append_drop chunkSize (content.drop (position - chunkSize))
    rw [List.drop_drop, hback] at htake
    exact htake
  refine ⟨?_, ?_, ?_⟩
  · have hinside := h.inside
    omega
  · rw [List.flatten_cons, h.read, hsplit]
  · have hcount := congrArg (List.count octetBreaks.lf) hsplit
    rw [List.count_append] at hcount
    rw [h.counted, ← hcount, Nat.add_comm]

/-- The loop stops at the head of the file or with the line feeds it was to meet. -/
theorem readBack_spec (requiredNewlines : Nat)
    (h : ReadFrom content position chunks newlineCount) :
    ∃ start, (readBack content requiredNewlines position chunks newlineCount).flatten
        = content.drop start
      ∧ (start = 0 ∨ requiredNewlines ≤ (content.drop start).count octetBreaks.lf) := by
  -- induction along the loop, which carries `ReadFrom`
  fun_induction readBack content requiredNewlines position chunks newlineCount with
  | case1 position chunks newlineCount _ chunkSize chunk ih =>
    exact ih (h.step (Nat.min_le_right _ _))
  | case2 position chunks newlineCount hstop =>
    refine ⟨position, h.read, ?_⟩
    by_cases hposition : position = 0
    · exact Or.inl hposition
    · right
      have hcount : ¬ newlineCount < requiredNewlines := fun hlt => hstop ⟨hposition, hlt⟩
      rw [← h.counted]
      omega

/-! ### The last lines -/

/-- An end of the file with the line feeds asked for has more lines than are returned. -/
theorem lt_length_splitLines {lines start : Nat} (hlines : 0 < lines)
    (h : lines + (content.getLast? == some octetBreaks.lf).toNat
      ≤ (content.drop start).count octetBreaks.lf) :
    lines < (splitLines octetBreaks (content.drop start)).length := by
  have hne : content.drop start ≠ [] := by
    intro hnil
    rw [hnil, List.count_nil] at h
    omega
  have hlast : (content.drop start).getLast? = content.getLast? := by
    conv_rhs => rw [← List.take_append_drop start content]
    rw [List.getLast?_append_of_ne_nil _ hne]
  by_cases hend : content.getLast? = some octetBreaks.lf
  · have hle : (content.drop start).count octetBreaks.lf ≤ _ := count_le_length _
    simp only [hend, beq_self_eq_true, Bool.toNat_true] at h
    omega
  · have hlt : (content.drop start).count octetBreaks.lf < _ := count_lt_length hne (hlast ▸ hend)
    have hflag : (content.getLast? == some octetBreaks.lf) = false := beq_false_of_ne hend
    rw [hflag, Bool.toNat_false] at h
    omega

/-- **Tail.** What the loop has read ends in the last lines of the file. -/
theorem readTail_eq {lines : Nat} (hlines : 0 < lines) :
    readTail content (content.getLast? == some octetBreaks.lf) lines
      = (splitLines octetBreaks content).rtake lines := by
  obtain ⟨start, hread, hstart⟩ := readBack_spec
    (lines + (content.getLast? == some octetBreaks.lf).toNat) (readFrom_end content)
  have hwhole : content.take start ++ content.drop start = content := List.take_append_drop _ _
  have htail : (splitLines octetBreaks (content.drop start)).rtake lines
      = (splitLines octetBreaks (content.take start ++ content.drop start)).rtake lines := by
    apply rtake_splitLines
    obtain rfl | hcount := hstart
    · exact Or.inr List.take_zero
    · exact Or.inl (lt_length_splitLines hlines hcount)
  rw [hwhole] at htail
  rw [readTail, hread]
  exact htail

/-- A read is the plain one, of the whole file split into lines. -/
theorem readFile_eq (path : String) (content : List UInt8) (lines : Nat) :
    readFile path (some content) lines
      = decodeRecords path ((splitLines octetBreaks content).rtake lines) := by
  have hnat : ¬ (lines : Int) < 0 := by omega
  simp only [readFile, if_neg hnat, Int.toNat_natCast]
  by_cases hzero : lines = 0
  · rw [if_pos (by omega), hzero, List.rtake_zero]
    rfl
  · rw [if_neg (by omega)]
    by_cases hempty : content = []
    · rw [if_pos hempty, hempty, splitLines, List.rtake_nil]
      rfl
    · rw [if_neg hempty, readTail_eq (Nat.pos_of_ne_zero hzero)]

/-! ### The records -/

/-- The text's octets are the line. -/
def Spelling (line : List UInt8) (record : Text) : Prop := Utf8.encode record = some line

theorem mapM_decode_iff {records : List (List UInt8)} {texts : List Text} :
    records.mapM Utf8.decode = some texts ↔ List.Forall₂ Spelling records texts := by
  induction records generalizing texts with
  | nil => simp [eq_comm]
  | cons line records ih =>
    rw [List.mapM_cons, List.forall₂_cons_left_iff]
    constructor
    · intro h
      obtain ⟨record, hrecord, h⟩ := Option.bind_eq_some_iff.mp h
      obtain ⟨rest, hrest, h⟩ := Option.bind_eq_some_iff.mp h
      exact ⟨record, rest, Utf8.decode_eq_some_iff.mp hrecord, ih.mp hrest, (Option.some.inj h).symm⟩
    · rintro ⟨record, rest, hrecord, hrest, rfl⟩
      rw [Utf8.decode_eq_some_iff.mpr hrecord, ih.mpr hrest]
      rfl

/-- Records cannot be decoded if and only if one of them is not the octets of a text. -/
theorem mapM_decode_eq_none {records : List (List UInt8)} :
    records.mapM Utf8.decode = none ↔ ∃ line ∈ records, ∀ record, ¬ Spelling line record := by
  have hline : ∀ line, Utf8.decode line = none ↔ ∀ record, ¬ Spelling line record := by
    intro line
    rw [Option.eq_none_iff_forall_not_mem]
    exact forall_congr' fun record => not_congr Utf8.decode_eq_some_iff
  induction records with
  | nil => simp
  | cons line records ih =>
    rw [List.mapM_cons]
    cases hdecode : Utf8.decode line with
    | none =>
      have hbad := (hline line).mp hdecode
      exact iff_of_true rfl ⟨line, List.mem_cons_self, hbad⟩
    | some record =>
      have hgood : ¬ ∀ record, ¬ Spelling line record :=
        fun hnone => hnone record (Utf8.decode_eq_some_iff.mp hdecode)
      have hrest : (∃ other ∈ line :: records, ∀ record, ¬ Spelling other record)
          ↔ records.mapM Utf8.decode = none := by
        rw [List.exists_mem_cons_iff, or_iff_right hgood]
        exact ih.symm
      rw [hrest]
      cases records.mapM Utf8.decode <;> simp

/-- **Read.** A read gives, in order, the texts whose octets are the last lines of the whole file; it
    fails if and only if one of these lines is not the octets of a text. -/
theorem readFile_iff (path : String) (content : List UInt8) (lines : Nat) :
    (∀ texts, readFile path (some content) lines = .ok texts
        ↔ List.Forall₂ Spelling ((splitLines octetBreaks content).rtake lines) texts)
      ∧ ∀ e, readFile path (some content) lines = .error e
        ↔ e = .cannotRead path
          ∧ ∃ line ∈ (splitLines octetBreaks content).rtake lines, ∀ record, ¬ Spelling line record := by
  rw [readFile_eq, ← mapM_decode_eq_none]
  unfold decodeRecords
  constructor
  · intro texts
    rw [← mapM_decode_iff]
    cases ((splitLines octetBreaks content).rtake lines).mapM Utf8.decode <;> simp
  · intro e
    cases ((splitLines octetBreaks content).rtake lines).mapM Utf8.decode <;> simp [eq_comm]

/-! ### A line that is longer than a chunk -/

/-- One line of 8192 characters; the first of them has two octets. -/
def longRecord : Text := ofCode 0xE9 :: List.replicate 8191 (codePoint 'x')

def longLine : List UInt8 := 0xC3 :: 0xA9 :: List.replicate 8191 0x78

theorem longLine_spelling : Spelling longLine longRecord := by
  have hsurrogate : ∀ c ∈ longRecord, isSurrogate c = false := by
    intro c hc
    rcases List.mem_cons.mp hc with rfl | hc
    · decide
    · rw [List.eq_of_mem_replicate hc]
      decide
  have hreplicate : ∀ n, (List.replicate n (codePoint 'x')).flatMap
      (fun c => Utf8.octetsOf c.val) = List.replicate n 0x78 := by
    intro n
    induction n with
    | zero => rfl
    | succ n ih => rw [List.replicate_succ, List.flatMap_cons, ih]; rfl
  have hoctets : longRecord.flatMap (fun c => Utf8.octetsOf c.val) = longLine := by
    rw [longRecord, List.flatMap_cons, hreplicate]
    rfl
  unfold Spelling
  rw [Utf8.encode_of_noSurrogate hsurrogate, hoctets]

/-- A line without a break in it, behind a line end, is the last line. -/
theorem rtake_splitLines_longLine {line : List UInt8} (hne : line ≠ [])
    (h : ∀ b ∈ line, octetBreaks.isBreak b = false) :
    (splitLines octetBreaks ([0x61, 0x0D, 0x0A] ++ line)).rtake 1 = [line] := by
  have hwhole : octetBreaks.Whole [0x61, 0x0D, 0x0A] := Breaks.whole_concat_lf [0x61, 0x0D]
  have hline : splitLines octetBreaks line = [line] :=
    splitLines_eq_singleton hne fun b hb => h b (List.mem_of_mem_dropLast hb)
  rw [splitLines_append hwhole, hline]
  rfl

/-- The first chunk ends inside of the character, and the line is read; without the first octet of
    the character it is refused. -/
theorem readFile_iff_longRecord :
    readFile "log" (some ([0x61, 0x0D, 0x0A] ++ longLine)) 1 = .ok [longRecord]
      ∧ readFile "log" (some ([0x61, 0x0D, 0x0A] ++ longLine.tail)) 1 = .error (.cannotRead "log") := by
  have hbreak : ∀ b ∈ longLine, octetBreaks.isBreak b = false := by
    intro b hb
    rcases List.mem_cons.mp hb with rfl | hb
    · decide
    rcases List.mem_cons.mp hb with rfl | hb
    · decide
    · rw [List.eq_of_mem_replicate hb]
      decide
  have hne : longLine ≠ [] := List.cons_ne_nil _ _
  have htail : longLine.tail ≠ [] := List.cons_ne_nil _ _
  constructor
  · refine ((readFile_iff "log" _ 1).1 [longRecord]).mpr ?_
    rw [rtake_splitLines_longLine hne hbreak]
    exact .cons longLine_spelling .nil
  · refine ((readFile_iff "log" _ 1).2 _).mpr ⟨rfl, ?_⟩
    rw [rtake_splitLines_longLine htail
      fun b hb => hbreak b (List.mem_of_mem_tail hb)]
    refine ⟨_, List.mem_singleton_self _, fun record hrecord => ?_⟩
    -- no character starts with the second octet
    have hnone : Utf8.decode longLine.tail = none := rfl
    rw [Utf8.decode_eq_some_iff.mpr hrecord] at hnone
    cases hnone

end Devlegate.Log
