import Devlegate.PythonText
import Devlegate.State
import Devlegate.Lib.JsonDump
import Devlegate.Lib.Octets

namespace Devlegate.DebFormat

open JsonText Octets

/-!
# The Debian archive

A binary package is an `ar` archive: eight octets of magic, then for each member a header of sixty
octets, the payload, and one more octet if the payload is odd.  The reader walks from header to
header by the size that each one declares, and the size is text that Python reads as an integer.

* `arMember` / `members`: the writer of one member, the reader of the whole archive.
* `HeaderAt`, `Passed`: a complete header at a position, and the way along the declared sizes.
* `walk_arMembers`: the reader follows what the writer wrote.
* `length_le_of_passed`: no position is passed twice, so the walk ends.
* `Laid`: members that lie side by side and fill the archive.
-/

/-! ### ASCII text -/

/-- `s.encode("ascii")`. -/
def asciiEncode (s : Text) : Option (List UInt8) :=
  if s.all fun c => c.val < 0x80 then some (s.map fun c => UInt8.ofNat c.val) else none

/-- `raw.decode("ascii")`. -/
def asciiDecode (raw : List UInt8) : Option Text :=
  if raw.all fun b => b.toNat < 0x80 then some (raw.map fun b => ofCode b.toNat) else none

/-- The ASCII characters that `str.strip` removes. -/
def isWhitespace (c : CodePoint) : Bool :=
  (0x09 ≤ c.val && c.val ≤ 0x0d) || (0x1c ≤ c.val && c.val ≤ 0x20)

/-- `s.strip()`, of ASCII text. -/
def strip (s : Text) : Text := (s.dropWhile isWhitespace).rdropWhile isWhitespace

def slash : CodePoint := codePoint '/'

/-- The digits of an integer literal; one underscore may stand between two of them. -/
def literalDigits : Text → Option Text
  | [] => none
  | [c] => if isDigit c then some [c] else none
  | c :: d :: rest =>
    if !isDigit c then none
    else if d = codePoint '_' then (literalDigits rest).map (c :: ·)
    else (literalDigits (d :: rest)).map (c :: ·)

/-- `int(s)`, of ASCII text without white space around it. -/
def pythonInt (s : Text) : Option Int :=
  match s with
  | [] => none
  | c :: rest =>
    if c = codePoint '+' then (literalDigits rest).map fun ds => (natOfDigits ds : Int)
    else if c = codePoint '-' then (literalDigits rest).map fun ds => -(natOfDigits ds : Int)
    else (literalDigits s).map fun ds => (natOfDigits ds : Int)

/-! ### The writer -/

/-- What is raised, and a walk that did not come to its end. -/
inductive Raised where
  | debFormat (message : Text)
  | unicode
  | unfinished
  deriving DecidableEq, Repr

/-- The text of an octet string that is written in the source. -/
def ascii (s : String) : List UInt8 := octets s

/-- `raw.ljust(width, b" ")`. -/
def ljust (width : Nat) (raw : List UInt8) : List UInt8 := raw.rightpad width 0x20

/-- `str(n).encode("ascii")`. -/
def decimal (n : Int) : List UInt8 := (dumpInt n).map fun c => UInt8.ofNat c.val

def magic : List UInt8 := ascii "!<arch>\n"

/-- The last two octets of a header. -/
def terminator : List UInt8 := ascii "`\n"

/-- The header of a member. -/
def arHeader (encoded : List UInt8) (timestamp : Int) (size : Nat) : List UInt8 :=
  ljust 16 encoded ++ ljust 12 (decimal timestamp) ++ ljust 6 (ascii "0") ++ ljust 6 (ascii "0")
    ++ ljust 8 (ascii "100644") ++ ljust 10 (decimal size) ++ terminator

/-- What fills a payload of odd length. -/
def padding (payload : List UInt8) : List UInt8 :=
  if payload.length % 2 = 1 then ascii "\n" else []

/-- `_ar_member`. -/
def arMember (name : Text) (payload : List UInt8) (timestamp : Int) :
    Except Raised (List UInt8) :=
  match asciiEncode name with
  | none => .error .unicode
  | some encoded =>
    if 16 < encoded.length then
      .error (.debFormat (text "Debian member name is too long: " ++ name))
    else .ok (arHeader encoded timestamp payload.length ++ payload ++ padding payload)

/-! ### The reader -/

/-- `header[:16].decode("ascii").strip().rstrip("/")`. -/
def memberName (header : List UInt8) : Option Text :=
  (asciiDecode (header.take 16)).map fun s => (strip s).rdropWhile (· = slash)

/-- `int(header[48:58].decode("ascii").strip())`. -/
def memberSize (header : List UInt8) : Option Int :=
  (asciiDecode ((header.take 58).drop 48)).bind fun s => pythonInt (strip s)

/-- The members read so far, in the order of the archive. -/
abbrev Members := List (Text × List UInt8)

/-- `data[position : position + 60]`. -/
def headerAt (data : List UInt8) (position : Int) : List UInt8 :=
  slice data position (position + 60)

/-- One turn of the loop: the position after the member, and the members with it. -/
def readMember (data : List UInt8) (position : Int) (result : Members) :
    Except Raised (Int × Members) :=
  if (data.length : Int) < position + 60 ∨ slice data (position + 58) (position + 60) ≠ terminator then
    .error (.debFormat (text "invalid Debian ar member header"))
  else
    match memberName (headerAt data position) with
    -- The name is decoded outside of the `try` that covers the size.
    | none => .error .unicode
    | some name =>
      match memberSize (headerAt data position) with
      | none => .error (.debFormat (text "invalid Debian ar member size"))
      | some size =>
        let start := position + 60
        let stop := start + size
        if (data.length : Int) < stop then .error (.debFormat (text "truncated Debian ar member"))
        else if name = [] ∨ name ∈ result.map (·.1) then
          .error (.debFormat (text "Debian ar archive contains duplicate members"))
        else .ok (stop + size % 2, result ++ [(name, slice data start stop)])

/-- The loop, for a number of turns. -/
def walk (data : List UInt8) : Nat → Int → Members → Except Raised Members
  | turns, position, result =>
    if position < data.length then
      match turns with
      | 0 => .error .unfinished
      | turns + 1 =>
        match readMember data position result with
        | .error e => .error e
        | .ok (position, result) => walk data turns position result
    else .ok result

/-- The checks behind the loop. -/
def checkBinary (result : Members) : Except Raised Members :=
  match result.lookup (text "debian-binary") with
  | none => .error (.debFormat (text "Debian package has unexpected ar members"))
  | some payload =>
    if payload ≠ ascii "2.0\n" then .error (.debFormat (text "unsupported Debian binary format"))
    else .ok result

/-- `members`, on the octets of the package. -/
def members (data : List UInt8) : Except Raised Members :=
  if data.take 8 ≠ magic then .error (.debFormat (text "not a Debian ar archive"))
  else
    match walk data (2 * data.length + 61) 8 [] with
    | .error e => .error e
    | .ok result => checkBinary result

/-! ### Text that is written and read back -/

theorem ofCode_toNat {c : CodePoint} (h : c.val < 0x80) : ofCode (UInt8.ofNat c.val).toNat = c := by
  ext
  simp only [ofCode, Fin.ofNat, UInt8.toNat_ofNat']
  omega

/-- ASCII text with blanks behind it is decoded to itself with blanks behind it. -/
theorem asciiDecode_blanks {s : Text} {encoded : List UInt8} (h : asciiEncode s = some encoded)
    (blanks : Nat) :
    asciiDecode (encoded ++ List.replicate blanks 0x20)
      = some (s ++ List.replicate blanks (codePoint ' ')) := by
  unfold asciiEncode at h
  split at h
  case isFalse => cases h
  case isTrue hascii =>
    have hcodes : ∀ c ∈ s, c.val < 0x80 := by simpa using hascii
    obtain rfl := Option.some.inj h
    have hall : (s.map (fun c : CodePoint => UInt8.ofNat c.val) ++ List.replicate blanks 0x20).all
        (fun b => b.toNat < 0x80) = true := by
      rw [List.all_eq_true]
      intro b hb
      rcases List.mem_append.mp hb with hb | hb
      · obtain ⟨c, hc, rfl⟩ := List.mem_map.mp hb
        have hcode := hcodes c hc
        simp only [UInt8.toNat_ofNat', decide_eq_true_eq]
        omega
      · rw [List.eq_of_mem_replicate hb]
        decide
    have hback : (s.map fun c : CodePoint => UInt8.ofNat c.val).map (fun b => ofCode b.toNat)
        = s := by
      rw [List.map_map]
      calc s.map _ = s.map id := List.map_congr_left fun c hc => ofCode_toNat (hcodes c hc)
        _ = s := List.map_id s
    rw [asciiDecode, if_pos hall, List.map_append, hback, List.map_replicate]
    rfl

theorem length_asciiEncode {s : Text} {encoded : List UInt8} (h : asciiEncode s = some encoded) :
    encoded.length = s.length := by
  unfold asciiEncode at h
  split at h
  case isFalse => cases h
  case isTrue =>
    rw [← Option.some.inj h, List.length_map]

/-- Blanks behind text are stripped with what is stripped from its end. -/
theorem rdropWhile_blanks (s : Text) (blanks : Nat) :
    (s ++ List.replicate blanks (codePoint ' ')).rdropWhile isWhitespace
      = s.rdropWhile isWhitespace := by
  induction blanks with
  | zero => rw [List.replicate_zero, List.append_nil]
  | succ blanks ih =>
    rw [List.replicate_succ', ← List.append_assoc, List.rdropWhile_concat_pos _ _ _ (by decide), ih]

/-- Text without white space around it. -/
theorem strip_eq_self_iff {s : Text} :
    strip s = s ↔ s.dropWhile isWhitespace = s ∧ s.rdropWhile isWhitespace = s := by
  constructor
  · intro h
    have hsuffix : s.dropWhile isWhitespace <:+ s := List.dropWhile_suffix _
    have hlen : s.length ≤ (s.dropWhile isWhitespace).length := by
      conv_lhs => rw [← h]
      exact (List.rdropWhile_prefix _ _).length_le
    have hfirst : s.dropWhile isWhitespace = s := hsuffix.eq_of_length_le hlen
    refine ⟨hfirst, ?_⟩
    rwa [strip, hfirst] at h
  · rintro ⟨hfirst, hlast⟩
    rw [strip, hfirst, hlast]

theorem strip_blanks {s : Text} (h : strip s = s) (blanks : Nat) :
    strip (s ++ List.replicate blanks (codePoint ' ')) = s := by
  obtain ⟨hfirst, hlast⟩ := strip_eq_self_iff.mp h
  cases s with
  | nil =>
    rw [strip, List.nil_append]
    have hblank : (List.replicate blanks (codePoint ' ')).dropWhile isWhitespace = [] := by
      rw [List.dropWhile_eq_nil_iff]
      intro c hc
      rw [List.eq_of_mem_replicate hc]
      decide
    rw [hblank, List.rdropWhile_nil]
  | cons c s =>
    have hc : isWhitespace c = false := by
      by_contra hspace
      rw [List.dropWhile_cons_of_pos (by simpa using hspace)] at hfirst
      have hlen := (List.dropWhile_suffix (p := isWhitespace) (l := s)).length_le
      rw [hfirst, List.length_cons] at hlen
      omega
    rw [strip, List.cons_append, List.dropWhile_cons_of_neg (by simp [hc]), ← List.cons_append,
      rdropWhile_blanks, hlast]

theorem literalDigits_eq_self {s : Text} (hne : s ≠ []) (h : ∀ c ∈ s, isDigit c = true) :
    literalDigits s = some s := by
  induction s using literalDigits.induct with
  | case1 => exact absurd rfl hne
  | case2 c hc => rw [literalDigits, if_pos hc]
  | case3 c hc => exact absurd (h c (by simp)) hc
  | case4 c d rest hc => simp [h c (by simp)] at hc
  | case5 c rest hc ih =>
    exact absurd (h (codePoint '_') (by simp)) (by decide)
  | case6 c d rest hc hd ih =>
    rw [literalDigits, if_neg hc, if_neg hd, ih (by simp) fun e he => h e (by simp [he])]
    rfl

/-- The decimal text of a number is read as the number. -/
theorem pythonInt_dumpNat (n : Nat) : pythonInt (dumpNat n) = some (n : Int) := by
  have hall : ∀ c ∈ dumpNat n, isDigit c = true := fun c hc => isDigit_of_mem_dumpNat hc
  obtain ⟨c, rest, -, hdump, hdigit, -⟩ := dumpNat_eq_cons n
  have hplus : c ≠ codePoint '+' := by
    rintro rfl
    exact absurd hdigit (by decide)
  have hminus : c ≠ codePoint '-' := by
    rintro rfl
    exact absurd hdigit (by decide)
  have hliteral := literalDigits_eq_self (by rw [hdump]; simp) hall
  have hvalue := natOfDigits_dumpNat n
  rw [hdump] at hliteral hvalue ⊢
  simp [pythonInt, hplus, hminus, hliteral, hvalue]

theorem strip_dumpNat (n : Nat) : strip (dumpNat n) = dumpNat n := by
  have hdigit : ∀ c, isDigit c = true → isWhitespace c = false := by
    intro c hc
    simp only [isDigit, Bool.and_eq_true, decide_eq_true_eq] at hc
    simp only [isWhitespace, Bool.or_eq_false_iff, Bool.and_eq_false_iff, decide_eq_false_iff_not]
    omega
  have hall : ∀ c ∈ dumpNat n, isWhitespace c = false := fun c hc =>
    hdigit c (isDigit_of_mem_dumpNat hc)
  rw [strip_eq_self_iff, List.rdropWhile_eq_self_iff]
  constructor
  · obtain ⟨c, rest, -, hdump, -⟩ := dumpNat_eq_cons n
    rw [hdump, List.dropWhile_cons_of_neg]
    simp [hall c (by simp [hdump])]
  · intro hne
    simp [hall _ (List.getLast_mem hne)]

theorem length_dumpNat_le {n width : Nat} (hwidth : 0 < width) (h : n < 10 ^ width) :
    (dumpNat n).length ≤ width := by
  unfold dumpNat
  split
  · rw [List.length_singleton]
    omega
  · simpa using (Nat.digits_length_le_iff (by decide) n).mpr h

theorem asciiEncode_dumpNat (n : Nat) : asciiEncode (dumpNat n) = some (decimal n) := by
  have hascii : (dumpNat n).all (fun c => c.val < 0x80) = true := by
    rw [List.all_eq_true]
    intro c hc
    have hdigit := isDigit_of_mem_dumpNat hc
    simp only [isDigit, Bool.and_eq_true, decide_eq_true_eq] at hdigit ⊢
    omega
  rw [asciiEncode, if_pos hascii]
  rfl

/-! ### A complete header -/

/-- A header with its last two octets, and the name and the size that are read from it. -/
structure HeaderAt (data : List UInt8) (position : Int) (name : Text) (size : Int) : Prop where
  inside : position + 60 ≤ data.length
  terminated : slice data (position + 58) (position + 60) = terminator
  name_eq : memberName (headerAt data position) = some name
  size_eq : memberSize (headerAt data position) = some size

/-- What one turn of the loop does when it goes through. -/
theorem readMember_eq_ok {data : List UInt8} {position next : Int} {result result' : Members} :
    readMember data position result = .ok (next, result') ↔
      ∃ name size, HeaderAt data position name size ∧ position + 60 + size ≤ data.length
        ∧ name ≠ [] ∧ name ∉ result.map (·.1) ∧ next = position + 60 + size + size % 2
        ∧ result'
          = result ++ [(name, slice data (position + 60) (position + 60 + size))] := by
  unfold readMember
  constructor
  · intro h
    split at h
    · cases h
    rename_i hheader
    rw [not_or, not_not, not_lt] at hheader
    split at h
    · cases h
    rename_i name hname
    split at h
    · cases h
    rename_i size hsize
    simp only at h
    split at h
    · cases h
    rename_i hstop
    split at h
    · cases h
    rename_i hfresh
    rw [not_or] at hfresh
    cases h
    exact ⟨name, size, ⟨hheader.1, hheader.2, hname, hsize⟩, by omega, hfresh.1, hfresh.2, rfl, rfl⟩
  · rintro ⟨name, size, hheader, hstop, hne, hfresh, rfl, rfl⟩
    rw [if_neg (by simpa [hheader.terminated] using hheader.inside)]
    simp only [hheader.name_eq, hheader.size_eq]
    rw [if_neg (by omega), if_neg (by simp only [not_or]; exact ⟨hne, hfresh⟩)]

/-- The name is the only part of a member that raises no `DebFormatError`. -/
theorem readMember_eq_error {data : List UInt8} {position : Int} {result : Members} {e : Raised}
    (h : readMember data position result = .error e) :
    (∃ message, e = .debFormat message)
      ∨ e = .unicode ∧ position + 60 ≤ data.length
        ∧ slice data (position + 58) (position + 60) = terminator
        ∧ memberName (headerAt data position) = none := by
  unfold readMember at h
  split at h
  · cases h
    exact .inl ⟨_, rfl⟩
  rename_i hheader
  rw [not_or, not_not, not_lt] at hheader
  split at h
  · rename_i hname
    cases h
    exact .inr ⟨rfl, hheader.1, hheader.2, hname⟩
  split at h
  · cases h
    exact .inl ⟨_, rfl⟩
  simp only at h
  split at h
  · cases h
    exact .inl ⟨_, rfl⟩
  split at h
  · cases h
    exact .inl ⟨_, rfl⟩
  · cases h

/-! ### What the writer wrote -/

/-- A member as it is handed to the writer. -/
structure Entry where
  name : Text
  payload : List UInt8
  timestamp : Int

/-- The values fit the fields of the header, and the name survives `strip` and `rstrip("/")`. -/
structure Entry.Plain (entry : Entry) : Prop where
  ascii : ∀ c ∈ entry.name, c.val < 0x80
  nonempty : entry.name ≠ []
  short : entry.name.length ≤ 16
  stripped : strip entry.name = entry.name
  no_slash : ∀ c ∈ entry.name.getLast?, c ≠ slash
  payload_lt : entry.payload.length < 10 ^ 10
  timestamp_fits : (dumpInt entry.timestamp).length ≤ 12

theorem ljust_eq {width : Nat} (raw : List UInt8) :
    ljust width raw = raw ++ List.replicate (width - raw.length) 0x20 := rfl

theorem length_ljust {width : Nat} {raw : List UInt8} (h : raw.length ≤ width) :
    (ljust width raw).length = width := by
  rw [ljust_eq, List.length_append, List.length_replicate]
  omega

section Header

variable {encoded : List UInt8} {timestamp : Int} {size : Nat}

/-- The fields of a header stand where the reader looks for them. -/
theorem arHeader_fields (hencoded : encoded.length ≤ 16) (htime : (decimal timestamp).length ≤ 12)
    (hsize : (decimal size).length ≤ 10) :
    (arHeader encoded timestamp size).length = 60
      ∧ (arHeader encoded timestamp size).take 16 = ljust 16 encoded
      ∧ ((arHeader encoded timestamp size).take 58).drop 48 = ljust 10 (decimal size)
      ∧ (arHeader encoded timestamp size).drop 58 = terminator := by
  have hname : (ljust 16 encoded).length = 16 := length_ljust hencoded
  have hmiddle : (ljust 12 (decimal timestamp)).length = 12 := length_ljust htime
  have hlast : (ljust 10 (decimal size)).length = 10 := length_ljust hsize
  have howner : (ljust 6 (ascii "0")).length = 6 := by decide
  have hmode : (ljust 8 (ascii "100644")).length = 8 := by decide
  have hend : terminator.length = 2 := by decide
  have hfront : (ljust 16 encoded ++ ljust 12 (decimal timestamp) ++ ljust 6 (ascii "0")
      ++ ljust 6 (ascii "0") ++ ljust 8 (ascii "100644")).length = 48 := by
    simp only [List.length_append, hname, hmiddle, howner, hmode]
  unfold arHeader
  refine ⟨?_, ?_, ?_, ?_⟩
  · simp only [List.length_append, hname, hmiddle, howner, hmode, hlast, hend]
  · simp only [List.append_assoc]
    rw [List.take_append_of_le_length (by omega), List.take_of_length_le (by omega)]
  · rw [List.take_append_of_le_length (by rw [List.length_append]; omega),
      List.take_of_length_le (by rw [List.length_append]; omega), ← hfront, List.drop_left]
  · rw [List.drop_left' (by rw [List.length_append]; omega)]

end Header

/-- A header of sixty octets, found where it stands. -/
theorem headerAt_append {before header after : List UInt8} (h : header.length = 60) :
    headerAt (before ++ header ++ after) before.length = header
      ∧ slice (before ++ header ++ after) (before.length + 58) (before.length + 60)
        = header.drop 58 := by
  constructor
  · exact slice_append rfl (by rw [h]; rfl)
  · have hsplit : before ++ header ++ after
        = before ++ header.take 58 ++ header.drop 58 ++ after := by
      rw [List.append_assoc before (header.take 58), List.take_append_drop]
    rw [hsplit]
    apply slice_append
    · rw [List.length_append, List.length_take, h]
      rfl
    · rw [List.length_append, List.length_take, List.length_drop, h]
      rfl

/-- The octets of a member that the writer accepts. -/
def Entry.octets (entry : Entry) : List UInt8 :=
  arHeader ((asciiEncode entry.name).getD []) entry.timestamp entry.payload.length
    ++ entry.payload ++ padding entry.payload

section Plain

variable {entry : Entry} (h : entry.Plain)
include h

theorem Entry.Plain.asciiEncode_eq :
    asciiEncode entry.name = some ((asciiEncode entry.name).getD []) := by
  have hall : entry.name.all (fun c => c.val < 0x80) = true := by simpa using h.ascii
  simp [asciiEncode, hall]

theorem Entry.Plain.fields :
    ((asciiEncode entry.name).getD []).length ≤ 16 ∧ (decimal entry.timestamp).length ≤ 12
      ∧ (decimal entry.payload.length).length ≤ 10 := by
  refine ⟨?_, ?_, ?_⟩
  · rw [length_asciiEncode h.asciiEncode_eq]
    exact h.short
  · rw [decimal, List.length_map]
    exact h.timestamp_fits
  · rw [decimal, List.length_map]
    exact length_dumpNat_le (by decide) h.payload_lt

/-- The writer accepts it. -/
theorem Entry.Plain.arMember_eq :
    arMember entry.name entry.payload entry.timestamp = .ok entry.octets := by
  have hshort := h.fields.1
  rw [arMember, h.asciiEncode_eq]
  simp only
  rw [if_neg (by omega)]
  rfl

/-- The reader finds name and size in the header. -/
theorem Entry.Plain.headerAt (before after : List UInt8) :
    HeaderAt (before ++ entry.octets ++ after) before.length entry.name entry.payload.length := by
  obtain ⟨hname, htime, hsize⟩ := h.fields
  obtain ⟨hlen, hfirst, hmiddle, hlast⟩ := arHeader_fields hname htime hsize
  have hdata : before ++ entry.octets ++ after
      = before ++ arHeader ((asciiEncode entry.name).getD []) entry.timestamp entry.payload.length
        ++ (entry.payload ++ padding entry.payload ++ after) := by
    simp only [Entry.octets, List.append_assoc]
  obtain ⟨hheader, hend⟩ := @headerAt_append before _
    (entry.payload ++ padding entry.payload ++ after) hlen
  rw [hdata]
  refine ⟨?_, ?_, ?_, ?_⟩
  · simp only [List.length_append, hlen]
    omega
  · rw [hend, hlast]
  · have hdecoded := asciiDecode_blanks h.asciiEncode_eq
      (16 - ((asciiEncode entry.name).getD []).length)
    have hslash : entry.name.rdropWhile (· = slash) = entry.name := by
      rw [List.rdropWhile_eq_self_iff]
      intro hne
      simpa using h.no_slash _ (List.getLast?_eq_getLast_of_ne_nil hne)
    rw [hheader, memberName, hfirst, ljust_eq, hdecoded, Option.map_some, strip_blanks h.stripped,
      hslash]
  · have hdecoded := asciiDecode_blanks (asciiEncode_dumpNat entry.payload.length)
      (10 - (decimal entry.payload.length).length)
    rw [hheader, memberSize, hmiddle, ljust_eq, hdecoded, Option.bind_some,
      strip_blanks (strip_dumpNat _), pythonInt_dumpNat]

theorem Entry.Plain.length_octets :
    (entry.octets.length : Int)
      = 60 + (entry.payload.length : Int) + (entry.payload.length : Int) % 2 := by
  obtain ⟨hname, htime, hsize⟩ := h.fields
  have hpad : (padding entry.payload).length = entry.payload.length % 2 := by
    unfold padding
    split
    case isTrue hodd => rw [hodd]; rfl
    case isFalse heven => rw [List.length_nil]; omega
  simp only [Entry.octets, List.length_append, (arHeader_fields hname htime hsize).1, hpad]
  omega

/-- One turn of the loop reads one member that the writer wrote. -/
theorem Entry.Plain.readMember_eq (before after : List UInt8) {result : Members}
    (hfresh : entry.name ∉ result.map (·.1)) :
    readMember (before ++ entry.octets ++ after) before.length result
      = .ok ((before ++ entry.octets).length, result ++ [(entry.name, entry.payload)]) := by
  obtain ⟨hname, htime, hsize⟩ := h.fields
  have hlen := h.length_octets
  have hheader := (arHeader_fields hname htime hsize).1
  have hpayload : slice (before ++ entry.octets ++ after) (before.length + 60)
      (before.length + 60 + entry.payload.length) = entry.payload := by
    have hdata : before ++ entry.octets ++ after
        = before ++ arHeader ((asciiEncode entry.name).getD []) entry.timestamp
            entry.payload.length ++ entry.payload ++ (padding entry.payload ++ after) := by
      simp only [Entry.octets, List.append_assoc]
    rw [hdata]
    apply slice_append
    · rw [List.length_append, hheader]
      rfl
    · rw [List.length_append, hheader]
      rfl
  refine readMember_eq_ok.mpr ⟨_, _, h.headerAt before after, ?_, h.nonempty, hfresh, ?_, ?_⟩
  · simp only [List.length_append]
    omega
  · rw [List.length_append]
    omega
  · rw [hpayload]

end Plain

/-! ### The reader inverts the writer -/

/-- The magic and the members one after the other, as `build` writes them. -/
def archive (entries : List Entry) : Except Raised (List UInt8) := do
  let encodings ← entries.mapM fun entry => arMember entry.name entry.payload entry.timestamp
  return magic ++ encodings.flatten

theorem archive_eq {entries : List Entry} (h : ∀ entry ∈ entries, entry.Plain) :
    archive entries = .ok (magic ++ entries.flatMap Entry.octets) := by
  have hmap : entries.mapM (fun entry => arMember entry.name entry.payload entry.timestamp)
      = .ok (entries.map Entry.octets) := by
    induction entries with
    | nil => rfl
    | cons entry entries ih =>
      rw [List.mapM_cons, (h entry (by simp)).arMember_eq, ih fun e he => h e (by simp [he])]
      rfl
  rw [archive, hmap]
  rfl

/-- **The walk over written members.** Behind the members read so far, the loop reads one entry after
    the other and stops at the end of the data. -/
theorem walk_entries {entries : List Entry} (h : ∀ entry ∈ entries, entry.Plain)
    (hnames : (entries.map (·.name)).Nodup) :
    ∀ (before : List UInt8) (result : Members) (turns : Nat), entries.length ≤ turns →
      (∀ entry ∈ entries, entry.name ∉ result.map (·.1)) →
      walk (before ++ entries.flatMap Entry.octets) turns before.length result
        = .ok (result ++ entries.map fun entry => (entry.name, entry.payload)) := by
  induction entries with
  | nil =>
    intro before result turns _ _
    unfold walk
    simp
  | cons entry entries ih =>
    intro before result turns hturns hfresh
    have hplain := h entry (by simp)
    have hlen := hplain.length_octets
    rw [List.map_cons, List.nodup_cons] at hnames
    obtain ⟨turns, rfl⟩ : ∃ n, turns = n + 1 := ⟨turns - 1, by simp at hturns; omega⟩
    have hread := hplain.readMember_eq before (entries.flatMap Entry.octets)
      (hfresh entry (by simp))
    rw [List.flatMap_cons, ← List.append_assoc, walk, if_pos, hread]
    · simp only
      rw [ih (fun e he => h e (by simp [he])) hnames.2 (before ++ entry.octets) _ turns]
      · rw [List.append_assoc]
        rfl
      · simpa using hturns
      · intro e he
        rw [List.map_append, List.mem_append, not_or]
        refine ⟨hfresh e (by simp [he]), ?_⟩
        intro hsame
        -- The names are distinct, so the entry just read is none of those to come.
        have hname : e.name = entry.name := by simpa using hsame
        exact hnames.1 (hname ▸ List.mem_map_of_mem he)
    · simp only [List.length_append]
      omega

theorem length_le_octets {entries : List Entry} (h : ∀ entry ∈ entries, entry.Plain) :
    entries.length ≤ (entries.flatMap Entry.octets).length := by
  induction entries with
  | nil => simp
  | cons entry entries ih =>
    have hone := (h entry (by simp)).length_octets
    have hrest := ih fun e he => h e (by simp [he])
    rw [List.flatMap_cons, List.length_append, List.length_cons]
    omega

/-- Under distinct names, the payload of an entry is found by its name. -/
theorem lookup_entries {entries : List Entry} (hnames : (entries.map (·.name)).Nodup)
    {entry : Entry} (hentry : entry ∈ entries) :
    (entries.map fun entry => (entry.name, entry.payload)).lookup entry.name
      = some entry.payload := by
  obtain ⟨front, back, rfl⟩ := List.append_of_mem hentry
  rw [List.lookup_eq_some_iff]
  refine ⟨front.map fun entry => (entry.name, entry.payload),
    back.map fun entry => (entry.name, entry.payload), by rw [List.map_append, List.map_cons], ?_⟩
  intro p hp
  obtain ⟨e, he, rfl⟩ := List.mem_map.mp hp
  rw [List.map_append, List.nodup_append] at hnames
  have hne := hnames.2.2 e.name (List.mem_map_of_mem he) entry.name (by simp)
  simpa using hne.symm

/-- A name that does not fit its field is refused. -/
theorem arMember_long {name : Text} (hlong : 16 < name.length) (payload : List UInt8)
    (timestamp : Int) :
    (∀ data, arMember name payload timestamp ≠ .ok data)
      ∧ ((∀ c ∈ name, c.val < 0x80) → arMember name payload timestamp
        = .error (.debFormat (text "Debian member name is too long: " ++ name))) := by
  cases hencoded : asciiEncode name with
  | none =>
    refine ⟨by simp [arMember, hencoded], ?_⟩
    intro hascii
    have hall : name.all (fun c => c.val < 0x80) = true := by simpa using hascii
    simp [asciiEncode, hall] at hencoded
  | some encoded =>
    have hrefused : arMember name payload timestamp
        = .error (.debFormat (text "Debian member name is too long: " ++ name)) := by
      rw [← length_asciiEncode hencoded] at hlong
      rw [arMember, hencoded]
      exact if_pos hlong
    exact ⟨by simp [hrefused], fun _ => hrefused⟩

/-- **The reader inverts the writer.** What is written for plain entries with distinct names, one of
    them the format marker, is read back as their names and payloads in order.  A longer name is
    refused by the writer. -/
theorem members_archive {entries : List Entry} (hplain : ∀ entry ∈ entries, entry.Plain)
    (hnames : (entries.map (·.name)).Nodup)
    (hbinary : ∃ entry ∈ entries,
      entry.name = text "debian-binary" ∧ entry.payload = ascii "2.0\n") :
    (∃ data, archive entries = .ok data
        ∧ members data = .ok (entries.map fun entry => (entry.name, entry.payload)))
      ∧ ∀ name : Text, 16 < name.length → ∀ (payload : List UInt8) (timestamp : Int),
        (∀ data, arMember name payload timestamp ≠ .ok data)
        ∧ ((∀ c ∈ name, c.val < 0x80) → arMember name payload timestamp
          = .error (.debFormat (text "Debian member name is too long: " ++ name))) := by
  refine ⟨⟨_, archive_eq hplain, ?_⟩, fun name hlong => arMember_long hlong⟩
  have hcount : entries.length ≤ 2 * (magic ++ entries.flatMap Entry.octets).length + 61 := by
    have hle := length_le_octets hplain
    rw [List.length_append]
    omega
  have hwalk := walk_entries hplain hnames magic [] _ hcount (by simp)
  have hmagic : (magic.length : Int) = 8 := by decide
  rw [hmagic, List.nil_append] at hwalk
  have htake : (magic ++ entries.flatMap Entry.octets).take 8 = magic :=
    List.take_left' (by decide)
  rw [members, if_neg (by rw [htake]; simp), hwalk]
  obtain ⟨entry, hentry, hname, hpayload⟩ := hbinary
  have hlookup := lookup_entries hnames hentry
  rw [hname, hpayload] at hlookup
  simp [checkBinary, hlookup]

/-- A package with an odd member between two even ones. -/
def sampleEntries : List Entry :=
  [⟨text "debian-binary", ascii "2.0\n", 1700000000⟩, ⟨text "control.tar.gz", ascii "abc", 0⟩,
    ⟨text "data.tar.gz", [], -1⟩]

theorem members_archive_sample :
    ∃ data, archive sampleEntries = .ok data
      ∧ members data = .ok [(text "debian-binary", ascii "2.0\n"),
        (text "control.tar.gz", ascii "abc"), (text "data.tar.gz", [])] := by
  have hplain : ∀ entry ∈ sampleEntries, entry.Plain := by
    intro entry hentry
    simp only [sampleEntries, List.mem_cons, List.not_mem_nil, or_false] at hentry
    obtain rfl | rfl | rfl := hentry
    all_goals
      refine ⟨?_, by decide, by decide, by decide, ?_, by decide, by decide⟩
      · have hall : (text "debian-binary" ++ text "control.tar.gz" ++ text "data.tar.gz").all
            (fun c => c.val < 0x80) = true := by decide
        intro c hc
        simpa using List.all_eq_true.mp hall c (by simp [hc])
      · rintro c hc rfl
        exact absurd (Option.mem_def.mp hc) (by decide)
  exact (members_archive hplain (by decide)
    ⟨_, List.mem_cons_self, rfl, rfl⟩).1

/-! ### The way along the declared sizes -/

/-- A header that was passed. -/
structure PassedHeader where
  position : Int
  name : Text
  size : Int

/-- The way from the magic along the declared sizes.  Every header passed is complete, has a name of
    its own, and declares a payload that does not end behind the data. -/
inductive Passed (data : List UInt8) : List PassedHeader → Int → Prop
  | start : Passed data [] 8
  | next {headers : List PassedHeader} {position : Int} {name : Text} {size : Int} :
    Passed data headers position → HeaderAt data position name size →
    position + 60 + size ≤ data.length → name ≠ [] → name ∉ headers.map (·.name) →
    Passed data (headers ++ [⟨position, name, size⟩]) (position + 60 + size + size % 2)

/-- What the headers passed contribute to the result. -/
def passedMembers (data : List UInt8) (headers : List PassedHeader) : Members :=
  headers.map fun h => (h.name, slice data (h.position + 60) (h.position + 60 + h.size))

theorem names_passedMembers (data : List UInt8) (headers : List PassedHeader) :
    (passedMembers data headers).map (·.1) = headers.map (·.name) := by
  rw [passedMembers, List.map_map]
  rfl

section Passed

variable {data : List UInt8} {headers : List PassedHeader} {position : Int}

theorem passed_header (h : Passed data headers position) :
    ∀ header ∈ headers, HeaderAt data header.position header.name header.size := by
  induction h with
  | start => simp
  | next h hheader hstop hne hfresh ih =>
    intro header hmem
    rcases List.mem_append.mp hmem with hmem | hmem
    · exact ih header hmem
    · rw [List.mem_singleton.mp hmem]
      exact hheader

theorem passed_names (h : Passed data headers position) : (headers.map (·.name)).Nodup := by
  induction h with
  | start => simp
  | next h hheader hstop hne hfresh ih =>
    rw [List.map_append, List.map_singleton, ← List.concat_eq_append]
    exact List.Nodup.concat hfresh ih

/-- A header stands at most its own length in front of the data. -/
theorem HeaderAt.range {name : Text} {size : Int} (h : HeaderAt data position name size) :
    -(data.length : Int) - 60 ≤ position ∧ position < data.length := by
  have hinside := h.inside
  refine ⟨?_, by omega⟩
  by_contra hfar
  have hnone : slice data (position + 58) (position + 60) = [] :=
    slice_of_le_neg (by omega) (by omega)
  have hsome := h.terminated
  rw [hnone] at hsome
  exact absurd hsome (by decide)

/-- **No position is passed twice.** The name of a header is read at its position, and the names
    differ; so there are no more headers than positions. -/
theorem length_le_of_passed (h : Passed data headers position) :
    headers.length ≤ 2 * data.length + 60 := by
  have hnames : headers.map (·.name)
      = (headers.map (·.position)).map fun p => (memberName (headerAt data p)).getD [] := by
    rw [List.map_map]
    apply List.map_congr_left
    intro header hmem
    simp [(passed_header h header hmem).name_eq]
  have hpositions : (headers.map (·.position)).Nodup := by
    apply List.Nodup.of_map
    rw [← hnames]
    exact passed_names h
  have hle := length_le_of_nodup_Ico hpositions (fun p hp => by
    obtain ⟨header, hmem, rfl⟩ := List.mem_map.mp hp
    exact (passed_header h header hmem).range)
  rw [List.length_map] at hle
  omega

theorem walk_end {result : Members} (h : (data.length : Int) ≤ position) (turns : Nat) :
    walk data turns position result = .ok result := by
  unfold walk
  exact if_neg (by omega)

theorem walk_error {result : Members} {e : Raised} (h : position < data.length)
    (hread : readMember data position result = .error e) (turns : Nat) :
    walk data (turns + 1) position result = .error e := by
  rw [walk, if_pos h, hread]

/-- The loop goes the way along the declared sizes. -/
theorem walk_passed (h : Passed data headers position) (turns : Nat) :
    walk data (headers.length + turns) 8 [] = walk data turns position (passedMembers data headers) := by
  induction h generalizing turns with
  | start => rw [List.length_nil, Nat.zero_add]; rfl
  | @next headers position name size h hheader hstop hne hfresh ih =>
    have hread : readMember data position (passedMembers data headers)
        = .ok (position + 60 + size + size % 2,
          passedMembers data (headers ++ [⟨position, name, size⟩])) := by
      refine readMember_eq_ok.mpr ⟨name, size, hheader, hstop, hne, ?_, rfl, ?_⟩
      · rwa [names_passedMembers]
      · rw [passedMembers, List.map_append]
        rfl
    have hinside := hheader.inside
    have hturns : (headers ++ [(⟨position, name, size⟩ : PassedHeader)]).length + turns
        = headers.length + (turns + 1) := by
      rw [List.length_append, List.length_singleton]
      omega
    rw [hturns, ih, walk, if_pos (by omega), hread]

/-- **The loop ends.** It comes to the end of the data, or to a turn that raises. -/
theorem walk_ends (data : List UInt8) :
    ∃ headers position, Passed data headers position ∧
      ((data.length : Int) ≤ position
          ∧ walk data (2 * data.length + 61) 8 [] = .ok (passedMembers data headers)
        ∨ ∃ e, readMember data position (passedMembers data headers) = .error e
          ∧ walk data (2 * data.length + 61) 8 [] = .error e) := by
  suffices hway : ∀ turns headers position, Passed data headers position →
      headers.length + turns = 2 * data.length + 61 →
      ∃ headers position, Passed data headers position ∧
        ((data.length : Int) ≤ position
            ∧ walk data (2 * data.length + 61) 8 [] = .ok (passedMembers data headers)
          ∨ ∃ e, readMember data position (passedMembers data headers) = .error e
            ∧ walk data (2 * data.length + 61) 8 [] = .error e) from
    hway (2 * data.length + 61) [] 8 .start (by simp)
  intro turns
  induction turns with
  | zero =>
    intro headers position h hturns
    have hle := length_le_of_passed h
    omega
  | succ turns ih =>
    intro headers position h hturns
    have hwalk := walk_passed h (turns + 1)
    rw [hturns] at hwalk
    by_cases hend : (data.length : Int) ≤ position
    · refine ⟨headers, position, h, .inl ⟨hend, ?_⟩⟩
      rw [hwalk, walk_end hend]
    · cases hread : readMember data position (passedMembers data headers) with
      | error e =>
        refine ⟨headers, position, h, .inr ⟨e, hread, ?_⟩⟩
        rw [hwalk, walk_error (by omega) hread]
      | ok after =>
        obtain ⟨name, size, hheader, hstop, hne, hfresh, -, -⟩ := readMember_eq_ok.mp hread
        rw [names_passedMembers] at hfresh
        refine ih _ _ (.next h hheader hstop hne hfresh) ?_
        rw [List.length_append, List.length_singleton]
        omega

end Passed

/-! ### Members that fill the archive -/

/-- A header of sixty octets with the name and the size of a member. -/
structure Header (header : List UInt8) (name : Text) (size : Nat) : Prop where
  length_eq : header.length = 60
  terminated : header.drop 58 = terminator
  name_eq : memberName header = some name
  size_eq : memberSize header = some (size : Int)

/-- Members one after the other, with nothing between them: each is a header, a payload of the
    declared size, and an octet more if the size is odd.  That octet may be missing at the end. -/
inductive Laid : List UInt8 → Members → Prop
  | nil : Laid [] []
  | last {header payload : List UInt8} {name : Text} :
    Header header name payload.length → Laid (header ++ payload) [(name, payload)]
  | cons {header payload pad rest : List UInt8} {name : Text} {archive : Members} :
    Header header name payload.length → pad.length = payload.length % 2 → Laid rest archive →
    Laid (header ++ payload ++ pad ++ rest) ((name, payload) :: archive)

theorem Laid.eq_nil {archive : Members} (h : Laid [] archive) : archive = [] := by
  generalize hdata : ([] : List UInt8) = data at h
  cases h with
  | nil => rfl
  | last hheader =>
    have hlen := congrArg List.length hdata
    simp only [List.length_nil, List.length_append, hheader.length_eq] at hlen
    omega
  | cons hheader hpad hrest =>
    have hlen := congrArg List.length hdata
    simp only [List.length_nil, List.length_append, hheader.length_eq] at hlen
    omega

/-- What stands in front of the other members. -/
theorem Laid.first {rest : List UInt8} {archive : Members} (h : Laid rest archive)
    (hne : archive ≠ []) :
    ∃ (header payload : List UInt8) (name : Text),
      Header header name payload.length ∧ rest.take 60 = header
      ∧ Laid (rest.drop (60 + payload.length + payload.length % 2)) archive.tail := by
  cases h with
  | nil => exact absurd rfl hne
  | @last header payload name hheader =>
    refine ⟨header, payload, name, hheader, List.take_left' hheader.length_eq, ?_⟩
    rw [List.drop_eq_nil_of_le (by rw [List.length_append, hheader.length_eq]; omega)]
    exact .nil
  | @cons header payload pad rest name archive hheader hpad hrest =>
    refine ⟨header, payload, name, hheader, ?_, ?_⟩
    · rw [List.append_assoc, List.append_assoc, List.take_left' hheader.length_eq]
    · rw [List.drop_left' (by simp only [List.length_append, hheader.length_eq, hpad])]
      exact hrest

section Laid

variable {data : List UInt8} {headers : List PassedHeader} {position : Int}

/-- A header at a position inside the data. -/
theorem HeaderAt.header {start size : Nat} {name : Text} (h : HeaderAt data start name size) :
    Header (slice data start (start + 60 : Nat)) name size := by
  have hinside : start + 60 ≤ data.length := by
    have hle := h.inside
    omega
  refine ⟨?_, ?_, h.name_eq, h.size_eq⟩
  · rw [length_slice (by omega) hinside]
    omega
  · have hend := h.terminated
    have hfrom : ((start : Int) + 58) = ((start + 58 : Nat) : Int) := by omega
    have hto : ((start : Int) + 60) = ((start + 60 : Nat) : Int) := by omega
    rw [hfrom, hto, slice_natCast (by omega) hinside] at hend
    rw [slice_natCast (by omega) hinside, List.drop_drop]
    exact hend

/-- A member in front of members that fill the rest. -/
theorem Laid.member {start size : Nat} {name : Text} (h : HeaderAt data start name size)
    (hstop : start + 60 + size ≤ data.length) {archive : Members}
    (hrest : Laid (data.drop (start + 60 + size + size % 2)) archive) :
    Laid (data.drop start)
      ((name, slice data (start + 60 : Nat) (start + 60 + size : Nat)) :: archive) := by
  have hpayload : (slice data (start + 60 : Nat) (start + 60 + size : Nat)).length = size := by
    rw [length_slice (by omega) hstop]
    omega
  have hheader := h.header
  rw [← hpayload] at hheader
  have hfront : data.drop start = slice data start (start + 60 : Nat)
      ++ slice data (start + 60 : Nat) (start + 60 + size : Nat)
      ++ data.drop (start + 60 + size) := by
    rw [List.append_assoc, ← slice_drop (by omega) hstop, ← slice_drop (by omega) (by omega)]
  by_cases hend : start + 60 + size + size % 2 ≤ data.length
  · have hpad : data.drop (start + 60 + size)
        = slice data (start + 60 + size : Nat) (start + 60 + size + size % 2 : Nat)
          ++ data.drop (start + 60 + size + size % 2) := slice_drop (by omega) hend
    rw [hfront, hpad, ← List.append_assoc]
    refine .cons hheader ?_ hrest
    rw [length_slice (by omega) hend, hpayload]
    omega
  · -- The payload is odd and ends the data: there is no octet behind it.
    have hnil : data.drop (start + 60 + size) = [] := List.drop_eq_nil_of_le (by omega)
    rw [List.drop_eq_nil_of_le (by omega)] at hrest
    rw [hfront, hnil, List.append_nil, hrest.eq_nil]
    exact .last hheader

/-- Where no header passed declares a negative size, the members passed lie side by side. -/
theorem Laid.passed (h : Passed data headers position) (hsizes : ∀ header ∈ headers, 0 ≤ header.size) :
    ∃ start : Nat, position = start ∧ ∀ archive, Laid (data.drop start) archive →
      Laid (data.drop 8) (passedMembers data headers ++ archive) := by
  induction h with
  | start => exact ⟨8, rfl, fun archive harchive => harchive⟩
  | @next headers position name size h hheader hstop hne hfresh ih =>
    obtain ⟨start, rfl, hbefore⟩ := ih fun header hmem => hsizes header (by simp [hmem])
    obtain ⟨size, rfl⟩ := Int.eq_ofNat_of_zero_le (hsizes ⟨start, name, size⟩ (by simp))
    refine ⟨start + 60 + size + size % 2, by push_cast; rfl, ?_⟩
    intro archive harchive
    have hmember := Laid.member hheader (by omega) harchive
    have hlaid := hbefore _ hmember
    rw [passedMembers, List.map_append, List.append_assoc]
    exact hlaid

/-- Where members fill the data, the headers passed are theirs. -/
theorem Laid.sizes {archive : Members} (hlaid : Laid (data.drop 8) archive)
    (h : Passed data headers position) (hcount : headers.length ≤ archive.length) :
    (∀ header ∈ headers, 0 ≤ header.size)
      ∧ ∃ start : Nat, position = start
        ∧ Laid (data.drop start) (archive.drop headers.length) := by
  induction h with
  | start => exact ⟨by simp, 8, rfl, hlaid⟩
  | @next headers position name size h hheader hstop hne hfresh ih =>
    rw [List.length_append, List.length_singleton] at hcount
    obtain ⟨hsizes, start, rfl, hrest⟩ := ih (by omega)
    obtain ⟨header, payload, name', hfirst, htake, hnext⟩ :=
      hrest.first (List.ne_nil_of_length_pos (by rw [List.length_drop]; omega))
    have hinside := hheader.inside
    have hsame : headerAt data start = header := by
      have hto : ((start : Int) + 60) = ((start + 60 : Nat) : Int) := by omega
      rw [← htake, headerAt, hto, slice_natCast (by omega) (by omega), List.take_drop,
        Nat.add_comm]
    have hsize : size = payload.length := by
      have hread := hheader.size_eq
      rw [hsame, hfirst.size_eq] at hread
      exact (Option.some.inj hread).symm
    subst hsize
    constructor
    · intro header hmem
      rcases List.mem_append.mp hmem with hmem | hmem
      · exact hsizes header hmem
      · rw [List.mem_singleton.mp hmem]
        exact Int.natCast_nonneg _
    · refine ⟨start + 60 + payload.length + payload.length % 2, by push_cast; rfl, ?_⟩
      rw [List.drop_drop, List.tail_drop, ← Nat.add_assoc, ← Nat.add_assoc] at hnext
      rw [List.length_append, List.length_singleton]
      exact hnext

end Laid

/-! ### Every package -/

/-- A package is read as members that fill it, or refused with a `DebFormatError`. -/
def Reads (data : List UInt8) : Prop :=
  (∃ archive, members data = .ok archive ∧ ∃ rest, data = magic ++ rest ∧ Laid rest archive)
    ∨ ∃ message, members data = .error (.debFormat message)

/-- Every header that is met has a name of ASCII octets. -/
def AsciiNames (data : List UInt8) : Prop :=
  ∀ headers position, Passed data headers position → position + 60 ≤ data.length →
    slice data (position + 58) (position + 60) = terminator →
    ∀ b ∈ (headerAt data position).take 16, b.toNat < 0x80

/-- Where the way comes to the end of the data, and the format marker is among the members, no header
    passed declares a negative size. -/
def NaturalSizes (data : List UInt8) : Prop :=
  ∀ headers position, Passed data headers position → (data.length : Int) ≤ position →
    (passedMembers data headers).lookup (text "debian-binary") = some (ascii "2.0\n") →
    ∀ header ∈ headers, 0 ≤ header.size

theorem memberName_eq_none {header : List UInt8} :
    memberName header = none ↔ ¬ ∀ b ∈ header.take 16, b.toNat < 0x80 := by
  unfold memberName asciiDecode
  by_cases hall : (header.take 16).all (fun b => b.toNat < 0x80) = true
  · rw [if_pos hall]
    simpa using hall
  · rw [if_neg hall]
    simpa using hall

theorem checkBinary_eq_ok {result archive : Members} :
    checkBinary result = .ok archive
      ↔ result.lookup (text "debian-binary") = some (ascii "2.0\n") ∧ archive = result := by
  unfold checkBinary
  split
  case h_1 hnone => simp [hnone]
  case h_2 payload hsome =>
    by_cases hpayload : payload = ascii "2.0\n"
    · simp [hsome, hpayload, eq_comm]
    · simp [hsome, hpayload]

theorem checkBinary_eq_error {result : Members}
    (h : result.lookup (text "debian-binary") ≠ some (ascii "2.0\n")) :
    ∃ message, checkBinary result = .error (.debFormat message) := by
  unfold checkBinary
  split
  case h_1 => exact ⟨_, rfl⟩
  case h_2 payload hsome =>
    rw [if_pos (by simpa [hsome] using h)]
    exact ⟨_, rfl⟩

section Members

variable {data : List UInt8}

theorem members_of_magic (h : data.take 8 = magic) :
    members data = match walk data (2 * data.length + 61) 8 [] with
      | .error e => .error e
      | .ok result => checkBinary result := if_neg (by simp [h])

/-- **Termination.** The loop comes to its end on every package. -/
theorem members_finished (data : List UInt8) : members data ≠ .error .unfinished := by
  by_cases hmagic : data.take 8 = magic
  · obtain ⟨headers, position, h, ⟨-, hwalk⟩ | ⟨e, hread, hwalk⟩⟩ := walk_ends data
    · rw [members_of_magic hmagic, hwalk]
      by_cases hlookup : (passedMembers data headers).lookup (text "debian-binary")
          = some (ascii "2.0\n")
      · simp [checkBinary_eq_ok.mpr ⟨hlookup, rfl⟩]
      · obtain ⟨message, hmessage⟩ := checkBinary_eq_error hlookup
        simp [hmessage]
    · rw [members_of_magic hmagic, hwalk]
      rcases readMember_eq_error hread with ⟨message, rfl⟩ | ⟨rfl, -⟩
      · simp
      · simp
  · simp [members, hmagic]

/-- Names and sizes of the right kind are enough. -/
theorem reads_of_passed (hmagic : data.take 8 = magic) (hnames : AsciiNames data)
    (hsizes : NaturalSizes data) : Reads data := by
  obtain ⟨headers, position, h, ⟨hend, hwalk⟩ | ⟨e, hread, hwalk⟩⟩ := walk_ends data
  · have hmembers := members_of_magic hmagic
    rw [hwalk] at hmembers
    by_cases hlookup : (passedMembers data headers).lookup (text "debian-binary")
        = some (ascii "2.0\n")
    · have hok := checkBinary_eq_ok.mpr ⟨hlookup, rfl⟩
      obtain ⟨start, rfl, hlaid⟩ := Laid.passed h (hsizes headers position h hend hlookup)
      have hnil : data.drop start = [] := List.drop_eq_nil_of_le (by omega)
      have hall := hlaid [] (by rw [hnil]; exact .nil)
      rw [List.append_nil] at hall
      refine .inl ⟨_, hmembers.trans hok, data.drop 8, ?_, hall⟩
      rw [← hmagic, List.take_append_drop]
    · obtain ⟨message, hmessage⟩ := checkBinary_eq_error hlookup
      exact .inr ⟨message, hmembers.trans hmessage⟩
  · have hmembers := members_of_magic hmagic
    rw [hwalk] at hmembers
    rcases readMember_eq_error hread with ⟨message, rfl⟩ | ⟨-, hinside, hterminated, hname⟩
    · exact .inr ⟨message, hmembers⟩
    · exact absurd (hnames headers position h hinside hterminated)
        (memberName_eq_none.mp hname)

/-- A name that is not ASCII raises another exception. -/
theorem asciiNames_of_reads (hmagic : data.take 8 = magic) (h : Reads data) : AsciiNames data := by
  intro headers position hpassed hinside hterminated
  by_contra hname
  have hnone := memberName_eq_none.mpr hname
  have hcount := length_le_of_passed hpassed
  obtain ⟨turns, hturns⟩ : ∃ turns, 2 * data.length + 61 = headers.length + (turns + 1) :=
    ⟨2 * data.length + 60 - headers.length, by omega⟩
  have hread : readMember data position (passedMembers data headers) = .error .unicode := by
    rw [readMember, if_neg (by simpa [hterminated] using hinside)]
    simp [hnone]
  have hwalk := walk_passed hpassed (turns + 1)
  rw [← hturns, walk_error (by omega) hread] at hwalk
  have hmembers := members_of_magic hmagic
  rw [hwalk] at hmembers
  rcases h with ⟨archive, hok, -⟩ | ⟨message, herror⟩
  · rw [hmembers] at hok
    cases hok
  · rw [hmembers] at herror
    cases herror

/-- A negative size on the way to the end leaves the members not side by side. -/
theorem naturalSizes_of_reads (hmagic : data.take 8 = magic) (h : Reads data) :
    NaturalSizes data := by
  intro headers position hpassed hend hlookup
  have hcount := length_le_of_passed hpassed
  obtain ⟨turns, hturns⟩ : ∃ turns, 2 * data.length + 61 = headers.length + turns :=
    ⟨2 * data.length + 61 - headers.length, by omega⟩
  have hwalk := walk_passed hpassed turns
  rw [← hturns, walk_end hend] at hwalk
  have hmembers := members_of_magic hmagic
  rw [hwalk] at hmembers
  have hok : members data = .ok (passedMembers data headers) :=
    hmembers.trans (checkBinary_eq_ok.mpr ⟨hlookup, rfl⟩)
  rcases h with ⟨archive, harchive, rest, hdata, hlaid⟩ | ⟨message, herror⟩
  · obtain rfl : passedMembers data headers = archive := by
      rw [hok] at harchive
      exact Except.ok.inj harchive
    have hrest : data.drop 8 = rest := by
      rw [hdata]
      exact List.drop_left' (by decide)
    rw [← hrest] at hlaid
    exact (hlaid.sizes hpassed (by simp [passedMembers])).1
  · rw [hok] at herror
    cases herror

end Members

/-- **When packages are read or refused.** The loop ends on every package; and a package is read as
    members that fill it, or refused with a `DebFormatError`, exactly if it lacks the magic or has
    names and sizes of the right kind on the way along the declared sizes. -/
theorem reads_iff (data : List UInt8) :
    members data ≠ .error .unfinished
      ∧ (Reads data ↔ (data.take 8 = magic → AsciiNames data ∧ NaturalSizes data)) := by
  refine ⟨members_finished data, ?_⟩
  by_cases hmagic : data.take 8 = magic
  · constructor
    · intro h _
      exact ⟨asciiNames_of_reads hmagic h, naturalSizes_of_reads hmagic h⟩
    · intro h
      exact reads_of_passed hmagic (h hmagic).1 (h hmagic).2
  · constructor
    · intro _ h
      exact absurd h hmagic
    · intro _
      exact .inr ⟨_, if_pos hmagic⟩

/-- A package whose first member has a name that is not ASCII. -/
def latinPackage : List UInt8 :=
  magic ++ 0xff :: List.replicate 57 0x20 ++ terminator

theorem not_reads_latinPackage : ¬ Reads latinPackage := by
  have hraised : members latinPackage = .error .unicode := by decide
  rintro (⟨archive, hok, -⟩ | ⟨message, herror⟩)
  · rw [hraised] at hok
    cases hok
  · rw [hraised] at herror
    cases herror

end Devlegate.DebFormat
