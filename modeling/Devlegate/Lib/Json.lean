import Mathlib.Tactic.Common

namespace JsonText

/-!
# UTF-8 text and the JSON decoder

The decoder of the Python standard library, `json.loads(raw.decode("utf-8"))`, as two machines
that read one symbol at a time:

* `Utf8.step` reads octets and yields code points; a surrogate, an overlong form and a truncated
  sequence are refused;
* `Scan.step` reads code points with an explicit stack of open containers, so that the nesting
  depth is the length of the stack;
* `loads` runs one after the other.

A Python string may hold a lone surrogate (`"\ud800"` decodes to one), so a `Text` is a list of
code points and not of Unicode scalar values.  The decoder has three ways to fail:  a text that
is not JSON (`decode`), a container nested deeper than the interpreter's recursion limit allows
(`recursion`) and an integer literal with more digits than the interpreter converts (`digits`).
-/

/-! ### Text -/

/-- A code point of a Python string, surrogates included. -/
abbrev CodePoint := Fin 0x110000

/-- A Python string. -/
abbrev Text := List CodePoint

/-- The code point with a number. -/
def ofCode (n : Nat) : CodePoint := Fin.ofNat 0x110000 n

/-- The code point of a character. -/
def codePoint (c : Char) : CodePoint := Fin.ofNat 0x110000 c.toNat

/-- A string literal as a Python string. -/
def text (s : String) : Text := s.toList.map codePoint

/-- A code point that UTF-8 cannot encode. -/
def isSurrogate (c : CodePoint) : Bool := 0xD800 ≤ c.val && c.val ≤ 0xDFFF

/-- A literal by its characters; `rfl` finds them. -/
theorem text_eq {s : String} {chars : List Char} (h : s = String.ofList chars) :
    text s = chars.map codePoint := by
  rw [h, text, String.toList_ofList]

theorem text_append (s t : String) : text (s ++ t) = text s ++ text t := by
  rw [text, String.toList_append, List.map_append]
  rfl

theorem codePoint_injective : Function.Injective codePoint := by
  have hbound : ∀ c : Char, c.toNat < 0x110000 := by
    intro c
    obtain h | h := c.valid
    · exact Nat.lt_trans h (by decide)
    · exact h.2
  intro c d h
  have hval := congrArg Fin.val h
  have hc : (codePoint c).val = c.toNat := Nat.mod_eq_of_lt (hbound c)
  have hd : (codePoint d).val = d.toNat := Nat.mod_eq_of_lt (hbound d)
  rw [hc, hd] at hval
  exact Char.toNat_inj.mp hval

/-! ### UTF-8 -/

namespace Utf8

/-- The octets still owed to the current character, the range of the next one, the bits read
    so far, and the characters already complete (last first). -/
structure State where
  owed : Nat
  low : Nat
  high : Nat
  bits : Nat
  out : Text
  deriving DecidableEq, Repr

/-- Between two characters, with `out` decoded. -/
def State.ready (out : Text) : State := ⟨0, 0x80, 0xBF, 0, out⟩

/-- The first octet of a character. -/
def lead (out : Text) (b : Nat) : Option State :=
  if b < 0x80 then some (State.ready (Fin.ofNat 0x110000 b :: out))
  else if 0xC2 ≤ b ∧ b ≤ 0xDF then some ⟨1, 0x80, 0xBF, b - 0xC0, out⟩
  else if b = 0xE0 then some ⟨2, 0xA0, 0xBF, b - 0xE0, out⟩
  else if b = 0xED then some ⟨2, 0x80, 0x9F, b - 0xE0, out⟩
  else if 0xE1 ≤ b ∧ b ≤ 0xEF then some ⟨2, 0x80, 0xBF, b - 0xE0, out⟩
  else if b = 0xF0 then some ⟨3, 0x90, 0xBF, b - 0xF0, out⟩
  else if 0xF1 ≤ b ∧ b ≤ 0xF3 then some ⟨3, 0x80, 0xBF, b - 0xF0, out⟩
  else if b = 0xF4 then some ⟨3, 0x80, 0x8F, b - 0xF0, out⟩
  else none

/-- One octet. -/
def step (st : State) (b : UInt8) : Option State :=
  match st.owed with
  | 0 => lead st.out b.toNat
  | owed + 1 =>
    if st.low ≤ b.toNat ∧ b.toNat ≤ st.high then
      let bits := st.bits * 64 + (b.toNat - 0x80)
      if owed = 0 then some (State.ready (Fin.ofNat 0x110000 bits :: st.out))
      else some ⟨owed, 0x80, 0xBF, bits, st.out⟩
    else none

/-- `raw.decode("utf-8")`; `none` is `UnicodeDecodeError`. -/
def decode (raw : List UInt8) : Option Text :=
  match raw.foldlM step (State.ready []) with
  | some st => if st.owed = 0 then some st.out.reverse else none
  | none => none

end Utf8

/-! ### JSON values -/

/-- A decoded JSON value.  A number that is not an integer literal keeps its literal. -/
inductive Json where
  | null
  | bool (b : Bool)
  | int (n : Int)
  | float (literal : Text)
  | str (s : Text)
  | arr (items : List Json)
  | obj (fields : List (Text × Json))

/-- `fields[key] = value` on the members of an object: a repeated key keeps the last value. -/
def setField (fields : List (Text × Json)) (key : Text) (value : Json) : List (Text × Json) :=
  match fields with
  | [] => [(key, value)]
  | (k, v) :: rest => if k = key then (key, value) :: rest else (k, v) :: setField rest key value

/-- `fields.get(key)`; `none` is Python's `None` for a missing key. -/
def getField (fields : List (Text × Json)) (key : String) : Option Json :=
  fields.lookup (text key)

namespace Json

/-- `isinstance(value, dict)`, with the members. -/
def asObj : Option Json → Option (List (Text × Json))
  | some (.obj fields) => some fields
  | _ => none

/-- `isinstance(value, str)`, with the string. -/
def asStr : Option Json → Option Text
  | some (.str s) => some s
  | _ => none

/-- `isinstance(value, int) and not isinstance(value, bool)`, with the integer. -/
def asInt : Option Json → Option Int
  | some (.int n) => some n
  | _ => none

/-- `isinstance(value, bool)`, with the flag. -/
def asBool : Option Json → Option Bool
  | some (.bool b) => some b
  | _ => none

/-- `value == literal`. -/
def isText (value : Option Json) (literal : String) : Bool :=
  asStr value == some (text literal)

/-- Lists and dictionaries have no hash, so that a membership test in a set raises. -/
def hashable : Option Json → Bool
  | some (.arr _) => false
  | some (.obj _) => false
  | _ => true

end Json

/-! ### The scanner -/

/-- Why `loads` fails. -/
inductive LoadError where
  | decode
  | recursion
  | digits
  deriving DecidableEq, Repr

/-- The interpreter's limits: containers open at a time, digits of an integer literal. -/
structure Limits where
  nesting : Nat
  digits : Nat

/-- An open container.  An array holds its items last first; an object holds its members and
    the key whose value is being read. -/
inductive Frame where
  | arr (items : List Json)
  | obj (fields : List (Text × Json)) (key : Text)

/-- Where the scanner is inside a string. -/
inductive StrPart where
  | plain
  | escape
  | hex (owed : Nat) (bits : Nat)
  deriving DecidableEq

/-- Where the scanner is inside a number.  `expo` and `expoSign` remember whether a fraction
    was read before the exponent. -/
inductive NumPart where
  | minus
  | zero
  | int
  | point
  | frac
  | expo (float : Bool)
  | expoSign (float : Bool)
  | expoDigits
  deriving DecidableEq

/-- What the scanner expects next. -/
inductive Mode where
  | value (orClose : Bool)
  | after
  | key (orClose : Bool)
  | colon
  | string (isKey : Bool) (acc : Text) (high : Bool) (part : StrPart)
  | number (part : NumPart) (literal : Text)
  | word (rest : Text) (result : Json)
  | done (result : Json)

/-- The scanner: the open containers, innermost first, and the mode. -/
structure Scan where
  stack : List Frame
  mode : Mode

def isSpace (c : CodePoint) : Bool :=
  c == codePoint ' ' || c == codePoint '\t' || c == codePoint '\n' || c == codePoint '\r'

def isDigit (c : CodePoint) : Bool := 0x30 ≤ c.val && c.val ≤ 0x39

/-- The value of a hexadecimal digit. -/
def hexValue (c : CodePoint) : Option Nat :=
  if 0x30 ≤ c.val ∧ c.val ≤ 0x39 then some (c.val - 0x30)
  else if 0x41 ≤ c.val ∧ c.val ≤ 0x46 then some (c.val - 0x41 + 10)
  else if 0x61 ≤ c.val ∧ c.val ≤ 0x66 then some (c.val - 0x61 + 10)
  else none

/-- The character a one-letter escape stands for. -/
def escapeValue (c : CodePoint) : Option CodePoint :=
  if c = codePoint '"' ∨ c = codePoint '\\' ∨ c = codePoint '/' then some c
  else if c = codePoint 'b' then some (Fin.ofNat 0x110000 8)
  else if c = codePoint 'f' then some (Fin.ofNat 0x110000 12)
  else if c = codePoint 'n' then some (Fin.ofNat 0x110000 10)
  else if c = codePoint 'r' then some (Fin.ofNat 0x110000 13)
  else if c = codePoint 't' then some (Fin.ofNat 0x110000 9)
  else none

/-- A complete value goes into the innermost container, or is the result. -/
def deliver (stack : List Frame) (v : Json) : Scan :=
  match stack with
  | [] => ⟨[], .done v⟩
  | .arr items :: rest => ⟨.arr (v :: items) :: rest, .after⟩
  | .obj fields key :: rest => ⟨.obj (setField fields key v) key :: rest, .after⟩

/-- The start of a value.  Opening a container is one recursive call of the decoder. -/
def beginValue (limits : Limits) (stack : List Frame) (c : CodePoint) : Except LoadError Scan :=
  if c = codePoint '"' then .ok ⟨stack, .string false [] false .plain⟩
  else if c = codePoint '[' then
    if stack.length < limits.nesting then .ok ⟨.arr [] :: stack, .value true⟩ else .error .recursion
  else if c = codePoint '\x7b' then
    if stack.length < limits.nesting then .ok ⟨.obj [] [] :: stack, .key true⟩ else .error .recursion
  else if c = codePoint '-' then .ok ⟨stack, .number .minus [c]⟩
  else if c = codePoint '0' then .ok ⟨stack, .number .zero [c]⟩
  else if isDigit c then .ok ⟨stack, .number .int [c]⟩
  else if c = codePoint 't' then .ok ⟨stack, .word (text "rue") (.bool true)⟩
  else if c = codePoint 'f' then .ok ⟨stack, .word (text "alse") (.bool false)⟩
  else if c = codePoint 'n' then .ok ⟨stack, .word (text "ull") .null⟩
  else if c = codePoint 'N' then .ok ⟨stack, .word (text "aN") (.float (text "NaN"))⟩
  else if c = codePoint 'I' then .ok ⟨stack, .word (text "nfinity") (.float (text "Infinity"))⟩
  else .error .decode

/-- After a complete value: the next item, or the end of a container. -/
def afterValue (stack : List Frame) (c : CodePoint) : Except LoadError Scan :=
  match stack with
  | .arr items :: rest =>
    if isSpace c then .ok ⟨stack, .after⟩
    else if c = codePoint ',' then .ok ⟨stack, .value false⟩
    else if c = codePoint ']' then .ok (deliver rest (.arr items.reverse))
    else .error .decode
  | .obj fields _ :: rest =>
    if isSpace c then .ok ⟨stack, .after⟩
    else if c = codePoint ',' then .ok ⟨stack, .key false⟩
    else if c = codePoint '\x7d' then .ok (deliver rest (.obj fields))
    else .error .decode
  | [] => .error .decode

/-- The digits of an integer literal, most significant first. -/
def natOfDigits (ds : Text) : Nat := ds.foldl (fun n d => n * 10 + (d.val - 0x30)) 0

/-- The literal's sign and the digits of its integer part (`literal` is last first). -/
def signDigits (literal : Text) : Bool × Text :=
  match literal.reverse with
  | [] => (false, [])
  | c :: rest => if c = codePoint '-' then (true, rest.takeWhile isDigit)
    else (false, (c :: rest).takeWhile isDigit)

/-- `int(literal)`, refused beyond the digit limit. -/
def intOf (limits : Limits) (literal : Text) : Except LoadError Json :=
  let (negative, ds) := signDigits literal
  if limits.digits < ds.length then .error .digits
  else .ok (.int (if negative then -(natOfDigits ds : Int) else natOfDigits ds))

/-- The end of a number.  A literal that stops after its point or exponent mark is read as the
    integer before it, which is converted before the rest is refused. -/
def endNumber (limits : Limits) (part : NumPart) (literal : Text) : Except LoadError Json :=
  match part with
  | .minus => .error .decode
  | .zero | .int => intOf limits literal
  | .frac | .expoDigits => .ok (.float literal.reverse)
  | .expo true | .expoSign true => .error .decode
  | .point | .expo false | .expoSign false => do
    let _ ← intOf limits literal
    .error .decode

/-- Whether `c` goes on with the number, and where that leads. -/
def nextNumPart (part : NumPart) (c : CodePoint) : Option NumPart :=
  let isE := c = codePoint 'e' ∨ c = codePoint 'E'
  match part with
  | .minus => if c = codePoint '0' then some .zero else if isDigit c then some .int else none
  | .zero => if c = codePoint '.' then some .point else if isE then some (.expo false) else none
  | .int =>
    if isDigit c then some .int
    else if c = codePoint '.' then some .point
    else if isE then some (.expo false) else none
  | .point => if isDigit c then some .frac else none
  | .frac => if isDigit c then some .frac else if isE then some (.expo true) else none
  | .expo float =>
    if isDigit c then some .expoDigits
    else if c = codePoint '+' ∨ c = codePoint '-' then some (.expoSign float) else none
  | .expoSign _ => if isDigit c then some .expoDigits else none
  | .expoDigits => if isDigit c then some .expoDigits else none

/-- A `\uXXXX` escape is complete.  `high` says that the character before it was an escaped high
    surrogate, which a low surrogate completes to one character. -/
def pushEscape (acc : Text) (high : Bool) (bits : Nat) : Text × Bool :=
  match acc, high with
  | h :: rest, true =>
    if 0xDC00 ≤ bits ∧ bits ≤ 0xDFFF then
      (Fin.ofNat 0x110000 (0x10000 + (h.val - 0xD800) * 0x400 + (bits - 0xDC00)) :: rest, false)
    else (Fin.ofNat 0x110000 bits :: acc, decide (0xD800 ≤ bits ∧ bits ≤ 0xDBFF))
  | _, _ => (Fin.ofNat 0x110000 bits :: acc, decide (0xD800 ≤ bits ∧ bits ≤ 0xDBFF))

/-- A complete string is a key of the innermost object, or a value. -/
def endString (stack : List Frame) (isKey : Bool) (s : Text) : Except LoadError Scan :=
  if isKey then
    match stack with
    | .obj fields _ :: rest => .ok ⟨.obj fields s :: rest, .colon⟩
    | _ => .error .decode
  else .ok (deliver stack (.str s))

/-- One code point inside a string. -/
def stepString (stack : List Frame) (isKey : Bool) (acc : Text) (high : Bool) (part : StrPart)
    (c : CodePoint) : Except LoadError Scan :=
  match part with
  | .plain =>
    if c = codePoint '"' then endString stack isKey acc.reverse
    else if c = codePoint '\\' then .ok ⟨stack, .string isKey acc high .escape⟩
    else if c.val < 0x20 then .error .decode
    else .ok ⟨stack, .string isKey (c :: acc) false .plain⟩
  | .escape =>
    if c = codePoint 'u' then .ok ⟨stack, .string isKey acc high (.hex 4 0)⟩
    else match escapeValue c with
      | some e => .ok ⟨stack, .string isKey (e :: acc) false .plain⟩
      | none => .error .decode
  | .hex owed bits =>
    match hexValue c with
    | none => .error .decode
    | some d =>
      let bits := bits * 16 + d
      if owed ≤ 1 then
        let (acc, high) := pushEscape acc high bits
        .ok ⟨stack, .string isKey acc high .plain⟩
      else .ok ⟨stack, .string isKey acc high (.hex (owed - 1) bits)⟩

/-- The scanner is between two tokens, or has a result: only what may follow a value. -/
def stepAfter (st : Scan) (c : CodePoint) : Except LoadError Scan :=
  match st.mode with
  | .done _ => if isSpace c then .ok st else .error .decode
  | _ => afterValue st.stack c

/-- One code point. -/
def Scan.step (limits : Limits) (st : Scan) (c : CodePoint) : Except LoadError Scan :=
  match st.mode with
  | .value orClose =>
    if isSpace c then .ok st
    else if orClose && c == codePoint ']' then
      match st.stack with
      | .arr _ :: rest => .ok (deliver rest (.arr []))
      | _ => .error .decode
    else beginValue limits st.stack c
  | .key orClose =>
    if isSpace c then .ok st
    else if c = codePoint '"' then .ok ⟨st.stack, .string true [] false .plain⟩
    else if orClose && c == codePoint '\x7d' then
      match st.stack with
      | .obj _ _ :: rest => .ok (deliver rest (.obj []))
      | _ => .error .decode
    else .error .decode
  | .colon =>
    if isSpace c then .ok st
    else if c = codePoint ':' then .ok ⟨st.stack, .value false⟩
    else .error .decode
  | .string isKey acc high part => stepString st.stack isKey acc high part c
  | .number part literal =>
    match nextNumPart part c with
    | some next => .ok ⟨st.stack, .number next (c :: literal)⟩
    | none =>
      -- `-Infinity` is the one literal that starts like a number and is a word
      if part = .minus ∧ c = codePoint 'I' then
        .ok ⟨st.stack, .word (text "nfinity") (.float (text "-Infinity"))⟩
      else do
        let v ← endNumber limits part literal
        stepAfter (deliver st.stack v) c
  | .word [] result => stepAfter (deliver st.stack result) c
  | .word (w :: rest) result =>
    if c = w then
      if rest = [] then .ok (deliver st.stack result) else .ok ⟨st.stack, .word rest result⟩
    else .error .decode
  | .after => stepAfter st c
  | .done _ => stepAfter st c

/-- The end of the text. -/
def Scan.finish (limits : Limits) (st : Scan) : Except LoadError Json :=
  match st.mode with
  | .done v => .ok v
  | .number part literal => do
    let v ← endNumber limits part literal
    if st.stack.isEmpty then .ok v else .error .decode
  | _ => .error .decode

/-- `json.loads` of a text. -/
def parse (limits : Limits) (s : Text) : Except LoadError Json := do
  let st ← s.foldlM (Scan.step limits) ⟨[], .value false⟩
  st.finish limits

/-- `json.loads(raw.decode("utf-8"))`. -/
def loads (limits : Limits) (raw : List UInt8) : Except LoadError Json :=
  match Utf8.decode raw with
  | none => .error .decode
  | some s => parse limits s

/-- The octets of an ASCII literal. -/
def octets (s : String) : List UInt8 := s.toList.map fun c => UInt8.ofNat c.toNat

theorem octets_append (s t : String) : octets (s ++ t) = octets s ++ octets t := by
  unfold octets
  rw [String.toList_append, List.map_append]

/-- A literal is the text of its characters, so that its octets need no decoding. -/
theorem octets_ofList (chars : List Char) :
    octets (String.ofList chars) = chars.map fun c => UInt8.ofNat c.toNat := by
  unfold octets
  rw [String.toList_ofList]

/-- `s.encode("utf-8")`; a surrogate raises `UnicodeEncodeError`. -/
def Utf8.encode : Text → Option (List UInt8)
  | [] => some []
  | c :: rest =>
    if isSurrogate c then none
    else do
      let tail ← Utf8.encode rest
      let n := c.val
      if n < 0x80 then some (UInt8.ofNat n :: tail)
      else if n < 0x800 then
        some (UInt8.ofNat (0xC0 + n / 64) :: UInt8.ofNat (0x80 + n % 64) :: tail)
      else if n < 0x10000 then
        some (UInt8.ofNat (0xE0 + n / 4096) :: UInt8.ofNat (0x80 + n / 64 % 64) ::
          UInt8.ofNat (0x80 + n % 64) :: tail)
      else
        some (UInt8.ofNat (0xF0 + n / 262144) :: UInt8.ofNat (0x80 + n / 4096 % 64) ::
          UInt8.ofNat (0x80 + n / 64 % 64) :: UInt8.ofNat (0x80 + n % 64) :: tail)

end JsonText
