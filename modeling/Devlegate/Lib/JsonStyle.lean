import Devlegate.Lib.JsonDump

namespace JsonText

/-!
# The two styles of the encoder

`json.dumps` writes all characters as they are (`ensure_ascii=False`) or escapes those outside ASCII,
and puts its items on one line or on lines of their own.

* `compact`: `ensure_ascii=False, separators=(",", ":")`; every text is read back.
* `indented`: `indent=2`; a text is read back unless a high surrogate stands before a low one, which
  the escapes of one character look like.
* `decode_encode`: UTF-8 octets of a text are decoded to it.
-/

/-! ### Escapes -/

/-- The letter of a one-letter escape. -/
def shortEscape (c : CodePoint) : Option CodePoint :=
  if c = codePoint '"' then some (codePoint '"')
  else if c = codePoint '\\' then some (codePoint '\\')
  else if c.val = 8 then some (codePoint 'b')
  else if c.val = 12 then some (codePoint 'f')
  else if c.val = 10 then some (codePoint 'n')
  else if c.val = 13 then some (codePoint 'r')
  else if c.val = 9 then some (codePoint 't')
  else none

/-- A lower-case hexadecimal digit. -/
def hexDigit (d : Nat) : CodePoint :=
  ofCode (if d < 10 then 0x30 + d else 0x61 + (d - 10))

/-- `\uXXXX`. -/
def hexEscape (n : Nat) : Text :=
  [codePoint '\\', codePoint 'u', hexDigit (n / 4096 % 16), hexDigit (n / 256 % 16),
    hexDigit (n / 16 % 16), hexDigit (n % 16)]

/-- `encode_basestring`. -/
def plainEscape (c : CodePoint) : Text :=
  match shortEscape c with
  | some letter => [codePoint '\\', letter]
  | none => if c.val < 0x20 then hexEscape c.val else [c]

/-- `encode_basestring_ascii`: a character beyond the first plane is two escapes. -/
def asciiEscape (c : CodePoint) : Text :=
  match shortEscape c with
  | some letter => [codePoint '\\', letter]
  | none =>
    if 0x20 ≤ c.val ∧ c.val ≤ 0x7E then [c]
    else if c.val < 0x10000 then hexEscape c.val
    else hexEscape (0xD800 + (c.val - 0x10000) / 0x400)
      ++ hexEscape (0xDC00 + (c.val - 0x10000) % 0x400)

/-- `ensure_ascii=False, separators=(",", ":")`. -/
def compact : Style where
  escape := plainEscape
  newline _ := []
  gap := []
  newline_blank _ _ h := (List.not_mem_nil h).elim
  gap_blank _ h := (List.not_mem_nil h).elim

/-- `separators=(",", ":")`. -/
def asciiCompact : Style where
  escape := asciiEscape
  newline _ := []
  gap := []
  newline_blank _ _ h := (List.not_mem_nil h).elim
  gap_blank _ h := (List.not_mem_nil h).elim

/-- `indent=2`. -/
def indented : Style where
  escape := asciiEscape
  newline level := codePoint '\n' :: List.replicate (2 * level) (codePoint ' ')
  gap := [codePoint ' ']
  newline_blank level c h := by
    rcases List.mem_cons.mp h with rfl | h
    · decide
    · rw [List.eq_of_mem_replicate h]
      decide
  gap_blank c h := by
    rw [List.mem_singleton.mp h]
    decide

/-! ### Reading an escape -/

section Escapes

variable {limits : Limits} {stack : List Frame} {isKey high : Bool} {acc : Text}

theorem scan_shortEscape {c letter : CodePoint} (h : shortEscape c = some letter) (more : Text) :
    scan limits (codePoint '\\' :: letter :: more) ⟨stack, .string isKey acc high .plain⟩
      = scan limits more ⟨stack, .string isKey (c :: acc) false .plain⟩ := by
  have hopen : Scan.step limits ⟨stack, .string isKey acc high .plain⟩ (codePoint '\\')
      = .ok ⟨stack, .string isKey acc high .escape⟩ := by
    have hquote : codePoint '\\' ≠ codePoint '"' := by decide
    simp [Scan.step, stepString, hquote]
  have hletter : letter ≠ codePoint 'u' ∧ escapeValue letter = some c := by
    unfold shortEscape at h
    have hval : ∀ n : Nat, n < 0x110000 → c.val = n → c = Fin.ofNat 0x110000 n := by
      intro n hn hc
      apply Fin.ext
      rw [hc, Fin.val_ofNat, Nat.mod_eq_of_lt hn]
    split at h
    · rename_i hc
      cases h
      rw [hc]
      decide
    split at h
    · rename_i hc
      cases h
      rw [hc]
      decide
    split at h
    · rename_i hc
      cases h
      rw [hval 8 (by decide) hc]
      decide
    split at h
    · rename_i hc
      cases h
      rw [hval 12 (by decide) hc]
      decide
    split at h
    · rename_i hc
      cases h
      rw [hval 10 (by decide) hc]
      decide
    split at h
    · rename_i hc
      cases h
      rw [hval 13 (by decide) hc]
      decide
    split at h
    · rename_i hc
      cases h
      rw [hval 9 (by decide) hc]
      decide
    · cases h
  rw [scan_step hopen]
  exact scan_step (by simp [Scan.step, stepString, hletter.1, hletter.2]) more

theorem hexValue_hexDigit {d : Nat} (h : d < 16) : hexValue (hexDigit d) = some d := by
  unfold hexValue hexDigit ofCode
  simp only [Fin.val_ofNat]
  by_cases hten : d < 10
  · rw [if_pos hten, Nat.mod_eq_of_lt (by omega), if_pos (by omega)]
    congr 1
    omega
  · rw [if_neg hten, Nat.mod_eq_of_lt (by omega), if_neg (by omega), if_neg (by omega),
      if_pos (by omega)]
    congr 1
    omega

theorem scan_hexEscape {n : Nat} (h : n < 0x10000) (more : Text) :
    scan limits (hexEscape n ++ more) ⟨stack, .string isKey acc high .plain⟩
      = scan limits more ⟨stack, .string isKey (pushEscape acc high n).1 (pushEscape acc high n).2
        .plain⟩ := by
  have hopen : Scan.step limits ⟨stack, .string isKey acc high .plain⟩ (codePoint '\\')
      = .ok ⟨stack, .string isKey acc high .escape⟩ := by
    have hquote : codePoint '\\' ≠ codePoint '"' := by decide
    simp [Scan.step, stepString, hquote]
  have hu : Scan.step limits ⟨stack, .string isKey acc high .escape⟩ (codePoint 'u')
      = .ok ⟨stack, .string isKey acc high (.hex 4 0)⟩ := by simp [Scan.step, stepString]
  have hdigit : ∀ owed bits d, d < 16 → ¬ owed ≤ 1 →
      Scan.step limits ⟨stack, .string isKey acc high (.hex owed bits)⟩ (hexDigit d)
        = .ok ⟨stack, .string isKey acc high (.hex (owed - 1) (bits * 16 + d))⟩ := by
    intro owed bits d hd howed
    simp [Scan.step, stepString, hexValue_hexDigit hd, howed]
  have hlast : Scan.step limits
      ⟨stack, .string isKey acc high
        (.hex 1 (((0 * 16 + n / 4096 % 16) * 16 + n / 256 % 16) * 16 + n / 16 % 16))⟩
        (hexDigit (n % 16))
      = .ok ⟨stack, .string isKey (pushEscape acc high n).1 (pushEscape acc high n).2 .plain⟩ := by
    have hbits : (((0 * 16 + n / 4096 % 16) * 16 + n / 256 % 16) * 16 + n / 16 % 16) * 16 + n % 16
        = n := by omega
    simp only [Scan.step, stepString, hexValue_hexDigit (Nat.mod_lt _ (by decide : 0 < 16)), hbits]
    rfl
  have hlt : ∀ m : Nat, m % 16 < 16 := fun m => Nat.mod_lt _ (by decide)
  unfold hexEscape
  simp only [List.cons_append, List.nil_append]
  rw [scan_step hopen, scan_step hu, scan_step (hdigit _ _ _ (hlt _) (by decide)),
    scan_step (hdigit _ _ _ (hlt _) (by decide)), scan_step (hdigit _ _ _ (hlt _) (by decide))]
  exact scan_step hlast more

theorem scan_plainChar {c : CodePoint} (h : shortEscape c = none) (hc : 0x20 ≤ c.val) (more : Text) :
    scan limits (c :: more) ⟨stack, .string isKey acc high .plain⟩
      = scan limits more ⟨stack, .string isKey (c :: acc) false .plain⟩ := by
  have hquote : c ≠ codePoint '"' := by
    rintro rfl
    exact absurd h (by decide)
  have hescape : c ≠ codePoint '\\' := by
    rintro rfl
    exact absurd h (by decide)
  have hlow : ¬ c.val < 0x20 := by omega
  exact scan_step (by simp [Scan.step, stepString, hquote, hescape, hlow]) more

end Escapes

/-! ### Strings in the two styles -/

section Strings

variable {limits : Limits} {stack : List Frame} {isKey : Bool} {acc : Text}

/-- A code point that is not in the second half of a pair is pushed as it is. -/
theorem pushEscape_single {acc : Text} {high : Bool} {n : Nat}
    (h : high = true → ¬ (0xDC00 ≤ n ∧ n ≤ 0xDFFF)) :
    pushEscape acc high n
      = (Fin.ofNat 0x110000 n :: acc, decide (0xD800 ≤ n ∧ n ≤ 0xDBFF)) := by
  cases acc with
  | nil => rfl
  | cons c acc =>
    cases high with
    | false => rfl
    | true => simp only [pushEscape, if_neg (h rfl)]

theorem ofNat_val (c : CodePoint) : Fin.ofNat 0x110000 c.val = c := by
  apply Fin.ext
  rw [Fin.val_ofNat, Nat.mod_eq_of_lt c.isLt]

theorem scan_plainEscape (c : CodePoint) (more : Text) :
    scan limits (plainEscape c ++ more) ⟨stack, .string isKey acc false .plain⟩
      = scan limits more ⟨stack, .string isKey (c :: acc) false .plain⟩ := by
  unfold plainEscape
  cases hshort : shortEscape c with
  | some letter => exact scan_shortEscape hshort more
  | none =>
    by_cases hlow : c.val < 0x20
    · have hpush : pushEscape acc false c.val = (c :: acc, false) := by
        have hnothigh : ¬ (0xD800 ≤ c.val ∧ c.val ≤ 0xDBFF) := by omega
        rw [pushEscape_single (fun h => by cases h), ofNat_val, decide_eq_false hnothigh]
      simp only [if_pos hlow]
      rw [scan_hexEscape (by omega), hpush]
    · simp only [if_neg hlow]
      exact scan_plainChar hshort (by omega) more

/-- Every text is read back in the compact style. -/
theorem reads_compact (s : Text) : Reads compact s := by
  intro limits stack isKey more
  refine ⟨false, ?_⟩
  suffices h : ∀ acc, scan limits (s.flatMap plainEscape ++ more)
      ⟨stack, .string isKey acc false .plain⟩
        = scan limits more ⟨stack, .string isKey (s.reverse ++ acc) false .plain⟩ by
    have hempty := h []
    rw [List.append_nil] at hempty
    exact hempty
  induction s with
  | nil => exact fun acc => rfl
  | cons c s ih =>
    intro acc
    rw [List.flatMap_cons, List.append_assoc, scan_plainEscape, ih, List.reverse_cons,
      List.append_assoc]
    rfl

def isHigh (c : CodePoint) : Bool := 0xD800 ≤ c.val && c.val ≤ 0xDBFF

def isLow (c : CodePoint) : Bool := 0xDC00 ≤ c.val && c.val ≤ 0xDFFF

/-- No high surrogate stands before a low one. -/
def Unpaired (s : Text) : Prop := List.IsChain (fun a b => ¬ (isHigh a = true ∧ isLow b = true)) s

instance (s : Text) : Decidable (Unpaired s) :=
  inferInstanceAs (Decidable (List.IsChain _ s))

theorem scan_asciiEscape {c : CodePoint} {high : Bool} (h : high = true → isLow c = false)
    (more : Text) :
    scan limits (asciiEscape c ++ more) ⟨stack, .string isKey acc high .plain⟩
      = scan limits more ⟨stack, .string isKey (c :: acc) (isHigh c) .plain⟩ := by
  unfold asciiEscape
  cases hshort : shortEscape c with
  | some letter =>
    have hnothigh : isHigh c = false := by
      rw [Bool.eq_false_iff]
      intro hhigh
      simp only [isHigh, Bool.and_eq_true, decide_eq_true_eq] at hhigh
      have hquote : c ≠ codePoint '"' := by
        rintro rfl
        exact absurd hhigh (by decide)
      have hslash : c ≠ codePoint '\\' := by
        rintro rfl
        exact absurd hhigh (by decide)
      have hnone : shortEscape c = none := by
        simp only [shortEscape, if_neg hquote, if_neg hslash]
        rw [if_neg (by omega), if_neg (by omega), if_neg (by omega), if_neg (by omega),
          if_neg (by omega)]
      rw [hnone] at hshort
      cases hshort
    rw [hnothigh]
    exact scan_shortEscape hshort more
  | none =>
    have hbound := c.isLt
    by_cases hprint : 0x20 ≤ c.val ∧ c.val ≤ 0x7E
    · have hnothigh : isHigh c = false := by
        simp only [isHigh, Bool.and_eq_false_iff, decide_eq_false_iff_not]
        omega
      simp only [if_pos hprint]
      rw [hnothigh]
      exact scan_plainChar hshort hprint.1 more
    · simp only [if_neg hprint]
      by_cases hplane : c.val < 0x10000
      · rw [if_pos hplane, scan_hexEscape hplane, pushEscape_single, ofNat_val]
        · congr 3
          simp [isHigh]
        · intro hhigh hlow
          have hnotlow := h hhigh
          simp only [isLow, Bool.and_eq_false_iff, decide_eq_false_iff_not] at hnotlow
          omega
      · have hnothigh : isHigh c = false := by
          simp only [isHigh, Bool.and_eq_false_iff, decide_eq_false_iff_not]
          omega
        -- the first half, which is a high surrogate
        have hfirst : pushEscape acc high (0xD800 + (c.val - 0x10000) / 0x400)
            = (Fin.ofNat 0x110000 (0xD800 + (c.val - 0x10000) / 0x400) :: acc, true) := by
          rw [pushEscape_single (fun _ => by omega)]
          congr 1
          exact decide_eq_true (by omega)
        -- the second half completes it
        have hsecond : pushEscape (Fin.ofNat 0x110000 (0xD800 + (c.val - 0x10000) / 0x400) :: acc)
            true (0xDC00 + (c.val - 0x10000) % 0x400) = (c :: acc, false) := by
          have hval : (Fin.ofNat 0x110000 (0xD800 + (c.val - 0x10000) / 0x400)).val
              = 0xD800 + (c.val - 0x10000) / 0x400 := by
            rw [Fin.val_ofNat, Nat.mod_eq_of_lt (by omega)]
          have hlow : 0xDC00 ≤ 0xDC00 + (c.val - 0x10000) % 0x400
              ∧ 0xDC00 + (c.val - 0x10000) % 0x400 ≤ 0xDFFF := by omega
          have hwhole : 0x10000 + (0xD800 + (c.val - 0x10000) / 0x400 - 0xD800) * 0x400
              + (0xDC00 + (c.val - 0x10000) % 0x400 - 0xDC00) = c.val := by omega
          simp only [pushEscape, hval]
          rw [if_pos hlow, hwhole, ofNat_val]
        rw [if_neg hplane, List.append_assoc, scan_hexEscape (by omega), hfirst,
          scan_hexEscape (by omega), hsecond, hnothigh]

/-- A text without a pair of surrogates is read back in the indented style. -/
theorem reads_indented {s : Text} (h : Unpaired s) : Reads indented s := by
  intro limits stack isKey more
  suffices hgeneral : ∀ acc high, (∀ c ∈ s.head?, high = true → isLow c = false) →
      ∃ high', scan limits (s.flatMap asciiEscape ++ more)
        ⟨stack, .string isKey acc high .plain⟩
          = scan limits more ⟨stack, .string isKey (s.reverse ++ acc) high' .plain⟩ by
    obtain ⟨high, hscan⟩ := hgeneral [] false (fun _ _ hfalse => by cases hfalse)
    rw [List.append_nil] at hscan
    exact ⟨high, hscan⟩
  induction s with
  | nil => exact fun acc high _ => ⟨high, rfl⟩
  | cons c s ih =>
    intro acc high hfirst
    have hrest : Unpaired s := h.tail
    have hnext : ∀ d ∈ s.head?, isHigh c = true → isLow d = false := by
      intro d hd hhigh
      rw [Bool.eq_false_iff]
      intro hlow
      obtain ⟨tail, rfl⟩ : ∃ tail, s = d :: tail := by
        cases s with
        | nil => cases hd
        | cons e tail => exact ⟨tail, by rw [Option.mem_some.mp hd]⟩
      exact (List.isChain_cons_cons.mp h).1 ⟨hhigh, hlow⟩
    obtain ⟨high', hscan⟩ := ih hrest (c :: acc) (isHigh c) hnext
    refine ⟨high', ?_⟩
    rw [List.flatMap_cons, List.append_assoc, scan_asciiEscape (hfirst c rfl), hscan,
      List.reverse_cons, List.append_assoc]
    rfl

end Strings

/-! ### UTF-8 -/

/-! ### Characters of a text -/

section Characters

variable {p : CodePoint → Prop} {good : Text → Prop} {style : Style}

/-- A printable character of ASCII. -/
def IsPrintable (c : CodePoint) : Prop := 0x20 ≤ c.val ∧ c.val < 0x7F

instance (c : CodePoint) : Decidable (IsPrintable c) := inferInstanceAs (Decidable (_ ∧ _))

theorem isPrintable_of_nextNumPart {part next : NumPart} {c : CodePoint}
    (h : nextNumPart part c = some next) : IsPrintable c := by
  have hdigit : isDigit c = true → IsPrintable c := by
    intro hc
    simp only [isDigit, Bool.and_eq_true, decide_eq_true_eq] at hc
    unfold IsPrintable
    omega
  have hliteral : ∀ d : CodePoint, IsPrintable d → c = d → IsPrintable c :=
    fun d hd heq => heq ▸ hd
  have hzero := hliteral (codePoint '0') (by decide)
  have hpoint := hliteral (codePoint '.') (by decide)
  have hlower := hliteral (codePoint 'e') (by decide)
  have hupper := hliteral (codePoint 'E') (by decide)
  have hplus := hliteral (codePoint '+') (by decide)
  have hminus := hliteral (codePoint '-') (by decide)
  unfold nextNumPart at h
  grind

/-- The characters of a float's literal. -/
theorem isPrintable_of_float {literal : Text} (h : isFloatLiteral literal = true) :
    ∀ c ∈ literal, IsPrintable c := by
  have hfold : ∀ (rest : Text) (part last : NumPart), rest.foldlM nextNumPart part = some last →
      ∀ c ∈ rest, IsPrintable c := by
    intro rest
    induction rest with
    | nil => exact fun _ _ _ _ hc => (List.not_mem_nil hc).elim
    | cons c rest ih =>
      intro part last hlast
      rw [List.foldlM_cons] at hlast
      obtain ⟨next, hnext, hrest⟩ := Option.bind_eq_some_iff.mp hlast
      rw [List.forall_mem_cons]
      exact ⟨isPrintable_of_nextNumPart hnext, ih next last hrest⟩
  have hword : ∀ word : Text, (word.all fun c => decide (IsPrintable c)) = true →
      literal = word → ∀ c ∈ literal, IsPrintable c := by
    intro word hall heq c hc
    rw [heq] at hc
    exact of_decide_eq_true (List.all_eq_true.mp hall c hc)
  simp only [isFloatLiteral, Bool.or_eq_true, decide_eq_true_eq] at h
  rcases h with ((h | h) | h) | h
  · exact hword _ (by decide) h
  · exact hword _ (by decide) h
  · exact hword _ (by decide) h
  · cases literal with
    | nil => cases h
    | cons c rest =>
      simp only at h
      cases hlast : (startNumPart c).bind fun part => rest.foldlM nextNumPart part with
      | none =>
        rw [hlast] at h
        cases h
      | some last =>
        obtain ⟨part, hpart, hrest⟩ := Option.bind_eq_some_iff.mp hlast
        rw [List.forall_mem_cons]
        refine ⟨?_, hfold rest part last hrest⟩
        unfold startNumPart at hpart
        split at hpart
        · rename_i hc
          rw [hc]
          decide
        split at hpart
        · rename_i hc
          rw [hc]
          decide
        split at hpart
        · rename_i hc
          simp only [isDigit, Bool.and_eq_true, decide_eq_true_eq] at hc
          unfold IsPrintable
          omega
        · cases hpart

/-- What a style writes for strings, before items and after colons, and all printable characters. -/
structure Style.Writes (style : Style) (p : CodePoint → Prop) : Prop where
  escape : ∀ c, ∀ d ∈ style.escape c, p d
  newline : ∀ level, ∀ d ∈ style.newline level, p d
  gap : ∀ d ∈ style.gap, p d
  printable : ∀ d, IsPrintable d → p d

/-- What a style writes for good texts, before items and after colons, and all printable
    characters. -/
structure Style.WritesOf (style : Style) (good : Text → Prop) (p : CodePoint → Prop) : Prop where
  string : ∀ s, good s → ∀ d ∈ dumpString style s, p d
  newline : ∀ level, ∀ d ∈ style.newline level, p d
  gap : ∀ d ∈ style.gap, p d
  printable : ∀ d, IsPrintable d → p d

theorem forall_mem_dumpString (h : style.Writes p) (s : Text) : ∀ d ∈ dumpString style s, p d := by
  have hquote : p (codePoint '"') := h.printable _ (by decide)
  intro d hd
  simp only [dumpString, List.mem_cons, List.mem_append, List.mem_flatMap, List.not_mem_nil,
    or_false] at hd
  rcases hd with rfl | ⟨c, -, hd⟩ | rfl
  · exact hquote
  · exact h.escape c d hd
  · exact hquote

theorem Style.Writes.of (h : style.Writes p) : style.WritesOf good p :=
  ⟨fun s _ => forall_mem_dumpString h s, h.newline, h.gap, h.printable⟩

theorem forall_mem_dumpItems (h : style.WritesOf good p) (level : Nat) {items : List Json}
    (hitems : ∀ item ∈ items, ∀ d ∈ dump style level item, p d) :
    ∀ d ∈ dumpItems style level items, p d := by
  induction items with
  | nil => exact fun d hd => (List.not_mem_nil hd).elim
  | cons item items ih =>
    rw [List.forall_mem_cons] at hitems
    intro d hd
    simp only [dumpItems, List.mem_cons, List.mem_append] at hd
    rcases hd with rfl | (hd | hd) | hd
    · exact h.printable _ (by decide)
    · exact h.newline level d hd
    · exact hitems.1 d hd
    · exact ih hitems.2 d hd

theorem forall_mem_dumpFields (h : style.WritesOf good p) (level : Nat)
    {fields : List (Text × Json)} (hkeys : ∀ f ∈ fields, good f.1)
    (hfields : ∀ f ∈ fields, ∀ d ∈ dump style level f.2, p d) :
    ∀ d ∈ dumpFields style level fields, p d := by
  induction fields with
  | nil => exact fun d hd => (List.not_mem_nil hd).elim
  | cons f fields ih =>
    rw [List.forall_mem_cons] at hkeys hfields
    intro d hd
    simp only [dumpFields, List.mem_cons, List.mem_append] at hd
    rcases hd with rfl | (hd | hd) | rfl | (hd | hd) | hd
    · exact h.printable _ (by decide)
    · exact h.newline level d hd
    · exact h.string f.1 hkeys.1 d hd
    · exact h.printable _ (by decide)
    · exact h.gap d hd
    · exact hfields.1 d hd
    · exact ih hkeys.2 hfields.2 d hd

/-- The characters of a text. -/
theorem forall_mem_dump (h : style.WritesOf good p) {v : Json} (hv : Plain good v) (level : Nat) : ∀ d ∈ dump style level v, p d := by
  have hword : ∀ word : Text, (word.all fun c => decide (IsPrintable c)) = true →
      ∀ d ∈ word, p d := by
    intro word hall d hd
    exact h.printable d (of_decide_eq_true (List.all_eq_true.mp hall d hd))
  induction hv generalizing level with
  | null => exact hword (text "null") (by decide)
  | bool b =>
    cases b with
    | true => exact hword (text "true") (by decide)
    | false => exact hword (text "false") (by decide)
  | int n =>
    have hdigits : ∀ d ∈ dumpNat n.natAbs, p d := by
      intro d hd
      have hdigit := isDigit_of_mem_dumpNat hd
      simp only [isDigit, Bool.and_eq_true, decide_eq_true_eq] at hdigit
      refine h.printable d ?_
      unfold IsPrintable
      omega
    intro d hd
    simp only [dump, dumpInt] at hd
    split at hd
    · rcases List.mem_cons.mp hd with rfl | hd
      · exact h.printable _ (by decide)
      · exact hdigits d hd
    · exact hdigits d hd
  | float hliteral => exact fun d hd => h.printable d (isPrintable_of_float hliteral d hd)
  | str hs => exact h.string _ hs
  | @arr items hitems ih =>
    cases items with
    | nil => exact hword [codePoint '[', codePoint ']'] (by decide)
    | cons item items =>
      intro d hd
      have hrest : ∀ d ∈ dumpItems style (level + 1) items, p d :=
        forall_mem_dumpItems h (level + 1) fun x hx => ih x (by simp [hx]) (level + 1)
      simp only [dump, List.mem_cons, List.mem_append, List.not_mem_nil, or_false] at hd
      rcases hd with rfl | (((hd | hd) | hd) | hd) | rfl
      · exact h.printable _ (by decide)
      · exact h.newline (level + 1) d hd
      · exact ih item (by simp) (level + 1) d hd
      · exact hrest d hd
      · exact h.newline level d hd
      · exact h.printable _ (by decide)
  | @obj fields hnodup hkeys hfields ih =>
    cases fields with
    | nil => exact hword [codePoint '\x7b', codePoint '\x7d'] (by decide)
    | cons f fields =>
      intro d hd
      have hrest : ∀ d ∈ dumpFields style (level + 1) fields, p d :=
        forall_mem_dumpFields h (level + 1) (fun x hx => hkeys x (by simp [hx]))
          fun x hx => ih x (by simp [hx]) (level + 1)
      simp only [dump, List.mem_cons, List.mem_append, List.not_mem_nil, or_false] at hd
      rcases hd with rfl | (hd | hd) | rfl | (((hd | hd) | hd) | hd) | rfl
      · exact h.printable _ (by decide)
      · exact h.newline (level + 1) d hd
      · exact h.string f.1 (hkeys f (by simp)) d hd
      · exact h.printable _ (by decide)
      · exact h.gap d hd
      · exact ih f (by simp) (level + 1) d hd
      · exact hrest d hd
      · exact h.newline level d hd
      · exact h.printable _ (by decide)

theorem isSurrogate_of_printable {c : CodePoint} (h : IsPrintable c) : isSurrogate c = false := by
  have hbound := h.2
  simp only [isSurrogate, Bool.and_eq_false_iff, decide_eq_false_iff_not]
  omega

/-- Escaped characters are printable ASCII. -/
theorem isPrintable_asciiEscape {c d : CodePoint} (hd : d ∈ asciiEscape c) : IsPrintable d := by
  have hhex : ∀ n, ∀ d ∈ hexEscape n, IsPrintable d := by
    intro n d hd
    have hdigit : ∀ k, k < 16 → IsPrintable (hexDigit k) := by
      intro k hk
      unfold IsPrintable hexDigit ofCode
      rw [Fin.val_ofNat]
      split
      · rw [Nat.mod_eq_of_lt (by omega)]
        omega
      · rw [Nat.mod_eq_of_lt (by omega)]
        omega
    simp only [hexEscape, List.mem_cons, List.not_mem_nil, or_false] at hd
    rcases hd with rfl | rfl | rfl | rfl | rfl | rfl
    · decide
    · decide
    all_goals exact hdigit _ (Nat.mod_lt _ (by decide))
  unfold asciiEscape at hd
  split at hd
  · rename_i letter hletter
    have hprintable : IsPrintable letter := by
      have hall : (['"', '\\', 'b', 'f', 'n', 'r', 't'].map codePoint).all
          (fun w => decide (IsPrintable w)) = true := by
        decide
      have hmem : letter ∈ ['"', '\\', 'b', 'f', 'n', 'r', 't'].map codePoint := by
        unfold shortEscape at hletter
        repeat' split at hletter
        all_goals first | cases hletter; done | (cases hletter; simp)
      exact of_decide_eq_true (List.all_eq_true.mp hall letter hmem)
    rcases List.mem_cons.mp hd with rfl | hd
    · decide
    · rw [List.mem_singleton.mp hd]
      exact hprintable
  · split at hd
    · rename_i hc
      rw [List.mem_singleton.mp hd]
      unfold IsPrintable
      omega
    split at hd
    · exact hhex _ d hd
    · rcases List.mem_append.mp hd with hd | hd
      · exact hhex _ d hd
      · exact hhex _ d hd

/-- The style without blanks writes printable ASCII. -/
theorem writes_asciiCompact : asciiCompact.Writes IsPrintable where
  escape _ _ hd := isPrintable_asciiEscape hd
  newline _ _ hd := (List.not_mem_nil hd).elim
  gap _ hd := (List.not_mem_nil hd).elim
  printable _ h := h

/-- The indented style writes printable ASCII and line feeds. -/
theorem writes_indented : indented.Writes fun c => IsPrintable c ∨ c = codePoint '\n' where
  escape _ _ hd := .inl (isPrintable_asciiEscape hd)
  newline level d hd := by
    rcases List.mem_cons.mp hd with rfl | hd
    · exact .inr rfl
    · rw [List.eq_of_mem_replicate hd]
      exact .inl (by decide)
  gap d hd := by
    rw [List.mem_singleton.mp hd]
    exact .inl (by decide)
  printable _ h := .inl h

end Characters

namespace Utf8

/-- A continuation octet. -/
theorem step_tail {owed low high bits : Nat} {out : Text} {b : UInt8} (hlow : low ≤ b.toNat)
    (hhigh : b.toNat ≤ high) :
    step ⟨owed + 1, low, high, bits, out⟩ b
      = if owed = 0 then some (State.ready (Fin.ofNat 0x110000 (bits * 64 + (b.toNat - 0x80)) :: out))
        else some ⟨owed, 0x80, 0xBF, bits * 64 + (b.toNat - 0x80), out⟩ := by
  unfold step
  dsimp only
  rw [if_pos ⟨hlow, hhigh⟩]

theorem toNat_ofNat {n : Nat} (h : n < 256) : (UInt8.ofNat n).toNat = n := by
  rw [UInt8.toNat_ofNat', Nat.mod_eq_of_lt h]

/-- The octets of one character. -/
def octetsOf (n : Nat) : List UInt8 :=
  if n < 0x80 then [UInt8.ofNat n]
  else if n < 0x800 then [UInt8.ofNat (0xC0 + n / 64), UInt8.ofNat (0x80 + n % 64)]
  else if n < 0x10000 then
    [UInt8.ofNat (0xE0 + n / 4096), UInt8.ofNat (0x80 + n / 64 % 64), UInt8.ofNat (0x80 + n % 64)]
  else
    [UInt8.ofNat (0xF0 + n / 262144), UInt8.ofNat (0x80 + n / 4096 % 64),
      UInt8.ofNat (0x80 + n / 64 % 64), UInt8.ofNat (0x80 + n % 64)]

theorem encode_cons_eq (c : CodePoint) (s : Text) :
    encode (c :: s) = if isSurrogate c then none else (encode s).map (octetsOf c.val ++ ·) := by
  rw [encode]
  split
  · rfl
  · cases encode s with
    | none => rfl
    | some tail =>
      simp only [bind, Option.bind, Option.map_some, octetsOf]
      split
      · rfl
      split
      · rfl
      split
      · rfl
      · rfl

theorem encode_cons {c : CodePoint} {s : Text} {raw : List UInt8} (h : encode (c :: s) = some raw) :
    isSurrogate c = false ∧ ∃ tail, encode s = some tail ∧ raw = octetsOf c.val ++ tail := by
  rw [encode_cons_eq] at h
  split at h
  · cases h
  · rename_i hsurrogate
    obtain ⟨tail, htail, rfl⟩ := Option.map_eq_some_iff.mp h
    exact ⟨by simpa using hsurrogate, tail, htail, rfl⟩

/-- A text has octets if no character of it is a surrogate. -/
theorem encode_isSome {s : Text} :
    (encode s).isSome = true ↔ ∀ c ∈ s, isSurrogate c = false := by
  induction s with
  | nil => simp [encode]
  | cons c s ih =>
    rw [encode_cons_eq, List.forall_mem_cons, ← ih]
    cases isSurrogate c <;> simp

/-- The last octet of a character. -/
theorem foldlM_last {bits n low high : Nat} {out : Text} {rest : List UInt8}
    (hlow : low ≤ 0x80 + n % 64) (hhigh : 0x80 + n % 64 ≤ high) (hbits : bits * 64 + n % 64 = n) :
    (UInt8.ofNat (0x80 + n % 64) :: rest).foldlM step ⟨1, low, high, bits, out⟩
      = rest.foldlM step (State.ready (Fin.ofNat 0x110000 n :: out)) := by
  have hoctet : (UInt8.ofNat (0x80 + n % 64)).toNat = 0x80 + n % 64 := toNat_ofNat (by omega)
  have hstep : step ⟨0 + 1, low, high, bits, out⟩ (UInt8.ofNat (0x80 + n % 64)) = _ :=
    step_tail (by omega) (by omega)
  have hsame : bits * 64 + (0x80 + n % 64 - 0x80) = n := by omega
  rw [hoctet, hsame, if_pos rfl] at hstep
  rw [List.foldlM_cons, hstep]
  rfl

/-- An octet in the middle of a character. -/
theorem foldlM_middle {owed bits m low high : Nat} {out : Text} {rest : List UInt8} (hm : m < 64)
    (hlow : low ≤ 0x80 + m) (hhigh : 0x80 + m ≤ high) :
    (UInt8.ofNat (0x80 + m) :: rest).foldlM step ⟨owed + 2, low, high, bits, out⟩
      = rest.foldlM step ⟨owed + 1, 0x80, 0xBF, bits * 64 + m, out⟩ := by
  have hoctet : (UInt8.ofNat (0x80 + m)).toNat = 0x80 + m := toNat_ofNat (by omega)
  have hstep : step ⟨(owed + 1) + 1, low, high, bits, out⟩ (UInt8.ofNat (0x80 + m)) = _ :=
    step_tail (by omega) (by omega)
  have hsame : bits * 64 + (0x80 + m - 0x80) = bits * 64 + m := by omega
  rw [hoctet, hsame, if_neg (by omega)] at hstep
  rw [List.foldlM_cons, hstep]
  rfl

/-- The octets of a character that is not a surrogate are read as that character. -/
theorem foldlM_octetsOf {c : CodePoint} (h : isSurrogate c = false) (out : Text)
    (rest : List UInt8) :
    (octetsOf c.val ++ rest).foldlM step (State.ready out)
      = rest.foldlM step (State.ready (c :: out)) := by
  have hbound := c.isLt
  simp only [isSurrogate, Bool.and_eq_false_iff, decide_eq_false_iff_not] at h
  unfold octetsOf
  by_cases hone : c.val < 0x80
  · have hoctet : (UInt8.ofNat c.val).toNat = c.val := toNat_ofNat (by omega)
    have hstep : step (State.ready out) (UInt8.ofNat c.val) = some (State.ready (c :: out)) := by
      show lead out (UInt8.ofNat c.val).toNat = _
      rw [hoctet, lead, if_pos hone, ofNat_val]
    rw [if_pos hone, List.singleton_append, List.foldlM_cons, hstep]
    rfl
  rw [if_neg hone]
  by_cases htwo : c.val < 0x800
  · have hoctet : (UInt8.ofNat (0xC0 + c.val / 64)).toNat = 0xC0 + c.val / 64 :=
      toNat_ofNat (by omega)
    have hstep : step (State.ready out) (UInt8.ofNat (0xC0 + c.val / 64))
        = some ⟨1, 0x80, 0xBF, c.val / 64, out⟩ := by
      show lead out (UInt8.ofNat (0xC0 + c.val / 64)).toNat = _
      have hbits : 0xC0 + c.val / 64 - 0xC0 = c.val / 64 := by omega
      rw [hoctet, lead, if_neg (by omega), if_pos (by omega), hbits]
    rw [if_pos htwo, List.cons_append, List.singleton_append, List.foldlM_cons, hstep]
    show (UInt8.ofNat (0x80 + c.val % 64) :: rest).foldlM step _ = _
    rw [foldlM_last (by omega) (by omega) (by omega), ofNat_val]
  rw [if_neg htwo]
  by_cases hthree : c.val < 0x10000
  · have hoctet : (UInt8.ofNat (0xE0 + c.val / 4096)).toNat = 0xE0 + c.val / 4096 :=
      toNat_ofNat (by omega)
    obtain ⟨low, high, hlow, hhigh, hstep⟩ : ∃ low high, low ≤ 0x80 + c.val / 64 % 64
        ∧ 0x80 + c.val / 64 % 64 ≤ high
        ∧ step (State.ready out) (UInt8.ofNat (0xE0 + c.val / 4096))
          = some ⟨2, low, high, c.val / 4096, out⟩ := by
      show ∃ low high, _ ∧ _ ∧ lead out (UInt8.ofNat (0xE0 + c.val / 4096)).toNat = _
      have hbits : 0xE0 + c.val / 4096 - 0xE0 = c.val / 4096 := by omega
      rw [hoctet, lead, if_neg (by omega), if_neg (by omega), hbits]
      by_cases hfirst : 0xE0 + c.val / 4096 = 0xE0
      · refine ⟨0xA0, 0xBF, by omega, by omega, ?_⟩
        rw [if_pos hfirst]
      by_cases hsurrogates : 0xE0 + c.val / 4096 = 0xED
      · refine ⟨0x80, 0x9F, by omega, by omega, ?_⟩
        rw [if_neg hfirst, if_pos hsurrogates]
      · refine ⟨0x80, 0xBF, by omega, by omega, ?_⟩
        rw [if_neg hfirst, if_neg hsurrogates, if_pos (by omega)]
    rw [if_pos hthree]
    simp only [List.cons_append, List.nil_append]
    rw [List.foldlM_cons, hstep]
    show (UInt8.ofNat (0x80 + c.val / 64 % 64) :: UInt8.ofNat (0x80 + c.val % 64) :: rest).foldlM
      step ⟨0 + 2, low, high, c.val / 4096, out⟩ = _
    rw [foldlM_middle (Nat.mod_lt _ (by decide)) hlow hhigh, Nat.zero_add,
      foldlM_last (by omega) (by omega) (by omega), ofNat_val]
  · have hoctet : (UInt8.ofNat (0xF0 + c.val / 262144)).toNat = 0xF0 + c.val / 262144 :=
      toNat_ofNat (by omega)
    obtain ⟨low, high, hlow, hhigh, hstep⟩ : ∃ low high, low ≤ 0x80 + c.val / 4096 % 64
        ∧ 0x80 + c.val / 4096 % 64 ≤ high
        ∧ step (State.ready out) (UInt8.ofNat (0xF0 + c.val / 262144))
          = some ⟨3, low, high, c.val / 262144, out⟩ := by
      show ∃ low high, _ ∧ _ ∧ lead out (UInt8.ofNat (0xF0 + c.val / 262144)).toNat = _
      have hbits : 0xF0 + c.val / 262144 - 0xF0 = c.val / 262144 := by omega
      rw [hoctet, lead, if_neg (by omega), if_neg (by omega), if_neg (by omega), if_neg (by omega),
        if_neg (by omega), hbits]
      by_cases hfirst : 0xF0 + c.val / 262144 = 0xF0
      · refine ⟨0x90, 0xBF, by omega, by omega, ?_⟩
        rw [if_pos hfirst]
      by_cases hmiddle : 0xF1 ≤ 0xF0 + c.val / 262144 ∧ 0xF0 + c.val / 262144 ≤ 0xF3
      · refine ⟨0x80, 0xBF, by omega, by omega, ?_⟩
        rw [if_neg hfirst, if_pos hmiddle]
      · refine ⟨0x80, 0x8F, by omega, by omega, ?_⟩
        rw [if_neg hfirst, if_neg hmiddle, if_pos (by omega)]
    rw [if_neg hthree]
    simp only [List.cons_append, List.nil_append]
    rw [List.foldlM_cons, hstep]
    show (UInt8.ofNat (0x80 + c.val / 4096 % 64) :: UInt8.ofNat (0x80 + c.val / 64 % 64)
      :: UInt8.ofNat (0x80 + c.val % 64) :: rest).foldlM
      step ⟨1 + 2, low, high, c.val / 262144, out⟩ = _
    rw [foldlM_middle (Nat.mod_lt _ (by decide)) hlow hhigh]
    show (UInt8.ofNat (0x80 + c.val / 64 % 64) :: UInt8.ofNat (0x80 + c.val % 64) :: rest).foldlM
      step ⟨0 + 2, 0x80, 0xBF, c.val / 262144 * 64 + c.val / 4096 % 64, out⟩ = _
    rw [foldlM_middle (Nat.mod_lt _ (by decide)) (by omega) (by omega), Nat.zero_add,
      foldlM_last (by omega) (by omega) (by omega), ofNat_val]

/-- **UTF-8.** The octets of a text are decoded to it. -/
theorem decode_encode {s : Text} {raw : List UInt8} (h : encode s = some raw) :
    decode raw = some s := by
  have hfold : ∀ (s : Text) (raw : List UInt8) (out : Text), encode s = some raw →
      raw.foldlM step (State.ready out) = some (State.ready (s.reverse ++ out)) := by
    intro s
    induction s with
    | nil =>
      intro raw out h
      cases h
      rfl
    | cons c s ih =>
      intro raw out h
      obtain ⟨hsurrogate, tail, htail, rfl⟩ := encode_cons h
      rw [foldlM_octetsOf hsurrogate, ih tail (c :: out) htail, List.reverse_cons,
        List.append_assoc]
      rfl
  unfold decode
  rw [hfold s raw [] h]
  simp [State.ready]

end Utf8

/-- **Round trip.** The octets of what `dumps` writes are read as the value with its keys in order. -/
theorem loads_dumps {limits : Limits} {style : Style} {v : Json} {t : Text} {raw : List UInt8}
    (h : Plain (Reads style) v) (hnumber : v.isNumber = false)
    (hdumps : dumps limits style v = .ok t) (hraw : Utf8.encode t = some raw) :
    loads limits raw = .ok (sortKeys v) := by
  have hparse : parse limits (t ++ []) = .ok (sortKeys v) :=
    parse_dumps h hnumber hdumps fun _ hc => (List.not_mem_nil hc).elim
  rw [List.append_nil] at hparse
  unfold loads
  rw [Utf8.decode_encode hraw]
  exact hparse

end JsonText
