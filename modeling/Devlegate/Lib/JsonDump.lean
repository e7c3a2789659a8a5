import Devlegate.Lib.Json
import Mathlib.Data.Nat.Digits.Lemmas
import Mathlib.Data.List.Perm.Basic
import Mathlib.Data.List.TakeWhile

namespace JsonText

/-!
# The JSON encoder

`json.dumps(value, sort_keys=True)` followed by `.encode("utf-8")`, against the decoder of
`Devlegate.Lib.Json`.

* `dump`: a value as text, in a `Style` that says how a character is escaped and what stands between
  the items.
* `sortKeys`, `Same`: the keys of every object in order; values that differ only in that order.
* `loads_dumps`: what is written is read back as the same value with its keys in order.
-/

/-! ### Text of a value -/

/-- How values are written: the escape of a character inside a string, what stands before an item or
    a closing bracket at a nesting level, and what stands after a colon. -/
structure Style where
  escape : CodePoint → Text
  newline : Nat → Text
  gap : Text
  newline_blank : ∀ level, ∀ c ∈ newline level, isSpace c = true
  gap_blank : ∀ c ∈ gap, isSpace c = true

/-- A decimal digit. -/
def digit (d : Nat) : CodePoint := ofCode (0x30 + d)

/-- `str(n)` of a natural number. -/
def dumpNat (n : Nat) : Text :=
  if n = 0 then [digit 0] else (Nat.digits 10 n).reverse.map digit

/-- `str(n)`. -/
def dumpInt (n : Int) : Text :=
  if n < 0 then codePoint '-' :: dumpNat n.natAbs else dumpNat n.natAbs

def dumpString (style : Style) (s : Text) : Text :=
  codePoint '"' :: (s.flatMap style.escape ++ [codePoint '"'])

mutual

/-- The text of a value whose keys are in order already. -/
def dump (style : Style) (level : Nat) : Json → Text
  | .null => text "null"
  | .bool true => text "true"
  | .bool false => text "false"
  | .int n => dumpInt n
  | .float literal => literal
  | .str s => dumpString style s
  | .arr [] => [codePoint '[', codePoint ']']
  | .arr (item :: items) =>
    codePoint '[' :: (style.newline (level + 1) ++ dump style (level + 1) item
      ++ dumpItems style (level + 1) items ++ style.newline level ++ [codePoint ']'])
  | .obj [] => [codePoint '\x7b', codePoint '\x7d']
  | .obj ((key, value) :: fields) =>
    codePoint '\x7b' :: (style.newline (level + 1) ++ dumpString style key
      ++ codePoint ':' :: (style.gap ++ dump style (level + 1) value
      ++ dumpFields style (level + 1) fields ++ style.newline level ++ [codePoint '\x7d']))

/-- The items after the first one. -/
def dumpItems (style : Style) (level : Nat) : List Json → Text
  | [] => []
  | item :: items =>
    codePoint ',' :: (style.newline level ++ dump style level item ++ dumpItems style level items)

/-- The members after the first one. -/
def dumpFields (style : Style) (level : Nat) : List (Text × Json) → Text
  | [] => []
  | (key, value) :: fields =>
    codePoint ',' :: (style.newline level ++ dumpString style key
      ++ codePoint ':' :: (style.gap ++ dump style level value ++ dumpFields style level fields))

end

/-! ### Keys in order -/

/-- The order of texts by their code points. -/
def textLe : Text → Text → Bool
  | [], _ => true
  | _ :: _, [] => false
  | a :: s, b :: t => decide (a < b) || a == b && textLe s t

mutual

/-- The value with the keys of every object in order. -/
def sortKeys : Json → Json
  | .arr items => .arr (sortItems items)
  | .obj fields => .obj ((sortFields fields).mergeSort fun f g => textLe f.1 g.1)
  | .null => .null
  | .bool b => .bool b
  | .int n => .int n
  | .float literal => .float literal
  | .str s => .str s

def sortItems : List Json → List Json
  | [] => []
  | item :: items => sortKeys item :: sortItems items

def sortFields : List (Text × Json) → List (Text × Json)
  | [] => []
  | (key, value) :: fields => (key, sortKeys value) :: sortFields fields

end

/-! ### What can be written -/

mutual

/-- Nothing is nested deeper and no integer is longer than the interpreter allows. -/
def fits (limits : Limits) (depth : Nat) : Json → Bool
  | .int n => (dumpNat n.natAbs).length ≤ limits.digits
  | .arr items => depth < limits.nesting && fitsItems limits (depth + 1) items
  | .obj fields => depth < limits.nesting && fitsFields limits (depth + 1) fields
  | .null | .bool _ | .float _ | .str _ => true

def fitsItems (limits : Limits) (depth : Nat) : List Json → Bool
  | [] => true
  | item :: items => fits limits depth item && fitsItems limits depth items

def fitsFields (limits : Limits) (depth : Nat) : List (Text × Json) → Bool
  | [] => true
  | (_, value) :: fields => fits limits depth value && fitsFields limits depth fields

end

/-- `json.dumps(value, sort_keys=True)`; the error is the one of the interpreter's limits. -/
def dumps (limits : Limits) (style : Style) (v : Json) : Except LoadError Text :=
  if fits limits 0 v then .ok (dump style 0 (sortKeys v)) else .error .recursion

mutual

/-- The first of the interpreter's limits that the encoder runs into, if any, in a value whose keys
    are in order. -/
def limitOf (limits : Limits) (depth : Nat) : Json → Option LoadError
  | .int n => if (dumpNat n.natAbs).length ≤ limits.digits then none else some .digits
  | .arr items =>
    if depth < limits.nesting then limitOfItems limits (depth + 1) items else some .recursion
  | .obj fields =>
    if depth < limits.nesting then limitOfFields limits (depth + 1) fields else some .recursion
  | .null | .bool _ | .float _ | .str _ => none

def limitOfItems (limits : Limits) (depth : Nat) : List Json → Option LoadError
  | [] => none
  | item :: items => limitOf limits depth item <|> limitOfItems limits depth items

def limitOfFields (limits : Limits) (depth : Nat) : List (Text × Json) → Option LoadError
  | [] => none
  | (_, value) :: fields => limitOf limits depth value <|> limitOfFields limits depth fields

end

/-- The number a literal starts with. -/
def startNumPart (c : CodePoint) : Option NumPart :=
  if c = codePoint '-' then some .minus
  else if c = codePoint '0' then some .zero
  else if isDigit c then some .int
  else none

/-- A literal that stands for a float. -/
def isFloatLiteral (literal : Text) : Bool :=
  literal = text "NaN" || literal = text "Infinity" || literal = text "-Infinity" ||
    match literal with
    | [] => false
    | c :: rest =>
      match (startNumPart c).bind fun part => rest.foldlM nextNumPart part with
      | some .frac | some .expoDigits => true
      | _ => false

/-- A value as the interpreter holds it: no object has a key twice, a float has a float's literal,
    and all texts are good. -/
inductive Plain (good : Text → Prop) : Json → Prop
  | null : Plain good .null
  | bool (b : Bool) : Plain good (.bool b)
  | int (n : Int) : Plain good (.int n)
  | float {literal : Text} (h : isFloatLiteral literal = true) : Plain good (.float literal)
  | str {s : Text} (h : good s) : Plain good (.str s)
  | arr {items : List Json} (h : ∀ item ∈ items, Plain good item) : Plain good (.arr items)
  | obj {fields : List (Text × Json)} (hnodup : (fields.map (·.1)).Nodup)
      (hkeys : ∀ f ∈ fields, good f.1) (h : ∀ f ∈ fields, Plain good f.2) : Plain good (.obj fields)

/-- Values that are equal but for the order of their keys. -/
inductive Same : Json → Json → Prop
  | null : Same .null .null
  | bool (b : Bool) : Same (.bool b) (.bool b)
  | int (n : Int) : Same (.int n) (.int n)
  | float (literal : Text) : Same (.float literal) (.float literal)
  | str (s : Text) : Same (.str s) (.str s)
  | arr {items : List (Json × Json)} (h : ∀ item ∈ items, Same item.1 item.2) :
      Same (.arr (items.map (·.1))) (.arr (items.map (·.2)))
  | obj {fields : List (Text × Json × Json)} {other : List (Text × Json)}
      (h : ∀ f ∈ fields, Same f.2.1 f.2.2) (hperm : (fields.map fun f => (f.1, f.2.2)).Perm other) :
      Same (.obj (fields.map fun f => (f.1, f.2.1))) (.obj other)

/-! ### Keys in order: lemmas -/

section Sorted

variable {good : Text → Prop} {limits : Limits} {v : Json}

theorem sortItems_eq (items : List Json) : sortItems items = items.map sortKeys := by
  induction items with
  | nil => rfl
  | cons item items ih => simp [sortItems, ih]

theorem sortFields_eq (fields : List (Text × Json)) :
    sortFields fields = fields.map fun f => (f.1, sortKeys f.2) := by
  induction fields with
  | nil => rfl
  | cons f fields ih => simp [sortFields, ih]

theorem fitsItems_eq (depth : Nat) (items : List Json) :
    fitsItems limits depth items = items.all (fits limits depth) := by
  induction items with
  | nil => rfl
  | cons item items ih => simp [fitsItems, ih]

theorem fitsFields_eq (depth : Nat) (fields : List (Text × Json)) :
    fitsFields limits depth fields = fields.all fun f => fits limits depth f.2 := by
  induction fields with
  | nil => rfl
  | cons f fields ih => simp [fitsFields, ih]

/-- The members of an object, sorted, are its members. -/
theorem sortedFields_perm (fields : List (Text × Json)) :
    ((sortFields fields).mergeSort fun f g => textLe f.1 g.1).Perm
      (fields.map fun f => (f.1, sortKeys f.2)) := by
  rw [sortFields_eq]
  exact List.mergeSort_perm _ _

theorem Plain.sortKeys (h : Plain good v) : Plain good (sortKeys v) := by
  induction h with
  | null => exact .null
  | bool b => exact .bool b
  | int n => exact .int n
  | float h => exact .float h
  | str h => exact .str h
  | arr h ih =>
    refine .arr ?_
    rw [sortItems_eq]
    intro item hitem
    obtain ⟨item, hmem, rfl⟩ := List.mem_map.mp hitem
    exact ih item hmem
  | @obj fields hnodup hkeys h ih =>
    have hperm := sortedFields_perm fields
    refine .obj ?_ ?_ ?_
    · have hkeysPerm := hperm.map Prod.fst
      rw [hkeysPerm.nodup_iff, List.map_map]
      exact hnodup
    · intro f hf
      obtain ⟨g, hg, rfl⟩ := List.mem_map.mp (hperm.mem_iff.mp hf)
      exact hkeys g hg
    · intro f hf
      obtain ⟨g, hg, rfl⟩ := List.mem_map.mp (hperm.mem_iff.mp hf)
      exact ih g hg

/-- What fits in a container fits outside of it. -/
theorem fits_of_le (h : Plain good v) {depth outer : Nat} (hle : outer ≤ depth)
    (hfits : fits limits depth v = true) : fits limits outer v = true := by
  induction h generalizing depth outer with
  | null => rfl
  | bool b => rfl
  | int n => exact hfits
  | float h => rfl
  | str h => rfl
  | arr h ih =>
    simp only [fits, fitsItems_eq, Bool.and_eq_true, decide_eq_true_eq, List.all_eq_true] at hfits ⊢
    refine ⟨by omega, fun item hitem => ?_⟩
    exact ih item hitem (Nat.add_le_add_right hle 1) (hfits.2 item hitem)
  | obj hnodup hkeys h ih =>
    simp only [fits, fitsFields_eq, Bool.and_eq_true, decide_eq_true_eq, List.all_eq_true] at hfits ⊢
    refine ⟨by omega, fun f hf => ?_⟩
    exact ih f hf (Nat.add_le_add_right hle 1) (hfits.2 f hf)

theorem fits_sortKeys (h : Plain good v) (depth : Nat) :
    fits limits depth (JsonText.sortKeys v) = fits limits depth v := by
  induction h generalizing depth with
  | null => rfl
  | bool b => rfl
  | int n => rfl
  | float h => rfl
  | str h => rfl
  | @arr items h ih =>
    simp only [JsonText.sortKeys, fits, fitsItems_eq, sortItems_eq, List.all_map]
    congr 1
    rw [Bool.eq_iff_iff, List.all_eq_true, List.all_eq_true]
    exact forall₂_congr fun item hitem => by rw [Function.comp_apply, ih item hitem]
  | @obj fields hnodup hkeys h ih =>
    simp only [JsonText.sortKeys, fits, fitsFields_eq]
    congr 1
    rw [(sortedFields_perm fields).all_eq, List.all_map, Bool.eq_iff_iff, List.all_eq_true,
      List.all_eq_true]
    exact forall₂_congr fun f hf => by rw [Function.comp_apply, ih f hf]

mutual

/-- The encoder runs into no limit when the value fits. -/
theorem limitOf_eq_none (depth : Nat) :
    (v : Json) → (limitOf limits depth v = none ↔ fits limits depth v = true)
  | .null | .bool _ | .float _ | .str _ => by simp [limitOf, fits]
  | .int n => by simp [limitOf, fits]
  | .arr items => by
    have hitems := limitOfItems_eq_none (depth + 1) items
    by_cases hdepth : depth < limits.nesting
    · simp [limitOf, fits, hdepth, hitems]
    · simp [limitOf, fits, hdepth]
  | .obj fields => by
    have hfields := limitOfFields_eq_none (depth + 1) fields
    by_cases hdepth : depth < limits.nesting
    · simp [limitOf, fits, hdepth, hfields]
    · simp [limitOf, fits, hdepth]

theorem limitOfItems_eq_none (depth : Nat) :
    (items : List Json) → (limitOfItems limits depth items = none ↔ fitsItems limits depth items = true)
  | [] => by simp [limitOfItems, fitsItems]
  | item :: items => by
    simp [limitOfItems, fitsItems, limitOf_eq_none depth item, limitOfItems_eq_none depth items]

theorem limitOfFields_eq_none (depth : Nat) :
    (fields : List (Text × Json)) →
      (limitOfFields limits depth fields = none ↔ fitsFields limits depth fields = true)
  | [] => by simp [limitOfFields, fitsFields]
  | (_, value) :: fields => by
    simp [limitOfFields, fitsFields, limitOf_eq_none depth value, limitOfFields_eq_none depth fields]

end

/-- Only one member has a limit to run into. -/
theorem limitOfFields_of_only {depth : Nat} {fields : List (Text × Json)} {limit : Option LoadError}
    (hothers : ∀ f ∈ fields, limitOf limits depth f.2 = none ∨ limitOf limits depth f.2 = limit)
    (hsome : limit = none ∨ ∃ f ∈ fields, limitOf limits depth f.2 = limit) :
    limitOfFields limits depth fields = limit := by
  induction fields with
  | nil =>
    rcases hsome with rfl | ⟨f, hf, -⟩
    · rfl
    · exact (List.not_mem_nil hf).elim
  | cons f fields ih =>
    rw [List.forall_mem_cons] at hothers
    show (limitOf limits depth f.2 <|> limitOfFields limits depth fields) = limit
    cases hfirst : limitOf limits depth f.2 with
    | some e => simpa [hfirst] using hothers.1
    | none =>
      have hrest : limit = none ∨ ∃ g ∈ fields, limitOf limits depth g.2 = limit := by
        rcases hsome with hnone | ⟨g, hg, hlimit⟩
        · exact .inl hnone
        · rcases List.mem_cons.mp hg with rfl | hg
          · exact .inl (hlimit.symm.trans hfirst)
          · exact .inr ⟨g, hg, hlimit⟩
      simpa using ih hothers.2 hrest

theorem limitOf_sortKeys_obj {depth : Nat} {fields : List (Text × Json)} {f : Text × Json}
    (hf : f ∈ fields) (hdepth : depth < limits.nesting)
    (hothers : ∀ g ∈ fields, g = f ∨ limitOf limits (depth + 1) (JsonText.sortKeys g.2) = none) :
    limitOf limits depth (JsonText.sortKeys (.obj fields))
      = limitOf limits (depth + 1) (JsonText.sortKeys f.2) := by
  have hperm := sortedFields_perm fields
  show (if depth < limits.nesting then limitOfFields limits (depth + 1) _ else some .recursion) = _
  rw [if_pos hdepth]
  apply limitOfFields_of_only
  · intro sorted hsorted
    obtain ⟨g, hg, rfl⟩ := List.mem_map.mp (hperm.mem_iff.mp hsorted)
    rcases hothers g hg with rfl | hnone
    · exact .inr rfl
    · exact .inl hnone
  · exact .inr ⟨_, hperm.mem_iff.mpr (List.mem_map.mpr ⟨f, hf, rfl⟩), rfl⟩

/-- Putting the keys in order changes nothing else. -/
theorem same_sortKeys (h : Plain good v) : Same v (JsonText.sortKeys v) := by
  induction h with
  | null => exact .null
  | bool b => exact .bool b
  | int n => exact .int n
  | float h => exact .float _
  | str h => exact .str _
  | @arr items h ih =>
    have hsame : Same (.arr ((items.map fun item => (item, JsonText.sortKeys item)).map (·.1)))
        (.arr ((items.map fun item => (item, JsonText.sortKeys item)).map (·.2))) := by
      refine .arr ?_
      intro pair hpair
      obtain ⟨item, hmem, rfl⟩ := List.mem_map.mp hpair
      exact ih item hmem
    simpa [JsonText.sortKeys, sortItems_eq, Function.comp_def] using hsame
  | @obj fields hnodup hkeys h ih =>
    have hperm := (sortedFields_perm fields).symm
    have hsame : Same
        (.obj ((fields.map fun f => (f.1, f.2, JsonText.sortKeys f.2)).map fun f => (f.1, f.2.1)))
        (JsonText.sortKeys (.obj fields)) := by
      refine .obj ?_ ?_
      · intro f hf
        obtain ⟨g, hg, rfl⟩ := List.mem_map.mp hf
        exact ih g hg
      · simpa [Function.comp_def] using hperm
    simpa [Function.comp_def] using hsame

/-- A weaker demand on the texts. -/
theorem Plain.mono {other : Text → Prop} (h : Plain good v) (hmono : ∀ s, good s → other s) :
    Plain other v := by
  induction h with
  | null => exact .null
  | bool b => exact .bool b
  | int n => exact .int n
  | float h => exact .float h
  | str h => exact .str (hmono _ h)
  | arr h ih => exact .arr ih
  | obj hnodup hkeys h ih => exact .obj hnodup (fun f hf => hmono _ (hkeys f hf)) ih

/-- A key is found at the same value wherever it stands. -/
theorem lookup_perm {fields other : List (Text × Json)} (hperm : fields.Perm other)
    (hnodup : (fields.map (·.1)).Nodup) (key : Text) : other.lookup key = fields.lookup key := by
  induction hperm with
  | nil => rfl
  | cons f _ ih =>
    rw [List.map_cons, List.nodup_cons] at hnodup
    rw [List.lookup_cons, List.lookup_cons, ih hnodup.2]
  | swap f g fields =>
    simp only [List.map_cons, List.nodup_cons, List.mem_cons, not_or] at hnodup
    have hne : g.1 ≠ f.1 := hnodup.1.1
    obtain ⟨k, v⟩ := f
    obtain ⟨l, w⟩ := g
    by_cases hk : key = k
    · have hl : (key == l) = false := beq_eq_false_iff_ne.mpr fun h => hne (h.symm.trans hk)
      simp [List.lookup_cons, hl]
    · have hk' : (key == k) = false := beq_eq_false_iff_ne.mpr hk
      simp [List.lookup_cons, hk']
  | trans hfirst _ ih ih' =>
    rw [ih' ((hfirst.map Prod.fst).nodup_iff.mp hnodup), ih hnodup]

/-- A change of the values under their keys. -/
theorem lookup_map_snd {α β : Type} (f : α → β) (fields : List (Text × α)) (key : Text) :
    (fields.map fun g => (g.1, f g.2)).lookup key = (fields.lookup key).map f := by
  induction fields with
  | nil => rfl
  | cons g fields ih =>
    rw [List.map_cons, List.lookup_cons, List.lookup_cons, ih]
    by_cases hkey : key = g.1
    · simp [hkey]
    · simp [beq_eq_false_iff_ne.mpr hkey]

/-- The members of an object under its keys are the same before and after. -/
theorem exists_sortKeys_of_nodup {fields : List (Text × Json)}
    (hnodup : (fields.map (·.1)).Nodup) :
    ∃ sorted, JsonText.sortKeys (.obj fields) = .obj sorted
      ∧ (sorted.map (·.1)).Perm (fields.map (·.1))
      ∧ ∀ key, getField sorted key = (getField fields key).map JsonText.sortKeys := by
  have hperm := sortedFields_perm fields
  have hkeys := hperm.map Prod.fst
  rw [List.map_map] at hkeys
  refine ⟨_, rfl, hkeys, fun key => ?_⟩
  unfold getField
  rw [← lookup_map_snd]
  refine lookup_perm hperm.symm ?_ (text key)
  rw [List.map_map]
  exact hnodup

theorem exists_sortKeys_obj {fields : List (Text × Json)} (h : Plain good (.obj fields)) :
    ∃ sorted, JsonText.sortKeys (.obj fields) = .obj sorted
      ∧ (sorted.map (·.1)).Perm (fields.map (·.1))
      ∧ ∀ key, getField sorted key = (getField fields key).map JsonText.sortKeys := by
  cases h with
  | obj hnodup _ _ => exact exists_sortKeys_of_nodup hnodup

/-- With unique keys, a member is what its key is looked up as. -/
theorem lookup_eq_some_iff_mem {α : Type} {fields : List (Text × α)}
    (hnodup : (fields.map (·.1)).Nodup) {key : Text} {value : α} :
    fields.lookup key = some value ↔ (key, value) ∈ fields := by
  induction fields with
  | nil => simp
  | cons f fields ih =>
    obtain ⟨k, v⟩ := f
    rw [List.map_cons, List.nodup_cons] at hnodup
    rw [List.lookup_cons, List.mem_cons]
    by_cases hk : key = k
    · subst hk
      have hrest : (key, value) ∉ fields := fun h => hnodup.1 (List.mem_map.mpr ⟨_, h, rfl⟩)
      simp [hrest, eq_comm]
    · simp [hk, beq_eq_false_iff_ne.mpr hk, ih hnodup.2]

/-- Objects with the same keys, and under each key the same value up to order. -/
theorem same_obj {fields other : List (Text × Json)} (hnodup : (fields.map (·.1)).Nodup)
    (hother : (other.map (·.1)).Nodup)
    (hvalues : ∀ f ∈ fields, ∃ v, other.lookup f.1 = some v ∧ Same f.2 v)
    (hkeys : ∀ g ∈ other, g.1 ∈ fields.map (·.1)) : Same (.obj fields) (.obj other) := by
  have hpair : ∀ f ∈ fields, (f.1, (other.lookup f.1).getD .null) ∈ other := by
    intro f hf
    obtain ⟨v, hv, -⟩ := hvalues f hf
    rw [hv]
    exact (lookup_eq_some_iff_mem hother).mp hv
  have hperm : (fields.map fun f => (f.1, (other.lookup f.1).getD .null)).Perm other := by
    refine (List.perm_ext_iff_of_nodup ?_ (List.Nodup.of_map _ hother)).mpr fun g => ⟨?_, ?_⟩
    · refine List.Nodup.of_map Prod.fst ?_
      rw [List.map_map]
      exact hnodup
    · intro hg
      obtain ⟨f, hf, rfl⟩ := List.mem_map.mp hg
      exact hpair f hf
    · intro hg
      obtain ⟨f, hf, hkey⟩ := List.mem_map.mp (hkeys g hg)
      have hlookup : other.lookup f.1 = some g.2 := by
        rw [hkey]
        exact (lookup_eq_some_iff_mem hother).mpr hg
      refine List.mem_map.mpr ⟨f, hf, ?_⟩
      rw [hlookup, hkey]
      rfl
  have hsame : Same
      (.obj ((fields.map fun f => (f.1, f.2, (other.lookup f.1).getD .null)).map
        fun f => (f.1, f.2.1))) (.obj other) := by
    refine .obj ?_ ?_
    · intro f hf
      obtain ⟨g, hg, rfl⟩ := List.mem_map.mp hf
      obtain ⟨v, hv, hsame⟩ := hvalues g hg
      rw [hv]
      exact hsame
    · simpa [Function.comp_def] using hperm
  simpa [Function.comp_def] using hsame

end Sorted

/-! ### Reading what was written -/

section Reading

variable {limits : Limits} {style : Style} {stack : List Frame}

/-- The scanner on a text. -/
abbrev scan (limits : Limits) (s : Text) (st : Scan) : Except LoadError Scan :=
  s.foldlM (Scan.step limits) st

theorem scan_cons (c : CodePoint) (s : Text) (st : Scan) :
    scan limits (c :: s) st = (Scan.step limits st c >>= scan limits s) := by
  simp [scan, List.foldlM_cons]

theorem scan_step {c : CodePoint} {st st' : Scan} (h : Scan.step limits st c = .ok st') (s : Text) :
    scan limits (c :: s) st = scan limits s st' := by
  rw [scan_cons, h]
  rfl

/-- What can stand after a value: it ends a number. -/
def isDelimiter (c : CodePoint) : Bool :=
  isSpace c || c == codePoint ',' || c == codePoint ']' || c == codePoint '\x7d'

/-- A text that ends the value before it. -/
def Delimits (s : Text) : Prop := ∃ c rest, s = c :: rest ∧ isDelimiter c = true

theorem isDelimiter_cases {c : CodePoint} (h : isDelimiter c = true) :
    c = codePoint ' ' ∨ c = codePoint '\t' ∨ c = codePoint '\n' ∨ c = codePoint '\r'
      ∨ c = codePoint ',' ∨ c = codePoint ']' ∨ c = codePoint '\x7d' := by
  simp only [isDelimiter, isSpace, Bool.or_eq_true, beq_iff_eq] at h
  tauto

theorem nextNumPart_delimiter {c : CodePoint} (h : isDelimiter c = true) (part : NumPart) :
    nextNumPart part c = none ∧ c ≠ codePoint 'I' := by
  rcases isDelimiter_cases h with rfl | rfl | rfl | rfl | rfl | rfl | rfl <;>
    cases part <;> decide +revert

/-- Blanks before a delimiter. -/
theorem Delimits.blank {ws s : Text} (hws : ∀ c ∈ ws, isSpace c = true) (h : Delimits s) :
    Delimits (ws ++ s) := by
  cases ws with
  | nil => exact h
  | cons c ws =>
    refine ⟨c, ws ++ s, rfl, ?_⟩
    simp [isDelimiter, hws c (by simp)]

/-- A complete value waits for what may follow it. -/
theorem step_deliver (v : Json) (c : CodePoint) :
    Scan.step limits (deliver stack v) c = stepAfter (deliver stack v) c := by
  cases stack with
  | nil => rfl
  | cons frame rest => cases frame <;> rfl

/-! ### Blanks -/

theorem scan_blank {mode : Mode} {ws : Text} (hws : ∀ c ∈ ws, isSpace c = true)
    (hmode : ∀ c, isSpace c = true → Scan.step limits ⟨stack, mode⟩ c = .ok ⟨stack, mode⟩)
    (s : Text) : scan limits (ws ++ s) ⟨stack, mode⟩ = scan limits s ⟨stack, mode⟩ := by
  induction ws with
  | nil => rfl
  | cons c ws ih =>
    rw [List.cons_append, scan_step (hmode c (hws c (by simp)))]
    exact ih fun d hd => hws d (by simp [hd])

theorem step_value_blank (orClose : Bool) (c : CodePoint) (h : isSpace c = true) :
    Scan.step limits ⟨stack, .value orClose⟩ c = .ok ⟨stack, .value orClose⟩ := by
  simp [Scan.step, h]

theorem step_key_blank (orClose : Bool) (c : CodePoint) (h : isSpace c = true) :
    Scan.step limits ⟨stack, .key orClose⟩ c = .ok ⟨stack, .key orClose⟩ := by
  simp [Scan.step, h]

theorem step_after_blank (frame : Frame) (c : CodePoint) (h : isSpace c = true) :
    Scan.step limits ⟨frame :: stack, .after⟩ c = .ok ⟨frame :: stack, .after⟩ := by
  cases frame <;> simp [Scan.step, stepAfter, afterValue, h]

/-! ### Words and strings -/

/-- The rest of a word. -/
theorem scan_word (result : Json) (w : CodePoint) (ws : Text) (s : Text) :
    scan limits (w :: ws ++ s) ⟨stack, .word (w :: ws) result⟩ = scan limits s (deliver stack result) := by
  induction ws generalizing w with
  | nil => exact scan_step (by simp [Scan.step]) s
  | cons x ws ih =>
    have hstep : Scan.step limits ⟨stack, .word (w :: x :: ws) result⟩ w
        = .ok ⟨stack, .word (x :: ws) result⟩ := by simp [Scan.step]
    rw [List.cons_append, scan_step hstep]
    exact ih x

/-- The characters of a string, escaped, are read as that string. -/
def Reads (style : Style) (s : Text) : Prop :=
  ∀ (limits : Limits) (stack : List Frame) (isKey : Bool) (more : Text), ∃ high,
    scan limits (s.flatMap style.escape ++ more) ⟨stack, .string isKey [] false .plain⟩
      = scan limits more ⟨stack, .string isKey s.reverse high .plain⟩

theorem step_quote (isKey high : Bool) (acc : Text) :
    Scan.step limits ⟨stack, .string isKey acc high .plain⟩ (codePoint '"')
      = endString stack isKey acc.reverse := by
  simp [Scan.step, stepString]

theorem scan_string {s : Text} (h : Reads style s) (orClose : Bool) (more : Text) :
    scan limits (dumpString style s ++ more) ⟨stack, .value orClose⟩
      = scan limits more (deliver stack (.str s)) := by
  have hopen : Scan.step limits ⟨stack, .value orClose⟩ (codePoint '"')
      = .ok ⟨stack, .string false [] false .plain⟩ := by
    have hspace : isSpace (codePoint '"') = false := by decide
    have hclose : (codePoint '"' == codePoint ']') = false := by decide
    simp [Scan.step, hspace, hclose, beginValue]
  obtain ⟨high, hscan⟩ := h limits stack false (codePoint '"' :: more)
  unfold dumpString
  rw [List.cons_append, scan_step hopen, List.append_assoc, List.singleton_append, hscan]
  refine scan_step ?_ more
  rw [step_quote, List.reverse_reverse]
  rfl

theorem scan_key {s : Text} (h : Reads style s) (orClose : Bool) (fields : List (Text × Json))
    (key : Text) (more : Text) :
    scan limits (dumpString style s ++ more) ⟨.obj fields key :: stack, .key orClose⟩
      = scan limits more ⟨.obj fields s :: stack, .colon⟩ := by
  have hopen : Scan.step limits ⟨.obj fields key :: stack, .key orClose⟩ (codePoint '"')
      = .ok ⟨.obj fields key :: stack, .string true [] false .plain⟩ := by
    have hspace : isSpace (codePoint '"') = false := by decide
    simp [Scan.step, hspace]
  obtain ⟨high, hscan⟩ := h limits (.obj fields key :: stack) true (codePoint '"' :: more)
  unfold dumpString
  rw [List.cons_append, scan_step hopen, List.append_assoc, List.singleton_append, hscan]
  refine scan_step ?_ more
  rw [step_quote, List.reverse_reverse]
  rfl

/-! ### Numbers -/

theorem scan_numPart {part part' : NumPart} {literal rest : Text}
    (h : rest.foldlM nextNumPart part = some part') (more : Text) :
    scan limits (rest ++ more) ⟨stack, .number part literal⟩
      = scan limits more ⟨stack, .number part' (rest.reverse ++ literal)⟩ := by
  induction rest generalizing part literal with
  | nil =>
    have hsame : part = part' := by simpa using h
    rw [hsame]
    rfl
  | cons c rest ih =>
    rw [List.foldlM_cons] at h
    cases hnext : nextNumPart part c with
    | none => simp [hnext] at h
    | some next =>
      rw [hnext] at h
      have hstep : Scan.step limits ⟨stack, .number part literal⟩ c
          = .ok ⟨stack, .number next (c :: literal)⟩ := by simp [Scan.step, hnext]
      rw [List.cons_append, scan_step hstep, ih h, List.reverse_cons, List.append_assoc]
      rfl

/-- A number ends where its delimiter stands. -/
theorem scan_endNumber {part : NumPart} {literal : Text} {v : Json}
    (h : endNumber limits part literal = .ok v) {more : Text} (hmore : Delimits more) :
    scan limits more ⟨stack, .number part literal⟩ = scan limits more (deliver stack v) := by
  obtain ⟨c, rest, rfl, hc⟩ := hmore
  obtain ⟨hnext, hword⟩ := nextNumPart_delimiter hc part
  rw [scan_cons, scan_cons, step_deliver]
  simp [Scan.step, hnext, hword, h, bind, Except.bind]

theorem ne_of_startNumPart {c d : CodePoint} {part : NumPart} (h : startNumPart c = some part)
    (hd : startNumPart d = none) : c ≠ d := by
  rintro rfl
  rw [hd] at h
  cases h

theorem step_startNumPart {c : CodePoint} {part : NumPart} (h : startNumPart c = some part)
    (orClose : Bool) :
    Scan.step limits ⟨stack, .value orClose⟩ c = .ok ⟨stack, .number part [c]⟩ := by
  have hquote : c ≠ codePoint '"' := ne_of_startNumPart h (by decide)
  have hbracket : c ≠ codePoint '[' := ne_of_startNumPart h (by decide)
  have hbrace : c ≠ codePoint '\x7b' := ne_of_startNumPart h (by decide)
  have hclose : (c == codePoint ']') = false :=
    beq_eq_false_iff_ne.mpr (ne_of_startNumPart h (by decide))
  have hspace : isSpace c = false := by
    have h₁ : c ≠ codePoint ' ' := ne_of_startNumPart h (by decide)
    have h₂ : c ≠ codePoint '\t' := ne_of_startNumPart h (by decide)
    have h₃ : c ≠ codePoint '\n' := ne_of_startNumPart h (by decide)
    have h₄ : c ≠ codePoint '\r' := ne_of_startNumPart h (by decide)
    simp [isSpace, h₁, h₂, h₃, h₄]
  unfold startNumPart at h
  simp only [Scan.step, hspace, hclose, beginValue, if_neg hquote, if_neg hbracket, if_neg hbrace]
  split at h
  · rename_i hminus
    cases h
    simp [hminus]
  · rename_i hminus
    rw [if_neg hminus]
    split at h
    · rename_i hzero
      cases h
      simp [hzero]
    · rename_i hzero
      rw [if_neg hzero]
      split at h
      · rename_i hdigit
        cases h
        simp [hdigit]
      · cases h

/-- A number is read as what its literal ends as. -/
theorem scan_number {c : CodePoint} {rest : Text} {start part : NumPart} {v : Json}
    (hstart : startNumPart c = some start) (hrest : rest.foldlM nextNumPart start = some part)
    (hend : endNumber limits part (c :: rest).reverse = .ok v) (orClose : Bool) {more : Text}
    (hmore : Delimits more) :
    scan limits (c :: rest ++ more) ⟨stack, .value orClose⟩ = scan limits more (deliver stack v) := by
  rw [List.cons_append, scan_step (step_startNumPart hstart orClose), scan_numPart hrest]
  rw [List.reverse_cons] at hend
  exact scan_endNumber hend hmore

theorem digit_val {d : Nat} (h : d < 10) : (digit d).val = 0x30 + d := by
  simp only [digit, ofCode, Fin.ofNat]
  omega

theorem isDigit_digit {d : Nat} (h : d < 10) : isDigit (digit d) = true := by
  simp only [isDigit, digit_val h, Bool.and_eq_true, decide_eq_true_eq]
  omega

/-- The digits of a number denote it. -/
theorem natOfDigits_reverse {ds : List Nat} (h : ∀ d ∈ ds, d < 10) :
    natOfDigits (ds.reverse.map digit) = Nat.ofDigits 10 ds := by
  induction ds with
  | nil => rfl
  | cons d ds ih =>
    have hd := digit_val (h d (by simp))
    have hrest : natOfDigits (ds.reverse.map digit) = Nat.ofDigits 10 ds :=
      ih fun e he => h e (by simp [he])
    unfold natOfDigits at hrest ⊢
    rw [List.reverse_cons, List.map_append, List.foldl_append, hrest]
    simp only [List.map_cons, List.map_nil, List.foldl_cons, List.foldl_nil, hd, Nat.ofDigits_cons]
    omega

theorem natOfDigits_dumpNat (n : Nat) : natOfDigits (dumpNat n) = n := by
  unfold dumpNat
  split
  · rename_i hzero
    rw [hzero]
    decide
  · rw [natOfDigits_reverse fun d hd => Nat.digits_lt_base (by decide) hd, Nat.ofDigits_digits]

theorem isDigit_of_mem_dumpNat {n : Nat} {c : CodePoint} (h : c ∈ dumpNat n) : isDigit c = true := by
  unfold dumpNat at h
  split at h
  · rw [List.mem_singleton.mp h]
    decide
  · obtain ⟨d, hd, rfl⟩ := List.mem_map.mp h
    exact isDigit_digit (Nat.digits_lt_base (by decide) (List.mem_reverse.mp hd))

/-- The digits start a number that ends as an integer. -/
theorem dumpNat_eq_cons (n : Nat) : ∃ c rest part, dumpNat n = c :: rest ∧ isDigit c = true
    ∧ startNumPart c = some part ∧ nextNumPart .minus c = some part
    ∧ rest.foldlM nextNumPart part = some part ∧ (part = .zero ∨ part = .int) := by
  by_cases hzero : n = 0
  · subst hzero
    exact ⟨digit 0, [], .zero, rfl, by decide, by decide, by decide, rfl, .inl rfl⟩
  · have hdigits : ∀ c ∈ dumpNat n, isDigit c = true := fun c hc => isDigit_of_mem_dumpNat hc
    have hne : Nat.digits 10 n ≠ [] := Nat.digits_ne_nil_iff_ne_zero.mpr hzero
    have hdump : dumpNat n = digit ((Nat.digits 10 n).getLast hne)
        :: (Nat.digits 10 n).dropLast.reverse.map digit := by
      unfold dumpNat
      rw [if_neg hzero]
      conv_lhs => rw [← List.dropLast_append_getLast hne]
      rw [List.reverse_append, List.map_append]
      rfl
    have hlast := Nat.getLast_digit_ne_zero 10 hzero
    have hlt : (Nat.digits 10 n).getLast hne < 10 :=
      Nat.digits_lt_base (by decide) (List.getLast_mem hne)
    have hfirst : isDigit (digit ((Nat.digits 10 n).getLast hne)) = true := isDigit_digit hlt
    have hnotzero : digit ((Nat.digits 10 n).getLast hne) ≠ codePoint '0' := by
      intro hsame
      have hval := congrArg Fin.val hsame
      rw [digit_val hlt] at hval
      have hcode : (codePoint '0').val = 0x30 := by decide
      omega
    have hnotminus : digit ((Nat.digits 10 n).getLast hne) ≠ codePoint '-' := by
      intro hsame
      rw [hsame] at hfirst
      exact absurd hfirst (by decide)
    refine ⟨_, _, .int, hdump, hfirst, ?_, ?_, ?_, .inr rfl⟩
    · simp [startNumPart, hnotzero, hnotminus, hfirst]
    · simp [nextNumPart, hnotzero, hfirst]
    · have hrest : ∀ c ∈ (Nat.digits 10 n).dropLast.reverse.map digit, isDigit c = true := by
        intro c hc
        exact hdigits c (by rw [hdump]; exact List.mem_cons_of_mem _ hc)
      generalize (Nat.digits 10 n).dropLast.reverse.map digit = rest at hrest
      clear hdump
      induction rest with
      | nil => rfl
      | cons c rest ih =>
        have hnext : nextNumPart .int c = some .int := by simp [nextNumPart, hrest c (by simp)]
        rw [List.foldlM_cons, hnext]
        exact ih fun d hd => hrest d (by simp [hd])

theorem takeWhile_dumpNat (n : Nat) : (dumpNat n).takeWhile isDigit = dumpNat n :=
  List.takeWhile_eq_self_iff.mpr fun _ hc => isDigit_of_mem_dumpNat hc

/-- The digits of an integer, with or without its sign, are converted to it. -/
theorem intOf_dumpInt {n : Int} (hfits : (dumpNat n.natAbs).length ≤ limits.digits) :
    intOf limits (dumpInt n).reverse = .ok (.int n) := by
  have hdigits : ¬ limits.digits < (dumpNat n.natAbs).length := by omega
  by_cases hneg : n < 0
  · have hsign : signDigits (dumpInt n).reverse = (true, dumpNat n.natAbs) := by
      simp [signDigits, dumpInt, hneg, takeWhile_dumpNat]
    simp only [intOf, hsign, if_neg hdigits, if_true, natOfDigits_dumpNat]
    congr 2
    omega
  · obtain ⟨c, rest, part, hdump, hdigit, -⟩ := dumpNat_eq_cons n.natAbs
    have hnotminus : c ≠ codePoint '-' := by
      rintro rfl
      exact absurd hdigit (by decide)
    have hsign : signDigits (dumpInt n).reverse = (false, dumpNat n.natAbs) := by
      have htake := takeWhile_dumpNat n.natAbs
      simp only [signDigits, dumpInt, if_neg hneg, List.reverse_reverse]
      rw [hdump] at htake ⊢
      simp [hnotminus, htake]
    simp only [intOf, hsign, if_neg hdigits, natOfDigits_dumpNat]
    congr 2
    simp only [Bool.false_eq_true, if_false]
    omega

theorem scan_int {n : Int} (hfits : (dumpNat n.natAbs).length ≤ limits.digits) (orClose : Bool)
    {more : Text} (hmore : Delimits more) :
    scan limits (dumpInt n ++ more) ⟨stack, .value orClose⟩
      = scan limits more (deliver stack (.int n)) := by
  obtain ⟨c, rest, part, hdump, -, hstart, hminus, hrest, hpart⟩ := dumpNat_eq_cons n.natAbs
  have hend : endNumber limits part (dumpInt n).reverse = .ok (.int n) := by
    rcases hpart with rfl | rfl <;> exact intOf_dumpInt hfits
  by_cases hneg : n < 0
  · have htext : dumpInt n = codePoint '-' :: (c :: rest) := by simp [dumpInt, hneg, hdump]
    rw [htext] at hend ⊢
    have hsign : startNumPart (codePoint '-') = some .minus := by decide
    refine scan_number hsign ?_ hend orClose hmore
    rw [List.foldlM_cons, hminus]
    exact hrest
  · have htext : dumpInt n = c :: rest := by simp [dumpInt, hneg, hdump]
    rw [htext] at hend ⊢
    exact scan_number hstart hrest hend orClose hmore

theorem step_word {c : CodePoint} {rest : Text} {v : Json}
    (hbegin : beginValue limits stack c = .ok ⟨stack, .word rest v⟩) (hspace : isSpace c = false)
    (hclose : (c == codePoint ']') = false) (orClose : Bool) :
    Scan.step limits ⟨stack, .value orClose⟩ c = .ok ⟨stack, .word rest v⟩ := by
  simp [Scan.step, hspace, hclose, hbegin]

theorem scan_float {literal : Text} (h : isFloatLiteral literal = true) (orClose : Bool) {more : Text}
    (hmore : Delimits more) :
    scan limits (literal ++ more) ⟨stack, .value orClose⟩
      = scan limits more (deliver stack (.float literal)) := by
  simp only [isFloatLiteral, Bool.or_eq_true, decide_eq_true_eq] at h
  rcases h with ((rfl | rfl) | rfl) | h
  · show scan limits (codePoint 'N' :: (text "aN" ++ more)) _ = _
    rw [scan_step (step_word rfl (by decide) (by decide) orClose)]
    exact scan_word _ _ _ more
  · show scan limits (codePoint 'I' :: (text "nfinity" ++ more)) _ = _
    rw [scan_step (step_word rfl (by decide) (by decide) orClose)]
    exact scan_word _ _ _ more
  · show scan limits (codePoint '-' :: codePoint 'I' :: (text "nfinity" ++ more)) _ = _
    have hword : Scan.step limits ⟨stack, .number .minus [codePoint '-']⟩ (codePoint 'I')
        = .ok ⟨stack, .word (text "nfinity") (.float (text "-Infinity"))⟩ := rfl
    have hstart : startNumPart (codePoint '-') = some .minus := by decide
    rw [scan_step (step_startNumPart hstart orClose), scan_step hword]
    exact scan_word _ _ _ more
  · cases literal with
    | nil => cases h
    | cons c rest =>
      cases hstart : startNumPart c with
      | none => simp [hstart] at h
      | some start =>
        cases hrest : rest.foldlM nextNumPart start with
        | none => simp [hstart, hrest] at h
        | some part =>
          simp only [hstart, Option.bind_some, hrest] at h
          refine scan_number hstart hrest ?_ orClose hmore
          cases part <;> simp at h <;> simp [endNumber]

/-! ### Containers -/

/-- The items of a container can be read one by one. -/
def ReadsItem (limits : Limits) (style : Style) (level : Nat) (stack : List Frame) (v : Json) : Prop :=
  ∀ (frame : Frame) (orClose : Bool) (more : Text), Delimits more →
    scan limits (dump style level v ++ more) ⟨frame :: stack, .value orClose⟩
      = scan limits more (deliver (frame :: stack) v)

theorem delimits_items (level : Nat) (items : List Json) {more : Text} (h : Delimits more) :
    Delimits (dumpItems style level items ++ more) := by
  cases items with
  | nil => simpa [dumpItems] using h
  | cons item items =>
    rw [dumpItems, List.cons_append]
    exact ⟨_, _, rfl, by decide⟩

theorem delimits_fields (level : Nat) (fields : List (Text × Json)) {more : Text}
    (h : Delimits more) : Delimits (dumpFields style level fields ++ more) := by
  cases fields with
  | nil => simpa [dumpFields] using h
  | cons f fields =>
    rw [dumpFields, List.cons_append]
    exact ⟨_, _, rfl, by decide⟩

theorem scan_items {level : Nat} {items acc : List Json}
    (h : ∀ item ∈ items, ReadsItem limits style level stack item) {more : Text}
    (hmore : Delimits more) :
    scan limits (dumpItems style level items ++ more) ⟨.arr acc :: stack, .after⟩
      = scan limits more ⟨.arr (items.reverse ++ acc) :: stack, .after⟩ := by
  induction items generalizing acc with
  | nil => simp [dumpItems]
  | cons item items ih =>
    have hcomma : Scan.step limits ⟨.arr acc :: stack, .after⟩ (codePoint ',')
        = .ok ⟨.arr acc :: stack, .value false⟩ := rfl
    simp only [dumpItems, List.cons_append, List.append_assoc]
    rw [scan_step hcomma, scan_blank (style.newline_blank level) (step_value_blank false),
      h item (by simp) _ _ _ (delimits_items level items hmore)]
    rw [List.reverse_cons, List.append_assoc]
    exact ih fun x hx => h x (by simp [hx])

theorem setField_of_not_mem {fields : List (Text × Json)} {key : Text} {v : Json}
    (h : key ∉ fields.map (·.1)) : setField fields key v = fields ++ [(key, v)] := by
  induction fields with
  | nil => rfl
  | cons f fields ih =>
    simp only [List.map_cons, List.mem_cons, not_or] at h
    obtain ⟨k, x⟩ := f
    simp only [setField, if_neg (Ne.symm h.1), ih h.2, List.cons_append]

/-- A member, from its key to its value. -/
theorem scan_field {level : Nat} {fields : List (Text × Json)} {key old : Text} {v : Json}
    {orClose : Bool} (hkey : Reads style key) (hvalue : ReadsItem limits style level stack v)
    (hfresh : key ∉ fields.map (·.1)) {more : Text} (hmore : Delimits more) :
    scan limits (dumpString style key ++ codePoint ':' :: (style.gap ++ (dump style level v ++ more)))
        ⟨.obj fields old :: stack, .key orClose⟩
      = scan limits more ⟨.obj (fields ++ [(key, v)]) key :: stack, .after⟩ := by
  have hcolon : Scan.step limits ⟨.obj fields key :: stack, .colon⟩ (codePoint ':')
      = .ok ⟨.obj fields key :: stack, .value false⟩ := rfl
  rw [scan_key hkey, scan_step hcolon, scan_blank style.gap_blank (step_value_blank false),
    hvalue _ _ _ hmore]
  simp only [deliver, setField_of_not_mem hfresh]

theorem scan_fields {level : Nat} {fields acc : List (Text × Json)} {key : Text}
    (hkeys : ∀ f ∈ fields, Reads style f.1)
    (h : ∀ f ∈ fields, ReadsItem limits style level stack f.2)
    (hnodup : ((acc ++ fields).map (·.1)).Nodup) {more : Text} (hmore : Delimits more) :
    ∃ last, scan limits (dumpFields style level fields ++ more) ⟨.obj acc key :: stack, .after⟩
      = scan limits more ⟨.obj (acc ++ fields) last :: stack, .after⟩ := by
  induction fields generalizing acc key with
  | nil => exact ⟨key, by simp [dumpFields]⟩
  | cons f fields ih =>
    obtain ⟨k, v⟩ := f
    have hcomma : Scan.step limits ⟨.obj acc key :: stack, .after⟩ (codePoint ',')
        = .ok ⟨.obj acc key :: stack, .key false⟩ := rfl
    have hfresh : k ∉ acc.map (·.1) := by
      intro hmem
      rw [List.map_append, List.nodup_append] at hnodup
      exact hnodup.2.2 k hmem k (by simp) rfl
    have hassoc : (acc ++ [(k, v)]) ++ fields = acc ++ (k, v) :: fields := by simp
    have hrestKeys : ∀ g ∈ fields, Reads style g.1 := fun g hg => hkeys g (by simp [hg])
    have hrest : ∀ g ∈ fields, ReadsItem limits style level stack g.2 :=
      fun g hg => h g (by simp [hg])
    have hall : (((acc ++ [(k, v)]) ++ fields).map (·.1)).Nodup := hassoc ▸ hnodup
    obtain ⟨last, hlast⟩ : ∃ last, scan limits (dumpFields style level fields ++ more)
        ⟨.obj (acc ++ [(k, v)]) k :: stack, .after⟩ = _ := ih hrestKeys hrest hall
    refine ⟨last, ?_⟩
    simp only [dumpFields, List.cons_append, List.append_assoc]
    rw [scan_step hcomma, scan_blank (style.newline_blank level) (step_key_blank false),
      scan_field (hkeys (k, v) (by simp)) (h (k, v) (by simp)) hfresh
        (delimits_fields level fields hmore), hlast, hassoc]

/-- A number has no end of its own. -/
def Json.isNumber : Json → Bool
  | .int _ | .float _ => true
  | _ => false

/-- **Values.** The text of a value, followed by what may stand after it, is read as that value. -/
theorem scan_dump {v : Json} (h : Plain (Reads style) v) (level : Nat) (stack : List Frame)
    (orClose : Bool) (hfits : fits limits stack.length v = true) {more : Text}
    (hmore : v.isNumber = true → Delimits more) :
    scan limits (dump style level v ++ more) ⟨stack, .value orClose⟩
      = scan limits more (deliver stack v) := by
  -- a container pushes a frame, and its parts are read on top of it one level deeper
  induction h generalizing level stack orClose more with
  | null =>
    show scan limits (codePoint 'n' :: (text "ull" ++ more)) _ = _
    rw [scan_step (step_word rfl (by decide) (by decide) orClose)]
    exact scan_word _ _ _ more
  | bool b =>
    cases b with
    | true =>
      show scan limits (codePoint 't' :: (text "rue" ++ more)) _ = _
      rw [scan_step (step_word rfl (by decide) (by decide) orClose)]
      exact scan_word _ _ _ more
    | false =>
      show scan limits (codePoint 'f' :: (text "alse" ++ more)) _ = _
      rw [scan_step (step_word rfl (by decide) (by decide) orClose)]
      exact scan_word _ _ _ more
  | int n => exact scan_int (by simpa [fits] using hfits) orClose (hmore rfl)
  | float h => exact scan_float h orClose (hmore rfl)
  | str h => exact scan_string h orClose more
  | @arr items h ih =>
    simp only [fits, Bool.and_eq_true, decide_eq_true_eq, fitsItems_eq, List.all_eq_true] at hfits
    have hopen : Scan.step limits ⟨stack, .value orClose⟩ (codePoint '[')
        = .ok ⟨.arr [] :: stack, .value true⟩ := by
      have hspace : isSpace (codePoint '[') = false := by decide
      have hclose : (codePoint '[' == codePoint ']') = false := by decide
      have hquote : codePoint '[' ≠ codePoint '"' := by decide
      simp [Scan.step, hspace, hclose, beginValue, hquote, hfits.1]
    have hread : ∀ item ∈ items, ReadsItem limits style (level + 1) stack item :=
      fun item hitem frame close text htext => ih item hitem (level + 1) (frame :: stack) close
        (hfits.2 item hitem) fun _ => htext
    cases items with
    | nil =>
      have hclose : Scan.step limits ⟨.arr [] :: stack, .value true⟩ (codePoint ']')
          = .ok (deliver stack (.arr [])) := rfl
      show scan limits (codePoint '[' :: codePoint ']' :: more) _ = _
      rw [scan_step hopen, scan_step hclose]
    | cons item items =>
      have hend : Delimits (style.newline level ++ codePoint ']' :: more) :=
        Delimits.blank (style.newline_blank level) ⟨_, _, rfl, by decide⟩
      simp only [dump, List.cons_append, List.append_assoc, List.nil_append]
      rw [scan_step hopen, scan_blank (style.newline_blank (level + 1)) (step_value_blank true),
        hread item (by simp) _ _ _ (delimits_items _ _ hend)]
      rw [show deliver (.arr [] :: stack) item = ⟨.arr [item] :: stack, .after⟩ from rfl,
        scan_items (fun x hx => hread x (by simp [hx])) hend,
        scan_blank (style.newline_blank level) (step_after_blank _)]
      refine scan_step ?_ more
      show Except.ok (deliver stack (.arr (items.reverse ++ [item]).reverse)) = _
      simp
  | @obj fields hnodup hkeys h ih =>
    simp only [fits, Bool.and_eq_true, decide_eq_true_eq, fitsFields_eq, List.all_eq_true] at hfits
    have hopen : Scan.step limits ⟨stack, .value orClose⟩ (codePoint '\x7b')
        = .ok ⟨.obj [] [] :: stack, .key true⟩ := by
      have hspace : isSpace (codePoint '\x7b') = false := by decide
      have hclose : (codePoint '\x7b' == codePoint ']') = false := by decide
      have hquote : codePoint '\x7b' ≠ codePoint '"' := by decide
      have hbracket : codePoint '\x7b' ≠ codePoint '[' := by decide
      simp [Scan.step, hspace, hclose, beginValue, hquote, hbracket, hfits.1]
    have hread : ∀ f ∈ fields, ReadsItem limits style (level + 1) stack f.2 :=
      fun f hf frame close text htext => ih f hf (level + 1) (frame :: stack) close
        (hfits.2 f hf) fun _ => htext
    cases fields with
    | nil =>
      have hclose : Scan.step limits ⟨.obj [] [] :: stack, .key true⟩ (codePoint '\x7d')
          = .ok (deliver stack (.obj [])) := rfl
      show scan limits (codePoint '\x7b' :: codePoint '\x7d' :: more) _ = _
      rw [scan_step hopen, scan_step hclose]
    | cons f fields =>
      obtain ⟨key, value⟩ := f
      have hend : Delimits (style.newline level ++ codePoint '\x7d' :: more) :=
        Delimits.blank (style.newline_blank level) ⟨_, _, rfl, by decide⟩
      have hrestKeys : ∀ g ∈ fields, Reads style g.1 := fun g hg => hkeys g (by simp [hg])
      have hrest : ∀ g ∈ fields, ReadsItem limits style (level + 1) stack g.2 :=
        fun g hg => hread g (by simp [hg])
      have hall : (([(key, value)] ++ fields).map (·.1)).Nodup := hnodup
      obtain ⟨last, hlast⟩ : ∃ last, scan limits (dumpFields style (level + 1) fields
          ++ (style.newline level ++ codePoint '\x7d' :: more))
          ⟨.obj [(key, value)] key :: stack, .after⟩ = _ := scan_fields hrestKeys hrest hall hend
      simp only [dump, List.cons_append, List.append_assoc, List.nil_append]
      rw [scan_step hopen, scan_blank (style.newline_blank (level + 1)) (step_key_blank true),
        scan_field (hkeys (key, value) (by simp)) (hread (key, value) (by simp)) (by simp)
          (delimits_fields _ _ hend)]
      rw [List.nil_append, hlast, scan_blank (style.newline_blank level) (step_after_blank _)]
      exact scan_step rfl more

/-- The text of a value that is not a number, and blanks after it. -/
theorem parse_dump {v : Json} (h : Plain (Reads style) v) (hfits : fits limits 0 v = true)
    (hnumber : v.isNumber = false) {ws : Text} (hws : ∀ c ∈ ws, isSpace c = true) :
    parse limits (dump style 0 v ++ ws) = .ok v := by
  have hcontainer : v.isNumber = true → Delimits ws := fun hyes => by
    rw [hnumber] at hyes
    cases hyes
  have hscan : scan limits (dump style 0 v ++ ws) ⟨[], .value false⟩
      = scan limits ws (deliver [] v) := scan_dump h 0 [] false hfits hcontainer
  have hdone : scan limits ws ⟨[], .done v⟩ = .ok ⟨[], .done v⟩ := by
    have hblank : scan limits (ws ++ []) ⟨[], .done v⟩ = scan limits [] ⟨[], .done v⟩ :=
      scan_blank hws (fun c hc => by simp [Scan.step, stepAfter, hc]) []
    rw [List.append_nil] at hblank
    exact hblank
  unfold parse
  have hresult : (dump style 0 v ++ ws).foldlM (Scan.step limits) ⟨[], .value false⟩
      = .ok ⟨[], .done v⟩ := hscan.trans hdone
  rw [hresult]
  rfl

/-- **Round trip.** What `dumps` writes is read as the value with its keys in order. -/
theorem parse_dumps {v : Json} {t : Text} (h : Plain (Reads style) v) (hnumber : v.isNumber = false)
    (hdumps : dumps limits style v = .ok t) {ws : Text} (hws : ∀ c ∈ ws, isSpace c = true) :
    parse limits (t ++ ws) = .ok (sortKeys v) := by
  unfold dumps at hdumps
  split at hdumps
  · rename_i hfits
    cases hdumps
    refine parse_dump h.sortKeys (by rw [fits_sortKeys h]; exact hfits) ?_ hws
    cases v <;> first | rfl | cases hnumber
  · cases hdumps

end Reading

end JsonText
