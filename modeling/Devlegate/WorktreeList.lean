import Devlegate.PythonText

namespace Devlegate.Worktree

open JsonText

/-!
# The list of worktrees

`_parse_worktree_porcelain` reads `git worktree list --porcelain`: one block of lines for each
worktree, validated when the block ends.

* `parseWorktreePorcelain`: the parser with its state across lines.
* `Field` / `field`: the lines of the format; `Record`: the records, as Git writes them.
* `WellFormed`: a block with every field it must have, none twice, none unknown and none that
  contradicts another.
* `parse_eq_blocks` / `blocks_ok_iff`: what the parser accepts, block by block.
* `parse_inverts_iff`: it reads Git's lists back and refuses every other list, exactly when the list
  has none of three kinds of block: a bare worktree, a prunable one without a reason, and one that
  only says why a worktree is locked or prunable.
-/

/-! ### The parser -/

/-- `WorktreeRegistration`; a flag says that its key is there. -/
structure Registration where
  path : Option Text
  head : Option Text
  branch : Option Text
  detached : Bool
  bare : Bool
  locked : Bool
  deriving DecidableEq, Repr

/-- `{}`. -/
def Registration.empty : Registration := ⟨none, none, none, false, false, false⟩

inductive ExecutionWorkspaceError where
  | unexpectedMetadata
  | unexpectedLine (line : Text)
  | unexpectedBranch (line : Text)
  | duplicateField (key : Text)
  | duplicateRegistration (path : Text)
  deriving DecidableEq, Repr

def ExecutionWorkspaceError.message : ExecutionWorkspaceError → Text
  | .unexpectedMetadata => text "unexpected Git worktree metadata"
  | .unexpectedLine line => text "unexpected Git worktree metadata: " ++ line
  | .unexpectedBranch line => text "unexpected Git worktree branch metadata: " ++ line
  | .duplicateField key => text "duplicate Git worktree metadata field: " ++ key
  | .duplicateRegistration path => text "duplicate Git worktree registration: " ++ path

abbrev Entries := List (Text × Registration)

/-- `finish`: the block that ends is validated and stored under its resolved path. -/
def finish (resolve : Text → Text) (entries : Entries) (current : Registration) :
    Except ExecutionWorkspaceError Entries :=
  if current = .empty then .ok entries
  else
    match current.path, current.head with
    | some path, some _ =>
      if current.branch.isNone && !current.detached && !current.bare then .error .unexpectedMetadata
      else if current.branch.isSome && current.detached then .error .unexpectedMetadata
      else if (entries.map (·.1)).contains (resolve path) then
        .error (.duplicateRegistration (resolve path))
      else .ok (entries ++ [(resolve path, current)])
    | _, _ => .error .unexpectedMetadata

def space : CodePoint := codePoint ' '

/-- The key of `line.partition(" ")`. -/
def lineKey (line : Text) : Text := line.takeWhile (· ≠ space)

/-- The value of `line.partition(" ")`; `none` without a separator. -/
def lineValue (line : Text) : Option Text :=
  match line.dropWhile (· ≠ space) with
  | [] => none
  | _ :: value => some value

/-- One line of a block, its key not seen before. -/
def readField (current : Registration) (line : Text) :
    Except ExecutionWorkspaceError Registration :=
  match lineValue line with
  | none =>
    if lineKey line = text "detached" then .ok { current with detached := true }
    else if lineKey line = text "bare" then .ok { current with bare := true }
    else if lineKey line = text "locked" then .ok { current with locked := true }
    else .error (.unexpectedLine line)
  | some value =>
    if lineKey line = text "worktree" then
      if value = [] then .error .unexpectedMetadata else .ok { current with path := some value }
    else if lineKey line = text "HEAD" then
      if value = [] then .error .unexpectedMetadata else .ok { current with head := some value }
    else if lineKey line = text "branch" then
      if (text "refs/heads/").isPrefixOf value && value.drop 11 ≠ [] then
        .ok { current with branch := some (value.drop 11) }
      else .error (.unexpectedBranch line)
    else if lineKey line = text "locked" then .ok current
    else if lineKey line = text "prunable" then .ok current
    else .error (.unexpectedLine line)

/-- The entries so far, the block that is read, and the keys seen in it. -/
structure Scan where
  entries : Entries
  current : Registration
  seen : List Text

/-- A line of a block: the key is checked before the line is. -/
def readLine (block : Registration × List Text) (line : Text) :
    Except ExecutionWorkspaceError (Registration × List Text) :=
  if block.2.contains (lineKey line) then .error (.duplicateField (lineKey line))
  else do
    let current ← readField block.1 line
    return (current, lineKey line :: block.2)

/-- The body of the loop. -/
def scanLine (resolve : Text → Text) (scan : Scan) (line : Text) :
    Except ExecutionWorkspaceError Scan :=
  if line = [] then do
    let entries ← finish resolve scan.entries scan.current
    return ⟨entries, .empty, []⟩
  else do
    let block ← readLine (scan.current, scan.seen) line
    return ⟨scan.entries, block.1, block.2⟩

/-- `_parse_worktree_porcelain`; `resolve` is `Path(path).resolve()`. -/
def parseWorktreePorcelain (resolve : Text → Text) (output : Text) :
    Except ExecutionWorkspaceError Entries := do
  let scan ← (pythonLines output ++ [[]]).foldlM (scanLine resolve) ⟨[], .empty, []⟩
  return scan.entries

/-! ### The format -/

inductive Key where
  | worktree
  | head
  | branch
  | detached
  | bare
  | locked
  | prunable
  deriving DecidableEq, Repr

def Key.word : Key → Text
  | .worktree => text "worktree"
  | .head => text "HEAD"
  | .branch => text "branch"
  | .detached => text "detached"
  | .bare => text "bare"
  | .locked => text "locked"
  | .prunable => text "prunable"

/-- What one line of a record says. -/
inductive Field where
  | worktree (path : Text)
  | head (commit : Text)
  | branch (name : Text)
  | detached
  | bare
  | locked (reason : Option Text)
  | prunable (reason : Option Text)
  deriving DecidableEq, Repr

def Field.key : Field → Key
  | .worktree _ => .worktree
  | .head _ => .head
  | .branch _ => .branch
  | .detached => .detached
  | .bare => .bare
  | .locked _ => .locked
  | .prunable _ => .prunable

/-- The value behind the key. -/
def Field.value : Field → Option Text
  | .worktree path => some path
  | .head commit => some commit
  | .branch name => some (text "refs/heads/" ++ name)
  | .detached | .bare => none
  | .locked reason | .prunable reason => reason

def Field.line (f : Field) : Text :=
  match f.value with
  | none => f.key.word
  | some value => f.key.word ++ space :: value

/-- The field of a line of the format; `none` for a line that is unknown to it. -/
def field (line : Text) : Option Field :=
  match lineValue line with
  | none =>
    if lineKey line = text "detached" then some .detached
    else if lineKey line = text "bare" then some .bare
    else if lineKey line = text "locked" then some (.locked none)
    else if lineKey line = text "prunable" then some (.prunable none)
    else none
  | some value =>
    if lineKey line = text "worktree" then if value = [] then none else some (.worktree value)
    else if lineKey line = text "HEAD" then if value = [] then none else some (.head value)
    else if lineKey line = text "branch" then
      if (text "refs/heads/").isPrefixOf value && value.drop 11 ≠ [] then
        some (.branch (value.drop 11))
      else none
    else if lineKey line = text "locked" then some (.locked (some value))
    else if lineKey line = text "prunable" then some (.prunable (some value))
    else none

/-- What a field does to the registration. -/
def Field.apply (r : Registration) : Field → Registration
  | .worktree path => { r with path := some path }
  | .head commit => { r with head := some commit }
  | .branch name => { r with branch := some name }
  | .detached => { r with detached := true }
  | .bare => { r with bare := true }
  | .locked none => { r with locked := true }
  | .locked (some _) | .prunable _ => r

/-- The blocks of a list: the lines between blank ones, after the lines of `block`. -/
def blocksAfter (block : List Text) : List Text → List (List Text)
  | [] => if block = [] then [] else [block]
  | line :: lines =>
    if line = [] then (if block = [] then [] else [block]) ++ blocksAfter [] lines
    else blocksAfter (block ++ [line]) lines

def blocks (output : Text) : List (List Text) := blocksAfter [] (pythonLines output)

/-- The fields of a block, if all lines are known. -/
def blockFields (block : List Text) : Option (List Field) := block.mapM field

/-- The registration of some fields. -/
def registration (fields : List Field) : Registration := fields.foldl Field.apply .empty

/-! ### One line -/

/-- What the parser makes of a line: the field it states, unless that is `prunable` alone. -/
theorem readField_ok_iff {current r : Registration} {line : Text} :
    readField current line = .ok r
      ↔ ∃ f, field line = some f ∧ f ≠ .prunable none ∧ r = f.apply current := by
  unfold readField field
  cases lineValue line with
  | none =>
    dsimp only
    split
    · simp [Field.apply, eq_comm]
    split
    · simp [Field.apply, eq_comm]
    split
    · simp [Field.apply, eq_comm]
    split <;> simp
  | some value =>
    dsimp only
    split
    · split
      · simp
      · simp [Field.apply, eq_comm]
    split
    · split
      · simp
      · simp [Field.apply, eq_comm]
    split
    · split
      · simp [Field.apply, eq_comm]
      · simp
    split
    · simp [Field.apply, eq_comm]
    split
    · simp [Field.apply, eq_comm]
    · simp

theorem lineKey_of_field {line : Text} {f : Field} (h : field line = some f) :
    lineKey line = f.key.word := by
  unfold field at h
  cases hvalue : lineValue line with
  | none =>
    rw [hvalue] at h
    dsimp only at h
    split at h
    · cases h; assumption
    split at h
    · cases h; assumption
    split at h
    · cases h; assumption
    split at h
    · cases h; assumption
    · cases h
  | some value =>
    rw [hvalue] at h
    dsimp only at h
    split at h
    · split at h
      · cases h
      · cases h; assumption
    split at h
    · split at h
      · cases h
      · cases h; assumption
    split at h
    · split at h
      · cases h; assumption
      · cases h
    split at h
    · cases h; assumption
    split at h
    · cases h; assumption
    · cases h

theorem word_injective : Function.Injective Key.word := by
  have hall : ∀ k k' : Key, k.word = k'.word → k = k' := by
    intro k k'
    cases k <;> cases k' <;> decide
  exact fun k k' => hall k k'

/-! ### One block -/

theorem blockFields_cons {line : Text} {block : List Text} {fields : List Field} :
    blockFields (line :: block) = some fields
      ↔ ∃ f rest, field line = some f ∧ blockFields block = some rest ∧ fields = f :: rest := by
  rw [blockFields, List.mapM_cons]
  cases field line with
  | none => simp
  | some f =>
    cases hrest : block.mapM field with
    | none => simp [blockFields, hrest]
    | some rest => simp [blockFields, hrest, eq_comm]

/-- The parser's state after the lines of a block. -/
def readBlock (block : List Text) : Except ExecutionWorkspaceError (Registration × List Text) :=
  block.foldlM readLine (.empty, [])

theorem readLine_ok_iff {block out : Registration × List Text} {line : Text} :
    readLine block line = .ok out
      ↔ ∃ f, field line = some f ∧ f ≠ .prunable none ∧ f.key.word ∉ block.2
        ∧ out = (f.apply block.1, f.key.word :: block.2) := by
  rw [readLine]
  split
  case isTrue hseen =>
    refine iff_of_false (by simp) ?_
    rintro ⟨f, hf, -, hnew, -⟩
    rw [lineKey_of_field hf] at hseen
    exact hnew (List.contains_iff_mem.mp hseen)
  case isFalse hseen =>
    constructor
    · intro h
      cases hread : readField block.1 line with
      | error e =>
        rw [hread] at h
        cases h
      | ok r =>
        rw [hread] at h
        obtain ⟨f, hf, hprunable, rfl⟩ := readField_ok_iff.mp hread
        rw [lineKey_of_field hf] at h hseen
        refine ⟨f, hf, hprunable, fun hmem => hseen (List.contains_iff_mem.mpr hmem), ?_⟩
        exact (Except.ok.inj h).symm
    · rintro ⟨f, hf, hprunable, -, rfl⟩
      rw [readField_ok_iff.mpr ⟨f, hf, hprunable, rfl⟩, lineKey_of_field hf]
      rfl

theorem readBlock_ok_iff {block : List Text} {r : Registration} {seen : List Text}
    {out : Registration × List Text} :
    block.foldlM readLine (r, seen) = .ok out
      ↔ ∃ fields, blockFields block = some fields ∧ .prunable none ∉ fields
        ∧ (fields.map Field.key).Nodup ∧ (∀ f ∈ fields, f.key.word ∉ seen)
        ∧ out = (fields.foldl Field.apply r, (fields.map fun f => f.key.word).reverse ++ seen) := by
  induction block generalizing r seen with
  | nil =>
    simp [blockFields, pure, Except.pure, eq_comm]
  | cons line block ih =>
    rw [List.foldlM_cons]
    constructor
    · intro h
      cases hline : readLine (r, seen) line with
      | error e =>
        rw [hline] at h
        cases h
      | ok next =>
        rw [hline] at h
        obtain ⟨f, hf, hprunable, hnew, rfl⟩ := readLine_ok_iff.mp hline
        obtain ⟨fields, hfields, hrest, hnodup, hdisjoint, rfl⟩ := ih.mp h
        refine ⟨f :: fields, blockFields_cons.mpr ⟨f, fields, hf, hfields, rfl⟩, ?_, ?_, ?_, ?_⟩
        · rw [List.mem_cons, not_or]
          exact ⟨fun heq => hprunable heq.symm, hrest⟩
        · rw [List.map_cons, List.nodup_cons]
          refine ⟨fun hmem => ?_, hnodup⟩
          obtain ⟨g, hg, hkey⟩ := List.mem_map.mp hmem
          exact hdisjoint g hg (by rw [hkey]; exact List.mem_cons_self)
        · intro g hg
          obtain rfl | hg := List.mem_cons.mp hg
          · exact hnew
          · exact fun hmem => hdisjoint g hg (List.mem_cons_of_mem _ hmem)
        · rw [List.map_cons, List.reverse_cons, List.append_assoc]
          rfl
    · rintro ⟨fields, hfields, hprunable, hnodup, hdisjoint, rfl⟩
      obtain ⟨f, rest, hf, hrest, rfl⟩ := blockFields_cons.mp hfields
      rw [List.mem_cons, not_or] at hprunable
      rw [List.map_cons, List.nodup_cons] at hnodup
      have hline : readLine (r, seen) line = .ok (f.apply r, f.key.word :: seen) :=
        readLine_ok_iff.mpr ⟨f, hf, fun heq => hprunable.1 heq.symm,
          hdisjoint f List.mem_cons_self, rfl⟩
      rw [hline]
      refine ih.mpr ⟨rest, hrest, hprunable.2, hnodup.2, fun g hg => ?_, ?_⟩
      · rw [List.mem_cons, not_or]
        refine ⟨fun hword => hnodup.1 ?_, hdisjoint g (List.mem_cons_of_mem _ hg)⟩
        exact List.mem_map.mpr ⟨g, hg, word_injective hword⟩
      · rw [List.map_cons, List.reverse_cons, List.append_assoc]
        rfl

/-! ### Block by block -/

/-- A block that ends. -/
def addBlock (resolve : Text → Text) (entries : Entries) (block : List Text) :
    Except ExecutionWorkspaceError Entries := do
  let state ← readBlock block
  finish resolve entries state.1

theorem readBlock_concat (block : List Text) (line : Text) :
    readBlock (block ++ [line]) = readBlock block >>= fun state => readLine state line := by
  rw [readBlock, List.foldlM_append]
  refine congrArg (readBlock block >>= ·) (funext fun state => ?_)
  rw [List.foldlM_cons]
  simp

/-- A block that fails on its first lines fails. -/
theorem addBlock_error {resolve : Text → Text} {entries : Entries} {block : List Text}
    {e : ExecutionWorkspaceError} (h : readBlock block = .error e) (more : List Text) :
    addBlock resolve entries (block ++ more) = .error e := by
  have hread : readBlock (block ++ more) = .error e := by
    rw [readBlock, List.foldlM_append]
    rw [readBlock] at h
    rw [h]
    rfl
  rw [addBlock, hread]
  rfl

theorem blocksAfter_eq {block : List Text} (h : block ≠ []) (lines : List Text) :
    ∃ more rest, blocksAfter block lines = (block ++ more) :: rest := by
  induction lines generalizing block with
  | nil => exact ⟨[], [], by rw [blocksAfter, if_neg h, List.append_nil]⟩
  | cons line lines ih =>
    rw [blocksAfter]
    split
    case isTrue => exact ⟨[], blocksAfter [] lines, by rw [List.append_nil]; rfl⟩
    case isFalse =>
      obtain ⟨more, rest, heq⟩ := @ih (block ++ [line]) (by simp)
      exact ⟨line :: more, rest, by rw [heq, List.append_assoc]; rfl⟩

/-- The body of the loop and then the rest of it, as `parseWorktreePorcelain` runs them. -/
def scanAll (resolve : Text → Text) (scan : Scan) (lines : List Text) :
    Except ExecutionWorkspaceError Entries :=
  (lines ++ [[]]).foldlM (scanLine resolve) scan >>= fun scan => .ok scan.entries

theorem scanAll_cons (resolve : Text → Text) (scan : Scan) (line : Text) (lines : List Text) :
    scanAll resolve scan (line :: lines)
      = scanLine resolve scan line >>= fun scan => scanAll resolve scan lines := by
  rw [scanAll, List.cons_append, List.foldlM_cons, bind_assoc]
  rfl

/-- The block that was read so far ends. -/
theorem foldlM_closed (resolve : Text → Text) {entries : Entries} {block : List Text}
    {state : Registration × List Text} (h : readBlock block = .ok state) :
    (if block = [] then [] else [block]).foldlM (addBlock resolve) entries
      = finish resolve entries state.1 := by
  by_cases hnil : block = []
  · subst hnil
    have hcurrent : state.1 = .empty := (congrArg Prod.fst (Except.ok.inj h)).symm
    rw [if_pos rfl, finish, if_pos hcurrent]
    rfl
  · have hadd : addBlock resolve entries block = finish resolve entries state.1 := by
      rw [addBlock, h]
      rfl
    rw [if_neg hnil, List.foldlM_cons, hadd]
    cases finish resolve entries state.1 <;> rfl

/-- The parser reads block by block. -/
theorem scanAll_eq_blocks (resolve : Text → Text) (lines : List Text) {scan : Scan}
    {block : List Text} (h : readBlock block = .ok (scan.current, scan.seen)) :
    scanAll resolve scan lines
      = (blocksAfter block lines).foldlM (addBlock resolve) scan.entries := by
  induction lines generalizing scan block with
  | nil =>
    rw [scanAll, List.nil_append, List.foldlM_cons, scanLine, if_pos rfl, blocksAfter,
      foldlM_closed resolve h]
    cases finish resolve scan.entries scan.current <;> rfl
  | cons line lines ih =>
    rw [scanAll_cons, scanLine, blocksAfter]
    split
    case isTrue hblank =>
      rw [List.foldlM_append, foldlM_closed resolve h]
      cases finish resolve scan.entries scan.current with
      | error e => rfl
      | ok entries => exact @ih ⟨entries, .empty, []⟩ [] rfl
    case isFalse hline =>
      have hblock : readBlock (block ++ [line]) = readLine (scan.current, scan.seen) line := by
        rw [readBlock_concat, h]
        rfl
      cases hread : readLine (scan.current, scan.seen) line with
      | error e =>
        -- a line is refused: so is its block
        obtain ⟨more, rest, heq⟩ := @blocksAfter_eq (block ++ [line]) (by simp) lines
        rw [heq, List.foldlM_cons, addBlock_error (hblock.trans hread)]
        rfl
      | ok state => exact @ih ⟨scan.entries, state.1, state.2⟩ (block ++ [line]) (hblock.trans hread)

theorem parse_eq_blocks (resolve : Text → Text) (output : Text) :
    parseWorktreePorcelain resolve output = (blocks output).foldlM (addBlock resolve) [] :=
  @scanAll_eq_blocks resolve (pythonLines output) ⟨[], .empty, []⟩ [] rfl

/-! ### What is accepted -/

/-- A property of the registration that exactly the fields of one key bring about. -/
theorem registration_flag (flag : Registration → Prop) (key : Key) (hempty : ¬ flag .empty)
    (h : ∀ (f : Field) r, flag (f.apply r) ↔ flag r ∨ f.key = key) (fields : List Field) :
    flag (registration fields) ↔ key ∈ fields.map Field.key := by
  have hfold : ∀ r, flag (fields.foldl Field.apply r) ↔ flag r ∨ key ∈ fields.map Field.key := by
    induction fields with
    | nil => simp
    | cons f fields ih =>
      intro r
      rw [List.foldl_cons, ih, h, List.map_cons, List.mem_cons, or_assoc, eq_comm]
  rw [registration, hfold, or_iff_right hempty]

section Registered

variable (fields : List Field)

theorem path_isSome : (registration fields).path.isSome = true ↔ .worktree ∈ fields.map Field.key := by
  apply registration_flag (fun r => r.path.isSome = true) .worktree (by decide)
  rintro (_ | _ | _ | _ | _ | (_ | _) | _) r <;> simp [Field.apply, Field.key]

theorem head_isSome : (registration fields).head.isSome = true ↔ .head ∈ fields.map Field.key := by
  apply registration_flag (fun r => r.head.isSome = true) .head (by decide)
  rintro (_ | _ | _ | _ | _ | (_ | _) | _) r <;> simp [Field.apply, Field.key]

theorem branch_isSome : (registration fields).branch.isSome = true ↔ .branch ∈ fields.map Field.key := by
  apply registration_flag (fun r => r.branch.isSome = true) .branch (by decide)
  rintro (_ | _ | _ | _ | _ | (_ | _) | _) r <;> simp [Field.apply, Field.key]

theorem detached_eq : (registration fields).detached = true ↔ .detached ∈ fields.map Field.key := by
  apply registration_flag (fun r => r.detached = true) .detached (by decide)
  rintro (_ | _ | _ | _ | _ | (_ | _) | _) r <;> simp [Field.apply, Field.key]

theorem bare_eq : (registration fields).bare = true ↔ .bare ∈ fields.map Field.key := by
  apply registration_flag (fun r => r.bare = true) .bare (by decide)
  rintro (_ | _ | _ | _ | _ | (_ | _) | _) r <;> simp [Field.apply, Field.key]

end Registered

/-- A line that only says why a worktree is locked or prunable leaves the registration as it is. -/
def Field.silent : Field → Bool
  | .locked (some _) | .prunable _ => true
  | _ => false

theorem registration_eq_empty (fields : List Field) :
    registration fields = .empty ↔ ∀ f ∈ fields, f.silent = true := by
  have hkeep : ∀ (f : Field) r, Field.apply r f = .empty ↔ r = .empty ∧ f.silent = true := by
    rintro (_ | _ | _ | _ | _ | (_ | _) | _) ⟨_, _, _, _, _, _⟩ <;>
      simp [Field.apply, Field.silent, Registration.empty]
  have hfold : ∀ r, fields.foldl Field.apply r = .empty
      ↔ r = .empty ∧ ∀ f ∈ fields, f.silent = true := by
    induction fields with
    | nil => simp
    | cons f fields ih =>
      intro r
      rw [List.foldl_cons, ih, hkeep, List.forall_mem_cons, and_assoc]
  rw [registration, hfold]
  simp

/-- A block of which the parser makes an entry. -/
structure Complete (keys : List Key) : Prop where
  worktree : .worktree ∈ keys
  head : .head ∈ keys
  checkout : .branch ∈ keys ∨ .detached ∈ keys ∨ .bare ∈ keys
  single : ¬ (.branch ∈ keys ∧ .detached ∈ keys)

theorem complete_iff (fields : List Field) :
    Complete (fields.map Field.key)
      ↔ (registration fields).path.isSome = true ∧ (registration fields).head.isSome = true
        ∧ ((registration fields).branch.isNone && !(registration fields).detached
          && !(registration fields).bare) = false
        ∧ ((registration fields).branch.isSome && (registration fields).detached) = false := by
  have hcheckout : ((registration fields).branch.isNone && !(registration fields).detached
      && !(registration fields).bare) = false
      ↔ .branch ∈ fields.map Field.key ∨ .detached ∈ fields.map Field.key
        ∨ .bare ∈ fields.map Field.key := by
    rw [← branch_isSome, ← detached_eq, ← bare_eq]
    cases (registration fields).branch <;> cases (registration fields).detached <;>
      cases (registration fields).bare <;> simp
  have hsingle : ((registration fields).branch.isSome && (registration fields).detached) = false
      ↔ ¬ (.branch ∈ fields.map Field.key ∧ .detached ∈ fields.map Field.key) := by
    rw [← branch_isSome, ← detached_eq]
    simp
  rw [path_isSome, head_isSome, hcheckout, hsingle]
  exact ⟨fun h => ⟨h.worktree, h.head, h.checkout, h.single⟩,
    fun h => ⟨h.1, h.2.1, h.2.2.1, h.2.2.2⟩⟩

theorem finish_ok_iff {fields : List Field} {resolve : Text → Text} {entries out : Entries} :
    finish resolve entries (registration fields) = .ok out
      ↔ ((∀ f ∈ fields, f.silent = true) ∧ out = entries)
        ∨ (Complete (fields.map Field.key) ∧ ∃ path, (registration fields).path = some path
          ∧ resolve path ∉ entries.map (·.1)
          ∧ out = entries ++ [(resolve path, registration fields)]) := by
  rw [complete_iff, ← registration_eq_empty]
  unfold finish
  by_cases hempty : registration fields = .empty
  · rw [if_pos hempty, hempty]
    simp [Registration.empty, eq_comm]
  · rw [if_neg hempty]
    simp only [hempty, false_and, false_or]
    cases hpath : (registration fields).path with
    | none => simp
    | some path =>
      cases hhead : (registration fields).head with
      | none => simp
      | some head =>
        dsimp only
        split
        case isTrue hnone => simp [hnone]
        split
        case isTrue hboth => simp [hboth]
        split
        case isTrue hseen =>
          refine iff_of_false (by simp) ?_
          rintro ⟨-, other, hother, hnew, -⟩
          obtain rfl := Option.some.inj hother
          exact hnew (List.contains_iff_mem.mp hseen)
        case isFalse hcheckout hsingle hseen =>
          rw [List.contains_iff_mem] at hseen
          rw [Bool.not_eq_true] at hcheckout hsingle
          constructor
          · intro h
            exact ⟨⟨rfl, rfl, hcheckout, hsingle⟩, path, rfl, hseen, (Except.ok.inj h).symm⟩
          · rintro ⟨-, other, hother, -, rfl⟩
            obtain rfl := Option.some.inj hother
            rfl

/-- What the parser lets pass: the lines of a block, and the block. -/
structure Accepted (block : List Text) (fields : List Field) : Prop where
  known : blockFields block = some fields
  reasons : .prunable none ∉ fields
  once : (fields.map Field.key).Nodup
  shape : (∀ f ∈ fields, f.silent = true) ∨ Complete (fields.map Field.key)

/-- The entry of a block. -/
def blockEntry (resolve : Text → Text) (block : List Text) : Option (Text × Registration) :=
  match blockFields block with
  | none => none
  | some fields => (registration fields).path.map fun path => (resolve path, registration fields)

theorem blockEntry_eq {resolve : Text → Text} {block : List Text} {fields : List Field}
    (h : blockFields block = some fields) : blockEntry resolve block
      = (registration fields).path.map fun path => (resolve path, registration fields) := by
  rw [blockEntry, h]

theorem blockEntry_silent {resolve : Text → Text} {block : List Text} {fields : List Field}
    (h : blockFields block = some fields) (hsilent : ∀ f ∈ fields, f.silent = true) :
    blockEntry resolve block = none := by
  rw [blockEntry_eq h, (registration_eq_empty fields).mpr hsilent]
  rfl

theorem addBlock_ok_iff {resolve : Text → Text} {entries out : Entries} {block : List Text} :
    addBlock resolve entries block = .ok out
      ↔ (∃ fields, Accepted block fields)
        ∧ (∀ entry ∈ blockEntry resolve block, entry.1 ∉ entries.map (·.1))
        ∧ out = entries ++ (blockEntry resolve block).toList := by
  have hblock : addBlock resolve entries block = .ok out
      ↔ ∃ fields, blockFields block = some fields ∧ .prunable none ∉ fields
        ∧ (fields.map Field.key).Nodup ∧ finish resolve entries (registration fields) = .ok out := by
    rw [addBlock]
    constructor
    · intro h
      cases hread : readBlock block with
      | error e =>
        rw [hread] at h
        cases h
      | ok state =>
        rw [hread] at h
        obtain ⟨fields, hfields, hreasons, honce, -, rfl⟩ := readBlock_ok_iff.mp hread
        exact ⟨fields, hfields, hreasons, honce, h⟩
    · rintro ⟨fields, hfields, hreasons, honce, hfinish⟩
      have hread : readBlock block = .ok _ :=
        readBlock_ok_iff.mpr ⟨fields, hfields, hreasons, honce, fun _ _ => List.not_mem_nil, rfl⟩
      rw [hread]
      exact hfinish
  rw [hblock]
  constructor
  · rintro ⟨fields, hfields, hreasons, honce, hfinish⟩
    obtain ⟨hsilent, rfl⟩ | ⟨hcomplete, path, hpath, hnew, rfl⟩ := finish_ok_iff.mp hfinish
    · rw [blockEntry_silent hfields hsilent]
      exact ⟨⟨fields, hfields, hreasons, honce, Or.inl hsilent⟩, nofun, (List.append_nil _).symm⟩
    · rw [blockEntry_eq hfields, hpath]
      refine ⟨⟨fields, hfields, hreasons, honce, Or.inr hcomplete⟩, ?_, rfl⟩
      rintro entry ⟨⟩
      exact hnew
  · rintro ⟨⟨fields, hfields, hreasons, honce, hshape⟩, hnew, rfl⟩
    refine ⟨fields, hfields, hreasons, honce, finish_ok_iff.mpr ?_⟩
    obtain hsilent | hcomplete := hshape
    · rw [blockEntry_silent hfields hsilent]
      exact Or.inl ⟨hsilent, List.append_nil _⟩
    · right
      obtain ⟨path, hpath⟩ := Option.isSome_iff_exists.mp ((path_isSome fields).mpr hcomplete.worktree)
      rw [blockEntry_eq hfields, hpath] at hnew ⊢
      exact ⟨hcomplete, path, rfl, hnew _ rfl, rfl⟩

theorem nodup_append_toList {entries : Entries} {entry : Option (Text × Registration)} :
    ((entries ++ entry.toList).map (·.1)).Nodup
      ↔ (entries.map (·.1)).Nodup ∧ ∀ e ∈ entry, e.1 ∉ entries.map (·.1) := by
  cases entry with
  | none => simp
  | some e =>
    rw [Option.toList_some, List.map_append, List.nodup_append, List.map_singleton]
    constructor
    · rintro ⟨hentries, -, hdisjoint⟩
      refine ⟨hentries, ?_⟩
      rintro _ ⟨⟩ hmem
      exact hdisjoint _ hmem _ (List.mem_singleton.mpr rfl) rfl
    · rintro ⟨hentries, hnew⟩
      refine ⟨hentries, List.pairwise_singleton _ _, fun path hpath other hother heq => ?_⟩
      rw [List.mem_singleton.mp hother] at heq
      exact hnew e rfl (heq ▸ hpath)

/-- **Acceptance.** A list is accepted if all its blocks are and no path stands twice; its entries are
    those of its blocks. -/
theorem blocks_ok_iff {resolve : Text → Text} {blocks : List (List Text)} {entries out : Entries}
    (hnodup : (entries.map (·.1)).Nodup) :
    blocks.foldlM (addBlock resolve) entries = .ok out
      ↔ (∀ block ∈ blocks, ∃ fields, Accepted block fields)
        ∧ ((entries ++ blocks.filterMap (blockEntry resolve)).map (·.1)).Nodup
        ∧ out = entries ++ blocks.filterMap (blockEntry resolve) := by
  induction blocks generalizing entries with
  | nil => simp [hnodup, pure, Except.pure, eq_comm]
  | cons block blocks ih =>
    have hentries : entries ++ (block :: blocks).filterMap (blockEntry resolve)
        = (entries ++ (blockEntry resolve block).toList) ++ blocks.filterMap (blockEntry resolve) := by
      rw [List.filterMap_cons, List.append_assoc]
      cases blockEntry resolve block <;> rfl
    rw [List.foldlM_cons, hentries, List.forall_mem_cons]
    constructor
    · intro h
      cases hadd : addBlock resolve entries block with
      | error e =>
        rw [hadd] at h
        cases h
      | ok next =>
        rw [hadd] at h
        obtain ⟨haccepted, hnew, rfl⟩ := addBlock_ok_iff.mp hadd
        obtain ⟨hrest, hpaths, hout⟩ := (ih (nodup_append_toList.mpr ⟨hnodup, hnew⟩)).mp h
        exact ⟨⟨haccepted, hrest⟩, hpaths, hout⟩
    · rintro ⟨⟨haccepted, hrest⟩, hpaths, hout⟩
      have hnext : ((entries ++ (blockEntry resolve block).toList).map (·.1)).Nodup := by
        rw [List.map_append, List.nodup_append] at hpaths
        exact hpaths.1
      have hadd := addBlock_ok_iff.mpr ⟨haccepted, (nodup_append_toList.mp hnext).2, rfl⟩
      rw [hadd]
      exact (ih hnext).mpr ⟨hrest, hpaths, hout⟩

/-- The resolved paths of the blocks of a list that have one. -/
def blockPaths (resolve : Text → Text) (output : Text) : List Text :=
  ((blocks output).filterMap (blockEntry resolve)).map (·.1)

theorem parse_ok_iff {resolve : Text → Text} {output : Text} {out : Entries} :
    parseWorktreePorcelain resolve output = .ok out
      ↔ (∀ block ∈ blocks output, ∃ fields, Accepted block fields)
        ∧ (blockPaths resolve output).Nodup
        ∧ out = (blocks output).filterMap (blockEntry resolve) := by
  rw [parse_eq_blocks, @blocks_ok_iff resolve _ [] _ List.nodup_nil, List.nil_append]
  rfl

/-! ### Lists as Git writes them -/

/-- A value: it is not empty and has no line break. -/
structure Value where
  text : Text
  ne_nil : text ≠ []
  oneLine : ∀ c ∈ text, isLineBoundary c = false

inductive Checkout where
  | branch (name : Value)
  | detached

/-- A record of the list; a bare repository has no head.  A lock and a note that a worktree can be
    pruned come with or without a reason. -/
structure Record where
  path : Value
  tree : Option (Value × Checkout)
  locked : Option (Option Value)
  prunable : Option (Option Value)

def Record.head (r : Record) : Option Text := r.tree.map fun tree => tree.1.text

def Record.branch (r : Record) : Option Text :=
  r.tree.bind fun tree => match tree.2 with
    | .branch name => some name.text
    | .detached => none

def Record.fields (r : Record) : List Field :=
  [.worktree r.path.text]
    ++ (match r.tree with
      | none => [.bare]
      | some (head, .branch name) => [.head head.text, .branch name.text]
      | some (head, .detached) => [.head head.text, .detached])
    ++ (r.locked.map fun reason => Field.locked (reason.map Value.text)).toList
    ++ (r.prunable.map fun reason => Field.prunable (reason.map Value.text)).toList

def Record.lines (r : Record) : List Text := r.fields.map Field.line

/-- The lines of a list, with a blank one between two records and maybe one at the end. -/
def listLines (records : List Record) (trailing : Bool) : List Text :=
  List.intercalate [[]] (records.map Record.lines) ++ (if trailing then [[]] else [])

/-- The output of `git worktree list --porcelain`. -/
def render (records : List Record) (trailing : Bool) : Text :=
  (listLines records trailing).flatMap fun line => line ++ [lineFeed]

/-! ### Git's lists are read line by line -/

/-- The values of a field are such that its line states it. -/
def Field.Sound : Field → Prop
  | .worktree value | .head value | .branch value => value ≠ []
  | _ => True

theorem noSpace_word (k : Key) : (k.word.all fun c => decide (c ≠ space)) = true := by
  cases k <;> decide

theorem lineKey_line (f : Field) : lineKey f.line = f.key.word := by
  have hword : ∀ c ∈ f.key.word, decide (c ≠ space) = true :=
    List.all_eq_true.mp (noSpace_word f.key)
  unfold Field.line lineKey
  cases f.value with
  | none => exact List.takeWhile_eq_self_iff.mpr hword
  | some value =>
    dsimp only
    rw [List.takeWhile_append_of_pos hword, List.takeWhile_cons_of_neg (by simp), List.append_nil]

theorem lineValue_line (f : Field) : lineValue f.line = f.value := by
  have hword : ∀ c ∈ f.key.word, decide (c ≠ space) = true :=
    List.all_eq_true.mp (noSpace_word f.key)
  unfold Field.line lineValue
  cases f.value with
  | none =>
    dsimp only
    rw [List.dropWhile_eq_nil_iff.mpr hword]
  | some value =>
    dsimp only
    rw [List.dropWhile_append_of_pos hword, List.dropWhile_cons_of_neg (by simp)]

theorem drop_refs (name : Text) : (text "refs/heads/" ++ name).drop 11 = name :=
  List.drop_left' (by decide)

/-- The line of a field states it. -/
theorem field_line {f : Field} (h : f.Sound) : field f.line = some f := by
  have hword : ∀ k k' : Key, k ≠ k' → ¬ k.word = k'.word := fun k k' hne heq => hne (word_injective heq)
  unfold field
  rw [lineValue_line, lineKey_line]
  cases f with
  | worktree path =>
    show (if Key.word .worktree = Key.word .worktree then _ else _) = _
    rw [if_pos rfl, if_neg h]
  | head commit =>
    show (if Key.word .head = Key.word .worktree then _ else
      if Key.word .head = Key.word .head then _ else _) = _
    rw [if_neg (hword _ _ (by decide)), if_pos rfl, if_neg h]
  | branch name =>
    have hprefix : (text "refs/heads/").isPrefixOf (text "refs/heads/" ++ name) = true :=
      List.isPrefixOf_iff_prefix.mpr (List.prefix_append _ _)
    have hname : decide (name ≠ []) = true := decide_eq_true h
    show (if Key.word .branch = Key.word .worktree then _ else
      if Key.word .branch = Key.word .head then _ else
      if Key.word .branch = Key.word .branch then _ else _) = _
    rw [if_neg (hword _ _ (by decide)), if_neg (hword _ _ (by decide)), if_pos rfl, drop_refs,
      hprefix, hname]
    rfl
  | detached =>
    show (if Key.word .detached = Key.word .detached then _ else _) = _
    rw [if_pos rfl]
  | bare =>
    show (if Key.word .bare = Key.word .detached then _ else
      if Key.word .bare = Key.word .bare then _ else _) = _
    rw [if_neg (hword _ _ (by decide)), if_pos rfl]
  | locked reason =>
    cases reason with
    | none =>
      show (if Key.word .locked = Key.word .detached then _ else
        if Key.word .locked = Key.word .bare then _ else
        if Key.word .locked = Key.word .locked then _ else _) = _
      rw [if_neg (hword _ _ (by decide)), if_neg (hword _ _ (by decide)), if_pos rfl]
    | some reason =>
      show (if Key.word .locked = Key.word .worktree then _ else
        if Key.word .locked = Key.word .head then _ else
        if Key.word .locked = Key.word .branch then _ else
        if Key.word .locked = Key.word .locked then _ else _) = _
      rw [if_neg (hword _ _ (by decide)), if_neg (hword _ _ (by decide)),
        if_neg (hword _ _ (by decide)), if_pos rfl]
  | prunable reason =>
    cases reason with
    | none =>
      show (if Key.word .prunable = Key.word .detached then _ else
        if Key.word .prunable = Key.word .bare then _ else
        if Key.word .prunable = Key.word .locked then _ else
        if Key.word .prunable = Key.word .prunable then _ else _) = _
      rw [if_neg (hword _ _ (by decide)), if_neg (hword _ _ (by decide)),
        if_neg (hword _ _ (by decide)), if_pos rfl]
    | some reason =>
      show (if Key.word .prunable = Key.word .worktree then _ else
        if Key.word .prunable = Key.word .head then _ else
        if Key.word .prunable = Key.word .branch then _ else
        if Key.word .prunable = Key.word .locked then _ else
        if Key.word .prunable = Key.word .prunable then _ else _) = _
      rw [if_neg (hword _ _ (by decide)), if_neg (hword _ _ (by decide)),
        if_neg (hword _ _ (by decide)), if_neg (hword _ _ (by decide)), if_pos rfl]

theorem blockFields_map {fields : List Field} (h : ∀ f ∈ fields, f.Sound) :
    blockFields (fields.map Field.line) = some fields := by
  induction fields with
  | nil => rfl
  | cons f fields ih =>
    rw [List.map_cons]
    exact blockFields_cons.mpr ⟨f, fields, field_line (h f List.mem_cons_self),
      ih fun g hg => h g (List.mem_cons_of_mem _ hg), rfl⟩

namespace Record

variable (r : Record)

/-- What the fields of a record can be. -/
theorem forall_fields {P : Field → Prop}
    (hvalue : ∀ v : Value, P (.worktree v.text) ∧ P (.head v.text) ∧ P (.branch v.text))
    (hplain : P .detached ∧ P .bare)
    (hreason : ∀ reason : Option Value,
      P (.locked (reason.map Value.text)) ∧ P (.prunable (reason.map Value.text))) :
    ∀ f ∈ r.fields, P f := by
  intro f hf
  rw [fields, List.mem_append, List.mem_append, List.mem_append, List.mem_singleton] at hf
  obtain ((rfl | hf) | hf) | hf := hf
  · exact (hvalue _).1
  · cases htree : r.tree with
    | none =>
      rw [htree] at hf
      rw [List.mem_singleton.mp hf]
      exact hplain.2
    | some tree =>
      obtain ⟨head, name | _⟩ := tree
      · rw [htree] at hf
        obtain rfl | hf := List.mem_cons.mp hf
        · exact (hvalue _).2.1
        · rw [List.mem_singleton.mp hf]
          exact (hvalue _).2.2
      · rw [htree] at hf
        obtain rfl | hf := List.mem_cons.mp hf
        · exact (hvalue _).2.1
        · rw [List.mem_singleton.mp hf]
          exact hplain.1
  · cases hlocked : r.locked with
    | none => simp [hlocked] at hf
    | some reason =>
      rw [hlocked] at hf
      rw [List.mem_singleton.mp hf]
      exact (hreason reason).1
  · cases hprunable : r.prunable with
    | none => simp [hprunable] at hf
    | some reason =>
      rw [hprunable] at hf
      rw [List.mem_singleton.mp hf]
      exact (hreason reason).2

theorem sound_fields : ∀ f ∈ r.fields, f.Sound :=
  r.forall_fields (fun v => ⟨v.ne_nil, v.ne_nil, v.ne_nil⟩) ⟨trivial, trivial⟩
    fun _ => ⟨trivial, trivial⟩

theorem oneLine_fields : ∀ f ∈ r.fields, ∀ c ∈ f.line, isLineBoundary c = false := by
  have hword : ∀ k : Key, ∀ c ∈ k.word, isLineBoundary c = false := by
    intro k
    have hall : (k.word.all fun c => !isLineBoundary c) = true := by cases k <;> decide
    simpa [List.all_eq_true] using hall
  have hrefs : ∀ c ∈ text "refs/heads/", isLineBoundary c = false := by
    have hall : ((text "refs/heads/").all fun c => !isLineBoundary c) = true := by decide
    simpa [List.all_eq_true] using hall
  have hspace : isLineBoundary space = false := by decide
  have hline : ∀ f : Field, (∀ v ∈ f.value, ∀ c ∈ v, isLineBoundary c = false) →
      ∀ c ∈ f.line, isLineBoundary c = false := by
    intro f hvalue c hc
    unfold Field.line at hc
    cases hv : f.value with
    | none =>
      rw [hv] at hc
      exact hword _ c hc
    | some value =>
      rw [hv] at hc
      obtain hc | hc := List.mem_append.mp hc
      · exact hword _ c hc
      · obtain rfl | hc := List.mem_cons.mp hc
        · exact hspace
        · exact hvalue value hv c hc
  refine r.forall_fields (fun v => ⟨?_, ?_, ?_⟩) ⟨?_, ?_⟩ fun reason => ⟨?_, ?_⟩
  · exact hline _ (by rintro _ ⟨⟩; exact v.oneLine)
  · exact hline _ (by rintro _ ⟨⟩; exact v.oneLine)
  · apply hline
    rintro _ ⟨⟩ c hc
    obtain hc | hc := List.mem_append.mp hc
    · exact hrefs c hc
    · exact v.oneLine c hc
  · exact hline _ nofun
  · exact hline _ nofun
  · apply hline
    cases reason with
    | none => exact nofun
    | some v => rintro _ ⟨⟩; exact v.oneLine
  · apply hline
    cases reason with
    | none => exact nofun
    | some v => rintro _ ⟨⟩; exact v.oneLine

/-- The keys of a record. -/
theorem keys_fields : r.fields.map Field.key = [.worktree]
    ++ (match r.tree with
      | none => [.bare]
      | some (_, .branch _) => [.head, .branch]
      | some (_, .detached) => [.head, .detached])
    ++ (if r.locked.isSome then [.locked] else []) ++ (if r.prunable.isSome then [.prunable] else []) := by
  obtain ⟨path, tree, locked, prunable⟩ := r
  obtain _ | ⟨head, name | _⟩ := tree <;> cases locked <;> cases prunable <;> rfl

theorem nodup_keys : (r.fields.map Field.key).Nodup := by
  rw [keys_fields]
  obtain ⟨path, tree, locked, prunable⟩ := r
  obtain _ | ⟨head, name | _⟩ := tree <;> cases locked <;> cases prunable <;> simp

theorem worktree_mem_keys : .worktree ∈ r.fields.map Field.key := by
  rw [keys_fields]
  simp

theorem complete_keys : Complete (r.fields.map Field.key) ↔ r.tree ≠ none := by
  rw [keys_fields]
  constructor
  · intro h htree
    have hhead := h.head
    rw [htree] at hhead
    cases r.locked <;> cases r.prunable <;> simp at hhead
  · intro htree
    obtain ⟨path, tree, locked, prunable⟩ := r
    obtain _ | ⟨head, name | _⟩ := tree
    · exact absurd rfl htree
    all_goals
      constructor <;> cases locked <;> cases prunable <;> simp

theorem prunable_none_mem : .prunable none ∈ r.fields ↔ r.prunable = some none := by
  obtain ⟨path, tree, locked, prunable⟩ := r
  obtain _ | ⟨head, name | _⟩ := tree <;> cases locked <;>
    rcases prunable with _ | _ | _ <;> simp [fields]

theorem registration_fields :
    (registration r.fields).path = some r.path.text ∧ (registration r.fields).head = r.head
      ∧ (registration r.fields).branch = r.branch := by
  obtain ⟨path, tree, locked, prunable⟩ := r
  obtain _ | ⟨head, name | _⟩ := tree <;> rcases locked with _ | _ | _ <;>
    rcases prunable with _ | _ | _ <;> exact ⟨rfl, rfl, rfl⟩

end Record

theorem line_ne_nil (f : Field) : f.line ≠ [] := by
  have hword : f.key.word ≠ [] := by cases f.key <;> decide
  unfold Field.line
  cases f.value with
  | none => exact hword
  | some value => exact fun hnil => hword (List.append_eq_nil_iff.mp hnil).1

/-- Lines that are not blank are one block. -/
theorem blocksAfter_append {lines : List Text} (h : ∀ line ∈ lines, line ≠ [])
    (block rest : List Text) :
    blocksAfter block (lines ++ rest) = blocksAfter (block ++ lines) rest := by
  induction lines generalizing block with
  | nil => rw [List.nil_append, List.append_nil]
  | cons line lines ih =>
    rw [List.cons_append, blocksAfter, if_neg (h line List.mem_cons_self),
      ih (fun l hl => h l (List.mem_cons_of_mem _ hl)), List.append_assoc]
    rfl

theorem blocksAfter_blank (block rest : List Text) (h : block ≠ []) :
    blocksAfter block ([] :: rest) = block :: blocksAfter [] rest := by
  rw [blocksAfter, if_pos rfl, if_neg h]
  rfl

theorem Record.lines_ne_nil (r : Record) : r.lines ≠ [] := by
  simp [Record.lines, Record.fields]

theorem Record.lines_not_blank (r : Record) : ∀ line ∈ r.lines, line ≠ [] := by
  intro line hline
  obtain ⟨f, -, rfl⟩ := List.mem_map.mp hline
  exact line_ne_nil f

theorem listLines_singleton (r : Record) (trailing : Bool) :
    listLines [r] trailing = r.lines ++ (if trailing then [[]] else []) := by
  simp [listLines, List.intercalate]

theorem listLines_cons_cons (r r' : Record) (records : List Record) (trailing : Bool) :
    listLines (r :: r' :: records) trailing
      = r.lines ++ [] :: listLines (r' :: records) trailing := by
  simp [listLines, List.intercalate]

/-- The blocks of Git's lists are the lines of its records. -/
theorem blocksAfter_listLines (records : List Record) (trailing : Bool) :
    blocksAfter [] (listLines records trailing) = records.map Record.lines := by
  induction records with
  | nil => cases trailing <;> rfl
  | cons r records ih =>
    cases records with
    | nil =>
      rw [listLines_singleton, blocksAfter_append r.lines_not_blank, List.nil_append]
      cases trailing with
      | false =>
        show blocksAfter r.lines [] = _
        rw [blocksAfter, if_neg r.lines_ne_nil]
        rfl
      | true =>
        show blocksAfter r.lines [[]] = _
        rw [blocksAfter_blank _ _ r.lines_ne_nil]
        rfl
    | cons r' records =>
      rw [listLines_cons_cons, blocksAfter_append r.lines_not_blank, List.nil_append,
        blocksAfter_blank _ _ r.lines_ne_nil, ih]
      rfl

theorem oneLine_listLines (records : List Record) (trailing : Bool) :
    ∀ line ∈ listLines records trailing, ∀ c ∈ line, isLineBoundary c = false := by
  have hlines : ∀ r : Record, ∀ line ∈ r.lines, ∀ c ∈ line, isLineBoundary c = false := by
    intro r line hline
    obtain ⟨f, hf, rfl⟩ := List.mem_map.mp hline
    exact r.oneLine_fields f hf
  have hblank : ∀ line ∈ (if trailing then [[]] else [] : List Text), ∀ c ∈ line,
      isLineBoundary c = false := by
    cases trailing <;> simp
  induction records with
  | nil => exact hblank
  | cons r records ih =>
    cases records with
    | nil =>
      rw [listLines_singleton]
      exact List.forall_mem_append.mpr ⟨hlines r, hblank⟩
    | cons r' records =>
      rw [listLines_cons_cons]
      exact List.forall_mem_append.mpr ⟨hlines r, List.forall_mem_cons.mpr ⟨nofun, ih⟩⟩

theorem blocks_render (records : List Record) (trailing : Bool) :
    blocks (render records trailing) = records.map Record.lines := by
  rw [blocks, render, pythonLines_flatMap (oneLine_listLines records trailing),
    blocksAfter_listLines]

theorem blockEntry_lines (resolve : Text → Text) (r : Record) :
    blockEntry resolve r.lines = some (resolve r.path.text, registration r.fields) := by
  have hfields : blockFields r.lines = some r.fields := blockFields_map r.sound_fields
  rw [blockEntry_eq hfields, r.registration_fields.1]
  rfl

theorem filterMap_blockEntry (resolve : Text → Text) (records : List Record) :
    (records.map Record.lines).filterMap (blockEntry resolve)
      = records.map fun r => (resolve r.path.text, registration r.fields) := by
  induction records with
  | nil => rfl
  | cons r records ih =>
    rw [List.map_cons, List.filterMap_cons_some (blockEntry_lines resolve r), ih]
    rfl

/-! ### Reading back and refusing -/

/-- A block with every field it must have, none twice and none that contradicts another. -/
structure WellFormed (block : List Text) (fields : List Field) : Prop where
  known : blockFields block = some fields
  once : (fields.map Field.key).Nodup
  worktree : .worktree ∈ fields.map Field.key
  shape : (.bare ∈ fields.map Field.key ∧ .head ∉ fields.map Field.key
      ∧ .branch ∉ fields.map Field.key ∧ .detached ∉ fields.map Field.key)
    ∨ (.bare ∉ fields.map Field.key ∧ .head ∈ fields.map Field.key
      ∧ (.branch ∈ fields.map Field.key ↔ .detached ∉ fields.map Field.key))

/-- A block has a field that is missing, unknown, there twice or contradictory, or a path stands in
    two blocks. -/
def Defective (resolve : Text → Text) (output : Text) : Prop :=
  (∃ block ∈ blocks output, ∀ fields, ¬ WellFormed block fields)
    ∨ ¬ (blockPaths resolve output).Nodup

/-- What an entry says about its worktree. -/
def summary (entry : Text × Registration) : Text × Option Text × Option Text × Option Text :=
  (entry.1, entry.2.path, entry.2.head, entry.2.branch)

/-- The parser inverts Git's list and refuses a defective one. -/
def Inverts (resolve : Text → Text) (output : Text) : Prop :=
  (∀ records trailing, output = render records trailing →
    (records.map fun r => resolve r.path.text).Nodup →
    ∃ entries, parseWorktreePorcelain resolve output = .ok entries
      ∧ entries.map summary
        = records.map fun r => (resolve r.path.text, some r.path.text, r.head, r.branch))
  ∧ (Defective resolve output → ∃ e, parseWorktreePorcelain resolve output = .error e)

/-- A list in Git's format with a bare worktree, or with a prunable one and no reason. -/
def Unread (resolve : Text → Text) (output : Text) : Prop :=
  ∃ records trailing, output = render records trailing
    ∧ (records.map fun r => resolve r.path.text).Nodup
    ∧ ∃ r ∈ records, r.tree = none ∨ r.prunable = some none

/-- A list whose lines and paths are in order, with a block that only says why a worktree is locked
    or prunable, or one with a head and `bare`. -/
def Overlooked (resolve : Text → Text) (output : Text) : Prop :=
  (∀ block ∈ blocks output, ∃ fields, Accepted block fields)
    ∧ (blockPaths resolve output).Nodup
    ∧ ∃ block ∈ blocks output, ∃ fields, blockFields block = some fields
      ∧ ((∀ f ∈ fields, f.silent = true) ∨ .bare ∈ fields.map Field.key)

section Inversion

variable {resolve : Text → Text} {output : Text}

theorem accepted_lines_iff (r : Record) :
    (∃ fields, Accepted r.lines fields) ↔ r.tree ≠ none ∧ r.prunable ≠ some none := by
  have hfields : blockFields r.lines = some r.fields := blockFields_map r.sound_fields
  constructor
  · rintro ⟨fields, h⟩
    obtain rfl := Option.some.inj (hfields.symm.trans h.known)
    refine ⟨?_, fun hprunable => h.reasons (r.prunable_none_mem.mpr hprunable)⟩
    obtain hsilent | hcomplete := h.shape
    · -- a record has a path, so its block is not silent
      obtain ⟨f, hf, hkey⟩ := List.mem_map.mp r.worktree_mem_keys
      have hf := hsilent f hf
      cases f <;> simp [Field.silent, Field.key] at hf hkey
    · exact r.complete_keys.mp hcomplete
  · rintro ⟨htree, hprunable⟩
    exact ⟨r.fields, hfields, fun hmem => hprunable (r.prunable_none_mem.mp hmem), r.nodup_keys,
      Or.inr (r.complete_keys.mpr htree)⟩

theorem blockPaths_render (records : List Record) (trailing : Bool) :
    blockPaths resolve (render records trailing) = records.map fun r => resolve r.path.text := by
  rw [blockPaths, blocks_render, filterMap_blockEntry, List.map_map]
  rfl

/-- Git's lists without these records are read back. -/
theorem reads_back (records : List Record) (trailing : Bool)
    (hpaths : (records.map fun r => resolve r.path.text).Nodup)
    (h : ∀ r ∈ records, r.tree ≠ none ∧ r.prunable ≠ some none) :
    ∃ entries, parseWorktreePorcelain resolve (render records trailing) = .ok entries
      ∧ entries.map summary
        = records.map fun r => (resolve r.path.text, some r.path.text, r.head, r.branch) := by
  refine ⟨_, parse_ok_iff.mpr ⟨?_, ?_, rfl⟩, ?_⟩
  · rw [blocks_render]
    intro block hblock
    obtain ⟨r, hr, rfl⟩ := List.mem_map.mp hblock
    exact (accepted_lines_iff r).mpr (h r hr)
  · rw [blockPaths_render]
    exact hpaths
  · rw [blocks_render, filterMap_blockEntry, List.map_map]
    refine List.map_congr_left fun r _ => ?_
    obtain ⟨hpath, hhead, hbranch⟩ := r.registration_fields
    simp only [Function.comp, summary, hpath, hhead, hbranch]

/-- An accepted block is well formed, silent, or bare with a head. -/
theorem Accepted.wellFormed {block : List Text} {fields : List Field} (h : Accepted block fields)
    (hsilent : ¬ ∀ f ∈ fields, f.silent = true) (hbare : .bare ∉ fields.map Field.key) :
    WellFormed block fields := by
  have hcomplete := h.shape.resolve_left hsilent
  refine ⟨h.known, h.once, hcomplete.worktree, Or.inr ⟨hbare, hcomplete.head, ?_⟩⟩
  have hcheckout := hcomplete.checkout
  have hsingle := hcomplete.single
  tauto

/-- A block that is silent, or bare with a head, is not well formed. -/
theorem Accepted.not_wellFormed {block : List Text} {fields fields' : List Field}
    (h : Accepted block fields)
    (htrap : (∀ f ∈ fields, f.silent = true) ∨ .bare ∈ fields.map Field.key) :
    ¬ WellFormed block fields' := by
  intro hwell
  obtain rfl := Option.some.inj (h.known.symm.trans hwell.known)
  have hnotSilent : ¬ ∀ f ∈ fields, f.silent = true := by
    intro hsilent
    obtain ⟨f, hf, hkey⟩ := List.mem_map.mp hwell.worktree
    have hf := hsilent f hf
    cases f <;> simp [Field.silent, Field.key] at hf hkey
  have hbare := htrap.resolve_left hnotSilent
  have hcomplete := h.shape.resolve_left hnotSilent
  obtain ⟨-, hhead, -⟩ | ⟨hnotBare, -⟩ := hwell.shape
  · exact hhead hcomplete.head
  · exact hnotBare hbare

/-- **Inversion.** The parser reads Git's list back and refuses a defective one, exactly when the list
    is neither unread nor overlooked. -/
theorem parse_inverts_iff (resolve : Text → Text) (output : Text) :
    Inverts resolve output ↔ ¬ Unread resolve output ∧ ¬ Overlooked resolve output := by
  constructor
  · rintro ⟨hreads, hrefuses⟩
    constructor
    · rintro ⟨records, trailing, rfl, hpaths, r, hr, htrap⟩
      obtain ⟨entries, hparse, -⟩ := hreads records trailing rfl hpaths
      have haccepted := (parse_ok_iff.mp hparse).1
      rw [blocks_render] at haccepted
      obtain ⟨htree, hprunable⟩ :=
        (accepted_lines_iff r).mp (haccepted _ (List.mem_map_of_mem hr))
      exact htrap.elim htree hprunable
    · rintro ⟨haccepted, hpaths, block, hblock, fields, hfields, htrap⟩
      have hdefective : Defective resolve output := by
        refine Or.inl ⟨block, hblock, fun fields' => ?_⟩
        obtain ⟨fields'', h⟩ := haccepted block hblock
        obtain rfl := Option.some.inj (h.known.symm.trans hfields)
        exact h.not_wellFormed htrap
      obtain ⟨e, herror⟩ := hrefuses hdefective
      have hparse := parse_ok_iff.mpr ⟨haccepted, hpaths, rfl⟩
      rw [herror] at hparse
      cases hparse
  · rintro ⟨hunread, hoverlooked⟩
    constructor
    · rintro records trailing rfl hpaths
      refine reads_back records trailing hpaths fun r hr => ?_
      by_contra htrap
      exact hunread ⟨records, trailing, rfl, hpaths, r, hr, by tauto⟩
    · intro hdefective
      cases hparse : parseWorktreePorcelain resolve output with
      | error e => exact ⟨e, rfl⟩
      | ok entries =>
        exfalso
        obtain ⟨haccepted, hpaths, -⟩ := parse_ok_iff.mp hparse
        obtain ⟨block, hblock, hnone⟩ | htwice := hdefective
        · obtain ⟨fields, h⟩ := haccepted block hblock
          refine hoverlooked ⟨haccepted, hpaths, block, hblock, fields, h.known, ?_⟩
          by_contra htrap
          rw [not_or] at htrap
          exact hnone fields (h.wellFormed htrap.1 htrap.2)
        · exact htwice hpaths

end Inversion

/-! ### A bare repository in the list -/

namespace BareRepository

theorem oneLine_path : ∀ c ∈ text "/srv/repo.git", isLineBoundary c = false := by
  have hall : ((text "/srv/repo.git").all fun c => !isLineBoundary c) = true := by decide
  simpa [List.all_eq_true] using hall

def path : Value := ⟨text "/srv/repo.git", by decide, oneLine_path⟩

/-- Git's list of a bare repository. -/
def output : Text := render [⟨path, none, none, none⟩] true

/-- **Refusal.** Git's list of a bare repository is refused. -/
theorem not_inverts : ¬ Inverts id output := by
  rintro ⟨hreads, -⟩
  obtain ⟨entries, hparse, -⟩ := hreads [⟨path, none, none, none⟩] true rfl
    (List.pairwise_singleton _ _)
  have haccepted := (parse_ok_iff.mp hparse).1
  rw [output, blocks_render] at haccepted
  exact ((accepted_lines_iff _).mp (haccepted _ List.mem_cons_self)).1 rfl

end BareRepository

end Devlegate.Worktree
