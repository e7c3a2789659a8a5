import Devlegate.State
import Devlegate.Lib.FileTree
import Mathlib.Data.List.DropRight

namespace Devlegate.Extraction

open FileTree

/-!
# Unpacking a package

The Debian and the Arch tool unpack the members of a tar archive into a directory, one after the
other.  Both refuse names that are absolute or hold `..`; the rest is left to checks on the tree as
it is when the turn of a member comes.

* `parts`, `dirname`, `join`, `normpath`: paths as text.
* `debExtract` / `archExtract`: the two extractors.
* `debExtractMember_within` / `archExtractMember_within`: what one member changes.
* `stays_of_normpath`: what the check on the text of a link says about its steps.
* `extract_confined`: what stays inside of the directory.
-/

/-! ### Paths as text -/

abbrev Name := List Char

/-- `path.split("/")`. -/
def splitSlash : List Char → List Name
  | [] => [[]]
  | c :: rest =>
    if c = '/' then [] :: splitSlash rest
    else match splitSlash rest with
      | [] => [[c]]
      | first :: others => (c :: first) :: others

def dotdot : Name := "..".toList

/-- A component that says nothing about the place. -/
def isIdle (component : Name) : Bool := component = [] || component = ".".toList

/-- The names of `PurePosixPath(path).parts`. -/
def parts (path : Name) : List Name := (splitSlash path).filter fun c => !isIdle c

/-- `PurePosixPath(path).is_absolute()`. -/
def isAbsolute (path : Name) : Bool := path.head? = some '/'

/-- `posixpath.dirname(path)`. -/
def dirname (path : Name) : Name :=
  let head := path.rdropWhile (· ≠ '/')
  if head ≠ [] ∧ head.any (· ≠ '/') then head.rdropWhile (· = '/') else head

/-- `posixpath.join(path, more)`. -/
def join (path more : Name) : Name :=
  if isAbsolute more then more
  else if path = [] ∨ path.getLast? = some '/' then path ++ more
  else path ++ '/' :: more

/-- One component in the loop of `posixpath.normpath`; the components so far, innermost first. -/
def normStep (rooted : Bool) (comps : List Name) (component : Name) : List Name :=
  if isIdle component then comps
  else if component ≠ dotdot ∨ (rooted = false ∧ comps = []) ∨ comps.head? = some dotdot then
    component :: comps
  else comps.tail

/-- The slashes that `posixpath.normpath` keeps in front. -/
def initialSlashes (path : Name) : Nat :=
  if "//".toList <+: path ∧ ¬ "///".toList <+: path then 2
  else if isAbsolute path then 1
  else 0

/-- `posixpath.normpath(path)`. -/
def normpath (path : Name) : Name :=
  if path = [] then ".".toList
  else
    let comps := (splitSlash path).foldl (normStep (isAbsolute path)) []
    let normal := List.replicate (initialSlashes path) '/'
      ++ List.intercalate ['/'] comps.reverse
    if normal = [] then ".".toList else normal

/-- The step that a component stands for. -/
def stepOf (component : Name) : Step Name :=
  if component = dotdot then .up else .down component

/-- Where a link with a text points. -/
def targetOf (linkname : Name) : Target Name :=
  ⟨isAbsolute linkname, (parts linkname).map stepOf⟩

/-! ### Archives -/

/-- The kind of a member, with what its kind holds. -/
inductive MemberKind where
  | directory
  | regular (payload : Option (List UInt8))
  | symbolic (linkname : Name)
  | special
  deriving DecidableEq, Repr

/-- A member as `tarfile` reads it. -/
structure TarMember where
  name : Name
  kind : MemberKind
  mode : Nat
  deriving DecidableEq, Repr

/-- The path of a member below the destination, the innermost name first. -/
def TarMember.path (member : TarMember) : List Name := (parts member.name).reverse

/-- What ends an extraction. -/
inductive Refused where
  | debFormat (message : String)
  | archFormat (message : String)
  | os (error : OsError)
  deriving DecidableEq, Repr

/-- A call whose error is passed on. -/
def calling {α : Type} : Except OsError α → Except Refused α
  | .ok a => .ok a
  | .error e => .error (.os e)

/-! ### The Debian extractor -/

/-- The checks on one member, before anything is unpacked. -/
def debCheck (names : List Name) (member : TarMember) : Except Refused Unit :=
  if member.name = [] ∨ isAbsolute member.name ∨ dotdot ∈ parts member.name
      ∨ member.name ∈ names ∨ member.kind = .special then
    .error (.debFormat "Debian archive contains an unsafe or duplicate member")
  else
    match member.kind with
    | .symbolic linkname =>
      if isAbsolute linkname then .error (.debFormat "Debian archive contains an unsafe link")
      else
        let link := normpath (join (dirname member.name) linkname)
        if link = dotdot ∨ "../".toList <+: link then
          .error (.debFormat "Debian archive contains an unsafe link")
        else .ok ()
    | .directory | .regular _ | .special => .ok ()

/-- The first loop, with the names before. -/
def debCheckAll (names : List Name) : List TarMember → Except Refused Unit
  | [] => .ok ()
  | member :: members =>
    match debCheck names member with
    | .error e => .error e
    | .ok () => debCheckAll (member.name :: names) members

section Extract

variable (host : Host) (root : Place Name)

/-- The loop over the components above a member, from the outermost on. -/
def debCheckParents (tree : Disk Name) : List Name → Except Refused Unit
  | [] => .ok ()
  | name :: above =>
    match debCheckParents tree above with
    | .error e => .error e
    | .ok () =>
      if tree.isSymlink host root (name :: above) || !tree.isDir host root (name :: above) then
        .error (.debFormat "Debian archive escapes extraction root")
      else .ok ()

/-- `parent.mkdir(parents=True, exist_ok=True)`.  The destination is there, and so is the directory
    that it stands in. -/
def makeParent (tree : Disk Name) (path : List Name) : Except Refused (Disk Name) :=
  match path with
  | [] => .ok tree
  | _ :: above => calling (tree.makeDirs host root above)

/-- One turn of the second loop. -/
def debExtractMember (tree : Disk Name) (member : TarMember) : Except Refused (Disk Name) := do
  let path := member.path
  debCheckParents host root tree path.tail
  let tree ← makeParent host root tree path
  match member.kind with
  | .directory =>
    if tree.isSymlink host root path
        || (tree.pathExists host root path && !tree.isDir host root path) then
      throw (.debFormat "Debian archive has a directory conflict")
    let tree ← calling (tree.makeDirExistOk host root path)
    calling (tree.chmod host root (member.mode &&& 0o7777) path)
  | .symbolic linkname =>
    if tree.pathExists host root path || tree.isSymlink host root path then
      throw (.debFormat "Debian archive has a link conflict")
    -- The system call refuses an empty text.
    if linkname = [] then
      throw (.os .notFound)
    calling (tree.symlink host root (targetOf linkname) path)
  | .regular payload =>
    if tree.isSymlink host root path
        || (tree.pathExists host root path && !tree.isFile host root path) then
      throw (.debFormat "Debian archive has a file conflict")
    match payload with
    | none => throw (.debFormat "Debian archive member has no payload")
    | some content =>
      let tree ← calling (tree.write host root content path)
      calling (tree.chmod host root (member.mode &&& 0o7777) path)
  | .special => throw (.debFormat "Debian archive contains an unsafe or duplicate member")

/-- `extract` of the Debian tool, on the members of the archive and a destination that is there. -/
def debExtract (tree : Disk Name) (members : List TarMember) : Except Refused (Disk Name) := do
  debCheckAll [] members
  members.foldlM (debExtractMember host root) tree

/-! ### The Arch extractor -/

/-- The checks of `_safe_members` on one member. -/
def archCheck (names : List Name) (member : TarMember) : Except Refused Unit :=
  if member.name = [] ∨ isAbsolute member.name ∨ parts member.name = []
      ∨ dotdot ∈ parts member.name then
    .error (.archFormat "Arch archive contains an unsafe path")
  else if member.name ∈ names then
    .error (.archFormat "Arch archive contains duplicate members")
  else
    match member.kind with
    | .directory | .regular _ => .ok ()
    | .symbolic _ | .special =>
      .error (.archFormat "Arch archive contains unsupported member type")

/-- `_safe_members`, with the names before. -/
def safeMembers (names : List Name) : List TarMember → Except Refused Unit
  | [] => .ok ()
  | member :: members =>
    match archCheck names member with
    | .error e => .error e
    | .ok () => safeMembers (member.name :: names) members

/-- The loop from the parent of a file up to the destination. -/
def archCheckParents (tree : Disk Name) : List Name → Except Refused Unit
  | [] => .ok ()
  | name :: above =>
    if tree.isSymlink host root (name :: above) then
      .error (.archFormat "Arch archive path traverses a symlink")
    else archCheckParents tree above

/-- One turn of the loop.  A path without `..` is always below the destination. -/
def archExtractMember (tree : Disk Name) (member : TarMember) : Except Refused (Disk Name) := do
  let path := member.path
  match member.kind with
  | .directory =>
    if tree.isSymlink host root path
        || (tree.pathExists host root path && !tree.isDir host root path) then
      throw (.archFormat "Arch archive directory conflicts with a file")
    -- The names above are not checked here.
    let tree ← calling (tree.makeDirs host root path)
    calling (tree.chmod host root (member.mode &&& 0o7777) path)
  | .regular payload =>
    archCheckParents host root tree path.tail
    let tree ← makeParent host root tree path
    if tree.isSymlink host root path
        || (tree.pathExists host root path && !tree.isFile host root path) then
      throw (.archFormat "Arch archive member conflicts with an existing file")
    match payload with
    | none => throw (.archFormat "Arch archive member has no payload")
    | some content =>
      let tree ← calling (tree.write host root content path)
      calling (tree.chmod host root (member.mode &&& 0o7777) path)
  | .symbolic _ | .special =>
    throw (.archFormat "Arch archive contains unsupported member type")

/-- `extract` of the Arch tool, on the members of the archive and a destination that is there. -/
def archExtract (tree : Disk Name) (members : List TarMember) : Except Refused (Disk Name) := do
  safeMembers [] members
  members.foldlM (archExtractMember host root) tree

end Extract

/-! ### What the text of a link says about its steps -/

theorem splitSlash_ne_nil (path : List Char) : splitSlash path ≠ [] := by
  cases path with
  | nil => simp [splitSlash]
  | cons c rest =>
    rw [splitSlash]
    split
    case isTrue => simp
    case isFalse => split <;> simp

theorem splitSlash_append (front back : List Char) :
    splitSlash (front ++ '/' :: back) = splitSlash front ++ splitSlash back := by
  induction front with
  | nil => rfl
  | cons c front ih =>
    rw [List.cons_append, splitSlash, splitSlash]
    by_cases hslash : c = '/'
    · rw [if_pos hslash, if_pos hslash, ih, List.cons_append]
    · rw [if_neg hslash, if_neg hslash, ih]
      cases hfront : splitSlash front with
      | nil => exact absurd hfront (splitSlash_ne_nil front)
      | cons first others => rfl

theorem parts_nil : parts [] = [] := by decide

theorem parts_append (front back : List Char) :
    parts (front ++ '/' :: back) = parts front ++ parts back := by
  rw [parts, splitSlash_append, List.filter_append]
  rfl

theorem parts_join {path more : Name} (h : isAbsolute more = false) :
    parts (join path more) = parts path ++ parts more := by
  rw [join, if_neg (by simp [h])]
  by_cases hend : path = [] ∨ path.getLast? = some '/'
  · rw [if_pos hend]
    rcases hend with rfl | hlast
    · rw [parts_nil]
      rfl
    · obtain ⟨front, rfl⟩ := List.getLast?_eq_some_iff.mp hlast
      rw [List.append_assoc, List.singleton_append, parts_append, parts_append, parts_nil,
        List.append_nil]
  · rw [if_neg hend, parts_append]

theorem isAbsolute_append {path more : Name} (hpath : isAbsolute path = false)
    (hmore : path = [] → isAbsolute more = false) : isAbsolute (path ++ more) = false := by
  cases path with
  | nil => exact hmore rfl
  | cons c rest => simpa [isAbsolute] using hpath

theorem isAbsolute_join {path more : Name} (hpath : isAbsolute path = false)
    (hmore : isAbsolute more = false) : isAbsolute (join path more) = false := by
  rw [join, if_neg (by simp [hmore])]
  split
  case isTrue => exact isAbsolute_append hpath fun _ => hmore
  case isFalse hne =>
    rw [not_or] at hne
    exact isAbsolute_append hpath fun h => absurd h hne.1

/-- The directory part of a relative path is relative. -/
theorem isAbsolute_dirname {path : Name} (h : isAbsolute path = false) :
    isAbsolute (dirname path) = false := by
  have hprefix : dirname path <+: path := by
    unfold dirname
    simp only
    split
    · exact (List.rdropWhile_prefix _ _).trans (List.rdropWhile_prefix _ _)
    · exact List.rdropWhile_prefix _ _
  obtain ⟨behind, hpath⟩ := hprefix
  cases hname : dirname path with
  | nil => rfl
  | cons c rest =>
    rw [hname] at hpath
    rw [← hpath] at h
    simpa [isAbsolute] using h

/-- Idle components change nothing. -/
theorem foldl_normStep_filter (rooted : Bool) (comps : List Name) (names : List Name) :
    names.foldl (normStep rooted) comps
      = (names.filter fun c => !isIdle c).foldl (normStep rooted) comps := by
  induction names generalizing comps with
  | nil => rfl
  | cons name names ih =>
    rw [List.foldl_cons]
    by_cases hidle : isIdle name = true
    · rw [List.filter_cons_of_neg (by simp [hidle]), ← ih]
      simp [normStep, hidle]
    · rw [List.filter_cons_of_pos (by simpa using hidle), List.foldl_cons, ← ih]

/-- Names that go down are collected. -/
theorem foldl_normStep_down {names : List Name} (comps : List Name)
    (hnames : ∀ name ∈ names, isIdle name = false) (hdown : dotdot ∉ names) :
    names.foldl (normStep false) comps = names.reverse ++ comps := by
  induction names generalizing comps with
  | nil => rfl
  | cons name names ih =>
    have hne : name ≠ dotdot := fun hsame => hdown (by simp [hsame])
    have hstep : normStep false comps name = name :: comps := by
      simp [normStep, hnames name (by simp), hne]
    rw [List.foldl_cons, hstep, ih _ (fun n hn => hnames n (by simp [hn]))
      (fun hmem => hdown (by simp [hmem]))]
    simp

/-- What once leads above the start stays in front. -/
theorem foldl_normStep_dotdot {comps : List Name} (names : List Name)
    (h : comps.getLast? = some dotdot) :
    (names.foldl (normStep false) comps).getLast? = some dotdot := by
  induction names generalizing comps with
  | nil => exact h
  | cons name names ih =>
    apply ih
    unfold normStep
    split
    · exact h
    · split
      · rw [List.getLast?_cons, h]
        rfl
      · rename_i hpop
        -- The component taken off is no `..`, so it is not the outermost one.
        rw [not_or, not_or] at hpop
        match comps, h, hpop with
        | [only], h, hpop => exact absurd (by simpa using h) hpop.2.2
        | first :: second :: others, h, _ => simpa using h

/-- Without `..` in front at the end, the steps never went above the start. -/
theorem stays_of_foldl (names place : List Name) (hidle : ∀ name ∈ names, isIdle name = false)
    (hplace : dotdot ∉ place)
    (h : (names.foldl (normStep false) place).getLast? ≠ some dotdot) :
    stays place (names.map stepOf) = true := by
  induction names generalizing place with
  | nil => cases place <;> rfl
  | cons name names ih =>
    have hname := hidle name (by simp)
    have hrest := fun n hn => hidle n (List.mem_cons_of_mem _ hn)
    rw [List.foldl_cons] at h
    rw [List.map_cons]
    by_cases hup : name = dotdot
    · subst hup
      cases place with
      | nil =>
        refine absurd (foldl_normStep_dotdot names ?_) h
        simp [normStep, hname]
      | cons first place =>
        have hfirst : first ≠ dotdot := fun hsame => hplace (by simp [hsame])
        have hstep : normStep false (first :: place) dotdot = place := by
          simp [normStep, hname, hfirst]
        rw [hstep] at h
        exact ih place hrest (fun hmem => hplace (List.mem_cons_of_mem _ hmem)) h
    · have hstep : normStep false place name = name :: place := by
        simp [normStep, hname, hup]
      have hdown : stepOf name = .down name := if_neg hup
      rw [hstep] at h
      rw [hdown]
      have hmore := ih (name :: place) hrest (by simp [Ne.symm hup, hplace]) h
      cases place <;> exact hmore

/-- A text that leads above its start is one of those that are refused. -/
theorem unsafe_normpath {path : Name} (habsolute : isAbsolute path = false)
    (h : ((splitSlash path).foldl (normStep false) []).getLast? = some dotdot) :
    normpath path = dotdot ∨ "../".toList <+: normpath path := by
  have hne : path ≠ [] := by
    rintro rfl
    exact absurd h (by decide)
  have hslashes : initialSlashes path = 0 := by
    have hdouble : ¬ ("//".toList <+: path ∧ ¬ "///".toList <+: path) := by
      rintro ⟨⟨behind, rfl⟩, -⟩
      simp [isAbsolute] at habsolute
    rw [initialSlashes, if_neg hdouble, if_neg (by simp [habsolute])]
  rw [normpath, if_neg hne, habsolute, hslashes]
  generalize (splitSlash path).foldl (normStep false) [] = comps at h
  rw [← List.head?_reverse] at h
  match hcomps : comps.reverse, h with
  | [only], h =>
    obtain rfl : only = dotdot := by simpa using h
    left
    simp [hcomps, List.intercalate, dotdot]
  | first :: second :: others, h =>
    obtain rfl : first = dotdot := by simpa using h
    right
    simp [hcomps, List.intercalate, dotdot]

/-- **The check on the text of a link.** Where the names in front of a relative link go down, and the
    normalised text is not refused, the steps of the link never go above the destination. -/
theorem stays_of_normpath {above linkname : Name} (habove : isAbsolute above = false)
    (hlinkname : isAbsolute linkname = false) (hdown : dotdot ∉ parts above)
    (h : ¬ (normpath (join above linkname) = dotdot
      ∨ "../".toList <+: normpath (join above linkname))) :
    stays (parts above).reverse (targetOf linkname).steps = true := by
  have hidle : ∀ path : Name, ∀ name ∈ parts path, isIdle name = false := by
    intro path name hname
    simpa using (List.mem_filter.mp hname).2
  have hlast : ((parts linkname).foldl (normStep false) (parts above).reverse).getLast?
      ≠ some dotdot := by
    intro hlast
    apply h
    apply unsafe_normpath (isAbsolute_join habove hlinkname)
    have hfold := foldl_normStep_down [] (hidle above) hdown
    rw [List.append_nil] at hfold
    rw [foldl_normStep_filter]
    have hparts : (splitSlash (join above linkname)).filter (fun c => !isIdle c)
        = parts above ++ parts linkname := parts_join hlinkname
    rw [hparts, List.foldl_append, hfold]
    exact hlast
  exact stays_of_foldl _ _ (hidle linkname) (by simpa using hdown) hlast

/-! ### What one member changes -/

theorem calling_eq_ok {α : Type} {call : Except OsError α} {a : α} :
    calling call = .ok a ↔ call = .ok a := by
  cases call <;> simp [calling]

section Member

variable {host : Host} {root : Place Name} {tree tree' : Disk Name} {member : TarMember}

/-- The link that a member makes. -/
def LinkOf (root : Place Name) (member : TarMember) (place : Place Name) (target : Target Name) :
    Prop :=
  ∃ linkname, member.kind = .symbolic linkname ∧ place = member.path ++ root
    ∧ target = targetOf linkname

/-- The loop over the components above sees no link. -/
theorem plain_of_debCheckParents {path : List Name}
    (h : debCheckParents host root tree path = .ok ()) : tree.Plain root path := by
  induction path with
  | nil => exact Disk.Plain.nil
  | cons name above ih =>
    unfold debCheckParents at h
    split at h
    · cases h
    rename_i habove
    split at h
    · cases h
    rename_i hname
    rw [Bool.or_eq_true, not_or, Bool.not_eq_true] at hname
    exact (ih habove).cons hname.1

theorem plain_of_archCheckParents {path : List Name}
    (h : archCheckParents host root tree path = .ok ()) : tree.Plain root path := by
  induction path with
  | nil => exact Disk.Plain.nil
  | cons name above ih =>
    unfold archCheckParents at h
    split at h
    · cases h
    rename_i hname
    rw [Bool.not_eq_true] at hname
    exact (ih h).cons hname

/-- Making the parent changes nothing outside and makes no link. -/
theorem makeParent_within {path : List Name} (hplain : tree.Plain root path.tail)
    (h : makeParent host root tree path = .ok tree') :
    Disk.Within (fun _ _ => False) root tree tree' := by
  unfold makeParent at h
  split at h
  · rw [← Except.ok.inj h]
    exact .refl
  · exact Disk.makeDirs_within (hplain.mono (List.tail_suffix _)) (calling_eq_ok.mp h)

/-- A path whose end is no link, below a plain one. -/
theorem plain_of_tail {path : List Name} (hplain : tree.Plain root path.tail)
    (h : tree.isSymlink host root path = false) : tree.Plain root path := by
  cases path with
  | nil => exact Disk.Plain.nil
  | cons name above => exact Disk.Plain.cons hplain h

/-- A file is written and its mode set, at its own place. -/
theorem writeFile_within {path : List Name} {content : List UInt8} {mode : Nat}
    (hroot : (tree.node root).any Node.isDirectory = true) (hplain : tree.Plain root path)
    (h : (do
      let tree ← calling (tree.write host root content path)
      calling (tree.chmod host root mode path)) = .ok tree') :
    Disk.Within (fun _ _ => False) root tree tree' := by
  obtain ⟨written, hwrite, hmode⟩ := bind_eq_ok.mp h
  have hwritten : Disk.Within (fun _ _ => False) root tree written :=
    Disk.write_within hroot hplain (calling_eq_ok.mp hwrite)
  exact hwritten.trans (Disk.chmod_within (hwritten.plain hplain) (calling_eq_ok.mp hmode))

/-- **One member of a Debian archive.** Nothing changes outside, and the only new link is that of the
    member, which stands at its own place. -/
theorem debExtractMember_within (hroot : (tree.node root).any Node.isDirectory = true)
    (h : debExtractMember host root tree member = .ok tree') :
    Disk.Within (LinkOf root member) root tree tree'
      ∧ ∀ place target, LinkOf root member place target →
        tree'.node place = some (.symlink target) := by
  unfold debExtractMember at h
  obtain ⟨u, hparents, h⟩ := bind_eq_ok.mp h
  obtain ⟨made, hparent, h⟩ := bind_eq_ok.mp h
  -- no name above the member is a link, before and after its parents are made
  have hmade := makeParent_within (plain_of_debCheckParents hparents) hparent
  have htail := hmade.plain (plain_of_debCheckParents hparents)
  have hno : ∀ {place : Place Name} {target : Target Name}, False →
      LinkOf root member place target := False.elim
  cases hkind : member.kind with
  | directory =>
    simp only [hkind] at h
    split at h
    · cases h
    rename_i hconflict
    rw [Bool.or_eq_true, not_or, Bool.not_eq_true] at hconflict
    -- nor is the member itself: such a conflict was refused
    have hplain := plain_of_tail htail hconflict.1
    obtain ⟨made', hdirectory, hmode⟩ := bind_eq_ok.mp h
    have hmade' : Disk.Within (fun _ _ => False) root made made' :=
      Disk.makeDirExistOk_within htail (calling_eq_ok.mp hdirectory)
    have hall := (hmade.trans hmade').trans
      (Disk.chmod_within (hmade'.plain hplain) (calling_eq_ok.mp hmode))
    refine ⟨hall.mono fun _ _ => hno, ?_⟩
    rintro place target ⟨linkname, hlink, -⟩
    simp [hkind] at hlink
  | symbolic linkname =>
    simp only [hkind] at h
    split at h
    · cases h
    split at h
    · cases h
    have hcreate := calling_eq_ok.mp h
    obtain ⟨name, above, hpath, -, -, hnode⟩ := Disk.create_spec htail hcreate
    refine ⟨(hmade.mono fun _ _ => hno).trans (Disk.create_within htail ?_ hcreate), ?_⟩
    · intro target htarget
      exact ⟨linkname, hkind, rfl, (Node.symlink.inj htarget).symm⟩
    · rintro place target ⟨linkname', hlink, rfl, rfl⟩
      rw [hkind] at hlink
      obtain rfl := MemberKind.symbolic.inj hlink
      exact hnode
  | regular payload =>
    simp only [hkind] at h
    split at h
    · cases h
    rename_i hconflict
    rw [Bool.or_eq_true, not_or, Bool.not_eq_true] at hconflict
    have hplain := plain_of_tail htail hconflict.1
    cases payload with
    | none => cases h
    | some content =>
      have hall := hmade.trans (writeFile_within (hmade.directories root hroot) hplain h)
      refine ⟨hall.mono fun _ _ => hno, ?_⟩
      rintro place target ⟨linkname, hlink, -⟩
      simp [hkind] at hlink
  | special =>
    simp only [hkind] at h
    cases h

/-- **One member of an Arch archive.** Where no name above a directory is a link, nothing changes
    outside, and no link is made. -/
theorem archExtractMember_within (hroot : (tree.node root).any Node.isDirectory = true)
    (hdirectory : member.kind = .directory → tree.Plain root member.path.tail)
    (h : archExtractMember host root tree member = .ok tree') :
    Disk.Within (fun _ _ => False) root tree tree' := by
  unfold archExtractMember at h
  cases hkind : member.kind with
  | directory =>
    simp only [hkind] at h
    split at h
    · cases h
    rename_i hconflict
    rw [Bool.or_eq_true, not_or, Bool.not_eq_true] at hconflict
    have htail := hdirectory hkind
    have hplain := plain_of_tail htail hconflict.1
    obtain ⟨made, hmake, hmode⟩ := bind_eq_ok.mp h
    have hmade := Disk.makeDirs_within htail (calling_eq_ok.mp hmake)
    exact hmade.trans (Disk.chmod_within (hmade.plain hplain) (calling_eq_ok.mp hmode))
  | regular payload =>
    simp only [hkind] at h
    obtain ⟨u, hparents, h⟩ := bind_eq_ok.mp h
    obtain ⟨made, hparent, h⟩ := bind_eq_ok.mp h
    have hmade := makeParent_within (plain_of_archCheckParents hparents) hparent
    have htail := hmade.plain (plain_of_archCheckParents hparents)
    split at h
    · cases h
    rename_i hconflict
    rw [Bool.or_eq_true, not_or, Bool.not_eq_true] at hconflict
    have hplain := plain_of_tail htail hconflict.1
    cases payload with
    | none => cases h
    | some content =>
      exact hmade.trans (writeFile_within (hmade.directories root hroot) hplain h)
  | symbolic linkname =>
    simp only [hkind] at h
    cases h
  | special =>
    simp only [hkind] at h
    cases h

/-- Setting a mode takes nothing away. -/
theorem isSome_chmod {path : List Name} {mode : Nat} {place : Place Name}
    (h : tree.chmod host root mode path = .ok tree') (hplace : (tree.node place).isSome) :
    (tree'.node place).isSome := by
  unfold Disk.chmod at h
  split at h
  · cases h
  rename_i target htarget
  split at h
  · rw [← Except.ok.inj h]
    by_cases hsame : place = target
    · simpa [Disk.modify, hsame] using hsame ▸ hplace
    · rw [Disk.node_modify_of_ne hsame]
      exact hplace
  · cases h

/-- **The way out.** A directory member whose parent leads out of the destination, to a directory
    without its name, makes a directory there. -/
theorem archExtractMember_escapes {name : Name} {above : List Name} {place : Place Name}
    (hkind : member.kind = .directory) (hpath : member.path = name :: above)
    (hresolve : tree.resolve host root above = .ok place)
    (hplace : ∃ mode, tree.node place = some (.directory mode))
    (hnone : tree.node (name :: place) = none)
    (h : archExtractMember host root tree member = .ok tree') :
    (tree'.node (name :: place)).isSome := by
  obtain ⟨mode, hplace⟩ := hplace
  unfold archExtractMember at h
  simp only [hkind, hpath] at h
  split at h
  · cases h
  obtain ⟨made, hmake, hmode⟩ := bind_eq_ok.mp h
  have hdir : tree.makeDir host root (name :: above)
      = .ok (tree.add name place (.directory host.directoryMode)) := by
    unfold Disk.makeDir Disk.create
    simp [hresolve, hplace, hnone]
  rw [calling_eq_ok, Disk.makeDirs, hdir] at hmake
  obtain rfl := Except.ok.inj hmake
  have hnode := @Disk.node_add_self _ _ tree name place (.directory host.directoryMode)
    (by simp [hplace, Node.isDirectory]) hnone
  exact isSome_chmod (calling_eq_ok.mp hmode) (by rw [hnode]; rfl)

end Member

/-! ### Whole archives -/

section Archive

variable {host : Host} {root : Place Name} {tree tree' : Disk Name} {members : List TarMember}

/-- Nothing outside of the destination is created or changed. -/
def Outside (root : Place Name) (tree tree' : Disk Name) : Prop :=
  ∀ place, ¬ root <:+ place → tree'.node place = tree.node place

/-- Every link that a member made leads, if anywhere, to a place inside of the destination. -/
def LinksInside (root : Place Name) (tree' : Disk Name) (members : List TarMember) : Prop :=
  ∀ member ∈ members, ∀ place target, LinkOf root member place target →
    tree'.node place = some (.symlink target)
      ∧ ∀ links last, tree'.walk links place.tail target.steps = .ok last → root <:+ last

/-- No name above a directory member is a link of the tree as it was. -/
def DirectoriesClear (root : Place Name) (tree : Disk Name) (members : List TarMember) : Prop :=
  ∀ member ∈ members, member.kind = .directory → tree.Plain root member.path.tail

/-- The text of each link is checked from the directory that the link stands in, passes no link of
    the tree as it was and no other link of the archive, and does not end at the former. -/
def LinksClear (root : Place Name) (tree : Disk Name) (members : List TarMember) : Prop :=
  ∀ member ∈ members, ∀ linkname, member.kind = .symbolic linkname →
    parts (dirname member.name) = (parts member.name).dropLast
      ∧ Clear
        (fun place => tree.LinkAt root place
          ∨ ∃ other ∈ members, (∃ linkname, other.kind = .symbolic linkname) ∧ place = other.path)
        (tree.LinkAt root) member.path.tail (targetOf linkname).steps

/-- **A run of the Debian extractor**, over any first members. -/
theorem debRun_within (hroot : (tree.node root).any Node.isDirectory = true)
    (h : members.foldlM (debExtractMember host root) tree = .ok tree') :
    Disk.Within (fun place target => ∃ member ∈ members, LinkOf root member place target)
        root tree tree'
      ∧ ∀ member ∈ members, ∀ place target, LinkOf root member place target →
        tree'.node place = some (.symlink target) := by
  induction members generalizing tree with
  | nil =>
    rw [← Except.ok.inj h]
    exact ⟨.refl, by simp⟩
  | cons member members ih =>
    rw [List.foldlM_cons] at h
    obtain ⟨next, hnext, h⟩ := bind_eq_ok.mp h
    obtain ⟨hstep, hlink⟩ := debExtractMember_within hroot hnext
    obtain ⟨hrun, hlinks⟩ := ih (hstep.directories root hroot) h
    constructor
    · apply (hstep.mono _).trans (hrun.mono _)
      · exact fun _ _ hmade => ⟨member, List.mem_cons_self, hmade⟩
      · rintro _ _ ⟨other, hother, hmade⟩
        exact ⟨other, List.mem_cons_of_mem _ hother, hmade⟩
    · intro other hother place target hmade
      rcases List.mem_cons.mp hother with rfl | hother
      · exact hrun.keeps place target (hlink place target hmade)
      · exact hlinks other hother place target hmade

/-- **A run of the Arch extractor**, over any first members. -/
theorem archRun_within (hroot : (tree.node root).any Node.isDirectory = true)
    (hclear : DirectoriesClear root tree members)
    (h : members.foldlM (archExtractMember host root) tree = .ok tree') :
    Disk.Within (fun _ _ => False) root tree tree' := by
  induction members generalizing tree with
  | nil =>
    rw [← Except.ok.inj h]
    exact .refl
  | cons member members ih =>
    rw [List.foldlM_cons] at h
    obtain ⟨next, hnext, h⟩ := bind_eq_ok.mp h
    have hstep := archExtractMember_within hroot (hclear member List.mem_cons_self) hnext
    refine hstep.trans (ih (hstep.directories root hroot) ?_ h)
    -- No link was made, so the names above the later directories are as they were.
    intro other hother hkind
    exact hstep.plain (hclear other (List.mem_cons_of_mem _ hother) hkind)

theorem debCheck_of_mem {names : List Name} (h : debCheckAll names members = .ok ())
    {member : TarMember} (hmember : member ∈ members) :
    ∃ before, debCheck before member = .ok () := by
  induction members generalizing names with
  | nil => simp at hmember
  | cons first members ih =>
    unfold debCheckAll at h
    split at h
    · cases h
    rename_i hfirst
    rcases List.mem_cons.mp hmember with rfl | hmember
    · exact ⟨names, hfirst⟩
    · exact ih h hmember

/-- What the checks say about a link. -/
theorem debCheck_link {names : List Name} {member : TarMember} {linkname : Name}
    (h : debCheck names member = .ok ()) (hkind : member.kind = .symbolic linkname) :
    isAbsolute member.name = false ∧ dotdot ∉ parts member.name ∧ isAbsolute linkname = false
      ∧ ¬ (normpath (join (dirname member.name) linkname) = dotdot
        ∨ "../".toList <+: normpath (join (dirname member.name) linkname)) := by
  unfold debCheck at h
  split at h
  · cases h
  rename_i hname
  simp only [not_or, Bool.not_eq_true] at hname
  simp only [hkind] at h
  split at h
  · cases h
  rename_i habsolute
  split at h
  · cases h
  rename_i hlink
  exact ⟨hname.2.1, hname.2.2.1, by simpa using habsolute, hlink⟩

/-- The steps of a checked link stay inside, if they are checked from where the link stands. -/
theorem stays_of_debCheck {names : List Name} {member : TarMember} {linkname : Name}
    (h : debCheck names member = .ok ()) (hkind : member.kind = .symbolic linkname)
    (hdirname : parts (dirname member.name) = (parts member.name).dropLast) :
    stays member.path.tail (targetOf linkname).steps = true := by
  obtain ⟨hname, hdown, hlinkname, hlink⟩ := debCheck_link h hkind
  have hnone : dotdot ∉ parts (dirname member.name) := by
    rw [hdirname]
    exact fun hmem => hdown ((List.dropLast_sublist _).subset hmem)
  have hstays := stays_of_normpath (isAbsolute_dirname hname) hlinkname hnone hlink
  rw [hdirname] at hstays
  rw [TarMember.path, List.tail_reverse]
  exact hstays

/-- Links whose texts pass no links stay inside of the destination. -/
theorem linksInside_of_clear (hroot : (tree.node root).any Node.isDirectory = true)
    (hclear : LinksClear root tree members) (h : debExtract host root tree members = .ok tree') :
    LinksInside root tree' members := by
  unfold debExtract at h
  obtain ⟨u, hchecks, h⟩ := bind_eq_ok.mp h
  obtain ⟨hwithin, hlinks⟩ := debRun_within hroot h
  let made (place : Place Name) (target : Target Name) : Prop :=
    ∃ member ∈ members, ∃ linkname, member.kind = .symbolic linkname ∧ place = member.path
      ∧ target = targetOf linkname
  -- A link of the tree at the end is one of the tree at the start, or that of a member.
  have hcases : ∀ place target, tree'.node (place ++ root) = some (.symlink target) →
      tree.LinkAt root place ∨ made place target := by
    intro place target hnode
    rcases hwithin.links _ target hnode with hold | ⟨member, hmember, linkname, hkind, hplace, htarget⟩
    · exact .inl ⟨target, hold⟩
    · exact .inr ⟨member, hmember, linkname, hkind, List.append_cancel_right hplace, htarget⟩
  have hmade : ∀ place target, made place target → target.absolute = false
      ∧ stays place.tail target.steps = true
      ∧ Clear (tree'.LinkAt root) (tree'.OtherLinkAt root made) place.tail target.steps := by
    rintro place target ⟨member, hmember, linkname, hkind, rfl, rfl⟩
    obtain ⟨names, hcheck⟩ := debCheck_of_mem hchecks hmember
    obtain ⟨hdirname, hsteps⟩ := hclear member hmember linkname hkind
    refine ⟨(debCheck_link hcheck hkind).2.2.1, stays_of_debCheck hcheck hkind hdirname, ?_⟩
    apply hsteps.mono
    · rintro place ⟨target, hnode⟩
      rcases hcases place target hnode with hold | ⟨other, hother, name, hlink, rfl, -⟩
      · exact .inl hold
      · exact .inr ⟨other, hother, ⟨name, hlink⟩, rfl⟩
    · rintro place ⟨target, hnode, hother⟩
      rcases hcases place target hnode with hold | hnew
      · exact hold
      · exact absurd hnew hother
  rintro member hmember place target ⟨linkname, hkind, rfl, rfl⟩
  refine ⟨hlinks member hmember _ _ ⟨linkname, hkind, rfl, rfl⟩, ?_⟩
  intro links last hwalk
  have hnode := hlinks member hmember _ _ ⟨linkname, hkind, rfl, rfl⟩
  have htail : (member.path ++ root).tail = member.path.tail ++ root := by
    cases hpath : member.path with
    | nil =>
      -- The destination itself is a directory, so the link has a name below it.
      have hdirectory := hwithin.directories root hroot
      rw [hpath, List.nil_append] at hnode
      simp [hnode, Node.isDirectory] at hdirectory
    | cons name above => rfl
  rw [htail] at hwalk
  exact Disk.walk_confined hmade links member.path last _
    ⟨member, hmember, linkname, hkind, rfl, rfl⟩ hwalk

end Archive

/-- **What stays inside of the destination.** In every state of a run of the Debian extractor, all
    outside is as it was; the same holds of the Arch extractor where no name above a directory member
    is a link.  The links of an accepted Debian archive lead to places inside where their texts pass
    no links. -/
theorem extract_confined {host : Host} {root : Place Name} {tree : Disk Name}
    {members : List TarMember} (hroot : (tree.node root).any Node.isDirectory = true) :
    (∀ {front behind : List TarMember} {tree' : Disk Name}, members = front ++ behind →
        front.foldlM (debExtractMember host root) tree = .ok tree' → Outside root tree tree')
      ∧ (LinksClear root tree members → ∀ {tree' : Disk Name},
        debExtract host root tree members = .ok tree' → LinksInside root tree' members)
      ∧ (DirectoriesClear root tree members →
        ∀ {front behind : List TarMember} {tree' : Disk Name}, members = front ++ behind →
          front.foldlM (archExtractMember host root) tree = .ok tree' → Outside root tree tree') := by
  refine ⟨?_, ?_, ?_⟩
  · intro front behind tree' hmembers h
    exact (debRun_within hroot h).1.outside
  · intro hclear tree' h
    exact linksInside_of_clear hroot hclear h
  · intro hclear front behind tree' hmembers h
    refine (archRun_within hroot ?_ h).outside
    intro member hmember
    exact hclear member (by simp [hmembers, hmember])

section Sample

/-- A destination with a link to a directory beside it. -/
def sampleTree : Disk Name :=
  (((Disk.empty 0o755).add "dest".toList [] (.directory 0o755)).add "home".toList []
    (.directory 0o700)).add "link".toList ["dest".toList] (.symlink (targetOf "/home".toList))

def sampleHost : Host := ⟨40, 0o755, 0o644⟩

/-- A directory below the link. -/
def sampleArch : List TarMember := [⟨"link/new".toList, .directory, 0o755⟩]

/-- A link to a directory's `..` through another link. -/
def sampleDeb : List TarMember :=
  [⟨"share".toList, .directory, 0o755⟩, ⟨"share/up".toList, .symbolic "..".toList, 0⟩,
    ⟨"out".toList, .symbolic "share/up/..".toList, 0⟩]

/-- Links to a directory of the archive, one of them over `..`. -/
def linkedDeb : List TarMember :=
  [⟨"share".toList, .directory, 0o755⟩, ⟨"share/data".toList, .directory, 0o755⟩,
    ⟨"latest".toList, .symbolic "share/data".toList, 0⟩,
    ⟨"share/back".toList, .symbolic "../share/data".toList, 0⟩]

/-- Directories beside the link. -/
def plainArch : List TarMember :=
  [⟨"docs".toList, .directory, 0o755⟩, ⟨"docs/new".toList, .directory, 0o700⟩,
    ⟨"docs/new/page".toList, .regular (some [104, 105]), 0o644⟩]

/-- The destination has one link. -/
theorem not_linkAt_sampleTree {place : Place Name}
    (h : ((sampleTree.node (place ++ ["dest".toList])).any Node.isLink) = false) :
    ¬ sampleTree.LinkAt ["dest".toList] place := by
  rintro ⟨target, hnode⟩
  rw [hnode] at h
  cases h

theorem linksClear_linkedDeb : LinksClear ["dest".toList] sampleTree linkedDeb := by
  have hmember : ∀ place : Place Name, (∃ other ∈ linkedDeb, (∃ linkname,
      other.kind = .symbolic linkname) ∧ place = other.path) →
      place = ["latest".toList] ∨ place = ["back".toList, "share".toList] := by
    rintro place ⟨other, hother, ⟨linkname, hkind⟩, rfl⟩
    simp only [linkedDeb, List.mem_cons, List.not_mem_nil, or_false] at hother
    rcases hother with rfl | rfl | rfl | rfl
    · cases hkind
    · cases hkind
    · exact .inl (by decide)
    · exact .inr (by decide)
  have hcrossed : ∀ place : Place Name,
      (sampleTree.node (place ++ ["dest".toList])).any Node.isLink = false →
      place ≠ ["latest".toList] → place ≠ ["back".toList, "share".toList] →
      ¬ (sampleTree.LinkAt ["dest".toList] place ∨ ∃ other ∈ linkedDeb, (∃ linkname,
        other.kind = .symbolic linkname) ∧ place = other.path) := by
    rintro place hplain hlatest hback (hlink | hother)
    · exact not_linkAt_sampleTree hplain hlink
    · exact (hmember place hother).elim hlatest hback
  have hshare := hcrossed ["share".toList] (by decide) (by decide) (by decide)
  have hdata : ¬ sampleTree.LinkAt ["dest".toList] ["data".toList, "share".toList] :=
    not_linkAt_sampleTree (by decide)
  intro member hmember linkname hkind
  simp only [linkedDeb, List.mem_cons, List.not_mem_nil, or_false] at hmember
  rcases hmember with rfl | rfl | rfl | rfl
  · cases hkind
  · cases hkind
  · cases hkind
    exact ⟨by decide, fun _ => hshare, fun h => (by cases h), fun h => absurd rfl h, fun _ => hdata,
      trivial⟩
  · cases hkind
    exact ⟨by decide, fun _ => hshare, fun h => (by cases h), fun h => absurd rfl h, fun _ => hdata,
      trivial⟩

theorem directoriesClear_plainArch : DirectoriesClear ["dest".toList] sampleTree plainArch := by
  have hdocs : sampleTree.Plain ["dest".toList] ["docs".toList] :=
    Disk.plain_cons.mpr ⟨Disk.Plain.nil, by decide⟩
  intro member hmember hkind
  simp only [plainArch, List.mem_cons, List.not_mem_nil, or_false] at hmember
  rcases hmember with rfl | rfl | rfl
  · exact Disk.Plain.nil
  · exact hdocs
  · cases hkind

theorem extract_confined_sample :
    (∃ tree', debExtract sampleHost ["dest".toList] sampleTree linkedDeb = .ok tree'
        ∧ tree'.walk 40 ["dest".toList] (targetOf "latest".toList).steps
          = .ok ["data".toList, "share".toList, "dest".toList]
        ∧ LinksInside ["dest".toList] tree' linkedDeb ∧ Outside ["dest".toList] sampleTree tree')
      ∧ ∃ tree', plainArch.foldlM (archExtractMember sampleHost ["dest".toList]) sampleTree
          = .ok tree'
        ∧ tree'.node ["new".toList, "docs".toList, "dest".toList] = some (.directory 0o700)
        ∧ Outside ["dest".toList] sampleTree tree' := by
  have hroot : (sampleTree.node ["dest".toList]).any Node.isDirectory = true := by decide
  constructor
  · have hleads : (debExtract sampleHost ["dest".toList] sampleTree linkedDeb).toOption.map
        (fun tree => tree.walk 40 ["dest".toList] (targetOf "latest".toList).steps)
        = some (.ok ["data".toList, "share".toList, "dest".toList]) := by decide
    cases hrun : debExtract sampleHost ["dest".toList] sampleTree linkedDeb with
    | error e =>
      rw [hrun] at hleads
      cases hleads
    | ok tree' =>
      rw [hrun] at hleads
      obtain ⟨-, -, hmembers⟩ := bind_eq_ok.mp hrun
      exact ⟨tree', rfl, Option.some.inj hleads,
        (extract_confined hroot).2.1 linksClear_linkedDeb hrun,
        (extract_confined hroot).1 (List.append_nil linkedDeb).symm hmembers⟩
  · have hmade : (plainArch.foldlM (archExtractMember sampleHost ["dest".toList])
        sampleTree).toOption.bind
          (fun tree => tree.node ["new".toList, "docs".toList, "dest".toList])
        = some (.directory 0o700) := by decide +kernel
    cases hrun : plainArch.foldlM (archExtractMember sampleHost ["dest".toList]) sampleTree with
    | error e =>
      rw [hrun] at hmade
      cases hmade
    | ok tree' =>
      rw [hrun] at hmade
      exact ⟨tree', rfl, hmade, (extract_confined hroot).2.2 directoriesClear_plainArch
        (List.append_nil plainArch).symm hrun⟩

/-- A directory is made beside the destination, and a link leads above it. -/
theorem not_extract_confined :
    (∃ tree', archExtract sampleHost ["dest".toList] sampleTree sampleArch = .ok tree'
        ∧ ¬ Outside ["dest".toList] sampleTree tree')
      ∧ ∃ tree', debExtract sampleHost ["dest".toList] sampleTree sampleDeb = .ok tree'
        ∧ ¬ LinksInside ["dest".toList] tree' sampleDeb := by
  constructor
  · have hmade : (archExtract sampleHost ["dest".toList] sampleTree sampleArch).toOption.bind
        (fun tree => tree.node ["new".toList, "home".toList]) = some (.directory 0o755) := by
      decide +kernel
    cases hrun : archExtract sampleHost ["dest".toList] sampleTree sampleArch with
    | error e =>
      rw [hrun] at hmade
      cases hmade
    | ok tree' =>
      refine ⟨tree', rfl, fun houtside => ?_⟩
      have hsame := houtside ["new".toList, "home".toList] (by decide)
      have hnone : sampleTree.node ["new".toList, "home".toList] = none := by decide
      rw [hrun] at hmade
      exact absurd ((hsame.trans hnone).symm.trans hmade) (by decide)
  · have hleads : (debExtract sampleHost ["dest".toList] sampleTree sampleDeb).toOption.map
        (fun tree => tree.walk 40 ["dest".toList] (targetOf "share/up/..".toList).steps)
        = some (.ok []) := by decide +kernel
    cases hrun : debExtract sampleHost ["dest".toList] sampleTree sampleDeb with
    | error e =>
      rw [hrun] at hleads
      cases hleads
    | ok tree' =>
      refine ⟨tree', rfl, fun hinside => ?_⟩
      have hlink := hinside ⟨"out".toList, .symbolic "share/up/..".toList, 0⟩ (by simp [sampleDeb])
        ["out".toList, "dest".toList] _ ⟨_, rfl, by decide, rfl⟩
      rw [hrun] at hleads
      exact absurd (hlink.2 40 [] (Option.some.inj hleads)) (by decide)

end Sample

end Devlegate.Extraction
