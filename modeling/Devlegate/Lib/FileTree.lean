import Mathlib.Data.List.Infix
import Mathlib.Tactic.Common

namespace FileTree

/-!
# File trees with symbolic links

Directories, files and symbolic links at places; how a path is walked through links; and the calls
that change a tree.

* `Disk`: what stands at each place, where all that is there stands in a directory.
* `walk`: the place that a path leads to, with a bound on the links that are followed.
* `makeDir`, `makeDirs`, `chmod`, `write`, `symlink`: the calls, by paths below a root.
* `Plain`: no part of a path is a link; such a path leads to its own place.
* `Within`: a change that touches nothing outside of a root and makes no link.
-/

variable {N : Type*}

/-! ### Trees -/

/-- A place by the names on the way to it, the innermost first. -/
abbrev Place (N : Type*) := List N

/-- A step of a path. -/
inductive Step (N : Type*) where
  | up
  | down (name : N)
  deriving DecidableEq, Repr

/-- Where a link points: from the root of the tree, or from the directory it stands in. -/
structure Target (N : Type*) where
  absolute : Bool
  steps : List (Step N)
  deriving DecidableEq, Repr

inductive Node (N : Type*) where
  | directory (mode : Nat)
  | file (content : List UInt8) (mode : Nat)
  | symlink (target : Target N)
  deriving DecidableEq, Repr

def Node.isDirectory : Node N → Bool
  | .directory _ => true
  | .file _ _ | .symlink _ => false

def Node.isFile : Node N → Bool
  | .file _ _ => true
  | .directory _ | .symlink _ => false

def Node.isLink : Node N → Bool
  | .symlink _ => true
  | .directory _ | .file _ _ => false

/-- Why a call is refused. -/
inductive OsError where
  | notFound
  | fileExists
  | other
  deriving DecidableEq, Repr

/-- A tree: the root is a directory, and all else stands in a directory. -/
structure Disk (N : Type*) where
  node : Place N → Option (Node N)
  root_directory : (node []).any Node.isDirectory = true
  parent_directory : ∀ name place, (node (name :: place)).isSome →
    (node place).any Node.isDirectory = true

namespace Disk

section Change

variable [DecidableEq N]

/-- A tree with nothing in it. -/
def empty (mode : Nat) : Disk N where
  node place := if place = [] then some (.directory mode) else none
  root_directory := by simp [Node.isDirectory]
  parent_directory name place h := by simp at h

/-- Something new in a directory; nothing changes where there is no directory, or something else. -/
def add (tree : Disk N) (name : N) (place : Place N) (node : Node N) : Disk N :=
  if h : (tree.node place).any Node.isDirectory = true ∧ tree.node (name :: place) = none then
    { node := fun p => if p = name :: place then some node else tree.node p
      root_directory := by simpa using tree.root_directory
      parent_directory := by
        intro inner p hp
        by_cases hsame : p = name :: place
        · -- Nothing stood in what was not there.
          subst hsame
          have hsome : (tree.node (inner :: name :: place)).isSome := by simpa using hp
          have hparent := tree.parent_directory _ _ hsome
          simp [h.2] at hparent
        · rw [if_neg hsame]
          by_cases hnew : inner :: p = name :: place
          · obtain ⟨-, rfl⟩ := List.cons.inj hnew
            exact h.1
          · rw [if_neg hnew] at hp
            exact tree.parent_directory _ _ hp }
  else tree

/-- Another mode or content; directories stay directories. -/
def modify (tree : Disk N) (place : Place N) (change : Node N → Node N)
    (h : ∀ node, (change node).isDirectory = node.isDirectory) : Disk N where
  node p := if p = place then (tree.node p).map change else tree.node p
  root_directory := by
    have hroot := tree.root_directory
    by_cases hsame : [] = place
    · rw [if_pos hsame]
      cases hnode : tree.node [] with
      | none => simp [hnode] at hroot
      | some node => simpa [hnode, h] using hroot
    · rwa [if_neg hsame]
  parent_directory name p hp := by
    have hsome : (tree.node (name :: p)).isSome := by
      by_cases hsame : name :: p = place
      · simpa [hsame] using hp
      · simpa [hsame] using hp
    have hparent := tree.parent_directory _ _ hsome
    by_cases hsame : p = place
    · rw [if_pos hsame]
      cases hnode : tree.node p with
      | none => simp [hnode] at hparent
      | some node => simpa [hnode, h] using hparent
    · rwa [if_neg hsame]

theorem node_add (tree : Disk N) (name : N) (place p : Place N) (node : Node N) :
    (tree.add name place node).node p = tree.node p
      ∨ p = name :: place ∧ tree.node p = none ∧ (tree.add name place node).node p = some node := by
  unfold add
  split
  case isTrue h =>
    by_cases hsame : p = name :: place
    · exact .inr ⟨hsame, hsame ▸ h.2, if_pos hsame⟩
    · exact .inl (if_neg hsame)
  case isFalse => exact .inl rfl

theorem node_add_self {tree : Disk N} {name : N} {place : Place N} {node : Node N}
    (hparent : (tree.node place).any Node.isDirectory = true)
    (hnone : tree.node (name :: place) = none) :
    (tree.add name place node).node (name :: place) = some node := by
  rw [add, dif_pos ⟨hparent, hnone⟩]
  exact if_pos rfl

theorem node_modify_of_ne {tree : Disk N} {place p : Place N} {change : Node N → Node N}
    {h : ∀ node, (change node).isDirectory = node.isDirectory} (hne : p ≠ place) :
    (tree.modify place change h).node p = tree.node p := if_neg hne

end Change

/-- All that a directory stands in are directories. -/
theorem directory_of_suffix {tree : Disk N} {outer place : Place N} (h : outer <:+ place)
    (hplace : (tree.node place).any Node.isDirectory = true) :
    (tree.node outer).any Node.isDirectory = true := by
  obtain ⟨inner, rfl⟩ := h
  induction inner with
  | nil => exact hplace
  | cons name inner ih =>
    apply ih
    apply tree.parent_directory name
    rw [List.cons_append] at hplace
    cases hnode : tree.node (name :: (inner ++ outer)) with
    | none => simp [hnode] at hplace
    | some node => rfl

/-! ### Walking -/

/-- The walk from a place, where `jump` goes on behind a link. -/
def descend (tree : Disk N) (jump : Place N → List (Step N) → Except OsError (Place N)) :
    Place N → List (Step N) → Except OsError (Place N)
  | place, [] => .ok place
  | place, step :: rest =>
    match tree.node place with
    | none => .error .notFound
    | some (.file _ _) | some (.symlink _) => .error .other
    | some (.directory _) =>
      match step with
      | .up => descend tree jump place.tail rest
      | .down name =>
        match tree.node (name :: place) with
        | some (.symlink target) =>
          jump (if target.absolute then [] else place) (target.steps ++ rest)
        | some (.directory _) | some (.file _ _) | none => descend tree jump (name :: place) rest

/-- The place that a path leads to, when at most a number of links is followed. -/
def walk (tree : Disk N) : Nat → Place N → List (Step N) → Except OsError (Place N)
  | 0 => descend tree fun _ _ => .error .other
  | links + 1 => descend tree (walk tree links)

end Disk

/-- What the calls depend on: how many links are followed, and the modes that new nodes get. -/
structure Host where
  links : Nat
  directoryMode : Nat
  fileMode : Nat

/-- The steps of a path of names. -/
def downs (path : List N) : List (Step N) := path.reverse.map .down

def Node.withMode (mode : Nat) : Node N → Node N
  | .directory _ => .directory mode
  | .file content _ => .file content mode
  | .symlink target => .symlink target

def Node.withContent (content : List UInt8) : Node N → Node N
  | .directory mode => .directory mode
  | .file _ mode => .file content mode
  | .symlink target => .symlink target

theorem Node.isDirectory_withMode (mode : Nat) (node : Node N) :
    (node.withMode mode).isDirectory = node.isDirectory := by
  cases node <;> rfl

theorem Node.isDirectory_withContent (content : List UInt8) (node : Node N) :
    (node.withContent content).isDirectory = node.isDirectory := by
  cases node <;> rfl

namespace Disk

section Calls

variable (host : Host) (root : Place N) (tree : Disk N)

/-! ### Calls -/

/-- The place of a path below the root, links followed. -/
def resolve (path : List N) : Except OsError (Place N) := tree.walk host.links root (downs path)

/-- `stat`: what stands at the end of a path. -/
def stat (path : List N) : Option (Node N) :=
  match tree.resolve host root path with
  | .ok place => tree.node place
  | .error _ => none

/-- `lstat`: the same, with the last name not followed. -/
def lstat : List N → Option (Node N)
  | [] => tree.node root
  | name :: above =>
    match tree.resolve host root above with
    | .ok place => tree.node (name :: place)
    | .error _ => none

def isSymlink (path : List N) : Bool := (tree.lstat host root path).any Node.isLink

def pathExists (path : List N) : Bool := (tree.stat host root path).isSome

def isDir (path : List N) : Bool := (tree.stat host root path).any Node.isDirectory

def isFile (path : List N) : Bool := (tree.stat host root path).any Node.isFile

variable [DecidableEq N]

/-- Something new under the last name of a path. -/
def create (node : Node N) : List N → Except OsError (Disk N)
  | [] => .error .fileExists
  | name :: above =>
    match tree.resolve host root above with
    | .error e => .error e
    | .ok place =>
      match tree.node place with
      | none => .error .notFound
      | some (.file _ _) | some (.symlink _) => .error .other
      | some (.directory _) =>
        if (tree.node (name :: place)).isSome then .error .fileExists
        else .ok (tree.add name place node)

/-- `os.mkdir`. -/
def makeDir (path : List N) : Except OsError (Disk N) :=
  tree.create host root (.directory host.directoryMode) path

/-- `path.mkdir(exist_ok=True)`. -/
def makeDirExistOk (path : List N) : Except OsError (Disk N) :=
  match tree.makeDir host root path with
  | .ok made => .ok made
  | .error e => if tree.isDir host root path then .ok tree else .error e

/-- `path.mkdir(parents=True, exist_ok=True)`. -/
def makeDirs : List N → Except OsError (Disk N)
  | [] => tree.makeDirExistOk host root []
  | name :: above =>
    match tree.makeDir host root (name :: above) with
    | .ok made => .ok made
    | .error .notFound =>
      match makeDirs above with
      | .ok made => made.makeDirExistOk host root (name :: above)
      | .error e => .error e
    | .error e => if tree.isDir host root (name :: above) then .ok tree else .error e

/-- `path.chmod(mode)`. -/
def chmod (mode : Nat) (path : List N) : Except OsError (Disk N) :=
  match tree.resolve host root path with
  | .error e => .error e
  | .ok place =>
    if (tree.node place).isSome then
      .ok (tree.modify place (Node.withMode mode) (Node.isDirectory_withMode mode))
    else .error .notFound

/-- `path.write_bytes(content)`. -/
def write (content : List UInt8) (path : List N) : Except OsError (Disk N) :=
  match tree.resolve host root path with
  | .error e => .error e
  | .ok place =>
    match tree.node place, place with
    | some (.file _ _), _ =>
      .ok (tree.modify place (Node.withContent content) (Node.isDirectory_withContent content))
    | some (.directory _), _ | some (.symlink _), _ | none, [] => .error .other
    | none, name :: above => .ok (tree.add name above (.file content host.fileMode))

/-- `path.symlink_to(target)`. -/
def symlink (target : Target N) (path : List N) : Except OsError (Disk N) :=
  tree.create host root (.symlink target) path

end Calls

/-! ### Plain paths -/

/-- No part of a path is a link. -/
def Plain (tree : Disk N) (root : Place N) (path : List N) : Prop :=
  ∀ part, part <:+ path → part ≠ [] → (tree.node (part ++ root)).any Node.isLink = false

section Plain

variable {host : Host} {root : Place N} {tree : Disk N}

theorem Plain.nil : tree.Plain root [] := by
  intro part hpart hne
  exact absurd (List.suffix_nil.mp hpart) hne

theorem Plain.mono {part path : List N} (h : tree.Plain root path) (hpart : part <:+ path) :
    tree.Plain root part := fun inner hinner => h inner (hinner.trans hpart)

theorem plain_cons {name : N} {above : List N} :
    tree.Plain root (name :: above)
      ↔ tree.Plain root above ∧ (tree.node (name :: above ++ root)).any Node.isLink = false := by
  constructor
  · intro h
    refine ⟨fun part hpart hne => h part (hpart.trans (List.suffix_cons _ _)) hne, ?_⟩
    exact h _ (List.suffix_refl _) (by simp)
  · rintro ⟨habove, hlast⟩ part hpart hne
    rcases List.suffix_cons_iff.mp hpart with rfl | hpart
    · exact hlast
    · exact habove part hpart hne

/-- Names that meet no link lead down name by name. -/
theorem descend_downs {jump : Place N → List (Step N) → Except OsError (Place N)}
    (names : List N) (place last : Place N)
    (hplain : ∀ front, front <+: names → front ≠ [] →
      (tree.node (front.reverse ++ place)).any Node.isLink = false)
    (h : tree.descend jump place (names.map .down) = .ok last) :
    last = names.reverse ++ place := by
  induction names generalizing place with
  | nil => simpa [descend] using (Except.ok.inj h).symm
  | cons name names ih =>
    have hfirst := hplain [name] (by simp) (by simp)
    rw [List.map_cons, descend] at h
    split at h
    · cases h
    · cases h
    · cases h
    split at h
    · rename_i target hlink
      simp [hlink, Node.isLink] at hfirst
    all_goals
      have hrest : ∀ front, front <+: names → front ≠ [] →
          (tree.node (front.reverse ++ name :: place)).any Node.isLink = false := by
        intro front hfront _
        simpa using hplain (name :: front) (by simpa using hfront) (by simp)
      rw [ih _ hrest h]
      simp

/-- Through directories, names lead down name by name. -/
theorem descend_downs_eq {jump : Place N → List (Step N) → Except OsError (Place N)} (name : N)
    (names : List N) (place : Place N)
    (hparent : (tree.node (names.reverse ++ place)).any Node.isDirectory = true)
    (hlast : (tree.node (name :: (names.reverse ++ place))).any Node.isLink = false) :
    tree.descend jump place ((names ++ [name]).map .down)
      = .ok (name :: (names.reverse ++ place)) := by
  have hplace := directory_of_suffix (List.suffix_append names.reverse place) hparent
  induction names generalizing place with
  | nil =>
    rw [List.nil_append, List.map_singleton, descend]
    cases hnode : tree.node place with
    | none => simp [hnode] at hplace
    | some node =>
      cases node with
      | file content mode => simp [hnode, Node.isDirectory] at hplace
      | symlink target => simp [hnode, Node.isDirectory] at hplace
      | directory mode =>
        simp only
        split
        · rename_i target hlink
          simp [hlink, Node.isLink] at hlast
        all_goals rfl
  | cons first names ih =>
    have hsame : (first :: names).reverse ++ place = names.reverse ++ first :: place := by simp
    rw [hsame] at hparent hlast ⊢
    have hnext := directory_of_suffix (List.suffix_append names.reverse (first :: place)) hparent
    rw [List.cons_append, List.map_cons, descend]
    cases hnode : tree.node place with
    | none => simp [hnode] at hplace
    | some node =>
      cases node with
      | file content mode => simp [hnode, Node.isDirectory] at hplace
      | symlink target => simp [hnode, Node.isDirectory] at hplace
      | directory mode =>
        simp only
        split
        · rename_i target hlink
          simp [hlink, Node.isDirectory] at hnext
        all_goals exact ih _ hparent hlast hnext

/-- A walk is a descent, whatever stands behind the links. -/
theorem walk_eq_descend (tree : Disk N) (links : Nat) :
    ∃ jump, tree.walk links = tree.descend jump := by
  cases links with
  | zero => exact ⟨_, rfl⟩
  | succ links => exact ⟨_, rfl⟩

theorem resolve_nil : tree.resolve host root [] = .ok root := by
  obtain ⟨jump, hjump⟩ := tree.walk_eq_descend host.links
  rw [resolve, hjump]
  rfl

/-- A plain path leads to its own place, if anywhere. -/
theorem resolve_plain {path : List N} {place : Place N} (hplain : tree.Plain root path)
    (h : tree.resolve host root path = .ok place) : place = path ++ root := by
  have hfronts : ∀ front, front <+: path.reverse → front ≠ [] →
      (tree.node (front.reverse ++ root)).any Node.isLink = false := by
    intro front hfront hne
    refine hplain _ ?_ (by simpa using hne)
    rw [← List.reverse_prefix, List.reverse_reverse]
    exact hfront
  obtain ⟨jump, hjump⟩ := tree.walk_eq_descend host.links
  rw [resolve, hjump] at h
  have hlast := descend_downs _ _ _ hfronts h
  rwa [List.reverse_reverse] at hlast

/-- A path through directories leads to its own place. -/
theorem resolve_eq {name : N} {above : List N}
    (hparent : (tree.node (above ++ root)).any Node.isDirectory = true)
    (hlast : (tree.node (name :: above ++ root)).any Node.isLink = false) :
    tree.resolve host root (name :: above) = .ok (name :: above ++ root) := by
  obtain ⟨jump, hjump⟩ := tree.walk_eq_descend host.links
  have heq := @descend_downs_eq _ tree jump name above.reverse root
    (by rwa [List.reverse_reverse]) (by rwa [List.reverse_reverse])
  rw [resolve, hjump, downs, List.reverse_cons, heq, List.reverse_reverse, List.cons_append]

/-- A directory is found at its own place. -/
theorem resolve_directory {path : List N}
    (h : (tree.node (path ++ root)).any Node.isDirectory = true) :
    tree.resolve host root path = .ok (path ++ root) := by
  cases path with
  | nil => exact resolve_nil
  | cons name above =>
    apply resolve_eq
    · exact directory_of_suffix (List.suffix_cons name (above ++ root)) h
    · rw [List.cons_append] at h ⊢
      cases hnode : tree.node (name :: (above ++ root)) with
      | none => rfl
      | some node =>
        cases node with
        | symlink target => simp [hnode, Node.isDirectory] at h
        | directory mode => rfl
        | file content mode => rfl

/-- Where `lstat` sees no link at the end of a plain path, the longer path is plain. -/
theorem Plain.cons {name : N} {above : List N} (habove : tree.Plain root above)
    (h : tree.isSymlink host root (name :: above) = false) : tree.Plain root (name :: above) := by
  refine plain_cons.mpr ⟨habove, ?_⟩
  rw [List.cons_append]
  by_contra hlink
  rw [Bool.not_eq_false] at hlink
  have hsome : (tree.node (name :: (above ++ root))).isSome := by
    cases hnode : tree.node (name :: (above ++ root)) with
    | none => simp [hnode] at hlink
    | some node => rfl
  rw [isSymlink, lstat, resolve_directory (tree.parent_directory _ _ hsome)] at h
  rw [hlink] at h
  cases h

end Plain

/-! ### What a call changes -/

/-- A change inside of a root that makes no links but new ones of a kind, keeps the links that were
    there, and leaves directories directories. -/
structure Within (new : Place N → Target N → Prop) (root : Place N) (tree tree' : Disk N) :
    Prop where
  outside : ∀ place, ¬ root <:+ place → tree'.node place = tree.node place
  links : ∀ place target, tree'.node place = some (.symlink target) →
    tree.node place = some (.symlink target) ∨ new place target
  keeps : ∀ place target, tree.node place = some (.symlink target) →
    tree'.node place = some (.symlink target)
  directories : ∀ place, (tree.node place).any Node.isDirectory = true →
    (tree'.node place).any Node.isDirectory = true

section Within

variable {host : Host} {root : Place N} {tree tree' tree'' : Disk N}
  {new : Place N → Target N → Prop}

theorem Within.refl : Within new root tree tree :=
  ⟨fun _ _ => rfl, fun _ _ h => .inl h, fun _ _ h => h, fun _ h => h⟩

theorem Within.trans (h : Within new root tree tree') (h' : Within new root tree' tree'') :
    Within new root tree tree'' := by
  refine ⟨?_, ?_, ?_, ?_⟩
  · intro place hplace
    rw [h'.outside place hplace, h.outside place hplace]
  · intro place target hlink
    rcases h'.links place target hlink with hold | hnew
    · exact h.links place target hold
    · exact .inr hnew
  · intro place target hlink
    exact h'.keeps place target (h.keeps place target hlink)
  · intro place hplace
    exact h'.directories place (h.directories place hplace)

theorem Within.mono {new' : Place N → Target N → Prop} (h : Within new root tree tree')
    (hnew : ∀ place target, new place target → new' place target) : Within new' root tree tree' :=
  ⟨h.outside, fun place target hlink => (h.links place target hlink).imp_right (hnew place target),
    h.keeps, h.directories⟩

/-- Without new links, plain paths stay plain. -/
theorem Within.plain (h : Within (fun _ _ => False) root tree tree') {path : List N}
    (hplain : tree.Plain root path) : tree'.Plain root path := by
  intro part hpart hne
  have hold := hplain part hpart hne
  cases hnode : tree'.node (part ++ root) with
  | none => rfl
  | some node =>
    cases node with
    | directory mode => rfl
    | file content mode => rfl
    | symlink target =>
      rcases h.links _ target hnode with hlink | hnew
      · simp [hlink, Node.isLink] at hold
      · exact absurd hnew id

variable [DecidableEq N]

/-- Something new inside of the root. -/
theorem within_add {name : N} {place : Place N} {node : Node N} (hplace : root <:+ place)
    (hnew : ∀ target, node = .symlink target → new (name :: place) target) :
    Within new root tree (tree.add name place node) := by
  have hcases := tree.node_add name place
  refine ⟨?_, ?_, ?_, ?_⟩
  · intro p hp
    rcases hcases p node with hsame | ⟨rfl, -⟩
    · exact hsame
    · exact absurd (hplace.trans (List.suffix_cons _ _)) hp
  · intro p target hlink
    rcases hcases p node with hsame | ⟨rfl, -, hmade⟩
    · exact .inl (hsame ▸ hlink)
    · exact .inr (hnew target (Option.some.inj (hmade.symm.trans hlink)))
  · intro p target hlink
    rcases hcases p node with hsame | ⟨-, hnone, -⟩
    · rw [hsame, hlink]
    · simp [hnone] at hlink
  · intro p hdirectory
    rcases hcases p node with hsame | ⟨-, hnone, -⟩
    · rw [hsame, hdirectory]
    · simp [hnone] at hdirectory

/-- Another mode or content inside of the root. -/
theorem within_modify {place : Place N} {change : Node N → Node N}
    {hchange : ∀ node, (change node).isDirectory = node.isDirectory} (hplace : root <:+ place)
    (hlinks : ∀ node target, change node = .symlink target ↔ node = .symlink target) :
    Within new root tree (tree.modify place change hchange) := by
  have hnode : ∀ p, (tree.modify place change hchange).node p
      = if p = place then (tree.node p).map change else tree.node p := fun _ => rfl
  refine ⟨?_, ?_, ?_, ?_⟩
  · intro p hp
    exact node_modify_of_ne (by rintro rfl; exact hp hplace)
  · intro p target hlink
    left
    rw [hnode] at hlink
    split at hlink
    · obtain ⟨node, hsome, hsame⟩ := Option.map_eq_some_iff.mp hlink
      rw [hsome, (hlinks node target).mp hsame]
    · exact hlink
  · intro p target hlink
    rw [hnode, hlink]
    split
    · rw [Option.map_some, (hlinks _ target).mpr rfl]
    · rfl
  · intro p hdirectory
    rw [hnode]
    split
    · cases hsome : tree.node p with
      | none => simp [hsome] at hdirectory
      | some node => simpa [hsome, hchange] using hdirectory
    · exact hdirectory

/-- What is created stands at the place of its path, and nothing stood there. -/
theorem create_spec {node : Node N} {path : List N} (hplain : tree.Plain root path.tail)
    (h : tree.create host root node path = .ok tree') :
    ∃ name above, path = name :: above ∧ tree' = tree.add name (above ++ root) node
      ∧ tree.node (path ++ root) = none ∧ tree'.node (path ++ root) = some node := by
  unfold create at h
  split at h
  · cases h
  rename_i name above
  split at h
  · cases h
  rename_i place hplace
  obtain rfl := resolve_plain hplain hplace
  split at h
  · cases h
  · cases h
  · cases h
  rename_i mode hparent
  split at h
  · cases h
  rename_i hnone
  rw [Option.not_isSome_iff_eq_none] at hnone
  obtain rfl := Except.ok.inj h
  rw [List.tail_cons] at hparent hnone ⊢
  refine ⟨name, above, rfl, rfl, hnone, ?_⟩
  exact node_add_self (by simp [hparent, Node.isDirectory]) hnone

theorem create_within {node : Node N} {path : List N} (hplain : tree.Plain root path.tail)
    (hnew : ∀ target, node = .symlink target → new (path ++ root) target)
    (h : tree.create host root node path = .ok tree') : Within new root tree tree' := by
  obtain ⟨name, above, rfl, rfl, -⟩ := create_spec hplain h
  exact within_add (List.suffix_append _ _) hnew

theorem makeDirExistOk_within {path : List N} (hplain : tree.Plain root path.tail)
    (h : tree.makeDirExistOk host root path = .ok tree') : Within new root tree tree' := by
  unfold makeDirExistOk at h
  split at h
  · rename_i made hmade
    obtain rfl := Except.ok.inj h
    exact create_within hplain (by simp) hmade
  · split at h
    · obtain rfl := Except.ok.inj h
      exact .refl
    · cases h

theorem makeDirs_within {path : List N} (hplain : tree.Plain root path.tail)
    (h : tree.makeDirs host root path = .ok tree') :
    Within (fun _ _ => False) root tree tree' := by
  induction path generalizing tree' with
  | nil => exact makeDirExistOk_within hplain h
  | cons name above ih =>
    have habove : tree.Plain root above := hplain
    unfold makeDirs at h
    split at h
    · rename_i made hmade
      obtain rfl := Except.ok.inj h
      exact create_within hplain (by simp) hmade
    · split at h
      · rename_i made hmade
        -- The directories above are made first; the path is as plain afterwards.
        have hmades := ih (habove.mono (List.tail_suffix above)) hmade
        have hplain' : made.Plain root (name :: above).tail := hmades.plain habove
        exact hmades.trans (makeDirExistOk_within hplain' h)
      · cases h
    · split at h
      · obtain rfl := Except.ok.inj h
        exact .refl
      · cases h

theorem chmod_within {mode : Nat} {path : List N} (hplain : tree.Plain root path)
    (h : tree.chmod host root mode path = .ok tree') : Within new root tree tree' := by
  unfold chmod at h
  split at h
  · cases h
  rename_i place hplace
  obtain rfl := resolve_plain hplain hplace
  split at h
  · obtain rfl := Except.ok.inj h
    apply within_modify (List.suffix_append _ _)
    intro node target
    cases node <;> simp [Node.withMode]
  · cases h

theorem write_within {content : List UInt8} {path : List N}
    (hroot : (tree.node root).any Node.isDirectory = true) (hplain : tree.Plain root path)
    (h : tree.write host root content path = .ok tree') : Within new root tree tree' := by
  unfold write at h
  split at h
  · cases h
  rename_i place hplace
  obtain rfl := resolve_plain hplain hplace
  split at h
  · obtain rfl := Except.ok.inj h
    apply within_modify (List.suffix_append _ _)
    intro node target
    cases node <;> simp [Node.withContent]
  · cases h
  · cases h
  · cases h
  · rename_i name above hnone hpath
    obtain rfl := Except.ok.inj h
    refine within_add ?_ (by simp)
    -- The root itself is there, so the path has a name of its own.
    cases path with
    | nil =>
      rw [List.nil_append] at hnone
      simp [hnone] at hroot
    | cons first path =>
      obtain ⟨-, rfl⟩ := List.cons.inj hpath
      exact List.suffix_append _ _

end Within

end Disk

/-! ### Where links lead -/

/-- From a place below a root, the steps never go above the root. -/
def stays : Place N → List (Step N) → Bool
  | _, [] => true
  | [], .up :: _ => false
  | _ :: place, .up :: rest => stays place rest
  | place, .down name :: rest => stays (name :: place) rest

/-- The steps pass no place of one kind, and do not end with a name at a place of another. -/
def Clear (crossed ended : Place N → Prop) : Place N → List (Step N) → Prop
  | _, [] => True
  | place, .up :: rest => Clear crossed ended place.tail rest
  | place, .down name :: rest =>
    (rest ≠ [] → ¬ crossed (name :: place)) ∧ (rest = [] → ¬ ended (name :: place))
      ∧ Clear crossed ended (name :: place) rest

theorem Clear.mono {crossed ended crossed' ended' : Place N → Prop}
    (hcrossed : ∀ place, crossed' place → crossed place)
    (hended : ∀ place, ended' place → ended place) {place : Place N} {steps : List (Step N)}
    (h : Clear crossed ended place steps) : Clear crossed' ended' place steps := by
  induction steps generalizing place with
  | nil => trivial
  | cons step rest ih =>
    cases step with
    | up => exact ih h
    | down name =>
      obtain ⟨hpass, hend, hrest⟩ := h
      exact ⟨fun hne hplace => hpass hne (hcrossed _ hplace),
        fun hnil hplace => hend hnil (hended _ hplace), ih hrest⟩

namespace Disk

section Confined

variable {root : Place N} {tree : Disk N} {made : Place N → Target N → Prop}

/-- What stands below the root at a place is a link. -/
def LinkAt (tree : Disk N) (root place : Place N) : Prop :=
  ∃ target, tree.node (place ++ root) = some (.symlink target)

/-- What stands below the root at a place is a link that is not of a kind. -/
def OtherLinkAt (tree : Disk N) (root : Place N) (made : Place N → Target N → Prop)
    (place : Place N) : Prop :=
  ∃ target, tree.node (place ++ root) = some (.symlink target) ∧ ¬ made place target

/-- A descent stays inside where the links of the kind do. -/
theorem descend_confined {jump : Place N → List (Step N) → Except OsError (Place N)}
    (hrelative : ∀ place target, made place target → target.absolute = false)
    (hjump : ∀ name place target last, made (name :: place) target →
      jump (place ++ root) target.steps = .ok last → root <:+ last)
    (steps : List (Step N)) (place last : Place N) (hstays : stays place steps = true)
    (hclear : Clear (tree.LinkAt root) (tree.OtherLinkAt root made) place steps)
    (h : tree.descend jump (place ++ root) steps = .ok last) : root <:+ last := by
  induction steps generalizing place with
  | nil =>
    have hlast : place ++ root = last := Except.ok.inj h
    rw [← hlast]
    exact List.suffix_append _ _
  | cons step rest ih =>
    unfold descend at h
    split at h
    · cases h
    · cases h
    · cases h
    cases step with
    | up =>
      cases place with
      | nil => simp [stays] at hstays
      | cons name place => exact ih place hstays hclear h
    | down name =>
      obtain ⟨hpass, hend, hrest⟩ := hclear
      simp only at h
      split at h
      · rename_i target hlink
        -- A link stands only at the end of the steps, and it is of the kind.
        have hnil : rest = [] := by
          by_contra hne
          exact hpass hne ⟨target, hlink⟩
        have hkind : made (name :: place) target := by
          by_contra hother
          exact hend hnil ⟨target, hlink, hother⟩
        rw [hnil, List.append_nil, hrelative _ _ hkind] at h
        exact hjump name place target last hkind h
      all_goals exact ih (name :: place) hstays hrest h

/-- **Links that stay inside.** Where each link of a kind is relative, stays below the root by its
    steps, passes no link, and ends at no link of another kind, none leads out of the root. -/
theorem walk_confined
    (hmade : ∀ place target, made place target → target.absolute = false
      ∧ stays place.tail target.steps = true
      ∧ Clear (tree.LinkAt root) (tree.OtherLinkAt root made) place.tail target.steps)
    (links : Nat) (place last : Place N) (target : Target N) (hkind : made place target)
    (h : tree.walk links (place.tail ++ root) target.steps = .ok last) : root <:+ last := by
  induction links generalizing place last target with
  | zero =>
    obtain ⟨-, hstays, hclear⟩ := hmade place target hkind
    refine descend_confined (fun p t hp => (hmade p t hp).1) ?_ _ _ _ hstays hclear h
    intro name below other last hother hlast
    cases hlast
  | succ links ih =>
    obtain ⟨-, hstays, hclear⟩ := hmade place target hkind
    refine descend_confined (fun p t hp => (hmade p t hp).1) ?_ _ _ _ hstays hclear h
    intro name below other last hother hlast
    exact ih (name :: below) last other hother hlast

end Confined

end Disk

end FileTree
