import Devlegate.ProjectRegistry
import Devlegate.SystemdUnit

namespace Devlegate.Remove

open JsonText Crash Systemd Registry

/-!
# Decommissioning a project

`project remove @ALIAS` has four durable effects:  the service is stopped, the unit file is removed,
the authority row is cleared, and the alias is unregistered.

* `Machine`: the unit directory, the authority row, the running service and the registry.
* `authorityEstablished` / `knownSystemdName`: what is checked before anything is done.
* `removeProject`: the program, which can be killed between two effects.
* `Restartable`: after any number of killed runs, another run ends with the project decommissioned,
  and no run unregisters the alias too early.
* `restartable_iff`: which machines are restartable.

`systemctl` does what it is asked; the runtime store and the registry can be read and written, and the
target of the alias resolves as it did.
-/

/-! ### The machine -/

/-- A row of `supervision_authority`; its column `authority` is always `systemd`. -/
structure Authority where
  unitName : Text
  stateKey : Text
  envFile : Text
  repository : Text
  deriving DecidableEq

/-- Who runs the service of the project. -/
inductive Host where
  | unit (name : Text)
  | standalone
  deriving DecidableEq

/-- The durable state that decommissioning is about.  `service` is there while the daemon holds the
    lock of the project. -/
structure Machine where
  units : UnitDirectory
  authority : Option Authority
  service : Option Host
  projects : Projects

/-- `DevlegateError`, by what it is made from. -/
inductive RemoveError where
  | registry (error : RegistryError)
  | systemd (error : UnitError)
  | authorityMismatch
  | stopFailed
  | authorityRemains
  | unitRemains
  deriving DecidableEq

/-- What a run of the command is about: the alias, the resolved target, how a configuration path
    resolves, the launcher of this installation, the characters `str.isalnum` accepts beyond ASCII, and
    whether a service that is not run by systemd stops when it is asked. -/
structure Command where
  aliasName : Text
  project : Systemd.Project
  paths : Paths
  launcher : List Text
  beyond : CodePoint → Bool
  stops : Bool

variable (command : Command)

/-- A unit operation with its error. -/
def ofSystemd {α : Type} (result : Except UnitError α) : Except RemoveError α :=
  result.mapError .systemd

/-- `SystemdSupervisor.inspect` for the target. -/
def inspectUnit (machine : Machine) (withEnv : Bool) (name : Option Text) (allowLegacy : Bool) :
    Except UnitError Bool :=
  inspect command.beyond command.launcher machine.units command.project withEnv name allowLegacy

/-! ### The checks -/

/-- The row names the target. -/
def Authority.matches (authority : Authority) (project : Systemd.Project) : Bool :=
  authority.stateKey = project.stateKey && authority.envFile = project.envFile
    && authority.repository = project.repository

/-- `_systemd_authority_established` without a row: the unit that is taken as the project's. -/
def unitsAuthority (units : UnitDirectory) : Except UnitError (Option Text) := do
  let inspected := fun name =>
    inspect command.beyond command.launcher units command.project true (some name) false
  let existing ←
    match ← managedUnitFor units command.project with
    | some name => pure (some name)
    | none =>
      let preferred := unitName command.project 8
      if (units.file? preferred).isSome then do
        let _ ← inspected preferred
        pure (some preferred)
      else pure none
  match existing with
  | some name =>
    let _ ← inspected name
    return some name
  | none => return none

/-- `_systemd_authority_established`. -/
def authorityEstablished (machine : Machine) : Except RemoveError Bool :=
  match machine.authority with
  | some row =>
    if !row.matches command.project then .error .authorityMismatch
    else ofSystemd do
      let _ ← unitPath command.project (some row.unitName)
      let _ ← inspectUnit command machine true (some row.unitName) true
      return true
  | none => ofSystemd do
    let existing ← unitsAuthority command machine.units
    return existing.isSome

/-- `_known_systemd_name`. -/
def knownSystemdName (machine : Machine) : Except RemoveError (Option Text) :=
  match machine.authority with
  | some row => .ok (some row.unitName)
  | none => ofSystemd (managedUnitFor machine.units command.project)

/-- The inspection of the known unit, if there is one. -/
def inspectKnown (machine : Machine) (withEnv : Bool) : Option Text → Except RemoveError Bool
  | some name => ofSystemd (inspectUnit command machine withEnv (some name) false)
  | none => .ok false

/-- `registry.target_for_alias`: the alias refers to the configuration of the target. -/
def targetForAlias (machine : Machine) : Except RemoveError Unit :=
  match machine.projects.get command.aliasName with
  | some env =>
    if command.paths.canonical env = command.project.envFile then .ok ()
    else .error (.registry (.moved command.aliasName command.project.envFile))
  | none => .error (.registry (.unknownAlias command.aliasName))

/-! ### The effects -/

/-- `systemctl stop`: the service of the unit ends. -/
def Machine.stop (machine : Machine) (name : Text) : Machine :=
  { machine with service := if machine.service = some (.unit name) then none else machine.service }

/-- `path.unlink()`. -/
def Machine.unlink (machine : Machine) (name : Text) : Machine :=
  { machine with units := machine.units.erase name }

/-- `store.clear_systemd_authority()`. -/
def Machine.clear (machine : Machine) : Machine := { machine with authority := none }

/-- `del projects[alias]`, written. -/
def Machine.unregister (machine : Machine) (name : Text) : Machine :=
  { machine with projects := machine.projects.erase name }

/-- `SystemdSupervisor.remove`; `disable` and `daemon-reload` change nothing here. -/
def supervisorRemove (name : Option Text) : Program Machine RemoveError Unit := do
  let path ← Program.observe fun _ => ofSystemd (unitPath command.project name)
  let found ← Program.observe fun machine => .ok (machine.units.file? path).isSome
  if found then
    let _ ← Program.observe fun machine =>
      ofSystemd (inspectUnit command machine true (some path) false)
    Program.effect fun machine => machine.stop path
    Program.effect id
    Program.effect fun machine => machine.unlink path
  Program.effect id

/-- `_stop_runtime`: the service is asked to stop, and is waited for. -/
def stopRuntime : Program Machine RemoveError Unit := do
  Program.ensure (command.stops = true) .stopFailed
  Program.effect fun machine => { machine with service := none }

/-- The part of `_remove_project` that takes the service and the unit away; whether `remove` ran. -/
def removeUnit (systemdAuthority managedUnit : Bool) (unit : Option Text) :
    Program Machine RemoveError Bool := do
  if systemdAuthority then
    supervisorRemove command unit
    return true
  let machine ← Program.get
  match machine.service, unit with
  | none, _ => return false
  | some host, some name =>
    if managedUnit ∧ host = .unit name then
      supervisorRemove command unit
      return true
    else
      stopRuntime command
      return false
  | some _, none =>
    stopRuntime command
    return false

/-- `registry.unregister(alias, expected_env=target.env_file)`. -/
def unregister : Program Machine RemoveError Unit := do
  Program.observe (targetForAlias command)
  Program.effect fun machine => machine.unregister command.aliasName

/-- `_remove_project` once the service is to be gone:  nothing remains, the row is cleared, and the
    alias is given up last. -/
def finishRemove (systemdAuthority managedUnit supervisorRemoved : Bool) (unit : Option Text) :
    Program Machine RemoveError Unit := do
  let machine ← Program.get
  Program.ensure (machine.service = none) .authorityRemains
  if managedUnit ∧ supervisorRemoved = false then supervisorRemove command unit
  let remains ← Program.observe fun machine => inspectKnown command machine false unit
  Program.ensure (remains = false) .unitRemains
  if systemdAuthority then Program.effect Machine.clear
  unregister command

/-- `_remove_project`. -/
def removeProject : Program Machine RemoveError Unit := do
  Program.observe (targetForAlias command)
  let systemdAuthority ← Program.observe (authorityEstablished command)
  let unit ← Program.observe (knownSystemdName command)
  let managedUnit ← Program.observe fun machine => inspectKnown command machine true unit
  let supervisorRemoved ← removeUnit command systemdAuthority managedUnit unit
  finishRemove command systemdAuthority managedUnit supervisorRemoved unit

/-! ### What is promised -/

/-- The project is decommissioned:  its unit is gone, the row is cleared, the alias is free. -/
structure Decommissioned (unit : Text) (machine : Machine) : Prop where
  absent : machine.units.file? unit = none
  cleared : machine.authority = none
  unregistered : machine.projects.get command.aliasName = none

/-- After any number of runs, each killed after any of its effects, one more run leaves the project
    decommissioned, and the alias was never given up while the unit or a service was there. -/
def Restartable (unit : Text) (machine : Machine) : Prop :=
  ∀ t, Interrupted (fun _ _ => True) (fun _ : Unit => removeProject command) machine t →
    Decommissioned command unit ((removeProject command t).last t)
      ∧ (t.projects.get command.aliasName = none → t.units.file? unit = none ∧ t.service = none)

/-- The unit that `_systemd_authority_established` accepts, or that the row names. -/
def acceptedUnit (machine : Machine) : Except UnitError (Option Text) :=
  match machine.authority with
  | some row => .ok (some row.unitName)
  | none => unitsAuthority command machine.units

/-- Without a row, the check for authority is not refused in a directory, nor in what is left of it
    once the unit it finds there has been removed, and so on. -/
inductive Unobstructed : UnitDirectory → Prop
  | clear {units : UnitDirectory} : unitsAuthority command units = .ok none → Unobstructed units
  | found {units : UnitDirectory} {name : Text} : unitsAuthority command units = .ok (some name) →
      Unobstructed (units.erase name) → Unobstructed units

/-- The unit is accepted without leave for legacy units if it is there, a running service is run by a
    unit that is there, and the other unit files are no obstacle. -/
structure Recoverable (unit : Text) (machine : Machine) : Prop where
  owned : (machine.units.file? unit).isSome = true →
    inspectUnit command machine true (some unit) false = .ok true
  service : ∀ host, machine.service = some host →
    host = .unit unit ∧ (machine.units.file? unit).isSome = true
  unobstructed : Unobstructed command (machine.units.erase unit)

/-! ### Files of a directory -/

section Units

variable {units : UnitDirectory} {name other : Text}

theorem file?_erase_self (units : UnitDirectory) (name : Text) :
    (units.erase name).file? name = none := by
  unfold UnitDirectory.file? UnitDirectory.erase
  rw [List.lookup_eq_none_iff]
  intro entry hentry
  obtain ⟨-, hne⟩ := List.mem_filter.mp hentry
  exact bne_iff_ne.mpr fun heq => bne_iff_ne.mp hne heq.symm

theorem erase_of_absent (h : units.file? name = none) : units.erase name = units := by
  unfold UnitDirectory.file? at h
  rw [List.lookup_eq_none_iff] at h
  ext1
  refine List.filter_eq_self.mpr fun entry hentry => ?_
  exact bne_iff_ne.mpr fun heq => bne_iff_ne.mp (h entry hentry) heq.symm

theorem erase_erase (units : UnitDirectory) (name : Text) :
    (units.erase name).erase name = units.erase name :=
  erase_of_absent (file?_erase_self units name)

/-- A file that is not there is not there afterwards. -/
theorem file?_erase_of_absent (h : units.file? other = none) (name : Text) :
    (units.erase name).file? other = none := by
  unfold UnitDirectory.file? UnitDirectory.erase at *
  rw [List.lookup_eq_none_iff] at h ⊢
  exact fun entry hentry => h entry (List.mem_of_mem_filter hentry)

theorem length_erase_lt (h : (units.file? name).isSome = true) :
    (units.erase name).entries.length < units.entries.length := by
  unfold UnitDirectory.file? at h
  rw [List.lookup_isSome_iff] at h
  obtain ⟨entry, hentry, hsame⟩ := h
  refine List.length_filter_lt_length_iff_exists.mpr ⟨entry, hentry, ?_⟩
  rw [bne_iff_ne, not_not]
  exact (beq_iff_eq.mp hsame).symm

end Units

/-! ### What a run does -/

section Runs

variable {command : Command} {machine : Machine} {name : Option Text} {unit path : Text}

/-- The alias refers to the target. -/
def Registered (command : Command) (machine : Machine) : Prop :=
  targetForAlias command machine = .ok ()

theorem ofSystemd_ok {α : Type} {result : Except UnitError α} {a : α} (h : result = .ok a) :
    ofSystemd result = .ok a := by
  rw [h]
  rfl

theorem supervisorRemove_absent (hpath : unitPath command.project name = .ok path)
    (hfile : machine.units.file? path = none) :
    supervisorRemove command name machine = ⟨[machine], .ok ()⟩ := by
  unfold supervisorRemove
  simp [bind, Program.bind, Program.observe, Program.effect, Outcome.last, ofSystemd_ok hpath, hfile]

/-- The unit is stopped and its file removed. -/
theorem supervisorRemove_present (hpath : unitPath command.project name = .ok path)
    (hfile : (machine.units.file? path).isSome = true)
    (hinspect : inspectUnit command machine true (some path) false = .ok true) :
    supervisorRemove command name machine
      = ⟨[machine.stop path, machine.stop path, (machine.stop path).unlink path,
          (machine.stop path).unlink path], .ok ()⟩ := by
  unfold supervisorRemove
  simp [bind, Program.bind, Program.observe, Program.effect, Outcome.last, ofSystemd_ok hpath, hfile,
    ofSystemd_ok hinspect]

theorem finishRemove_authority {managed : Bool} {unit : Option Text}
    (hservice : machine.service = none)
    (hremains : inspectKnown command machine false unit = .ok false)
    (hregistered : Registered command machine) :
    finishRemove command true managed true unit machine
      = ⟨[machine.clear, machine.clear.unregister command.aliasName], .ok ()⟩ := by
  have hcleared : targetForAlias command machine.clear = .ok () := hregistered
  unfold finishRemove
  rw [Program.get_bind, Program.ensure_bind hservice, if_neg (by simp)]
  beta_reduce
  rw [Program.observe_bind (f := fun m => inspectKnown command m false unit) hremains,
    Program.ensure_bind rfl, if_pos rfl]
  simp [bind, Program.bind, Program.observe, Program.effect, Outcome.last, unregister, hcleared]

theorem finishRemove_free (hservice : machine.service = none)
    (hregistered : Registered command machine) :
    finishRemove command false false false none machine
      = ⟨[machine.unregister command.aliasName], .ok ()⟩ := by
  have hregistered' : targetForAlias command machine = .ok () := hregistered
  unfold finishRemove
  rw [Program.get_bind, Program.ensure_bind hservice, if_neg (by simp)]
  beta_reduce
  rw [Program.observe_bind (f := fun m => inspectKnown command m false none) rfl,
    Program.ensure_bind rfl, if_neg Bool.false_ne_true]
  simp [bind, Program.bind, Program.observe, Program.effect, Outcome.last, unregister, hregistered']

/-- The checks do nothing. -/
theorem removeProject_checked {established managed : Bool} {unit : Option Text}
    (hregistered : Registered command machine)
    (hauthority : authorityEstablished command machine = .ok established)
    (hname : knownSystemdName command machine = .ok unit)
    (hmanaged : inspectKnown command machine true unit = .ok managed) :
    removeProject command machine
      = (removeUnit command established managed unit >>= fun removed =>
          finishRemove command established managed removed unit) machine := by
  have hregistered' : targetForAlias command machine = .ok () := hregistered
  unfold removeProject
  rw [Program.observe_bind hregistered', Program.observe_bind hauthority, Program.observe_bind hname,
    Program.observe_bind (f := fun m => inspectKnown command m true unit) hmanaged]

/-- **A run under authority.** What `remove` visits, and then the row and the alias. -/
theorem removeProject_authority {managed : Bool} {unit : Option Text} {visited : List Machine}
    (hregistered : Registered command machine)
    (hauthority : authorityEstablished command machine = .ok true)
    (hname : knownSystemdName command machine = .ok unit)
    (hmanaged : inspectKnown command machine true unit = .ok managed)
    (hremove : supervisorRemove command unit machine = ⟨visited, .ok ()⟩)
    (hservice : (visited.getLastD machine).service = none)
    (hremains : inspectKnown command (visited.getLastD machine) false unit = .ok false)
    (hprojects : Registered command (visited.getLastD machine)) :
    removeProject command machine
      = ⟨visited ++ [(visited.getLastD machine).clear,
          (visited.getLastD machine).clear.unregister command.aliasName], .ok ()⟩ := by
  have hunit : removeUnit command true managed unit machine = ⟨visited, .ok true⟩ := by
    unfold removeUnit
    rw [if_pos rfl, Program.bind_of_ok hremove]
    simp [pure]
  rw [removeProject_checked hregistered hauthority hname hmanaged, Program.bind_of_ok hunit,
    finishRemove_authority hservice hremains hprojects]

/-- A run that leaves the service running raises before the row and the alias. -/
theorem removeProject_service {managed : Bool} {unit : Option Text} {visited : List Machine}
    (hregistered : Registered command machine)
    (hauthority : authorityEstablished command machine = .ok true)
    (hname : knownSystemdName command machine = .ok unit)
    (hmanaged : inspectKnown command machine true unit = .ok managed)
    (hremove : supervisorRemove command unit machine = ⟨visited, .ok ()⟩)
    (hservice : (visited.getLastD machine).service ≠ none) :
    removeProject command machine = ⟨visited, .error .authorityRemains⟩ := by
  have hunit : removeUnit command true managed unit machine = ⟨visited, .ok true⟩ := by
    unfold removeUnit
    rw [if_pos rfl, Program.bind_of_ok hremove]
    simp [pure]
  rw [removeProject_checked hregistered hauthority hname hmanaged, Program.bind_of_ok hunit]
  unfold finishRemove
  rw [Program.get_bind, Program.ensure_bind_of_not hservice, List.append_nil]

/-! ### The checks -/

theorem inspect_eq_ok {launcher : List Text} {units : UnitDirectory} {project : Systemd.Project}
    {beyond : CodePoint → Bool} {withEnv allowLegacy answer : Bool} {name : Text}
    (h : inspect beyond launcher units project withEnv (some name) allowLegacy = .ok answer) :
    unitPath project (some name) = .ok name ∧ answer = (units.file? name).isSome := by
  unfold inspect at h
  cases hpath : unitPath project (some name) with
  | error e =>
    rw [hpath] at h
    cases h
  | ok path =>
    obtain ⟨-, rfl⟩ := unitPath_eq_ok.mp hpath
    refine ⟨rfl, ?_⟩
    rw [hpath] at h
    simp only [bind, Except.bind] at h
    split at h
    case h_1 hfile =>
      rw [hfile]
      exact (Except.ok.inj h).symm
    case h_2 file hfile =>
      rw [hfile]
      cases hclass : classify beyond launcher units project withEnv (some name) allowLegacy with
      | error e =>
        rw [hclass] at h
        cases h
      | ok classification =>
        rw [hclass] at h
        cases classification with
        | ambiguousForeign => cases h
        | current => exact (Except.ok.inj h).symm
        | reconcilable => exact (Except.ok.inj h).symm

/-- A file that is classified as current is accepted. -/
theorem inspect_of_current {launcher : List Text} {units : UnitDirectory}
    {project : Systemd.Project} {beyond : CodePoint → Bool} {withEnv allowLegacy : Bool}
    {name : Option Text} {path : Text} {file : UnitFile} (hpath : unitPath project name = .ok path)
    (hfile : units.file? path = some file)
    (hclass : classify beyond launcher units project withEnv name allowLegacy = .ok .current) :
    inspect beyond launcher units project withEnv name allowLegacy = .ok true := by
  unfold inspect
  rw [hpath]
  simp only [bind, Except.bind, hfile, hclass]
  rfl

theorem inspect_absent {launcher : List Text} {units : UnitDirectory} {project : Systemd.Project}
    {beyond : CodePoint → Bool} {withEnv allowLegacy : Bool} {name : Text}
    (hpath : unitPath project (some name) = .ok name) (hfile : units.file? name = none) :
    inspect beyond launcher units project withEnv (some name) allowLegacy = .ok false := by
  unfold inspect
  rw [hpath]
  simp only [bind, Except.bind, hfile]
  rfl

/-- What is owned without leave for legacy units is owned with it. -/
theorem isOwned_legacy {project : Systemd.Project} {withEnv : Bool} {content : Text}
    (h : isOwned project withEnv false content = true) :
    isOwned project withEnv true content = true := by
  have hbinding : ∀ lines binding, bindingAccepted false lines binding = true →
      bindingAccepted true lines binding = true := by
    intro lines binding hfalse
    unfold bindingAccepted at hfalse ⊢
    split at hfalse
    case h_1 => cases hfalse
    case h_2 => exact hfalse
  unfold isOwned at h ⊢
  simp only [Bool.and_eq_true] at h ⊢
  obtain ⟨hidentity, hbindings⟩ := h
  refine ⟨hidentity, List.all_eq_true.mpr fun binding hmem => ?_⟩
  exact hbinding _ _ (List.all_eq_true.mp hbindings binding hmem)

theorem inspect_legacy {launcher : List Text} {units : UnitDirectory} {project : Systemd.Project}
    {beyond : CodePoint → Bool} {name : Text}
    (h : inspect beyond launcher units project true (some name) false = .ok true) :
    inspect beyond launcher units project true (some name) true = .ok true := by
  obtain ⟨hpath, hfile⟩ := inspect_eq_ok h
  obtain ⟨file, hfile⟩ := Option.isSome_iff_exists.mp hfile.symm
  unfold inspect classify at h ⊢
  rw [hpath] at h ⊢
  simp only [bind, Except.bind, hfile] at h ⊢
  cases hread : file.readText name with
  | error e =>
    rw [hread] at h
    cases h
  | ok content =>
    simp only [hread] at h ⊢
    cases howned : isOwned project true false content with
    | false =>
      rw [howned] at h
      cases h
    | true =>
      rw [isOwned_legacy howned]
      rw [howned] at h
      exact h

/-- The row is the project's. -/
def RowOf (command : Command) (machine : Machine) (unit : Text) : Prop :=
  ∃ row, machine.authority = some row ∧ row.matches command.project = true ∧ row.unitName = unit
    ∧ isUnitName unit = true

theorem RowOf.knownSystemdName (h : RowOf command machine unit) :
    knownSystemdName command machine = .ok (some unit) := by
  obtain ⟨row, hrow, -, rfl, -⟩ := h
  unfold Remove.knownSystemdName
  rw [hrow]

theorem RowOf.unitPath (h : RowOf command machine unit) :
    Systemd.unitPath command.project (some unit) = .ok unit := by
  obtain ⟨row, -, -, -, hname⟩ := h
  exact unitPath_eq_ok.mpr ⟨hname, rfl⟩

theorem RowOf.authorityEstablished (h : RowOf command machine unit) {answer : Bool}
    (hinspect : inspectUnit command machine true (some unit) true = .ok answer) :
    authorityEstablished command machine = .ok true := by
  have hpath := h.unitPath
  obtain ⟨row, hrow, hmatches, rfl, -⟩ := h
  unfold Remove.authorityEstablished
  rw [hrow]
  simp [hmatches, hpath, hinspect, ofSystemd, bind, Except.bind, pure, Except.pure, Except.mapError]

theorem file?_of_managedUnitFor {units : UnitDirectory} {project : Systemd.Project} {name : Text}
    (h : managedUnitFor units project = .ok (some name)) : (units.file? name).isSome = true := by
  obtain ⟨-, hnames⟩ := managedUnitFor_eq_ok.mp h
  have hmem : name ∈ ((units.entries.filter isUnitFile).filter (describes project.stateKey)).map
      Prod.fst := by
    rw [hnames]
    exact List.mem_singleton_self name
  obtain ⟨entry, hentry, rfl⟩ := List.mem_map.mp hmem
  have hin : entry ∈ units.entries := List.mem_of_mem_filter (List.mem_of_mem_filter hentry)
  unfold UnitDirectory.file?
  rw [List.lookup_isSome_iff]
  exact ⟨entry, hin, beq_self_eq_true _⟩

/-- Without a row, the unit that is found is there, is accepted, and is the managed one, or the one
    at the preferred name. -/
theorem unitsAuthority_eq_some {units : UnitDirectory} {name : Text}
    (h : unitsAuthority command units = .ok (some name)) :
    inspect command.beyond command.launcher units command.project true (some name) false = .ok true
      ∧ (units.file? name).isSome = true
      ∧ (managedUnitFor units command.project = .ok (some name)
        ∨ managedUnitFor units command.project = .ok none ∧ name = unitName command.project 8) := by
  have hinspected : ∀ other : Text, (units.file? other).isSome = true →
      (do
        let _ ← inspect command.beyond command.launcher units command.project true (some other) false
        return some other : Except UnitError (Option Text)) = .ok (some name) →
      other = name ∧ inspect command.beyond command.launcher units command.project true (some name)
        false = .ok true := by
    intro other hfile hsome
    cases hinspect : inspect command.beyond command.launcher units command.project true (some other)
        false with
    | error e =>
      rw [hinspect] at hsome
      cases hsome
    | ok answer =>
      rw [hinspect] at hsome
      obtain rfl : other = name := Option.some.inj (Except.ok.inj hsome)
      obtain ⟨-, rfl⟩ := inspect_eq_ok hinspect
      rw [hfile] at hinspect
      exact ⟨rfl, hinspect⟩
  unfold unitsAuthority at h
  cases hmanaged : managedUnitFor units command.project with
  | error e =>
    rw [hmanaged] at h
    cases h
  | ok found =>
    rw [hmanaged] at h
    cases found with
    | some other =>
      have hfile := file?_of_managedUnitFor hmanaged
      obtain ⟨rfl, hinspect⟩ := hinspected other hfile h
      exact ⟨hinspect, hfile, .inl rfl⟩
    | none =>
      cases hfile : (units.file? (unitName command.project 8)).isSome with
      | false => simp [bind, Except.bind, pure, Except.pure, hfile] at h
      | true =>
        cases hinspect : inspect command.beyond command.launcher units command.project true
            (some (unitName command.project 8)) false with
        | error e => simp [bind, Except.bind, hfile, hinspect] at h
        | ok answer =>
          simp only [bind, Except.bind, pure, Except.pure, hfile, hinspect, if_true] at h
          obtain rfl : unitName command.project 8 = name := Option.some.inj (Except.ok.inj h)
          obtain ⟨-, rfl⟩ := inspect_eq_ok hinspect
          rw [hfile] at hinspect
          exact ⟨hinspect, hfile, .inr ⟨rfl, rfl⟩⟩

theorem unitsAuthority_eq_none {units : UnitDirectory}
    (h : unitsAuthority command units = .ok none) :
    managedUnitFor units command.project = .ok none := by
  unfold unitsAuthority at h
  cases hmanaged : managedUnitFor units command.project with
  | error e =>
    rw [hmanaged] at h
    cases h
  | ok found =>
    cases found with
    | none => rfl
    | some other =>
      rw [hmanaged] at h
      simp only [bind, Except.bind, pure, Except.pure] at h
      split at h <;> cases h

/-! ### Complete runs -/

/-- The service of the unit, if any. -/
def ServiceOf (machine : Machine) (unit : Text) : Prop :=
  ∀ host, machine.service = some host → host = .unit unit

theorem ServiceOf.stop (h : ServiceOf machine unit) : (machine.stop unit).service = none := by
  unfold Machine.stop
  cases hservice : machine.service with
  | none => simp
  | some host =>
    obtain rfl := h host hservice
    simp

theorem inspectUnit_unlink {withEnv allowLegacy : Bool}
    (hpath : unitPath command.project (some unit) = .ok unit) (machine : Machine) :
    inspectUnit command (machine.unlink unit) withEnv (some unit) allowLegacy = .ok false :=
  inspect_absent hpath (file?_erase_self machine.units unit)

/-- The run that takes the unit away. -/
def fullRun (command : Command) (unit : Text) (machine : Machine) :
    Crash.Outcome Machine RemoveError Unit :=
  let stopped := machine.stop unit
  let gone := stopped.unlink unit
  ⟨[stopped, stopped, gone, gone, gone.clear, gone.clear.unregister command.aliasName], .ok ()⟩

theorem removeProject_row_present (hregistered : Registered command machine)
    (hrow : RowOf command machine unit)
    (hinspect : inspectUnit command machine true (some unit) false = .ok true)
    (hservice : ServiceOf machine unit) :
    removeProject command machine = fullRun command unit machine := by
  obtain ⟨-, hfile⟩ := inspect_eq_ok hinspect
  exact removeProject_authority hregistered (hrow.authorityEstablished (inspect_legacy hinspect))
    hrow.knownSystemdName (ofSystemd_ok hinspect)
    (supervisorRemove_present hrow.unitPath hfile.symm hinspect) hservice.stop
    (ofSystemd_ok (inspectUnit_unlink hrow.unitPath _)) hregistered

theorem removeProject_row_absent (hregistered : Registered command machine)
    (hrow : RowOf command machine unit) (hfile : machine.units.file? unit = none)
    (hservice : machine.service = none) :
    removeProject command machine
      = ⟨[machine, machine.clear, machine.clear.unregister command.aliasName], .ok ()⟩ := by
  have hnone : ∀ withEnv allowLegacy,
      inspectUnit command machine withEnv (some unit) allowLegacy = .ok false :=
    fun _ _ => inspect_absent hrow.unitPath hfile
  exact removeProject_authority hregistered (hrow.authorityEstablished (hnone true true))
    hrow.knownSystemdName (ofSystemd_ok (hnone true false))
    (supervisorRemove_absent hrow.unitPath hfile) hservice (ofSystemd_ok (hnone false false))
    hregistered

/-- What is known of the unit that is found without a row. -/
theorem exists_known {units : UnitDirectory} {name : Text}
    (h : unitsAuthority command units = .ok (some name)) :
    ∃ unit managed, managedUnitFor units command.project = .ok unit
      ∧ unitPath command.project unit = .ok name
      ∧ ∀ machine : Machine, machine.units = units → machine.authority = none →
        authorityEstablished command machine = .ok true
          ∧ knownSystemdName command machine = .ok unit
          ∧ inspectKnown command machine true unit = .ok managed
          ∧ ∀ other : Machine, inspectKnown command (other.unlink name) false unit = .ok false := by
  obtain ⟨hinspect, -, hmanaged⟩ := unitsAuthority_eq_some h
  obtain ⟨hpath, -⟩ := inspect_eq_ok hinspect
  have hestablished : ∀ machine : Machine, machine.units = units → machine.authority = none →
      authorityEstablished command machine = .ok true := by
    rintro machine rfl hauthority
    unfold authorityEstablished
    rw [hauthority]
    simp [h, ofSystemd, bind, Except.bind, pure, Except.pure, Except.mapError]
  have hknown : ∀ machine : Machine, machine.units = units → machine.authority = none →
      knownSystemdName command machine = ofSystemd (managedUnitFor units command.project) := by
    rintro machine rfl hauthority
    unfold knownSystemdName
    rw [hauthority]
  rcases hmanaged with hmanaged | ⟨hmanaged, rfl⟩
  · refine ⟨some name, true, hmanaged, hpath, fun machine hunits hauthority =>
      ⟨hestablished machine hunits hauthority, ?_, ?_, fun other => ?_⟩⟩
    · rw [hknown machine hunits hauthority]
      exact ofSystemd_ok hmanaged
    · subst hunits
      exact ofSystemd_ok hinspect
    · exact ofSystemd_ok (inspectUnit_unlink hpath other)
  · refine ⟨none, false, hmanaged, rfl, fun machine hunits hauthority =>
      ⟨hestablished machine hunits hauthority, ?_, rfl, fun _ => rfl⟩⟩
    rw [hknown machine hunits hauthority]
    exact ofSystemd_ok hmanaged

theorem removeProject_found {name : Text} (hregistered : Registered command machine)
    (hauthority : machine.authority = none)
    (hfound : unitsAuthority command machine.units = .ok (some name))
    (hservice : ServiceOf machine name) :
    removeProject command machine = fullRun command name machine := by
  obtain ⟨hinspect, hfile, -⟩ := unitsAuthority_eq_some hfound
  obtain ⟨unit, managed, -, hpath, hall⟩ := exists_known hfound
  obtain ⟨hestablished, hname, hmanaged, hremains⟩ := hall machine rfl hauthority
  exact removeProject_authority hregistered hestablished hname hmanaged
    (supervisorRemove_present hpath hfile hinspect) hservice.stop (hremains _) hregistered

theorem removeProject_free (hregistered : Registered command machine)
    (hauthority : machine.authority = none)
    (hfree : unitsAuthority command machine.units = .ok none) (hservice : machine.service = none) :
    removeProject command machine = ⟨[machine.unregister command.aliasName], .ok ()⟩ := by
  have hestablished : authorityEstablished command machine = .ok false := by
    unfold authorityEstablished
    rw [hauthority]
    simp [hfree, ofSystemd, bind, Except.bind, pure, Except.pure, Except.mapError]
  have hname : knownSystemdName command machine = .ok none := by
    unfold knownSystemdName
    rw [hauthority]
    exact ofSystemd_ok (unitsAuthority_eq_none hfree)
  have hunit : removeUnit command false false none machine = ⟨[], .ok false⟩ := by
    unfold removeUnit
    rw [if_neg Bool.false_ne_true]
    simp [bind, Program.bind, Program.get, hservice, pure]
  rw [removeProject_checked hregistered hestablished hname rfl, Program.bind_of_ok hunit]
  rw [List.getLastD_nil, finishRemove_free hservice hregistered, List.nil_append]

theorem removeProject_unregistered {e : RemoveError}
    (h : targetForAlias command machine = .error e) :
    removeProject command machine = ⟨[], .error e⟩ := by
  unfold removeProject
  refine Program.bind_of_error ?_ _
  simp [Program.observe, h]

/-! ### Runs that are killed -/

/-- Where killed runs leave a machine whose unit is `unit`:  with the row still there; with the row
    cleared and perhaps other units to take away; or done. -/
inductive Underway (command : Command) (unit : Text) (machine : Machine) : Prop
  | row (hregistered : Registered command machine) (hrow : RowOf command machine unit)
      (hrecoverable : Recoverable command unit machine)
  | cleared (hregistered : Registered command machine) (hauthority : machine.authority = none)
      (hunits : Unobstructed command machine.units)
      (hservice : machine.service = none
        ∨ ∃ name, unitsAuthority command machine.units = .ok (some name) ∧ ServiceOf machine name)
      (hunit : machine.units.file? unit = none
        ∨ unitsAuthority command machine.units = .ok (some unit))
  | done (hdone : Decommissioned command unit machine) (hservice : machine.service = none)

theorem get_unregister (machine : Machine) (name : Text) :
    (machine.unregister name).projects.get name = none := by
  show (Projects.erase machine.projects name).get name = none
  rw [Registry.get_erase, Function.update_self]

/-- What the run that takes a unit away leaves behind it. -/
theorem underway_fullRun {name : Text} (hregistered : Registered command machine)
    (hservice : ServiceOf machine name)
    (hunits : Unobstructed command (machine.units.erase name))
    (hunit : name = unit ∨ machine.units.file? unit = none)
    (hstopped : Underway command unit (machine.stop name))
    (hgone : Underway command unit ((machine.stop name).unlink name)) :
    (∀ t ∈ (fullRun command name machine).visited, Underway command unit t)
      ∧ Decommissioned command unit ((fullRun command name machine).last machine) := by
  have habsent : (machine.units.erase name).file? unit = none := by
    rcases hunit with rfl | hunit
    · exact file?_erase_self machine.units name
    · exact file?_erase_of_absent hunit name
  have hcleared : Underway command unit ((machine.stop name).unlink name).clear :=
    .cleared hregistered rfl hunits (.inl hservice.stop) (.inl habsent)
  have hdone : Decommissioned command unit
      (((machine.stop name).unlink name).clear.unregister command.aliasName) :=
    ⟨habsent, rfl, get_unregister _ _⟩
  refine ⟨?_, hdone⟩
  unfold fullRun
  simp only [List.forall_mem_cons, List.not_mem_nil, false_implies, implies_true, and_true]
  exact ⟨hstopped, hstopped, hgone, hgone, hcleared, .done hdone hservice.stop⟩

/-- **Step lemma.** A run from a machine that killed runs have left visits such machines only, and
    leaves the project decommissioned. -/
theorem Underway.run (h : Underway command unit machine) :
    (∀ t ∈ (removeProject command machine).visited, Underway command unit t)
      ∧ Decommissioned command unit ((removeProject command machine).last machine) := by
  cases h with
  | row hregistered hrow hrecoverable =>
    have hservice : ServiceOf machine unit := fun host hhost => (hrecoverable.service host hhost).1
    have hgone : Recoverable command unit ((machine.stop unit).unlink unit) := by
      refine ⟨fun hfile => ?_, fun host hhost => ?_, ?_⟩
      · have hnone : ((machine.stop unit).unlink unit).units.file? unit = none :=
          file?_erase_self machine.units unit
        rw [hnone] at hfile
        cases hfile
      · have hstopped : ((machine.stop unit).unlink unit).service = none := hservice.stop
        rw [hstopped] at hhost
        cases hhost
      · show Unobstructed command ((machine.units.erase unit).erase unit)
        rw [erase_erase]
        exact hrecoverable.unobstructed
    cases hfile : machine.units.file? unit with
    | some file =>
      have hpresent : (machine.units.file? unit).isSome = true := by
        rw [hfile]
        rfl
      have hinspect := hrecoverable.owned hpresent
      have hstopped : Recoverable command unit (machine.stop unit) := by
        refine ⟨fun _ => hinspect, fun host hhost => ?_, hrecoverable.unobstructed⟩
        rw [hservice.stop] at hhost
        cases hhost
      rw [removeProject_row_present hregistered hrow hinspect hservice]
      exact underway_fullRun hregistered hservice hrecoverable.unobstructed (.inl rfl)
        (.row hregistered hrow hstopped) (.row hregistered hrow hgone)
    | none =>
      have hstopped : machine.service = none := by
        cases hhost : machine.service with
        | none => rfl
        | some host =>
          obtain ⟨-, hpresent⟩ := hrecoverable.service host hhost
          rw [hfile] at hpresent
          cases hpresent
      have hunits := hrecoverable.unobstructed
      rw [erase_of_absent hfile] at hunits
      have hdone : Decommissioned command unit (machine.clear.unregister command.aliasName) :=
        ⟨hfile, rfl, get_unregister _ _⟩
      rw [removeProject_row_absent hregistered hrow hfile hstopped]
      refine ⟨?_, hdone⟩
      simp only [List.forall_mem_cons, List.not_mem_nil, false_implies, implies_true, and_true]
      exact ⟨.row hregistered hrow hrecoverable,
        .cleared hregistered rfl hunits (.inl hstopped) (.inl hfile), .done hdone hstopped⟩
  | cleared hregistered hauthority hunits hservice hunit =>
    cases hunits with
    | clear hfree =>
      -- nothing is left to take away
      have hstopped : machine.service = none := by
        rcases hservice with hservice | ⟨name, hname, -⟩
        · exact hservice
        · rw [hfree] at hname
          cases hname
      have habsent : machine.units.file? unit = none := by
        rcases hunit with hunit | hunit
        · exact hunit
        · rw [hfree] at hunit
          cases hunit
      have hdone : Decommissioned command unit (machine.unregister command.aliasName) :=
        ⟨habsent, hauthority, get_unregister _ _⟩
      rw [removeProject_free hregistered hauthority hfree hstopped]
      refine ⟨?_, hdone⟩
      simp only [List.forall_mem_cons, List.not_mem_nil, false_implies, implies_true, and_true]
      exact .done hdone hstopped
    | @found _ name hfound hrest =>
      have hservice : ServiceOf machine name := by
        rcases hservice with hservice | ⟨other, hother, hservice⟩
        · intro host hhost
          rw [hservice] at hhost
          cases hhost
        · rw [hfound] at hother
          obtain rfl := Option.some.inj (Except.ok.inj hother)
          exact hservice
      have hunit' : name = unit ∨ machine.units.file? unit = none := by
        rcases hunit with hunit | hunit
        · exact .inr hunit
        · rw [hfound] at hunit
          exact .inl (Option.some.inj (Except.ok.inj hunit))
      have habsent : (machine.units.erase name).file? unit = none := by
        rcases hunit' with rfl | hunit'
        · exact file?_erase_self machine.units name
        · exact file?_erase_of_absent hunit' name
      rw [removeProject_found hregistered hauthority hfound hservice]
      exact underway_fullRun hregistered hservice hrest hunit'
        (.cleared hregistered hauthority (.found hfound hrest) (.inl hservice.stop) hunit)
        (.cleared hregistered hauthority hrest (.inl hservice.stop) (.inl habsent))
  | done hdone hservice =>
    have htarget : targetForAlias command machine
        = .error (.registry (.unknownAlias command.aliasName)) := by
      unfold targetForAlias
      rw [hdone.unregistered]
    rw [removeProject_unregistered htarget]
    exact ⟨fun t ht => absurd ht List.not_mem_nil, hdone⟩

/-- The alias is registered, or everything is gone. -/
theorem Underway.of_unregistered (h : Underway command unit machine)
    (hfree : machine.projects.get command.aliasName = none) :
    machine.units.file? unit = none ∧ machine.service = none := by
  have hnot : ¬ Registered command machine := by
    intro hregistered
    unfold Registered targetForAlias at hregistered
    rw [hfree] at hregistered
    cases hregistered
  cases h with
  | row hregistered _ _ => exact absurd hregistered hnot
  | cleared hregistered _ _ _ _ => exact absurd hregistered hnot
  | done hdone hservice => exact ⟨hdone.absent, hservice⟩

theorem Underway.restartable (h : Underway command unit machine) :
    Restartable command unit machine := by
  intro t ht
  have hunderway : Underway command unit t :=
    ht.invariant h fun _ u hu _ v hv => hu.run.1 v hv
  exact ⟨hunderway.run.2, hunderway.of_unregistered⟩

/-! ### What restarting needs -/

theorem Restartable.of_visited (h : Restartable command unit machine) {t : Machine}
    (ht : t ∈ (removeProject command machine).visited) : Restartable command unit t :=
  fun u hu => h u (.head ⟨(), trivial, ht⟩ hu)

theorem Restartable.decommissioned (h : Restartable command unit machine) :
    Decommissioned command unit ((removeProject command machine).last machine) := (h machine .refl).1

theorem Decommissioned.not_registered (h : Decommissioned command unit machine) :
    ¬ Registered command machine := by
  intro hregistered
  unfold Registered targetForAlias at hregistered
  rw [h.unregistered] at hregistered
  cases hregistered

theorem removeProject_refused {e : RemoveError} (hregistered : Registered command machine)
    (h : authorityEstablished command machine = .error e) :
    removeProject command machine = ⟨[], .error e⟩ := by
  have hregistered' : targetForAlias command machine = .ok () := hregistered
  unfold removeProject
  rw [Program.observe_bind hregistered']
  refine Program.bind_of_error ?_ _
  simp [Program.observe, h]

theorem removeProject_unmanaged {e : RemoveError} {established : Bool} {unit : Option Text}
    (hregistered : Registered command machine)
    (hestablished : authorityEstablished command machine = .ok established)
    (hname : knownSystemdName command machine = .ok unit)
    (h : inspectKnown command machine true unit = .error e) :
    removeProject command machine = ⟨[], .error e⟩ := by
  have hregistered' : targetForAlias command machine = .ok () := hregistered
  unfold removeProject
  rw [Program.observe_bind hregistered', Program.observe_bind hestablished,
    Program.observe_bind hname]
  refine Program.bind_of_error ?_ _
  simp [Program.observe, h]

/-- Without a row and a service, restarting needs an unobstructed directory. -/
theorem Restartable.unobstructed (h : Restartable command unit machine)
    (hregistered : Registered command machine) (hauthority : machine.authority = none)
    (hservice : machine.service = none) : Unobstructed command machine.units := by
  -- the induction is on the number of unit files that are left
  induction hlength : machine.units.entries.length using Nat.strong_induction_on
    generalizing machine with
  | _ n ih =>
    cases hfound : unitsAuthority command machine.units with
    | error e =>
      have hestablished : authorityEstablished command machine = .error (.systemd e) := by
        unfold authorityEstablished
        rw [hauthority]
        simp [hfound, ofSystemd, bind, Except.bind, Except.mapError]
      have hdone := h.decommissioned
      rw [removeProject_refused hregistered hestablished] at hdone
      exact absurd hregistered hdone.not_registered
    | ok found =>
      cases found with
      | none => exact .clear hfound
      | some name =>
        have hnone : ServiceOf machine name := by
          intro host hhost
          rw [hservice] at hhost
          cases hhost
        have hrun := removeProject_found hregistered hauthority hfound hnone
        obtain ⟨-, hfile, -⟩ := unitsAuthority_eq_some hfound
        have hgone : Restartable command unit ((machine.stop name).unlink name) := by
          refine h.of_visited ?_
          rw [hrun]
          simp [fullRun]
        refine .found hfound (ih _ ?_ hgone hregistered hauthority hnone.stop rfl)
        rw [← hlength]
        exact length_erase_lt hfile

/-- A service that outlives the removal of the unit stops the command for good. -/
theorem Restartable.serviceOf {managed : Bool} {known : Option Text} {path : Text}
    (h : Restartable command unit machine) (hregistered : Registered command machine)
    (hestablished : authorityEstablished command machine = .ok true)
    (hname : knownSystemdName command machine = .ok known)
    (hmanaged : inspectKnown command machine true known = .ok managed)
    (hpath : unitPath command.project known = .ok path)
    (hinspect : inspectUnit command machine true (some path) false = .ok true) :
    ServiceOf machine path := by
  obtain ⟨-, hfile⟩ := inspect_eq_ok hinspect
  have hremove := supervisorRemove_present hpath hfile.symm hinspect
  intro host hhost
  by_contra hother
  have hstays : ((machine.stop path).unlink path).service ≠ none := by
    show (if machine.service = some (.unit path) then none else machine.service) ≠ none
    rw [hhost, if_neg (by simpa using hother)]
    simp
  have hdone := h.decommissioned
  rw [removeProject_service hregistered hestablished hname hmanaged hremove hstays] at hdone
  exact hdone.not_registered hregistered

theorem RowOf.recoverable (hrow : RowOf command machine unit)
    (hregistered : Registered command machine)
    (hestablished : Remove.authorityEstablished command machine = .ok true)
    (h : Restartable command unit machine) : Recoverable command unit machine := by
  have howned : (machine.units.file? unit).isSome = true →
      inspectUnit command machine true (some unit) false = .ok true := by
    intro hfile
    cases hinspect : inspectUnit command machine true (some unit) false with
    | error e =>
      -- the command stops at the inspection, and the unit file is still there
      have hmanaged : inspectKnown command machine true (some unit) = .error (.systemd e) := by
        show ofSystemd (inspectUnit command machine true (some unit) false) = _
        rw [hinspect]
        rfl
      have hdone := h.decommissioned
      rw [removeProject_unmanaged hregistered hestablished hrow.knownSystemdName hmanaged] at hdone
      exact absurd hregistered hdone.not_registered
    | ok answer =>
      obtain ⟨-, hanswer⟩ := inspect_eq_ok hinspect
      rw [hanswer, hfile]
  cases hfile : machine.units.file? unit with
  | some file =>
    have hpresent : (machine.units.file? unit).isSome = true := by
      rw [hfile]
      rfl
    have hinspect := howned hpresent
    have hservice : ServiceOf machine unit := h.serviceOf hregistered hestablished
      hrow.knownSystemdName (ofSystemd_ok hinspect) hrow.unitPath hinspect
    have hcleared : Restartable command unit ((machine.stop unit).unlink unit).clear := by
      refine h.of_visited ?_
      rw [removeProject_row_present hregistered hrow hinspect hservice]
      simp [fullRun]
    exact ⟨howned, fun host hhost => ⟨hservice host hhost, hpresent⟩,
      hcleared.unobstructed hregistered rfl hservice.stop⟩
  | none =>
    have hnone : ∀ withEnv allowLegacy,
        inspectUnit command machine withEnv (some unit) allowLegacy = .ok false :=
      fun _ _ => inspect_absent hrow.unitPath hfile
    have hservice : machine.service = none := by
      by_contra hstays
      have hdone := h.decommissioned
      rw [removeProject_service hregistered hestablished hrow.knownSystemdName
        (ofSystemd_ok (hnone true false)) (supervisorRemove_absent hrow.unitPath hfile) hstays]
        at hdone
      exact hdone.not_registered hregistered
    have hcleared : Restartable command unit machine.clear := by
      refine h.of_visited ?_
      rw [removeProject_row_absent hregistered hrow hfile hservice]
      simp
    refine ⟨howned, fun host hhost => ?_, ?_⟩
    · rw [hservice] at hhost
      cases hhost
    · rw [erase_of_absent hfile]
      exact hcleared.unobstructed hregistered rfl hservice

theorem Restartable.recoverable_of_units (h : Restartable command unit machine)
    (hregistered : Registered command machine) (hauthority : machine.authority = none)
    (hfound : unitsAuthority command machine.units = .ok (some unit)) :
    Recoverable command unit machine := by
  obtain ⟨hinspect, hfile, -⟩ := unitsAuthority_eq_some hfound
  obtain ⟨known, managed, -, hpath, hall⟩ := exists_known hfound
  obtain ⟨hestablished, hname, hmanaged, -⟩ := hall machine rfl hauthority
  have hservice : ServiceOf machine unit :=
    h.serviceOf hregistered hestablished hname hmanaged hpath hinspect
  have hgone : Restartable command unit ((machine.stop unit).unlink unit) := by
    refine h.of_visited ?_
    rw [removeProject_found hregistered hauthority hfound hservice]
    simp [fullRun]
  exact ⟨fun _ => hinspect, fun host hhost => ⟨hservice host hhost, hfile⟩,
    hgone.unobstructed hregistered hauthority hservice.stop⟩

theorem rowOf_of_established {row : Authority} (hrow : machine.authority = some row)
    (h : authorityEstablished command machine = .ok true) : RowOf command machine row.unitName := by
  unfold authorityEstablished at h
  rw [hrow] at h
  simp only [Bool.not_eq_true'] at h
  split at h
  case isTrue => cases h
  case isFalse hmatches =>
    refine ⟨row, hrow, by simpa using hmatches, rfl, ?_⟩
    cases hpath : unitPath command.project (some row.unitName) with
    | error e => simp [hpath, ofSystemd, bind, Except.bind, Except.mapError] at h
    | ok path => exact (unitPath_eq_ok.mp hpath).1

/-- **Restarting.** For a registered project under systemd authority, decommissioning can be restarted
    after any number of killed runs if and only if the unit, when it is there, is accepted without
    leave for legacy units, a running service is run by that unit, and the other unit files are no
    obstacle. -/
theorem restartable_iff (hregistered : Registered command machine)
    (hestablished : authorityEstablished command machine = .ok true)
    (hunit : acceptedUnit command machine = .ok (some unit)) :
    Restartable command unit machine ↔ Recoverable command unit machine := by
  unfold acceptedUnit at hunit
  cases hauthority : machine.authority with
  | some row =>
    rw [hauthority] at hunit
    have hname : row.unitName = unit := Option.some.inj (Except.ok.inj hunit)
    have hrow : RowOf command machine unit := hname ▸ rowOf_of_established hauthority hestablished
    exact ⟨hrow.recoverable hregistered hestablished,
      fun h => (Underway.row hregistered hrow h).restartable⟩
  | none =>
    rw [hauthority] at hunit
    refine ⟨fun h => h.recoverable_of_units hregistered hauthority hunit, fun h => ?_⟩
    have hservice : machine.service = none
        ∨ ∃ name, unitsAuthority command machine.units = .ok (some name)
          ∧ ServiceOf machine name :=
      .inr ⟨unit, hunit, fun host hhost => (h.service host hhost).1⟩
    exact (Underway.cleared hregistered hauthority (.found hunit h.unobstructed) hservice
      (.inr hunit)).restartable

end Runs

/-! ### A legacy unit -/

def sampleCommand : Command where
  aliasName := text "app"
  project := { Systemd.sampleProject (text "/srv/app") with envFile := text "/srv/app/.env" }
  paths := samplePaths
  launcher := [text "/opt/app"]
  beyond _ := false
  stops := true

def sampleUnit : Text := text "devlegate-aaaaaaaa.service"

def sampleRow : Authority :=
  ⟨sampleUnit, List.replicate 64 (codePoint 'a'), text "/srv/app/.env", text "/srv/app"⟩

/-- The project is registered under systemd authority, and its unit file is the given one. -/
def sampleMachine (file : UnitFile) (service : Option Host) : Machine where
  units := UnitDirectory.empty.put sampleUnit file
  authority := some sampleRow
  service := service
  projects := [(text "app", text "/srv/app/.env")]

theorem rowOf_sampleMachine (file : UnitFile) (service : Option Host) :
    RowOf sampleCommand (sampleMachine file service) sampleUnit :=
  ⟨sampleRow, rfl, by decide, rfl, by decide⟩

/-- A unit of an earlier version:  the marker and the state key, without binding comments. -/
def legacyUnit : UnitFile :=
  .content (managedMarker ++ [lineFeed] ++ stateKeyComment ++ List.replicate 64 (codePoint 'a')
    ++ [lineFeed])

theorem inspectUnit_legacyUnit (service : Option Host) (allowLegacy : Bool) :
    inspectUnit sampleCommand (sampleMachine legacyUnit service) true (some sampleUnit) allowLegacy
      = if allowLegacy then .ok true else .error (.unmanaged sampleUnit) := by
  cases allowLegacy <;> rfl

/-- The command does not get past the inspection of a legacy unit. -/
theorem LegacyUnit.not_restartable :
    Registered sampleCommand (sampleMachine legacyUnit none)
      ∧ authorityEstablished sampleCommand (sampleMachine legacyUnit none) = .ok true
      ∧ acceptedUnit sampleCommand (sampleMachine legacyUnit none) = .ok (some sampleUnit)
      ∧ ¬ Restartable sampleCommand sampleUnit (sampleMachine legacyUnit none) := by
  have hrow := rowOf_sampleMachine legacyUnit none
  have hestablished := hrow.authorityEstablished (inspectUnit_legacyUnit none true)
  refine ⟨rfl, hestablished, rfl, fun h => ?_⟩
  have howned := (hrow.recoverable rfl hestablished h).owned rfl
  rw [inspectUnit_legacyUnit] at howned
  cases howned

/-- The unit that `install` writes for the sample project. -/
def renderedUnit : UnitFile :=
  .content (renderUnit sampleCommand.beyond sampleCommand.launcher sampleCommand.project)

theorem inspectUnit_renderedUnit (service : Option Host) (allowLegacy : Bool) :
    inspectUnit sampleCommand (sampleMachine renderedUnit service) true (some sampleUnit) allowLegacy
      = .ok true := by
  have hfaithful : Faithful sampleCommand.launcher sampleCommand.project := by
    refine ⟨fun c hc => ⟨not_boundary_literal rfl (by decide) c hc, isSurrogate_of_mem_text hc⟩,
      fun c hc => ⟨not_boundary_literal rfl (by decide) c hc, isSurrogate_of_mem_text hc⟩,
      fun argument hargument c hc => ?_⟩
    rw [List.mem_singleton.mp hargument] at hc
    have hclean : Clean (text "/opt/app") := clean_literal rfl (by decide)
    refine ⟨?_, isSurrogate_of_mem_text hc⟩
    rintro rfl
    exact absurd (hclean _ hc) (by decide)
  have hpath := (rowOf_sampleMachine renderedUnit service).unitPath
  have hclass : classify sampleCommand.beyond sampleCommand.launcher
      (sampleMachine renderedUnit service).units sampleCommand.project true (some sampleUnit)
      allowLegacy = .ok .current :=
    hfaithful.classify_put _ (unitPath_eq_ok.mp hpath).1 allowLegacy _
  have hfile : (sampleMachine renderedUnit service).units.file? sampleUnit = some renderedUnit :=
    UnitDirectory.file?_put _ _ _
  exact inspect_of_current hpath hfile hclass

theorem restartable_iff_rendered :
    Restartable sampleCommand sampleUnit (sampleMachine renderedUnit (some (.unit sampleUnit)))
      ↔ Recoverable sampleCommand sampleUnit
          (sampleMachine renderedUnit (some (.unit sampleUnit))) :=
  restartable_iff rfl
    ((rowOf_sampleMachine _ _).authorityEstablished (inspectUnit_renderedUnit _ true)) rfl

end Devlegate.Remove
