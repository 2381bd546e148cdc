import HhuOS.Os.FileSystem

/-!
# The calls that resolve a path through the mount table

`FileSystem::getNode`, `createFile`, `createDirectory` and `addVirtualNode` parse the path, ask
`getMountedDriver` for the driver of the longest mount point the path begins with, and pass the
path inside that driver to the driver. `getNode`, `createFile` and `createDirectory` answer
`nullptr` or `FILE_NOT_FOUND` when there is no driver; `addVirtualNode` calls `getTypeName` on
the driver without that test, a null dereference, which the model returns as `none`.
`FileSystem::onEvent` deletes and re-adds the node of a storage device when one is added; its
second branch, meant for removed devices, repeats the test for an added one and never runs.

What the drivers answer is an input, as for `deleteFile`. `getMountedDriver_isSome_iff` says
when resolution finds a driver: exactly when a nonempty key is a string prefix of the path with
`/` appended. Over reachable tables that is a mount point at or above the path
(`resolve_fails_iff`), and over every table every path resolves exactly when `/` is mounted
(`resolves_all_iff_root`).
-/

namespace HhuOS

namespace FileSystem

variable {δ ν : Type}

/-- The file types `createNode` is asked for. -/
inductive FileType where
  | regularFile
  | directoryFile
  deriving DecidableEq, Repr

/-- The return codes of `createFile`, `createDirectory` and `addVirtualNode`. -/
inductive NodeStatus where
  | success
  | fileNotFound
  | creatingFileFailed
  | creatingDirectoryFailed
  | addingVirtualNodeFailed
  deriving DecidableEq, Repr

/-- `FileSystem::getNode`; `getNode` is the resolved driver's answer for the path inside it. -/
def getNode (mountPoints : MountPoints δ) (path : List Char) (getNode : δ → List Char → Option ν) :
    Option ν :=
  match getMountedDriver mountPoints (parsePath path) with
  | (none, _) => none
  | (some driver, parsedPath) => getNode driver parsedPath

/-- The body shared by `createFile` and `createDirectory`: `createNode` of the given type, and the
code for a refused creation. -/
def createNodeOf (fileType : FileType) (failed : NodeStatus) (mountPoints : MountPoints δ)
    (path : List Char) (createNode : δ → List Char → FileType → Bool) : NodeStatus :=
  match getMountedDriver mountPoints (parsePath path) with
  | (none, _) => .fileNotFound
  | (some driver, parsedPath) => if createNode driver parsedPath fileType then .success else failed

/-- `FileSystem::createFile`. -/
def createFile : MountPoints δ → List Char → (δ → List Char → FileType → Bool) → NodeStatus :=
  createNodeOf .regularFile .creatingFileFailed

/-- `FileSystem::createDirectory`. -/
def createDirectory : MountPoints δ → List Char → (δ → List Char → FileType → Bool) → NodeStatus :=
  createNodeOf .directoryFile .creatingDirectoryFailed

/-- `FileSystem::addVirtualNode`; `typeName` is `getTypeName` of a driver and `addNode` the answer of
`RamFsDriver::addNode`. `none` is the call of `getTypeName` on a null driver. -/
def addVirtualNode (mountPoints : MountPoints δ) (path : List Char) (typeName : δ → List Char)
    (addNode : δ → List Char → Bool) : Option NodeStatus :=
  match getMountedDriver mountPoints (parsePath path) with
  | (none, _) => none
  | (some driver, parsedPath) =>
    if typeName driver ≠ typeRamFs then some .addingVirtualNodeFailed
    else some (if addNode driver parsedPath then .success else .addingVirtualNodeFailed)

/-- The event types `onEvent` tests. -/
inductive EventType where
  | storageAdd
  | storageRemove
  | other
  deriving DecidableEq, Repr

/-- An event with the name of the storage device it is about. -/
structure Event where
  type : EventType
  deviceName : List Char

/-- The calls `onEvent` makes. -/
inductive Call where
  | deleteFile (path : List Char)
  | addVirtualNode (path : List Char)
  deriving DecidableEq, Repr

/-- `FileSystem::onEvent`: the calls it makes, in order. -/
def onEvent (event : Event) : List Call :=
  if event.type = .storageAdd then
    [.deleteFile ("/dev/storage/".toList ++ event.deviceName), .addVirtualNode "/dev/storage/".toList]
  else if event.type = .storageAdd then [.deleteFile ("/dev/storage/".toList ++ event.deviceName)]
  else []

/-- The second branch of `onEvent` repeats the test of the first, so a removed device's node is
never deleted. -/
lemma onEvent_of_ne {event : Event} (h : event.type ≠ .storageAdd) : onEvent event = [] := by
  simp only [onEvent, h, if_false]

/-! ## When a path resolves -/

/-- Mount resolution on a parsed path: the longest mount point, and the path below it. -/
lemma getMountedDriver_parsePath (mountPoints : MountPoints δ) (path : List Char) :
    getMountedDriver mountPoints (parsePath path) =
      let ret := longestMountPoint mountPoints.keySet (parsePath path ++ ['/'])
      if ret.isEmpty then (none, parsePath path ++ ['/'])
      else (mountPoints.get ret, substring (parsePath path ++ ['/']) ret.length
        ((parsePath path ++ ['/']).length - 1)) := by
  simp only [getMountedDriver, isSuffixOf_sep_parsePath, Bool.false_eq_true, if_false]

/-- Resolution finds a driver exactly when a nonempty key is a string prefix of the path with `/`
appended. -/
lemma getMountedDriver_isSome_iff (mountPoints : MountPoints δ) (path : List Char) :
    (getMountedDriver mountPoints (parsePath path)).1.isSome ↔
      ∃ k ∈ mountPoints.keySet, k ≠ [] ∧ k <+: parsePath path ++ ['/'] := by
  obtain ⟨hr, hmax⟩ := longestMountPoint_spec mountPoints.keySet (parsePath path ++ ['/'])
  rw [getMountedDriver_parsePath]
  generalize longestMountPoint mountPoints.keySet (parsePath path ++ ['/']) = r at hr hmax
  cases r with
  | nil =>
    refine iff_of_false (by simp) fun ⟨k, hk, hne, hp⟩ => hne ?_
    exact List.length_eq_zero.1 (Nat.le_zero.1 (hmax k hk hp))
  | cons c r =>
    obtain ⟨hk, hp⟩ := hr.resolve_left (List.cons_ne_nil c r)
    exact iff_of_true (MountPoints.get_isSome hk) ⟨_, hk, List.cons_ne_nil c r, hp⟩

/-- In a reachable table, resolution fails exactly on the paths with no mount point at or above
them. -/
lemma getMountedDriver_eq_none_iff {T : MountPoints δ} (hT : Reachable T) (path : List Char) :
    (getMountedDriver T (parsePath path)).1 = none ↔
      ∀ k ∈ T.keySet, ¬ split k <+: split (parsePath path) := by
  rw [← Option.not_isSome_iff_eq_none, getMountedDriver_isSome_iff, not_exists]
  refine forall_congr' fun k => ?_
  simp only [not_and]
  refine imp_congr_right fun hk => ?_
  obtain ⟨q, rfl⟩ := keysCanonical_of_reachable hT k hk
  rw [key_prefix_iff ⟨q, rfl⟩]
  exact ⟨fun h => h (by simp), fun h _ => h⟩

/-- Creating a node answers `FILE_NOT_FOUND` exactly when no driver is mounted above the path. -/
lemma createNodeOf_eq_fileNotFound_iff {fileType : FileType} {failed : NodeStatus}
    (hfailed : failed ≠ .fileNotFound) (mountPoints : MountPoints δ) (path : List Char)
    (createNode : δ → List Char → FileType → Bool) :
    createNodeOf fileType failed mountPoints path createNode = .fileNotFound ↔
      (getMountedDriver mountPoints (parsePath path)).1 = none := by
  unfold createNodeOf
  split
  · next h => exact iff_of_true rfl (by rw [h])
  · next h =>
    refine iff_of_false ?_ (by rw [h]; exact Option.some_ne_none _)
    split
    · decide
    · exact hfailed

/-- `addVirtualNode` finds no driver exactly when none is mounted above the path. -/
lemma addVirtualNode_eq_none_iff (mountPoints : MountPoints δ) (path : List Char)
    (typeName : δ → List Char) (addNode : δ → List Char → Bool) :
    addVirtualNode mountPoints path typeName addNode = none ↔
      (getMountedDriver mountPoints (parsePath path)).1 = none := by
  unfold addVirtualNode
  split
  · next h => exact iff_of_true rfl (by rw [h])
  · next h =>
    refine iff_of_false ?_ (by rw [h]; exact Option.some_ne_none _)
    split <;> exact nofun

/-- With no driver above the path, `getNode` finds no node. -/
lemma getNode_of_eq_none {mountPoints : MountPoints δ} {path : List Char}
    (h : (getMountedDriver mountPoints (parsePath path)).1 = none)
    (driverGetNode : δ → List Char → Option ν) : getNode mountPoints path driverGetNode = none := by
  unfold getNode
  split
  · rfl
  · next h' => rw [h'] at h; exact absurd h nofun

/-- The callers of `getMountedDriver` on a path with no mount point: in every reachable table,
`createFile` and `createDirectory` answer `FILE_NOT_FOUND`, and `addVirtualNode` calls
`getTypeName` on a null driver, exactly when no mount point is at or above the path, and
`getNode` then returns `nullptr`. -/
theorem resolve_fails_iff {T : MountPoints δ} (hT : Reachable T) (path : List Char)
    (createNode : δ → List Char → FileType → Bool) (typeName : δ → List Char)
    (addNode : δ → List Char → Bool) (driverGetNode : δ → List Char → Option ν) :
    (createFile T path createNode = .fileNotFound ↔
        ∀ k ∈ T.keySet, ¬ split k <+: split (parsePath path)) ∧
      (createDirectory T path createNode = .fileNotFound ↔
        ∀ k ∈ T.keySet, ¬ split k <+: split (parsePath path)) ∧
      (addVirtualNode T path typeName addNode = none ↔
        ∀ k ∈ T.keySet, ¬ split k <+: split (parsePath path)) ∧
      ((∀ k ∈ T.keySet, ¬ split k <+: split (parsePath path)) →
        getNode T path driverGetNode = none) := by
  rw [← getMountedDriver_eq_none_iff hT]
  exact ⟨createNodeOf_eq_fileNotFound_iff (show NodeStatus.creatingFileFailed ≠ _ by decide) T path
      createNode,
    createNodeOf_eq_fileNotFound_iff (show NodeStatus.creatingDirectoryFailed ≠ _ by decide) T path
      createNode,
    addVirtualNode_eq_none_iff T path typeName addNode, fun h => getNode_of_eq_none h driverGetNode⟩

/-- A canonical path with `/` appended begins with `/`. -/
lemma sep_prefix_parsePath (path : List Char) : ['/'] <+: parsePath path ++ ['/'] := by
  obtain ⟨u, hu⟩ := joinTokens_sep_eq_cons (parsedTokens path)
  rw [parsePath_eq_joinTokens, hu]
  exact ⟨u, rfl⟩

/-- Every path resolves exactly when `/` is mounted: for every mount table, `getMountedDriver`
finds a driver for the parsed form of every path exactly when `/` is a key. -/
theorem resolves_all_iff_root (T : MountPoints δ) :
    (∀ path, (getMountedDriver T (parsePath path)).1.isSome) ↔ ['/'] ∈ T.keySet := by
  refine ⟨fun h => ?_, fun hroot path => (getMountedDriver_isSome_iff T path).2
    ⟨['/'], hroot, List.cons_ne_nil _ _, sep_prefix_parsePath path⟩⟩
  obtain ⟨k, hk, hne, hp⟩ := (getMountedDriver_isSome_iff T []).1 (h [])
  have hk' : k = ['/'] := hp.eq_of_length (le_antisymm hp.length_le (List.length_pos.2 hne))
  exact hk' ▸ hk

/-- In the table of `FileSystem::init`, creating `/initrd/bin` fails with `FILE_NOT_FOUND` exactly
when no mount point is an ancestor of it, and the same for a directory. -/
theorem resolve_fails_iff_init :
    Reachable initMountPoints ∧
      (createFile initMountPoints "/initrd/bin".toList (fun _ _ _ => true) = .fileNotFound ↔
        ∀ k ∈ initMountPoints.keySet, ¬ split k <+: split (parsePath "/initrd/bin".toList)) ∧
      (createDirectory initMountPoints "/initrd/bin".toList (fun _ _ _ => true) = .fileNotFound ↔
        ∀ k ∈ initMountPoints.keySet, ¬ split k <+: split (parsePath "/initrd/bin".toList)) ∧
      (addVirtualNode initMountPoints "/initrd/bin".toList (fun _ => typeRamFs) (fun _ _ => true) = none ↔
        ∀ k ∈ initMountPoints.keySet, ¬ split k <+: split (parsePath "/initrd/bin".toList)) ∧
      ((∀ k ∈ initMountPoints.keySet, ¬ split k <+: split (parsePath "/initrd/bin".toList)) →
        getNode initMountPoints "/initrd/bin".toList (fun _ _ => (none : Option Unit)) = none) :=
  ⟨reachable_initMountPoints, resolve_fails_iff reachable_initMountPoints _ _ _ _ _⟩

/-! ## The root mount point -/

/-- The root is unmounted last: in every reachable table, `unmount` of a path whose canonical form
is the root succeeds only when `/` is the only mount point, and leaves the table empty. -/
theorem unmount_root_empties {T : MountPoints δ} (hT : Reachable T) {path : List Char}
    (hroot : parsePath path = []) (targetFound : Bool)
    (hsuccess : (unmount T path targetFound).2 = .success) :
    (unmount T path targetFound).1.keySet = [] := by
  have hkeys := keysCanonical_of_reachable hT
  unfold unmount at hsuccess ⊢
  simp only [hroot, List.nil_append] at hsuccess ⊢
  split_ifs at hsuccess ⊢ with h₁ h₂ h₃
  · simp only [MountPoints.remove, MountPoints.keySet, List.map_eq_nil_iff, List.filter_eq_nil_iff]
    intro e he
    have hmem : e.1 ∈ T.keySet := List.mem_map_of_mem Prod.fst he
    obtain ⟨q, hq⟩ := hkeys e.1 hmem
    have hnot := List.any_eq_false.1 (Bool.not_eq_true _ ▸ h₂) e.1 hmem
    rw [hq, Bool.and_eq_true, List.isPrefixOf_iff_prefix, not_and] at hnot
    rw [hq]
    simpa using hnot (sep_prefix_parsePath q)

/-- The table with only a `RamFsDriver` at `/`. -/
def rootOnly : MountPoints Nat := (mount .empty [] ['/'] typeRamFs ⟨fun _ => true, true, true⟩ 0).1

/-- Unmounting `/` from a table that holds only `/` empties it. -/
theorem unmount_root_empties_rootOnly :
    Reachable rootOnly ∧ parsePath ['/'] = [] ∧ (unmount rootOnly ['/'] true).2 = .success ∧
      (unmount rootOnly ['/'] true).1.keySet = [] :=
  have h : Reachable rootOnly := .mount _ _ _ _ _ .empty
  ⟨h, by decide, by decide, unmount_root_empties h (by decide) true (by decide)⟩

end FileSystem

end HhuOS
