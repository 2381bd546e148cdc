import HhuOS.Os.FileSystem.Path

/-!
# Mount points of the virtual file system

`FileSystem` keeps its mounted drivers in the map `mountPoints` from path strings to drivers.
`FileSystem::mount` and `FileSystem::mountInitRamdisk` store a driver under a canonical path
followed by `/`; `FileSystem::unmount` removes one. `FileSystem::getMountedDriver`, which
`getNode`, `createFile`, `createDirectory`, `addVirtualNode` and `deleteFile` call on a parsed
path, appends `/` to the path, takes the longest key the path begins with, and cuts that key off
the path. The answers that `mount` and `unmount` get from drivers and from the storage service
are inputs (`MountAnswers`).

`getMountedDriver_deepest` is the result over every mount table reachable from the empty one:
with the trailing `/` of every key, the longest key that is a string prefix is the deepest
mount point that is a component-wise ancestor.
-/

namespace HhuOS

namespace FileSystem

/-! ## The mount table -/

/-- `Util::HashMap<String, FsDriver*> mountPoints`: keys are distinct. -/
structure MountPoints (δ : Type) where
  entries : List (List Char × δ)
  nodup : (entries.map Prod.fst).Nodup

namespace MountPoints

variable {δ : Type}

/-- The table before the first mount. -/
def empty : MountPoints δ := ⟨[], List.nodup_nil⟩

/-- `HashMap::keySet`. -/
def keySet (T : MountPoints δ) : List (List Char) := T.entries.map Prod.fst

/-- `HashMap::size`. -/
def size (T : MountPoints δ) : Nat := T.entries.length

/-- `HashMap::containsKey`. -/
def containsKey (T : MountPoints δ) (key : List Char) : Bool := decide (key ∈ T.keySet)

/-- `HashMap::get`; `none` stands for `nullptr`. -/
def get (T : MountPoints δ) (key : List Char) : Option δ := T.entries.lookup key

/-- `HashMap::put`: the new value replaces an old one under the same key. -/
def put (T : MountPoints δ) (key : List Char) (value : δ) : MountPoints δ :=
  ⟨(key, value) :: T.entries.filter (fun e => e.1 != key), by
    refine List.nodup_cons.2 ⟨fun h => ?_, T.nodup.sublist ((List.filter_sublist _).map _)⟩
    obtain ⟨e, he, hek⟩ := List.mem_map.1 h
    have hne := (List.mem_filter.1 he).2
    rw [hek, bne_self_eq_false] at hne
    exact Bool.false_ne_true hne⟩

/-- `HashMap::remove`. -/
def remove (T : MountPoints δ) (key : List Char) : MountPoints δ :=
  ⟨T.entries.filter (fun e => e.1 != key), T.nodup.sublist ((List.filter_sublist _).map _)⟩

/-- A key of the table after `put` is the new key or an old one. -/
lemma mem_keySet_put {T : MountPoints δ} {key k : List Char} {value : δ}
    (h : k ∈ (T.put key value).keySet) : k = key ∨ k ∈ T.keySet := by
  simp only [put, keySet, List.map_cons, List.mem_cons, List.mem_map, List.mem_filter] at h ⊢
  rcases h with h | ⟨e, ⟨he, -⟩, rfl⟩
  · exact .inl h
  · exact .inr ⟨e, he, rfl⟩

/-- A key of the table after `remove` was a key before. -/
lemma mem_keySet_remove {T : MountPoints δ} {key k : List Char}
    (h : k ∈ (T.remove key).keySet) : k ∈ T.keySet := by
  simp only [remove, keySet, List.mem_map, List.mem_filter] at h ⊢
  obtain ⟨e, ⟨he, -⟩, rfl⟩ := h
  exact ⟨e, he, rfl⟩

/-- A key of the table has a value. -/
lemma get_isSome {T : MountPoints δ} {key : List Char} (h : key ∈ T.keySet) :
    (T.get key).isSome := by
  simp only [keySet, List.mem_map] at h
  obtain ⟨e, he, rfl⟩ := h
  exact List.lookup_isSome_iff.2 ⟨e, he, beq_self_eq_true _⟩

end MountPoints

/-- The return codes of `mount`, `unmount` and `deleteFile`. -/
inductive Status where
  | success
  | deviceNotFound
  | fileNotFound
  | mountTargetAlreadyUsed
  | mountingFailed
  | subdirectoryContainsMountPoint
  | nothingMountedAtPath
  | deletingFileFailed
  deriving DecidableEq, Repr

/-- `TYPE_RAM_FS`, the file system type that needs no device. -/
def typeRamFs : List Char := "RamFsDriver".toList

/-- What `mount` learns outside the table: whether the storage service has a device for a device
path (through its device node or by name), whether `getNode` found the target, and whether the
new driver's `mount` succeeded. -/
structure MountAnswers where
  deviceFound : List Char → Bool
  targetFound : Bool
  driverMounts : Bool

variable {δ : Type}

/-- `FileSystem::mount`, with the new driver `driver`. -/
def mount (mountPoints : MountPoints δ) (devicePath targetPath fsType : List Char)
    (answers : MountAnswers) (driver : δ) : MountPoints δ × Status :=
  if fsType ≠ typeRamFs ∧ !answers.deviceFound devicePath then (mountPoints, .deviceNotFound)
  else
    let parsedPath := parsePath targetPath ++ ['/']
    if !answers.targetFound ∧ mountPoints.size ≠ 0 then (mountPoints, .fileNotFound)
    else if mountPoints.containsKey parsedPath then (mountPoints, .mountTargetAlreadyUsed)
    else if !answers.driverMounts then (mountPoints, .mountingFailed)
    else (mountPoints.put parsedPath driver, .success)

/-- `FileSystem::unmount`; `targetFound` is whether `getNode` found the path. -/
def unmount (mountPoints : MountPoints δ) (path : List Char) (targetFound : Bool) :
    MountPoints δ × Status :=
  let parsedPath := parsePath path ++ ['/']
  if !targetFound ∧ path ≠ ['/'] then (mountPoints, .fileNotFound)
  else if mountPoints.keySet.any (fun key => parsedPath.isPrefixOf key && key != parsedPath) then
    (mountPoints, .subdirectoryContainsMountPoint)
  else if mountPoints.containsKey parsedPath then (mountPoints.remove parsedPath, .success)
  else (mountPoints, .nothingMountedAtPath)

/-- `FileSystem::mountInitRamdisk`, with the tar archive's driver `tarDriver`. -/
def mountInitRamdisk (mountPoints : MountPoints δ) (path : List Char) (tarDriver : δ) :
    MountPoints δ :=
  if !(['/'].isSuffixOf path) then mountPoints.put (path ++ ['/']) tarDriver
  else mountPoints.put path tarDriver

/-- One key of the loop of `getMountedDriver`: keep it when `path` begins with it and it is longer
than the best so far. -/
def longerMountPoint (path ret key : List Char) : List Char :=
  if key.isPrefixOf path && ret.length < key.length then key else ret

/-- The loop of `getMountedDriver`: the longest key that `path` begins with, or the empty string
when there is none. -/
def longestMountPoint (keys : List (List Char)) (path : List Char) : List Char :=
  keys.foldl (longerMountPoint path) []

/-- `FileSystem::getMountedDriver`: the driver, and the path as the reference parameter holds it
at the end. -/
def getMountedDriver (mountPoints : MountPoints δ) (path : List Char) : Option δ × List Char :=
  let path := if ['/'].isSuffixOf path then path else path ++ ['/']
  let ret := longestMountPoint mountPoints.keySet path
  if ret.isEmpty then (none, path)
  else (mountPoints.get ret, substring path ret.length (path.length - 1))

/-- `FileSystem::deleteFile`; `deleteNode` is the answer of the resolved driver's `deleteNode` for
the path `getMountedDriver` leaves. -/
def deleteFile (mountPoints : MountPoints δ) (path : List Char) (deleteNode : δ → List Char → Bool) :
    Status :=
  let parsedPath := parsePath path
  if mountPoints.keySet.any fun key => parsedPath.isPrefixOf key then .subdirectoryContainsMountPoint
  else
    match getMountedDriver mountPoints parsedPath with
    | (none, _) => .fileNotFound
    | (some driver, parsedPath) => if deleteNode driver parsedPath then .success else .deletingFileFailed

/-- The mount tables reachable from the empty one. `mountInitRamdisk` is called with a path in
canonical form. -/
inductive Reachable : MountPoints δ → Prop
  | empty : Reachable .empty
  | mount {T : MountPoints δ} (devicePath targetPath fsType : List Char) (answers : MountAnswers)
      (driver : δ) : Reachable T → Reachable (mount T devicePath targetPath fsType answers driver).1
  | mountInitRamdisk {T : MountPoints δ} (path : List Char) (tarDriver : δ) :
      Reachable T → parsePath path = path → Reachable (mountInitRamdisk T path tarDriver)
  | unmount {T : MountPoints δ} (path : List Char) (targetFound : Bool) :
      Reachable T → Reachable (unmount T path targetFound).1

/-! ## Failed calls change nothing -/

/-- `mount` either fails and leaves the table alone, or stores the driver under the parsed
target path followed by `/`, which was not a key. -/
lemma mount_cases (T : MountPoints δ) (devicePath targetPath fsType : List Char)
    (answers : MountAnswers) (driver : δ) :
    (∃ status, status ≠ .success ∧ mount T devicePath targetPath fsType answers driver = (T, status)) ∨
      (T.containsKey (parsePath targetPath ++ ['/']) = false ∧
        mount T devicePath targetPath fsType answers driver =
          (T.put (parsePath targetPath ++ ['/']) driver, .success)) := by
  unfold mount
  dsimp only
  split_ifs with h₁ h₂ h₃
  · refine .inl ⟨_, ?_, rfl⟩; decide
  · refine .inl ⟨_, ?_, rfl⟩; decide
  · refine .inl ⟨_, ?_, rfl⟩; decide
  · refine .inl ⟨_, ?_, rfl⟩; decide
  · exact .inr ⟨by simpa using h₃, rfl⟩

/-- `unmount` either fails and leaves the table alone, or removes the parsed path followed by
`/`, which was a key. -/
lemma unmount_cases (T : MountPoints δ) (path : List Char) (targetFound : Bool) :
    (∃ status, status ≠ .success ∧ unmount T path targetFound = (T, status)) ∨
      (T.containsKey (parsePath path ++ ['/']) = true ∧
        unmount T path targetFound = (T.remove (parsePath path ++ ['/']), .success)) := by
  unfold unmount
  dsimp only
  split_ifs with h₁ h₂ h₃
  · refine .inl ⟨_, ?_, rfl⟩; decide
  · refine .inl ⟨_, ?_, rfl⟩; decide
  · exact .inr ⟨h₃, rfl⟩
  · refine .inl ⟨_, ?_, rfl⟩; decide

/-! ## Keys are canonical paths -/

/-- Every key is a canonical path followed by `/`. -/
def KeysCanonical (T : MountPoints δ) : Prop := ∀ k ∈ T.keySet, ∃ path, k = parsePath path ++ ['/']

/-- Under the key invariant, a key is a prefix of a parsed path followed by `/` exactly when it is
a component-wise ancestor-or-self of the path. -/
lemma key_prefix_iff {k : List Char} (hk : ∃ path, k = parsePath path ++ ['/']) (p : List Char) :
    k <+: parsePath p ++ ['/'] ↔ split k <+: split (parsePath p) := by
  obtain ⟨path, rfl⟩ := hk
  rw [split_parsePath, parsePath_eq_joinTokens, split_joinTokens_sep
    (fun _ => isToken_of_mem_parsedTokens), parsePath_eq_joinTokens]
  exact joinTokens_sep_prefix_iff (fun _ => isToken_of_mem_parsedTokens)
    (fun _ => isToken_of_mem_parsedTokens)

/-- A mount key splits into the tokens of its path. -/
lemma split_key (path : List Char) : split (parsePath path ++ ['/']) = parsedTokens path := by
  rw [parsePath_eq_joinTokens, split_joinTokens_sep (fun _ => isToken_of_mem_parsedTokens)]

/-! ## The loop of `getMountedDriver` -/

/-- What the loop of `getMountedDriver` keeps from any start: the start or a key that is a prefix,
at least as long as the start and as every key that is a prefix. -/
lemma foldl_longerMountPoint (keys : List (List Char)) (path acc : List Char) :
    (keys.foldl (longerMountPoint path) acc = acc ∨
        (keys.foldl (longerMountPoint path) acc ∈ keys ∧
          keys.foldl (longerMountPoint path) acc <+: path)) ∧
      acc.length ≤ (keys.foldl (longerMountPoint path) acc).length ∧
      ∀ k ∈ keys, k <+: path → k.length ≤ (keys.foldl (longerMountPoint path) acc).length := by
  induction keys generalizing acc with
  | nil => exact ⟨.inl rfl, le_refl _, by simp⟩
  | cons key keys ih =>
    simp only [List.foldl_cons, List.mem_cons, longerMountPoint]
    split
    · next hkey =>
      simp only [Bool.and_eq_true, List.isPrefixOf_iff_prefix, decide_eq_true_eq] at hkey
      obtain ⟨hr, hlen, hmax⟩ := ih key
      refine ⟨?_, by omega, ?_⟩
      · rcases hr with hr | ⟨hr, hp⟩
        · exact .inr ⟨.inl hr, by rw [hr]; exact hkey.1⟩
        · exact .inr ⟨.inr hr, hp⟩
      · rintro k (rfl | hk) hp
        · exact hlen
        · exact hmax k hk hp
    · next hkey =>
      simp only [Bool.and_eq_true, List.isPrefixOf_iff_prefix, decide_eq_true_eq, not_and,
        not_lt] at hkey
      obtain ⟨hr, hlen, hmax⟩ := ih acc
      refine ⟨?_, hlen, ?_⟩
      · rcases hr with hr | ⟨hr, hp⟩
        · exact .inl hr
        · exact .inr ⟨.inr hr, hp⟩
      · rintro k (rfl | hk) hp
        · exact (hkey hp).trans hlen
        · exact hmax k hk hp

/-- The loop of `getMountedDriver` ends with the empty string or a key that is a prefix of the
path, and with none shorter than a key that is a prefix. -/
lemma longestMountPoint_spec (keys : List (List Char)) (path : List Char) :
    (longestMountPoint keys path = [] ∨
        (longestMountPoint keys path ∈ keys ∧ longestMountPoint keys path <+: path)) ∧
      ∀ k ∈ keys, k <+: path → k.length ≤ (longestMountPoint keys path).length :=
  ⟨(foldl_longerMountPoint keys path []).1, (foldl_longerMountPoint keys path []).2.2⟩

/-! ## Mount tables over whole runs -/

/-- Adding a key built from a parsed path keeps every key canonical. -/
lemma KeysCanonical.put {T : MountPoints δ} (hT : KeysCanonical T) (path : List Char) (d : δ) :
    KeysCanonical (T.put (parsePath path ++ ['/']) d) := fun k hk =>
  (MountPoints.mem_keySet_put hk).elim (fun h => ⟨path, h⟩) (hT k)

/-- Removing a key keeps every key canonical. -/
lemma KeysCanonical.remove {T : MountPoints δ} (hT : KeysCanonical T) (key : List Char) :
    KeysCanonical (T.remove key) := fun k hk => hT k (MountPoints.mem_keySet_remove hk)

/-- The run invariant: every key of a reachable table is a canonical path followed by `/`. -/
lemma keysCanonical_of_reachable {T : MountPoints δ} (h : Reachable T) : KeysCanonical T := by
  induction h with
  | empty => intro k hk; simp [MountPoints.keySet, MountPoints.empty] at hk
  | mount devicePath targetPath fsType answers driver _ ih =>
    rcases mount_cases _ devicePath targetPath fsType answers driver with ⟨_, -, h⟩ | ⟨-, h⟩ <;>
      rw [h]
    · exact ih
    · exact ih.put targetPath driver
  | mountInitRamdisk path tarDriver _ hpath ih =>
    unfold mountInitRamdisk
    rw [← hpath, isSuffixOf_sep_parsePath]
    exact ih.put path tarDriver
  | unmount path targetFound _ ih =>
    rcases unmount_cases _ path targetFound with ⟨_, -, h⟩ | ⟨-, h⟩ <;> rw [h]
    · exact ih
    · exact ih.remove _

/-- Mount resolution is a deepest-ancestor lookup. In every mount table reachable through
`mount`, `mountInitRamdisk` with a canonical path, and `unmount`, every key is a canonical path
followed by `/`; and for every path that has a mount point as a component-wise ancestor-or-self,
`getMountedDriver` on the parsed path returns the driver of the longest such key and rewrites the
path to the tokens past that key, joined by `/`. -/
theorem getMountedDriver_deepest {T : MountPoints δ} (hT : Reachable T) :
    (∀ k ∈ T.keySet, ∃ path, k = parsePath path ++ ['/']) ∧
      ∀ p, ∀ k ∈ T.keySet, split k <+: split (parsePath p) →
        ∃ k' ∈ T.keySet, split k' <+: split (parsePath p) ∧
          (∀ k'' ∈ T.keySet, split k'' <+: split (parsePath p) → k''.length ≤ k'.length) ∧
          (T.get k').isSome ∧
          getMountedDriver T (parsePath p) =
            (T.get k', ['/'].intercalate ((split (parsePath p)).drop (split k').length)) := by
  have hkeys := keysCanonical_of_reachable hT
  refine ⟨hkeys, fun p k hk hanc => ?_⟩
  obtain ⟨hr, hmax⟩ := longestMountPoint_spec T.keySet (parsePath p ++ ['/'])
  have hkr := hmax k hk ((key_prefix_iff (hkeys k hk) p).2 hanc)
  have hk0 : 0 < k.length := by
    obtain ⟨path, rfl⟩ := hkeys k hk
    simp
  obtain ⟨hrk, hrp⟩ := hr.resolve_left fun h => by rw [h, List.length_nil] at hkr; omega
  generalize hr_def : longestMountPoint T.keySet (parsePath p ++ ['/']) = r at hrk hrp hkr hmax
  have hranc := (key_prefix_iff (hkeys r hrk) p).1 hrp
  refine ⟨r, hrk, hranc, fun k'' hk'' h => hmax k'' hk'' ((key_prefix_iff (hkeys k'' hk'') p).2 h),
    MountPoints.get_isSome hrk, ?_⟩
  have hne : r.isEmpty = false := by
    cases r with
    | nil => rw [List.length_nil] at hkr; omega
    | cons => rfl
  simp only [getMountedDriver, isSuffixOf_sep_parsePath, Bool.false_eq_true, if_false, hr_def, hne]
  obtain ⟨path, rfl⟩ := hkeys r hrk
  rw [split_key, split_parsePath] at hranc ⊢
  obtain ⟨rs, hrs⟩ := hranc
  rw [parsePath_eq_joinTokens p, parsePath_eq_joinTokens path, ← hrs, List.drop_left,
    substring_joinTokens]

/-- The table `FileSystem::init` builds when there is no root device: a `RamFsDriver` at `/`
(driver 0), the initial ramdisk at `/initrd` (driver 1) and a `RamFsDriver` at `/dev`
(driver 2). -/
def initMountPoints : MountPoints Nat :=
  (mount (mountInitRamdisk (mount .empty [] ['/'] typeRamFs ⟨fun _ => true, true, true⟩ 0).1
    "/initrd".toList 1) [] "/dev".toList typeRamFs ⟨fun _ => true, true, true⟩ 2).1

/-- The table of `FileSystem::init` is reachable, so mount resolution in it is a deepest-ancestor
lookup. -/
lemma reachable_initMountPoints : Reachable initMountPoints :=
  .mount _ _ _ _ _ (.mountInitRamdisk _ _ (.mount _ _ _ _ _ .empty) (by decide))

/-- The table that `FileSystem::init` builds is reachable, so mount resolution in it finds the
deepest mount point. -/
theorem getMountedDriver_deepest_init :
    Reachable initMountPoints ∧
      ((∀ k ∈ initMountPoints.keySet, ∃ path, k = parsePath path ++ ['/']) ∧
        ∀ p, ∀ k ∈ initMountPoints.keySet, split k <+: split (parsePath p) →
          ∃ k' ∈ initMountPoints.keySet, split k' <+: split (parsePath p) ∧
            (∀ k'' ∈ initMountPoints.keySet, split k'' <+: split (parsePath p) →
              k''.length ≤ k'.length) ∧
            (initMountPoints.get k').isSome ∧
            getMountedDriver initMountPoints (parsePath p) =
              (initMountPoints.get k', ['/'].intercalate ((split (parsePath p)).drop (split k').length))) := by
  exact ⟨reachable_initMountPoints, getMountedDriver_deepest reachable_initMountPoints⟩

example : getMountedDriver initMountPoints (parsePath "/dev/../initrd/./bin".toList) =
    (some 1, "bin".toList) := by
  decide

/-! ## `deleteFile` -/

/-- For every reachable mount table and every path, `deleteFile` refuses with
`SUBDIRECTORY_CONTAINS_MOUNT_POINT` exactly when some mount point's names are the path's names
up to its last one, followed by a name that begins with the path's last name, or the path is the
root and there is a mount point: the guard is a string prefix test, so besides the mount points
at or below the path it also finds those below a sibling whose name extends the path's last
name. -/
theorem deleteFile_refuses_iff {T : MountPoints δ} (hT : Reachable T) (path : List Char)
    (deleteNode : δ → List Char → Bool) :
    deleteFile T path deleteNode = .subdirectoryContainsMountPoint ↔
      ∃ key ∈ T.keySet, split (parsePath path) = [] ∨
        ∃ init t k rest, split (parsePath path) = init ++ [t] ∧ split key = init ++ k :: rest ∧
          t <+: k := by
  have hguard : deleteFile T path deleteNode = .subdirectoryContainsMountPoint ↔
      ∃ key ∈ T.keySet, parsePath path <+: key := by
    simp only [deleteFile, List.any_eq_true, List.isPrefixOf_iff_prefix]
    split_ifs with h
    · exact iff_of_true rfl h
    · refine iff_of_false ?_ h
      split
      · exact nofun
      · split <;> exact nofun
  rw [hguard]
  refine exists_congr fun key => and_congr_right fun hkey => ?_
  obtain ⟨q, rfl⟩ := keysCanonical_of_reachable hT key hkey
  rw [split_key, split_parsePath, parsePath_eq_joinTokens path, parsePath_eq_joinTokens q]
  exact joinTokens_prefix_key_iff (fun _ => isToken_of_mem_parsedTokens)
    (fun _ => isToken_of_mem_parsedTokens)

/-- On the table of `FileSystem::init`, `deleteFile("/init")` is refused exactly as the
characterisation says. -/
theorem deleteFile_refuses_iff_init :
    Reachable initMountPoints ∧
      (deleteFile initMountPoints "/init".toList (fun _ _ => true) = .subdirectoryContainsMountPoint ↔
        ∃ key ∈ initMountPoints.keySet, split (parsePath "/init".toList) = [] ∨
          ∃ init t k rest, split (parsePath "/init".toList) = init ++ [t] ∧
            split key = init ++ k :: rest ∧ t <+: k) :=
  ⟨reachable_initMountPoints, deleteFile_refuses_iff reachable_initMountPoints _ _⟩

/-- `deleteFile("/init")` on the table of `FileSystem::init`: no mount point is `/init` or lies
below it, but the key `/initrd/` begins with `/init`, so the call is refused with
`SUBDIRECTORY_CONTAINS_MOUNT_POINT` whatever the drivers answer. -/
theorem deleteFile_init_refused (deleteNode : Nat → List Char → Bool) :
    Reachable initMountPoints ∧
      (∀ key ∈ initMountPoints.keySet, ¬ parsePath "/init".toList ++ ['/'] <+: key) ∧
      deleteFile initMountPoints "/init".toList deleteNode = .subdirectoryContainsMountPoint :=
  ⟨reachable_initMountPoints, by decide, rfl⟩

end FileSystem

end HhuOS
