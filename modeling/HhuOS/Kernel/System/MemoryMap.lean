import Mathlib.Algebra.Group.Nat.Basic
import HhuOS.Util.Exception

/-!
# The physical memory size

`System::calculatePhysicalMemorySize` scans the multiboot memory map for the entry that ends
highest, `address + length` in 64 bits, among the entries of type `MULTIBOOT_MEMORY_AVAILABLE`,
throws `ILLEGAL_STATE` when the entry it ends with is not available, and returns that end cut
to 32 bits. `System::initializeSystem` hands `physicalMemorySize - 1` to the page frame
allocator as its last address.

`maxEntry` is a reference to `memoryMap[0]`, so the scan starts from the first entry whatever its
type; `maxEntry = entry` copies into that slot of the local copy of the map, which the loop has
already passed. `calculatePhysicalMemorySize_spec` says what the function returns on every map:
it fails exactly when the first entry is reserved and no available entry ends above it, and
otherwise returns the 32-bit cut of the highest end of an available entry.
`calculatePhysicalMemorySize_reserved_first_or_above_4GiB` runs the two maps where this is not
the size the kernel needs: a reserved first entry that ends highest, and memory above 4 GiB.

The memory map has at least one entry, `first`.
-/

namespace HhuOS

namespace System

/-- `Multiboot::MemoryMapEntry`: a 64-bit address and length and a 32-bit type. -/
structure MemoryMapEntry where
  address : BitVec 64
  length : BitVec 64
  type : BitVec 32
  deriving DecidableEq, Repr

/-- `Multiboot::MULTIBOOT_MEMORY_AVAILABLE`. -/
def multibootMemoryAvailable : BitVec 32 := 1

/-- `entry.address + entry.length`, computed in `uint64_t`. -/
def MemoryMapEntry.endAddress (entry : MemoryMapEntry) : BitVec 64 := entry.address + entry.length

/-- The multiboot memory map: `memoryMap[0]` and the entries after it. -/
structure MemoryMap where
  first : MemoryMapEntry
  rest : List MemoryMapEntry
  deriving DecidableEq, Repr

/-- All entries, in the order the loop visits them. -/
def MemoryMap.entries (memoryMap : MemoryMap) : List MemoryMapEntry :=
  memoryMap.first :: memoryMap.rest

/-- One entry of the loop: skip it unless it is available, and take it when it ends above
`maxEntry`. -/
def maxEntryStep (maxEntry entry : MemoryMapEntry) : MemoryMapEntry :=
  if entry.type ≠ multibootMemoryAvailable then maxEntry
  else if maxEntry.endAddress < entry.endAddress then entry else maxEntry

/-- The message of `calculatePhysicalMemorySize`'s exception. -/
def noUsableMemoryMessage : String := "No usable memory found!"

/-- `System::calculatePhysicalMemorySize`. -/
def calculatePhysicalMemorySize (memoryMap : MemoryMap) : Except Exception (BitVec 32) :=
  let maxEntry := memoryMap.entries.foldl maxEntryStep memoryMap.first
  if maxEntry.type ≠ multibootMemoryAvailable then .error ⟨.illegalState, noUsableMemoryMessage⟩
  else .ok (maxEntry.endAddress.setWidth 32)

/-- The last address `initializeSystem` gives the page frame allocator, `physicalMemorySize - 1`
in `uint32_t`. -/
def pageFrameAllocatorEnd (physicalMemorySize : BitVec 32) : BitVec 32 := physicalMemorySize - 1

/-! ## The scan -/

/-- What the loop keeps from any start `acc`: the start, or an available entry that ends above
it; and an entry that ends at least as high as the start and as every available entry. -/
lemma foldl_maxEntryStep (entries : List MemoryMapEntry) (acc : MemoryMapEntry) :
    (entries.foldl maxEntryStep acc = acc ∨
        (entries.foldl maxEntryStep acc ∈ entries ∧
          (entries.foldl maxEntryStep acc).type = multibootMemoryAvailable ∧
          acc.endAddress.toNat < (entries.foldl maxEntryStep acc).endAddress.toNat)) ∧
      acc.endAddress.toNat ≤ (entries.foldl maxEntryStep acc).endAddress.toNat ∧
      ∀ e ∈ entries, e.type = multibootMemoryAvailable →
        e.endAddress.toNat ≤ (entries.foldl maxEntryStep acc).endAddress.toNat := by
  induction entries generalizing acc with
  | nil => exact ⟨.inl rfl, Nat.le_refl _, by simp⟩
  | cons entry entries ih =>
    simp only [List.foldl_cons, List.mem_cons, forall_eq_or_imp]
    rw [maxEntryStep]
    split_ifs with htype hlt
    · -- a reserved entry is skipped
      obtain ⟨hr, hle, hmax⟩ := ih acc
      exact ⟨hr.imp_right fun h => ⟨.inr h.1, h.2⟩, hle, fun h => absurd h htype, hmax⟩
    · -- an available entry that ends higher is taken
      obtain ⟨hr, hle, hmax⟩ := ih entry
      rw [BitVec.lt_def] at hlt
      refine ⟨.inr ⟨?_, ?_, by omega⟩, by omega, fun _ => hle, hmax⟩
      · exact hr.elim .inl fun h => .inr h.1
      · exact hr.elim (fun h => by rw [h]; exact not_not.1 htype) fun h => h.2.1
    · -- an available entry that does not end higher is skipped
      obtain ⟨hr, hle, hmax⟩ := ih acc
      rw [BitVec.lt_def] at hlt
      exact ⟨hr.imp_right fun h => ⟨.inr h.1, h.2⟩, hle, fun _ => by omega, hmax⟩

/-! ## What the function returns -/

/-- On every memory map, `calculatePhysicalMemorySize` throws `ILLEGAL_STATE` exactly when the
first entry is not available and no available entry ends above it; otherwise it returns the end
of an available entry that ends at least as high as every available entry, cut to 32 bits. -/
theorem calculatePhysicalMemorySize_spec (memoryMap : MemoryMap) :
    (calculatePhysicalMemorySize memoryMap = .error ⟨.illegalState, noUsableMemoryMessage⟩ ↔
        memoryMap.first.type ≠ multibootMemoryAvailable ∧
          ∀ e ∈ memoryMap.entries, e.type = multibootMemoryAvailable →
            e.endAddress.toNat ≤ memoryMap.first.endAddress.toNat) ∧
      ∀ size, calculatePhysicalMemorySize memoryMap = .ok size →
        ∃ e ∈ memoryMap.entries, e.type = multibootMemoryAvailable ∧
          size = e.endAddress.setWidth 32 ∧
          ∀ e' ∈ memoryMap.entries, e'.type = multibootMemoryAvailable →
            e'.endAddress.toNat ≤ e.endAddress.toNat := by
  obtain ⟨hr, -, hmax⟩ := foldl_maxEntryStep memoryMap.entries memoryMap.first
  unfold calculatePhysicalMemorySize
  dsimp only
  generalize memoryMap.entries.foldl maxEntryStep memoryMap.first = m at hr hmax ⊢
  split_ifs with htype
  · -- the entry the loop ends with is reserved: it is the first one
    obtain rfl : m = memoryMap.first := hr.resolve_right fun h => htype h.2.1
    exact ⟨iff_of_true rfl ⟨htype, hmax⟩, fun _ h => nomatch h⟩
  · -- it is available: it ends highest among the available entries
    refine ⟨iff_of_false (fun h => nomatch h) fun ⟨hfirst, hbelow⟩ => ?_,
      fun size h => ⟨m, ?_, not_not.1 htype, (Except.ok.inj h).symm, hmax⟩⟩
    · rcases hr with rfl | ⟨hmem, havail, hlt⟩
      · exact htype hfirst
      · exact absurd (hbelow m hmem havail) (Nat.not_le.2 hlt)
    · exact hr.elim (fun h => h ▸ List.mem_cons_self _ _) fun h => h.1

/-- A map that lists the reserved firmware area below 4 GiB first, then 640 KiB and 3 GiB of
available memory. -/
def reservedFirstMap : MemoryMap :=
  ⟨⟨0xFFFC0000, 0x40000, 2⟩, [⟨0, 0x9FC00, 1⟩, ⟨0x100000, 0xBFF00000, 1⟩]⟩

/-- A map with 1 GiB of available memory above 4 GiB. -/
def aboveFourGiBMap : MemoryMap :=
  ⟨⟨0, 0x9FC00, 1⟩, [⟨0x100000, 0xBFF00000, 1⟩, ⟨0x100000000, 0x40000000, 1⟩]⟩

/-- Two maps on which the size is not the end of the highest available region: the first has
available memory but fails with `ILLEGAL_STATE`, because its reserved first entry ends highest;
on the second the highest end, `0x140000000`, is cut to `0x40000000`, and the page frame
allocator ends at `0x3FFFFFFF` instead of `min(0x140000000, 2^32) - 1`. -/
theorem calculatePhysicalMemorySize_reserved_first_or_above_4GiB :
    (∃ e ∈ reservedFirstMap.entries, e.type = multibootMemoryAvailable) ∧
      calculatePhysicalMemorySize reservedFirstMap =
        .error ⟨.illegalState, noUsableMemoryMessage⟩ ∧
      calculatePhysicalMemorySize aboveFourGiBMap = .ok 0x40000000 ∧
      (pageFrameAllocatorEnd 0x40000000).toNat = 0x3FFFFFFF ∧
      (pageFrameAllocatorEnd 0x40000000).toNat ≠ min 0x140000000 (2 ^ 32) - 1 :=
  ⟨⟨_, List.mem_cons_of_mem _ (List.mem_cons_self _ _), rfl⟩, rfl, rfl, rfl, by decide⟩

end System

end HhuOS
