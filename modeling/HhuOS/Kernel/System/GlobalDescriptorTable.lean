import Mathlib.Algebra.Group.Nat.Basic

/-!
# The global descriptor tables

`System::createGlobalDescriptorTableEntry` writes one 8-byte segment descriptor into a table of
16-bit words, `gdt[4·num] … gdt[4·num + 3]`: limit bits 0–15; base bits 0–15; base bits 16–23
with the access byte above them; limit bits 16–19, the four flag bits, and base bits 24–31.
`System::initializeGlobalDescriptorTables` clears the first 6 entries of the system GDT and the
first 4 of the BIOS GDT, writes the system's null, kernel code and data, user code and data and
TSS descriptors and the BIOS GDT's null, kernel code and data and 16-bit code descriptors, and
fills the three GDT descriptors.

Words and arguments are bit vectors of the widths of the source's `uint16_t`, `uint32_t` and
`uint8_t`; the C++ expressions of the upper two words are computed in `int` or `uint32_t` and
stored in a `uint16_t`, so they are computed in `BitVec 32` and cut to 16 bits. `decodeEntry`
reads an entry back by the x86 descriptor layout. `createGlobalDescriptorTableEntry_round_trip`
says that the writer is its inverse on every argument and touches only its four words, and that
the entries of `initializeGlobalDescriptorTables` all read back as written.

The word values are computed on natural numbers: a mask by `2^n - 1` is a `%`, a shifted mask a
`/` and `%`, and the `|` of a value below `2^k` with a multiple of `2^k` is a sum
(`lor_eq_add_of_lt`), which `%` and `/` by `2^k` split back into its parts
(`mod_div_add_mul_two_pow`).
-/

namespace HhuOS

/-! ## Bits as arithmetic -/

/-- The `|` of a value below `2^k` and a multiple of `2^k` adds them. -/
lemma lor_eq_add_of_lt {a c k : Nat} (ha : a < 2 ^ k) (hc : c % 2 ^ k = 0) : a ||| c = a + c := by
  obtain ⟨b, rfl⟩ : ∃ b, c = 2 ^ k * b :=
    ⟨c / 2 ^ k, (Nat.mul_div_cancel' (Nat.dvd_of_mod_eq_zero hc)).symm⟩
  apply Nat.eq_of_testBit_eq
  intro i
  rw [Nat.testBit_or, Nat.add_comm, Nat.testBit_mul_pow_two_add b ha, Nat.testBit_mul_pow_two]
  by_cases hi : i < k
  · simp [hi, Nat.not_le.2 hi]
  · have : a.testBit i = false :=
      Nat.testBit_lt_two_pow (Nat.lt_of_lt_of_le ha (Nat.pow_le_pow_right (by decide) (by omega)))
    simp [hi, this, Nat.not_lt.1 hi]

/-- A mask of `n` ones shifted up by `k` keeps the bits `k … k + n - 1`. -/
lemma land_two_pow_sub_one_mul (x n k : Nat) :
    x &&& (2 ^ n - 1) * 2 ^ k = x / 2 ^ k % 2 ^ n * 2 ^ k := by
  apply Nat.eq_of_testBit_eq
  intro i
  rw [← Nat.shiftLeft_eq, ← Nat.shiftLeft_eq, ← Nat.shiftRight_eq_div_pow]
  simp only [Nat.testBit_and, Nat.testBit_shiftLeft, Nat.testBit_two_pow_sub_one,
    Nat.testBit_mod_two_pow, Nat.testBit_shiftRight]
  by_cases hi : k ≤ i
  · simp [hi, Nat.add_sub_cancel' hi, Bool.and_comm]
  · simp [hi]

/-- A value below `2^k` plus a multiple of `2^k` splits back into its two parts. -/
lemma mod_div_add_mul_two_pow {x k : Nat} (y : Nat) (hx : x < 2 ^ k) :
    (x + y * 2 ^ k) % 2 ^ k = x ∧ (x + y * 2 ^ k) / 2 ^ k = y := by
  rw [Nat.add_mul_mod_self_right, Nat.mod_eq_of_lt hx, Nat.add_mul_div_right _ _ (Nat.two_pow_pos k),
    Nat.div_eq_of_lt hx, Nat.zero_add]
  exact ⟨rfl, rfl⟩

namespace System

/-! ## `createGlobalDescriptorTableEntry` -/

/-- `gdt[index] = value` on a table of 16-bit words. -/
def writeWord (gdt : Nat → BitVec 16) (index : Nat) (value : BitVec 16) : Nat → BitVec 16 :=
  fun i => if i = index then value else gdt i

/-- The first word: `(uint16_t) (limit & 0xFFFF)`. -/
def limitLowWord (limit : BitVec 32) : BitVec 16 := (limit &&& 0xFFFF#32).setWidth 16

/-- The second word: `(uint16_t) (base & 0xFFFF)`. -/
def baseLowWord (base : BitVec 32) : BitVec 16 := (base &&& 0xFFFF#32).setWidth 16

/-- The third word: `(uint16_t) ((base >> 16) & 0xFF) | (access << 8)`. -/
def accessBaseMidWord (base : BitVec 32) (access : BitVec 8) : BitVec 16 :=
  ((base >>> 16) &&& 0xFF#32 ||| access.setWidth 32 <<< 8).setWidth 16

/-- The fourth word:
`(uint16_t) ((limit >> 16) & 0x0F) | ((flags << 4) & 0xF0) | ((base >> 16) & 0xFF00)`. -/
def baseHighFlagsLimitHighWord (base limit : BitVec 32) (flags : BitVec 8) : BitVec 16 :=
  ((limit >>> 16) &&& 0x0F#32 ||| (flags.setWidth 32 <<< 4) &&& 0xF0#32 |||
    (base >>> 16) &&& 0xFF00#32).setWidth 16

/-- `System::createGlobalDescriptorTableEntry`; `idx = 4 * num` is a `uint16_t`. -/
def createGlobalDescriptorTableEntry (gdt : Nat → BitVec 16) (num : BitVec 16)
    (base limit : BitVec 32) (access flags : BitVec 8) : Nat → BitVec 16 :=
  let idx := (4 * num).toNat
  let gdt := writeWord gdt idx (limitLowWord limit)
  let gdt := writeWord gdt (idx + 1) (baseLowWord base)
  let gdt := writeWord gdt (idx + 2) (accessBaseMidWord base access)
  writeWord gdt (idx + 3) (baseHighFlagsLimitHighWord base limit flags)

/-- The first word holds the low 16 bits of the limit. -/
lemma toNat_limitLowWord (limit : BitVec 32) : (limitLowWord limit).toNat = limit.toNat % 2 ^ 16 := by
  simp only [limitLowWord, BitVec.toNat_setWidth, BitVec.toNat_and, BitVec.toNat_ofNat]
  rw [show (0xFFFF % 2 ^ 32 : Nat) = 2 ^ 16 - 1 from rfl, Nat.and_pow_two_sub_one_eq_mod, Nat.mod_mod]

/-- The second word holds the low 16 bits of the base. -/
lemma toNat_baseLowWord (base : BitVec 32) : (baseLowWord base).toNat = base.toNat % 2 ^ 16 :=
  toNat_limitLowWord base

/-- The third word holds bits 16 to 23 of the base and, above them, the access byte. -/
lemma toNat_accessBaseMidWord (base : BitVec 32) (access : BitVec 8) :
    (accessBaseMidWord base access).toNat = base.toNat / 2 ^ 16 % 2 ^ 8 + access.toNat * 2 ^ 8 := by
  have ha := access.isLt
  simp only [accessBaseMidWord, BitVec.toNat_setWidth, BitVec.toNat_or, BitVec.toNat_and,
    BitVec.toNat_ofNat, BitVec.toNat_ushiftRight, BitVec.toNat_shiftLeft, Nat.shiftRight_eq_div_pow,
    Nat.shiftLeft_eq]
  rw [show (0xFF % 2 ^ 32 : Nat) = 2 ^ 8 - 1 from rfl, Nat.and_pow_two_sub_one_eq_mod,
    lor_eq_add_of_lt (k := 8) (Nat.mod_lt _ (by decide)) (by omega)]
  omega

/-- The fourth word holds bits 16 to 19 of the limit, the low four bits of the flags and the high
byte of the base. -/
lemma toNat_baseHighFlagsLimitHighWord (base limit : BitVec 32) (flags : BitVec 8) :
    (baseHighFlagsLimitHighWord base limit flags).toNat =
      limit.toNat / 2 ^ 16 % 2 ^ 4 + flags.toNat % 2 ^ 4 * 2 ^ 4 + base.toNat / 2 ^ 24 * 2 ^ 8 := by
  have hb := base.isLt
  have hf := flags.isLt
  have hf' : flags.toNat < 2 ^ 32 := by omega
  simp only [baseHighFlagsLimitHighWord, BitVec.toNat_setWidth, BitVec.toNat_or, BitVec.toNat_and,
    BitVec.toNat_ofNat, BitVec.toNat_ushiftRight, BitVec.toNat_shiftLeft, Nat.shiftRight_eq_div_pow,
    Nat.shiftLeft_eq]
  rw [show (0x0F % 2 ^ 32 : Nat) = 2 ^ 4 - 1 from rfl, Nat.and_pow_two_sub_one_eq_mod,
    show (0xF0 % 2 ^ 32 : Nat) = (2 ^ 4 - 1) * 2 ^ 4 from rfl, land_two_pow_sub_one_mul,
    show (0xFF00 % 2 ^ 32 : Nat) = (2 ^ 8 - 1) * 2 ^ 8 from rfl, land_two_pow_sub_one_mul,
    lor_eq_add_of_lt (k := 4) (Nat.mod_lt _ (by decide)) (Nat.mul_mod_left _ _),
    lor_eq_add_of_lt (k := 8) (by omega) (Nat.mul_mod_left _ _), Nat.mod_eq_of_lt hf',
    Nat.mod_eq_of_lt (show flags.toNat * 2 ^ 4 < 2 ^ 32 by omega), Nat.mul_div_cancel _ (by decide),
    Nat.div_div_eq_div_mul, ← Nat.pow_add,
    Nat.mod_eq_of_lt (Nat.div_lt_of_lt_mul (show base.toNat < 2 ^ 24 * 2 ^ 8 from hb))]
  exact Nat.mod_eq_of_lt (by omega)

/-- The bytes of the third word: base bits 16–23 below the access byte. -/
lemma accessBaseMidWord_bytes (base : BitVec 32) (access : BitVec 8) :
    (accessBaseMidWord base access).toNat % 2 ^ 8 = base.toNat / 2 ^ 16 % 2 ^ 8 ∧
      (accessBaseMidWord base access).toNat / 2 ^ 8 = access.toNat := by
  rw [toNat_accessBaseMidWord]
  exact mod_div_add_mul_two_pow _ (Nat.mod_lt _ (by decide))

/-- The fields of the fourth word: limit bits 16–19, the flags, and base bits 24–31. -/
lemma baseHighFlagsLimitHighWord_fields (base limit : BitVec 32) (flags : BitVec 8) :
    (baseHighFlagsLimitHighWord base limit flags).toNat % 2 ^ 4 = limit.toNat / 2 ^ 16 % 2 ^ 4 ∧
      (baseHighFlagsLimitHighWord base limit flags).toNat / 2 ^ 4 % 2 ^ 4 = flags.toNat % 2 ^ 4 ∧
      (baseHighFlagsLimitHighWord base limit flags).toNat / 2 ^ 8 = base.toNat / 2 ^ 24 := by
  have hw : (baseHighFlagsLimitHighWord base limit flags).toNat =
      limit.toNat / 2 ^ 16 % 2 ^ 4 + (flags.toNat % 2 ^ 4 + base.toNat / 2 ^ 24 * 2 ^ 4) * 2 ^ 4 := by
    rw [toNat_baseHighFlagsLimitHighWord, Nat.add_mul, Nat.mul_assoc, ← Nat.pow_add, Nat.add_assoc]
  obtain ⟨hlo, hhi⟩ := mod_div_add_mul_two_pow (flags.toNat % 2 ^ 4 + base.toNat / 2 ^ 24 * 2 ^ 4)
    (Nat.mod_lt (limit.toNat / 2 ^ 16) (by decide : 0 < 2 ^ 4))
  obtain ⟨hflo, hfhi⟩ := mod_div_add_mul_two_pow (base.toNat / 2 ^ 24)
    (Nat.mod_lt flags.toNat (by decide : 0 < 2 ^ 4))
  rw [hw, show (2 : Nat) ^ 8 = 2 ^ 4 * 2 ^ 4 from rfl, ← Nat.div_div_eq_div_mul, hlo, hhi, hflo, hfhi]
  exact ⟨rfl, rfl, rfl⟩

/-! ## Reading an entry back -/

/-- The fields of a segment descriptor. -/
structure SegmentDescriptor where
  base : Nat
  limit : Nat
  access : Nat
  flags : Nat
  deriving DecidableEq, Repr

/-- Entry `num` of a table read by the x86 layout: limit bits 0–15 in word 0 and 16–19 in bits
0–3 of word 3; base bits 0–15 in word 1, 16–23 in the low byte of word 2 and 24–31 in the high
byte of word 3; the access byte in the high byte of word 2; the flags in bits 4–7 of word 3. -/
def decodeEntry (gdt : Nat → BitVec 16) (num : Nat) : SegmentDescriptor :=
  let word k := (gdt (4 * num + k)).toNat
  { base := word 1 + word 2 % 2 ^ 8 * 2 ^ 16 + word 3 / 2 ^ 8 * 2 ^ 24
    limit := word 0 + word 3 % 2 ^ 4 * 2 ^ 16
    access := word 2 / 2 ^ 8
    flags := word 3 / 2 ^ 4 % 2 ^ 4 }

section Entry

variable (gdt : Nat → BitVec 16) {num : BitVec 16} (base limit : BitVec 32) (access flags : BitVec 8)

/-- The word index of entry `num` does not wrap for the 8192 entries of a table. -/
lemma toNat_four_mul (hnum : num.toNat < 8192) : (4 * num).toNat = 4 * num.toNat := by
  simp only [BitVec.toNat_mul, BitVec.ofNat_eq_ofNat, BitVec.toNat_ofNat]
  omega

/-- The four words of entry `num` after the write. -/
lemma createGlobalDescriptorTableEntry_word (hnum : num.toNat < 8192) :
    createGlobalDescriptorTableEntry gdt num base limit access flags (4 * num.toNat) =
        limitLowWord limit ∧
      createGlobalDescriptorTableEntry gdt num base limit access flags (4 * num.toNat + 1) =
        baseLowWord base ∧
      createGlobalDescriptorTableEntry gdt num base limit access flags (4 * num.toNat + 2) =
        accessBaseMidWord base access ∧
      createGlobalDescriptorTableEntry gdt num base limit access flags (4 * num.toNat + 3) =
        baseHighFlagsLimitHighWord base limit flags := by
  simp only [createGlobalDescriptorTableEntry, writeWord, toNat_four_mul hnum]
  simp

/-- The frame: every word outside `gdt[4·num .. 4·num+3]` keeps its value. -/
lemma createGlobalDescriptorTableEntry_of_lt_or_lt (hnum : num.toNat < 8192) {i : Nat}
    (hi : i < 4 * num.toNat ∨ 4 * num.toNat + 3 < i) :
    createGlobalDescriptorTableEntry gdt num base limit access flags i = gdt i := by
  simp only [createGlobalDescriptorTableEntry, writeWord, toNat_four_mul hnum]
  rw [if_neg (by omega), if_neg (by omega), if_neg (by omega), if_neg (by omega)]

/-- The written entry decodes to its base, its 20-bit limit, its access byte and its four flag bits. -/
lemma decodeEntry_createGlobalDescriptorTableEntry (hnum : num.toNat < 8192) :
    decodeEntry (createGlobalDescriptorTableEntry gdt num base limit access flags) num.toNat =
      ⟨base.toNat, limit.toNat % 2 ^ 20, access.toNat, flags.toNat % 2 ^ 4⟩ := by
  obtain ⟨h0, h1, h2, h3⟩ := createGlobalDescriptorTableEntry_word gdt base limit access flags hnum
  obtain ⟨hw2lo, hw2hi⟩ := accessBaseMidWord_bytes base access
  obtain ⟨hw3lo, hw3mid, hw3hi⟩ := baseHighFlagsLimitHighWord_fields base limit flags
  simp only [decodeEntry, Nat.add_zero, h0, h1, h2, h3, toNat_limitLowWord, toNat_baseLowWord,
    hw2lo, hw2hi, hw3lo, hw3mid, hw3hi, SegmentDescriptor.mk.injEq, and_true, true_and]
  refine ⟨by omega, ?_⟩
  rw [show (2 : Nat) ^ 20 = 2 ^ 16 * 2 ^ 4 from rfl, Nat.mod_mul, Nat.mul_comm (2 ^ 16)]

/-- Writing entry `num` leaves every other entry as it reads. -/
lemma decodeEntry_createGlobalDescriptorTableEntry_of_ne (hnum : num.toNat < 8192) {m : Nat}
    (hm : m ≠ num.toNat) :
    decodeEntry (createGlobalDescriptorTableEntry gdt num base limit access flags) m =
      decodeEntry gdt m := by
  have hframe := fun k (hk : k < 4) => createGlobalDescriptorTableEntry_of_lt_or_lt gdt base limit
    access flags hnum (i := 4 * m + k) (by omega)
  simp only [decodeEntry, hframe 0 (by decide), hframe 1 (by decide), hframe 2 (by decide),
    hframe 3 (by decide)]

end Entry

/-! ## `initializeGlobalDescriptorTables` -/

/-- The arguments of one `createGlobalDescriptorTableEntry` call. -/
structure EntryArguments where
  num : BitVec 16
  base : BitVec 32
  limit : BitVec 32
  access : BitVec 8
  flags : BitVec 8

namespace EntryArguments

/-- The call itself. -/
def write (gdt : Nat → BitVec 16) (e : EntryArguments) : Nat → BitVec 16 :=
  createGlobalDescriptorTableEntry gdt e.num e.base e.limit e.access e.flags

/-- The descriptor the arguments stand for: the base, the 20 bits of the limit, the access byte
and the 4 flag bits. -/
def descriptor (e : EntryArguments) : SegmentDescriptor :=
  ⟨e.base.toNat, e.limit.toNat % 2 ^ 20, e.access.toNat, e.flags.toNat % 2 ^ 4⟩

end EntryArguments

/-- Writes to other entries leave entry `m` as it reads. -/
lemma decodeEntry_foldl_write_of_forall_ne (gdt : Nat → BitVec 16) {entries : List EntryArguments}
    {m : Nat} (hlt : ∀ e ∈ entries, e.num.toNat < 8192) (hne : ∀ e ∈ entries, m ≠ e.num.toNat) :
    decodeEntry (entries.foldl EntryArguments.write gdt) m = decodeEntry gdt m := by
  induction entries generalizing gdt with
  | nil => rfl
  | cons e entries ih =>
    rw [List.foldl_cons, ih _ (fun e' he' => hlt e' (List.mem_cons_of_mem e he'))
        (fun e' he' => hne e' (List.mem_cons_of_mem e he')), EntryArguments.write,
      decodeEntry_createGlobalDescriptorTableEntry_of_ne _ _ _ _ _ (hlt e (List.mem_cons_self _ _))
        (hne e (List.mem_cons_self _ _))]

/-- A sequence of entry writes to distinct entries below 8192: each entry reads back as written,
whatever the others and whatever the order. -/
lemma decodeEntry_foldl_write (gdt : Nat → BitVec 16) {entries : List EntryArguments}
    (hlt : ∀ e ∈ entries, e.num.toNat < 8192) (hnodup : (entries.map (·.num)).Nodup) :
    ∀ e ∈ entries, decodeEntry (entries.foldl EntryArguments.write gdt) e.num.toNat = e.descriptor := by
  induction entries generalizing gdt with
  | nil => simp
  | cons e₀ entries ih =>
    have hlt' := fun e he => hlt e (List.mem_cons_of_mem e₀ he)
    obtain ⟨hfresh, hnodup'⟩ := List.nodup_cons.1 hnodup
    intro e he
    rcases List.mem_cons.1 he with rfl | he
    · rw [List.foldl_cons, decodeEntry_foldl_write_of_forall_ne _ hlt' fun e' he' h =>
        hfresh (List.mem_map.2 ⟨e', he', (BitVec.eq_of_toNat_eq h).symm⟩)]
      exact decodeEntry_createGlobalDescriptorTableEntry _ _ _ _ _ (hlt e (List.mem_cons_self _ _))
    · exact ih _ hlt' hnodup' e he

/-- The entries of the system GDT, as `initializeGlobalDescriptorTables` creates them: null,
kernel code, kernel data, user code, user data, and the TSS at `tssAddress` with limit
`sizeof(TaskStateSegment)`. -/
def systemGdtEntries (tssAddress tssSize : BitVec 32) : List EntryArguments :=
  [⟨0, 0, 0, 0, 0⟩, ⟨1, 0, 0xFFFFFFFF, 0x9A, 0xC⟩, ⟨2, 0, 0xFFFFFFFF, 0x92, 0xC⟩,
    ⟨3, 0, 0xFFFFFFFF, 0xFA, 0xC⟩, ⟨4, 0, 0xFFFFFFFF, 0xF2, 0xC⟩, ⟨5, tssAddress, tssSize, 0x89, 0x4⟩]

/-- The entries of the BIOS GDT: null, kernel code, kernel data, and the 16-bit BIOS-call code
segment at `BIOS_CODE_MEMORY.startAddress`. -/
def biosGdtEntries (biosCodeStart : BitVec 32) : List EntryArguments :=
  [⟨0, 0, 0, 0, 0⟩, ⟨1, 0, 0xFFFFFFFF, 0x9A, 0xC⟩, ⟨2, 0, 0xFFFFFFFF, 0x92, 0xC⟩,
    ⟨3, biosCodeStart, 0xFFFFFFFF, 0x9A, 0x8⟩]

/-- `Address<uint32_t>(gdt).setRange(0, bytes)`: the first `bytes` bytes become 0. -/
def setRange (gdt : Nat → BitVec 16) (bytes : Nat) : Nat → BitVec 16 :=
  fun i => if i < bytes / 2 then 0 else gdt i

/-- A GDT descriptor: the 16-bit size and the 32-bit address after it. -/
structure GdtDescriptor where
  size : BitVec 16
  address : BitVec 32
  deriving DecidableEq, Repr

/-- The addresses and sizes `initializeGlobalDescriptorTables` reads: the physical addresses of
the two tables, of `System::taskStateSegment` and its size, `MemoryLayout::KERNEL_START`, and
`MemoryLayout::BIOS_CODE_MEMORY.startAddress`. -/
structure GdtAddresses where
  systemGdt : BitVec 32
  biosGdt : BitVec 32
  taskStateSegment : BitVec 32
  taskStateSegmentSize : BitVec 32
  kernelStart : BitVec 32
  biosCodeMemoryStart : BitVec 32

/-- What `initializeGlobalDescriptorTables` writes: the two tables and the three descriptors. -/
structure DescriptorTables where
  systemGdt : Nat → BitVec 16
  biosGdt : Nat → BitVec 16
  systemGdtDescriptor : GdtDescriptor
  physicalGdtDescriptor : GdtDescriptor
  biosGdtDescriptor : GdtDescriptor

/-- `System::initializeGlobalDescriptorTables`, on two distinct tables. -/
def initializeGlobalDescriptorTables (systemGdt biosGdt : Nat → BitVec 16) (a : GdtAddresses) :
    DescriptorTables where
  systemGdt := (systemGdtEntries a.taskStateSegment a.taskStateSegmentSize).foldl
    EntryArguments.write (setRange systemGdt 48)
  biosGdt := (biosGdtEntries a.biosCodeMemoryStart).foldl EntryArguments.write (setRange biosGdt 32)
  systemGdtDescriptor := ⟨6 * 8, a.systemGdt + a.kernelStart⟩
  physicalGdtDescriptor := ⟨6 * 8, a.systemGdt⟩
  biosGdtDescriptor := ⟨4 * 8, a.biosGdt⟩

/-- `createGlobalDescriptorTableEntry` encodes the x86 descriptor format. For every entry number
below 8192 and all arguments, it changes only the words `gdt[4·num .. 4·num+3]`, and reading
them by the architectural layout gives back the base, the limit modulo `2^20`, the access byte
and the flags modulo 16. So the entries `initializeGlobalDescriptorTables` writes to the system
GDT (0–5) and to the BIOS GDT (0–3) each read back as the arguments passed for them. -/
theorem createGlobalDescriptorTableEntry_round_trip :
    (∀ (gdt : Nat → BitVec 16) (num : BitVec 16) (base limit : BitVec 32) (access flags : BitVec 8),
      num.toNat < 8192 →
        decodeEntry (createGlobalDescriptorTableEntry gdt num base limit access flags) num.toNat =
            ⟨base.toNat, limit.toNat % 2 ^ 20, access.toNat, flags.toNat % 2 ^ 4⟩ ∧
          ∀ i, i < 4 * num.toNat ∨ 4 * num.toNat + 3 < i →
            createGlobalDescriptorTableEntry gdt num base limit access flags i = gdt i) ∧
      ∀ (systemGdt biosGdt : Nat → BitVec 16) (a : GdtAddresses),
        (∀ e ∈ systemGdtEntries a.taskStateSegment a.taskStateSegmentSize,
          decodeEntry (initializeGlobalDescriptorTables systemGdt biosGdt a).systemGdt e.num.toNat =
            e.descriptor) ∧
        ∀ e ∈ biosGdtEntries a.biosCodeMemoryStart,
          decodeEntry (initializeGlobalDescriptorTables systemGdt biosGdt a).biosGdt e.num.toNat =
            e.descriptor := by
  refine ⟨fun gdt num base limit access flags hnum =>
    ⟨decodeEntry_createGlobalDescriptorTableEntry gdt base limit access flags hnum,
      fun i hi => createGlobalDescriptorTableEntry_of_lt_or_lt gdt base limit access flags hnum hi⟩,
    fun systemGdt biosGdt a => ⟨?_, ?_⟩⟩
  · exact decodeEntry_foldl_write _ (by simp [systemGdtEntries]) (by simp [systemGdtEntries])
  · exact decodeEntry_foldl_write _ (by simp [biosGdtEntries]) (by simp [biosGdtEntries])

/-- The kernel code segment entry, written to entry 1 of a zeroed table, reads back with the
base 0, the limit `0xFFFFF`, the access byte `0x9A` and the flags `0xC`. -/
theorem createGlobalDescriptorTableEntry_round_trip_kernel_code :
    (1 : BitVec 16).toNat < 8192 ∧
      decodeEntry (createGlobalDescriptorTableEntry (fun _ => 0) 1 0 0xFFFFFFFF 0x9A 0xC)
          (1 : BitVec 16).toNat =
        ⟨(0 : BitVec 32).toNat, (0xFFFFFFFF : BitVec 32).toNat % 2 ^ 20, (0x9A : BitVec 8).toNat,
          (0xC : BitVec 8).toNat % 2 ^ 4⟩ :=
  ⟨by decide, (createGlobalDescriptorTableEntry_round_trip.1 (fun _ => 0) 1 0 0xFFFFFFFF 0x9A 0xC
    (by decide)).1⟩

end System

end HhuOS
