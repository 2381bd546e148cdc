import HhuOS.Device.Fpu

/-!
# `CR0` under the lazy FPU switcher

`Fpu` models the task-switched flag `CR0.TS` as the field `taskSwitched`. This file adds the
layer below: `CR0` as the 32-bit register the source writes. `Fpu::trigger` clears bit 3 (`TS`)
with `and $0xfffffff7`, `Fpu::armFpuMonitor` sets bits 1 (`MP`) and 3 with `or $0xa`, and
`Fpu::probeFpu` clears bits 2 (`EM`) and 3 with `and $0xfffffff3`. The processor raises
`DEVICE_NOT_AVAILABLE` before an FPU instruction exactly when bit 3 is set.

`Machine` runs the switcher on `CR0`: it takes the trap by bit 3 and writes `CR0` with the
source's masks. `Machine.run_refines` says that over every sequence of events it computes the
states of `Fpu.step`, that bit 3 stays `taskSwitched`, and that no bit of `CR0` other than `MP`
and `TS` ever changes.
-/

namespace HhuOS

namespace Fpu

/-- `CR0` after the `and $0xfffffff7` of `Fpu::trigger`. -/
def triggerCr0 (cr0 : BitVec 32) : BitVec 32 := cr0 &&& 0xfffffff7#32

/-- `CR0` after the `or $0xa` of `Fpu::armFpuMonitor`. -/
def armFpuMonitorCr0 (cr0 : BitVec 32) : BitVec 32 := cr0 ||| 0xa#32

/-- `CR0` after the `and $0xfffffff3` of `Fpu::probeFpu`. -/
def probeFpuCr0 (cr0 : BitVec 32) : BitVec 32 := cr0 &&& 0xfffffff3#32

/-- `Fpu::probeFpu`: whether the status word is zero after `FNINIT; FNSTSW`, and `CR0`. The status
starts as `0x1797`; `fnstsw` is the word an FPU stores over it, `none` when there is no FPU. -/
def probeFpu (cr0 : BitVec 32) (fnstsw : Option (BitVec 16)) : Bool × BitVec 32 :=
  (fnstsw.getD 0x1797#16 == 0#16, probeFpuCr0 cr0)

/-! ## The masks, bit by bit -/

/-- Bit `i` after `trigger`: bit 3 (`TS`) cleared, every other bit kept. -/
lemma getLsbD_triggerCr0 (cr0 : BitVec 32) (i : Nat) :
    (triggerCr0 cr0).getLsbD i = (cr0.getLsbD i && decide (i ≠ 3)) := by
  by_cases hi : i < 32
  · rw [triggerCr0, BitVec.getLsbD_and,
      (by decide : ∀ i < 32, (0xfffffff7#32).getLsbD i = decide (i ≠ 3)) i hi]
  · rw [BitVec.getLsbD_ge _ _ (by omega), BitVec.getLsbD_ge _ _ (by omega), Bool.false_and]

/-- Bit `i` after `armFpuMonitor`: bits 1 (`MP`) and 3 (`TS`) set, every other bit kept. -/
lemma getLsbD_armFpuMonitorCr0 (cr0 : BitVec 32) (i : Nat) :
    (armFpuMonitorCr0 cr0).getLsbD i = (cr0.getLsbD i || decide (i = 1 ∨ i = 3)) := by
  by_cases hi : i < 32
  · rw [armFpuMonitorCr0, BitVec.getLsbD_or,
      (by decide : ∀ i < 32, (0xa#32).getLsbD i = decide (i = 1 ∨ i = 3)) i hi]
  · rw [BitVec.getLsbD_ge _ _ (by omega), BitVec.getLsbD_ge _ _ (by omega), Bool.false_or,
      decide_eq_false (by omega)]

/-- Bit `i` after the probe: bits 2 (`EM`) and 3 (`TS`) cleared, every other bit kept. -/
lemma getLsbD_probeFpuCr0 (cr0 : BitVec 32) (i : Nat) :
    (probeFpuCr0 cr0).getLsbD i = (cr0.getLsbD i && decide (i ≠ 2 ∧ i ≠ 3)) := by
  by_cases hi : i < 32
  · rw [probeFpuCr0, BitVec.getLsbD_and,
      (by decide : ∀ i < 32, (0xfffffff3#32).getLsbD i = decide (i ≠ 2 ∧ i ≠ 3)) i hi]
  · rw [BitVec.getLsbD_ge _ _ (by omega), BitVec.getLsbD_ge _ _ (by omega), Bool.false_and]

/-- `probeFpu` reports an FPU exactly when one stored a zero status word, and changes no bit of
`CR0` but `EM` and `TS`, which it clears. -/
lemma probeFpu_spec (cr0 : BitVec 32) (fnstsw : Option (BitVec 16)) :
    ((probeFpu cr0 fnstsw).1 = true ↔ fnstsw = some 0#16) ∧
      ∀ i, (probeFpu cr0 fnstsw).2.getLsbD i = (cr0.getLsbD i && decide (i ≠ 2 ∧ i ≠ 3)) := by
  refine ⟨?_, getLsbD_probeFpuCr0 cr0⟩
  cases fnstsw <;> simp [probeFpu]

/-! ## The switcher on `CR0` -/

/-- The lazy switcher with `CR0` as the processor holds it. -/
structure Machine (Tid α : Type) where
  state : State Tid α
  cr0 : BitVec 32

section Machine

variable {Tid α : Type} [DecidableEq Tid] (fninit : α)

/-- One event, with the trap before an FPU instruction taken when bit 3 of `CR0` is set, and `CR0`
written with the masks of `armFpuMonitor` and `trigger`. -/
def Machine.step (m : Machine Tid α) : Event Tid α → Machine Tid α
  | .switch thread =>
    ⟨armFpuMonitor { m.state with currentThread := some thread }, armFpuMonitorCr0 m.cr0⟩
  | .execute instruction =>
    let m : Machine Tid α := if m.cr0.getLsbD 3 then ⟨trigger fninit m.state, triggerCr0 m.cr0⟩ else m
    ⟨{ m.state with fpu := m.state.fpu.map instruction }, m.cr0⟩
  | .trap => ⟨trigger fninit m.state, triggerCr0 m.cr0⟩
  | .terminate thread => ⟨Fpu.step fninit m.state (.terminate thread), m.cr0⟩

/-- A context switch of the FPU leaves `taskSwitched`. -/
@[simp] lemma switchWith_taskSwitched (save : Option α → Image α × Option α)
    (restore : Image α → Option α) (s : State Tid α) (thread : Tid) :
    (switchWith save restore s thread).taskSwitched = s.taskSwitched := by
  unfold switchWith
  split <;> rfl

/-- `trigger` clears `taskSwitched`. -/
@[simp] lemma trigger_taskSwitched (s : State Tid α) : (trigger fninit s).taskSwitched = false := by
  unfold trigger
  dsimp only
  split
  · rfl
  · split
    · rfl
    · split <;> simp only [switchContext, switchContextFpuOnly, switchWith_taskSwitched]

/-- `checkTerminatedThread` leaves `taskSwitched`. -/
@[simp] lemma checkTerminatedThread_taskSwitched (s : State Tid α) (thread : Tid) :
    (checkTerminatedThread s thread).taskSwitched = s.taskSwitched := by
  unfold checkTerminatedThread
  split <;> rfl

variable {fninit}

/-- The step lemma: where bit 3 of `CR0` is `taskSwitched`, one event computes the model's next
state, keeps bit 3 equal to `taskSwitched`, and changes no bit but `MP` and `TS`. -/
lemma Machine.step_spec {m : Machine Tid α} (h : m.cr0.getLsbD 3 = m.state.taskSwitched)
    (e : Event Tid α) :
    (m.step fninit e).state = Fpu.step fninit m.state e ∧
      (m.step fninit e).cr0.getLsbD 3 = (m.step fninit e).state.taskSwitched ∧
      ∀ i, i ≠ 1 → i ≠ 3 → (m.step fninit e).cr0.getLsbD i = m.cr0.getLsbD i := by
  cases e with
  | switch thread =>
    refine ⟨rfl, by simp [Machine.step, armFpuMonitor, getLsbD_armFpuMonitorCr0], fun i h1 h3 => ?_⟩
    simp [Machine.step, getLsbD_armFpuMonitorCr0, h1, h3]
  | execute instruction =>
    by_cases hts : m.cr0.getLsbD 3
    · have hs : m.state.taskSwitched = true := h ▸ hts
      refine ⟨by simp [Machine.step, Fpu.step, beforeInstruction, hts, hs], ?_, fun i _ h3 => ?_⟩
      · simp [Machine.step, hts, getLsbD_triggerCr0]
      · simp [Machine.step, hts, getLsbD_triggerCr0, h3]
    · have hs : m.state.taskSwitched = false := by rw [← h]; simpa using hts
      refine ⟨by simp [Machine.step, Fpu.step, beforeInstruction, hts, hs], ?_, fun _ _ _ => ?_⟩
      · simpa [Machine.step, hts] using hs.symm
      · simp [Machine.step, hts]
  | trap =>
    exact ⟨rfl, by simp [Machine.step, getLsbD_triggerCr0], fun i _ h3 => by
      simp [Machine.step, getLsbD_triggerCr0, h3]⟩
  | terminate thread =>
    exact ⟨rfl, by simpa [Machine.step, Fpu.step] using h, fun _ _ _ => rfl⟩

/-- `CR0` refines the model's `TS` flag: from a state whose `taskSwitched` is bit 3 of `CR0`, over
every sequence of events, taking the trap by bit 3 and writing `CR0` with the masks of `trigger`
and `armFpuMonitor` gives exactly the states of the model, bit 3 stays `taskSwitched`, and no bit
of `CR0` other than `MP` (bit 1) and `TS` (bit 3) ever changes. -/
theorem Machine.run_refines (m : Machine Tid α) (h : m.cr0.getLsbD 3 = m.state.taskSwitched)
    (events : List (Event Tid α)) :
    (events.foldl (Machine.step fninit) m).state = events.foldl (Fpu.step fninit) m.state ∧
      (events.foldl (Machine.step fninit) m).cr0.getLsbD 3 =
        (events.foldl (Machine.step fninit) m).state.taskSwitched ∧
      ∀ i, i ≠ 1 → i ≠ 3 → (events.foldl (Machine.step fninit) m).cr0.getLsbD i = m.cr0.getLsbD i := by
  induction events generalizing m with
  | nil => exact ⟨rfl, h, fun _ _ _ => rfl⟩
  | cons e events ih =>
    obtain ⟨hs, h3, hbits⟩ := Machine.step_spec h e
    obtain ⟨hs', h3', hbits'⟩ := ih (m.step fninit e) h3
    exact ⟨hs'.trans (by rw [hs]; rfl), h3', fun i h1 h3 => (hbits' i h1 h3).trans (hbits i h1 h3)⟩

end Machine

/-- The switcher after `Fpu::Fpu` with `CR0` holding `PE`, `ET` and `PG`, through a thread switch,
an FPU instruction and a trap. -/
theorem Machine.run_refines_boot :
    (⟨init 0 true, 0x80000011#32⟩ : Machine Nat Nat).cr0.getLsbD 3 =
        (⟨init 0 true, 0x80000011#32⟩ : Machine Nat Nat).state.taskSwitched ∧
      (([.switch 1, .execute (· + 1), .trap] : List (Event Nat Nat)).foldl (Machine.step 0)
          ⟨init 0 true, 0x80000011#32⟩).state =
        ([.switch 1, .execute (· + 1), .trap] : List (Event Nat Nat)).foldl (Fpu.step 0) (init 0 true) ∧
      (([.switch 1, .execute (· + 1), .trap] : List (Event Nat Nat)).foldl (Machine.step 0)
          ⟨init 0 true, 0x80000011#32⟩).cr0.getLsbD 3 =
        (([.switch 1, .execute (· + 1), .trap] : List (Event Nat Nat)).foldl (Machine.step 0)
          ⟨init 0 true, 0x80000011#32⟩).state.taskSwitched ∧
      ∀ i, i ≠ 1 → i ≠ 3 →
        (([.switch 1, .execute (· + 1), .trap] : List (Event Nat Nat)).foldl (Machine.step 0)
          ⟨init 0 true, 0x80000011#32⟩).cr0.getLsbD i = (0x80000011#32 : BitVec 32).getLsbD i :=
  ⟨by decide, Machine.run_refines ⟨init 0 true, 0x80000011#32⟩ (by decide) _⟩

end Fpu

end HhuOS
