import Mathlib.Algebra.BigOperators.Group.List
import HhuOS.Util.Exception

/-!
# The interrupt nesting counter

`Cpu::disableInterrupts` and `Cpu::enableInterrupts` share the process-wide `int32_t cliCount`,
which starts at 1 because the kernel is entered with interrupts masked. Each call changes the
counter with one atomic fetch-and-add (`lock xadd`, which wraps in 32 bits) and then acts on the
value it fetched: `disableInterrupts` always executes `cli`, `enableInterrupts` executes `sti` only
when it fetched 1, and either throws `ILLEGAL_STATE` when the fetched value shows an unbalanced
pair.

A call sequence is a list of `Call`s run one after another from `boot`. Its nesting `depth` is the
number of disables minus the number of enables. `runCalls_consistent` is the run invariant: the
counter is the start value plus the depth, and `IF` is set exactly when the counter is zero.
`cliCount_run_from_boot` reads off from it which calls of a sequence from the boot state throw.
-/

namespace HhuOS

namespace Cpu

/-- Reduction of an integer into the range of `int32_t`, as the `lock xadd` on `cliCount` wraps. -/
def wrapInt32 (x : Int) : Int := (x + 2 ^ 31) % 2 ^ 32 - 2 ^ 31

/-- A value in the range of `int32_t` wraps to itself. -/
lemma wrapInt32_of_bounds {x : Int} (h₁ : -2 ^ 31 ≤ x) (h₂ : x < 2 ^ 31) : wrapInt32 x = x := by
  unfold wrapInt32; omega

/-- The processor state the counter controls: `Cpu::cliCount` and the interrupt flag `IF`,
set by `sti` and cleared by `cli`. -/
structure State where
  cliCount : Int
  interruptFlag : Bool
  deriving DecidableEq, Repr

/-- The state on kernel entry: `Interrupts are disabled on startup`. -/
def boot : State := ⟨1, false⟩

/-- The message of both fatal branches. -/
def cliCountMessage : String := "CPU: cliCount is less than 0!"

/-- `Cpu::enableInterrupts`: decrement, then `sti` if the fetched value was 1, or throw if it was
below 1. -/
def enableInterrupts (s : State) : Except Exception State :=
  let count := s.cliCount
  let s := { s with cliCount := wrapInt32 (count - 1) }
  if count = 1 then .ok { s with interruptFlag := true }
  else if count < 1 then .error ⟨.illegalState, cliCountMessage⟩
  else .ok s

/-- `Cpu::disableInterrupts`: increment, throw if the fetched value was negative, then `cli`. -/
def disableInterrupts (s : State) : Except Exception State :=
  let count := s.cliCount
  let s := { s with cliCount := wrapInt32 (count + 1) }
  if count < 0 then .error ⟨.illegalState, cliCountMessage⟩
  else .ok { s with interruptFlag := false }

/-- A call of the nesting controller. -/
inductive Call where
  | disable
  | enable
  deriving DecidableEq, Repr

namespace Call

/-- The function a call runs. -/
def run : Call → State → Except Exception State
  | disable => disableInterrupts
  | enable => enableInterrupts

/-- What a call adds to the nesting depth. -/
def delta : Call → Int
  | disable => 1
  | enable => -1

/-- `disableInterrupts` counts one up. -/
@[simp] lemma delta_disable : disable.delta = 1 := rfl

/-- `enableInterrupts` counts one down. -/
@[simp] lemma delta_enable : enable.delta = -1 := rfl

end Call

/-- Nesting depth of a call sequence: disables minus enables. -/
def depth : List Call → Int
  | [] => 0
  | c :: calls => c.delta + depth calls

/-- No calls change no depth. -/
@[simp] lemma depth_nil : depth [] = 0 := rfl

/-- The depth of calls is the first call's step and the rest's depth. -/
@[simp] lemma depth_cons (c : Call) (calls : List Call) :
    depth (c :: calls) = c.delta + depth calls := rfl

/-- The depth of two runs of calls is the sum of their depths. -/
@[simp] lemma depth_append (p q : List Call) : depth (p ++ q) = depth p + depth q := by
  induction p with
  | nil => simp
  | cons c p ih => simp [ih, Int.add_assoc]

/-- The depth of one call is its step. -/
@[simp] lemma depth_singleton (c : Call) : depth [c] = c.delta := by
  simp

/-- Runs a call sequence; the first exception ends the run. -/
def runCalls (s : State) (calls : List Call) : Except Exception State :=
  calls.foldlM (fun s c => c.run s) s

/-- Running calls and one more is running that call after them. -/
lemma runCalls_append_singleton (s : State) (p : List Call) (c : Call) :
    runCalls s (p ++ [c]) = runCalls s p >>= c.run := by
  simp [runCalls]

/-! ## One call -/

/-- A counter that is not negative, with `IF` set exactly when it is zero. -/
structure Consistent (s : State) : Prop where
  nonneg : 0 ≤ s.cliCount
  flag_iff : s.interruptFlag = true ↔ s.cliCount = 0

/-- The state at boot is consistent. -/
lemma consistent_boot : Consistent boot := ⟨by decide, by decide⟩

/-- Below the top of the range, a disable increments the counter and clears `IF`. -/
lemma disableInterrupts_eq {s : State} (h : 0 ≤ s.cliCount) (hb : s.cliCount < 2 ^ 31 - 1) :
    disableInterrupts s = .ok ⟨s.cliCount + 1, false⟩ := by
  simp only [disableInterrupts, if_neg (show ¬ s.cliCount < 0 by omega),
    wrapInt32_of_bounds (show -2 ^ 31 ≤ s.cliCount + 1 by omega) (show s.cliCount + 1 < 2 ^ 31 by omega)]

/-- From a positive counter, an enable decrements it and sets `IF` exactly when it fetched 1. -/
lemma enableInterrupts_eq {s : State} (h : 1 ≤ s.cliCount) (hb : s.cliCount < 2 ^ 31) :
    enableInterrupts s = .ok ⟨s.cliCount - 1, s.cliCount = 1 || s.interruptFlag⟩ := by
  have hw := wrapInt32_of_bounds (show -2 ^ 31 ≤ s.cliCount - 1 by omega)
    (show s.cliCount - 1 < 2 ^ 31 by omega)
  simp only [enableInterrupts, hw]
  by_cases h1 : s.cliCount = 1
  · simp [h1]
  · simp [h1, show ¬ s.cliCount < 1 by omega]

/-- An enable that fetches a value below 1 throws `ILLEGAL_STATE`. -/
lemma enableInterrupts_of_lt_one {s : State} (h : s.cliCount < 1) :
    enableInterrupts s = .error ⟨.illegalState, cliCountMessage⟩ := by
  simp [enableInterrupts, h, show s.cliCount ≠ 1 by omega]

/-- A consistent state stays consistent under a call that does not throw, and the call adds its
`delta` to the counter. -/
theorem Call.run_consistent {s s' : State} {c : Call} (h : Consistent s)
    (hb : s.cliCount + c.delta < 2 ^ 31 - 1) (hrun : c.run s = .ok s') :
    s'.cliCount = s.cliCount + c.delta ∧ Consistent s' := by
  have h0 := h.nonneg
  cases c with
  | disable =>
    rw [Call.run, disableInterrupts_eq h0 (by simp at hb; omega)] at hrun
    cases hrun
    exact ⟨rfl, ⟨by simp; omega, by simp; omega⟩⟩
  | enable =>
    by_cases h1 : 1 ≤ s.cliCount
    · rw [Call.run, enableInterrupts_eq h1 (by simp at hb; omega)] at hrun
      cases hrun
      refine ⟨by simp; omega, ⟨by simp; omega, ?_⟩⟩
      by_cases h2 : s.cliCount = 1 <;> simp [h2, h.flag_iff]; omega
    · rw [Call.run, enableInterrupts_of_lt_one (by omega)] at hrun
      cases hrun

/-- On a consistent state, a call throws exactly when it is an enable that fetches a value below 1,
and then it throws `ILLEGAL_STATE` with `cliCountMessage`. -/
theorem Call.run_eq_error_iff {s : State} {c : Call} (h : Consistent s)
    (hb : s.cliCount + c.delta < 2 ^ 31 - 1) (e : Exception) :
    c.run s = .error e ↔ c = .enable ∧ s.cliCount < 1 ∧ e = ⟨.illegalState, cliCountMessage⟩ := by
  cases c with
  | disable =>
    rw [Call.run, disableInterrupts_eq h.nonneg (by simp at hb; omega)]
    simp
  | enable =>
    by_cases h1 : 1 ≤ s.cliCount
    · rw [Call.run, enableInterrupts_eq h1 (by simp at hb; omega)]
      simp; omega
    · rw [Call.run, enableInterrupts_of_lt_one (by omega)]
      simp [eq_comm, show s.cliCount < 1 by omega]

/-! ## Whole sequences -/

/-- The run invariant: as long as nothing has thrown, the counter is the start value plus the
depth, and the state stays consistent. -/
theorem runCalls_consistent {s₀ : State} (h₀ : Consistent s₀) (p : List Call) {s : State}
    (hdepth : ∀ q, q <+: p → s₀.cliCount + depth q < 2 ^ 31 - 1) (hrun : runCalls s₀ p = .ok s) :
    s.cliCount = s₀.cliCount + depth p ∧ Consistent s := by
  induction p using List.reverseRecOn generalizing s with
  | nil => cases hrun; exact ⟨by simp, h₀⟩
  | append_singleton p c ih =>
    rw [runCalls_append_singleton, Except.bind_eq_ok] at hrun
    obtain ⟨s₁, h₁, hc⟩ := hrun
    obtain ⟨hcount, hcons⟩ :=
      ih (fun q hq => hdepth q (hq.trans (List.prefix_append p [c]))) h₁
    have hb := hdepth (p ++ [c]) (List.prefix_refl _)
    obtain ⟨hcount', hcons'⟩ := Call.run_consistent hcons (by simp at hb; omega) hc
    exact ⟨by simp; omega, hcons'⟩

/-- Calls from the boot state, as long as the nesting depth stays below `2^31 - 1`: while no call
has thrown, `cliCount = 1 + #disables - #enables` and `IF` is set exactly when `cliCount = 0`;
the next call throws exactly when it is an enable whose fetched value is below 1, that is when the
enables would exceed 1 + the disables, and what it throws is `ILLEGAL_STATE`. -/
theorem cliCount_run_from_boot (p : List Call) (c : Call) (s : State)
    (hdepth : ∀ q, q <+: p ++ [c] → 1 + depth q < 2 ^ 31 - 1)
    (hrun : runCalls boot p = .ok s) :
    s.cliCount = 1 + depth p ∧ (s.interruptFlag = true ↔ s.cliCount = 0) ∧
      ∀ e, c.run s = .error e ↔
        c = .enable ∧ s.cliCount < 1 ∧ e = ⟨.illegalState, cliCountMessage⟩ := by
  obtain ⟨hcount, hcons⟩ := runCalls_consistent consistent_boot p
    (fun q hq => hdepth q (hq.trans (List.prefix_append p [c]))) hrun
  have hb := hdepth (p ++ [c]) (List.prefix_refl _)
  simp only [depth_append, depth_singleton] at hb
  exact ⟨hcount, hcons.flag_iff, Call.run_eq_error_iff hcons (by simp [boot] at hcount; omega)⟩

/-- After the boot enable, a second enable throws. -/
theorem cliCount_run_from_boot_second_enable :
    (∀ q, q <+: [Call.enable] ++ [Call.enable] → 1 + depth q < 2 ^ 31 - 1) ∧
      runCalls boot [.enable] = .ok ⟨0, true⟩ ∧
      ((⟨0, true⟩ : State).cliCount = 1 + depth [.enable] ∧
        ((⟨0, true⟩ : State).interruptFlag = true ↔ (⟨0, true⟩ : State).cliCount = 0) ∧
        ∀ e, Call.enable.run ⟨0, true⟩ = .error e ↔
          Call.enable = .enable ∧ (⟨0, true⟩ : State).cliCount < 1 ∧
            e = ⟨.illegalState, cliCountMessage⟩) := by
  have hdepth : ∀ q, q <+: [Call.enable] ++ [Call.enable] → 1 + depth q < 2 ^ 31 - 1 := by
    intro q hq; rw [← List.mem_inits] at hq; revert q; decide
  have hrun : runCalls boot [.enable] = .ok ⟨0, true⟩ := rfl
  exact ⟨hdepth, hrun, cliCount_run_from_boot [.enable] .enable ⟨0, true⟩ hdepth hrun⟩

end Cpu

end HhuOS
