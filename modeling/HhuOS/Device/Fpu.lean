import Mathlib.Logic.Function.Basic

/-!
# Lazy FPU context switching

`Device::Fpu` switches FPU registers between threads only when a thread uses the FPU. Every
scheduler switch calls `armFpuMonitor`, which sets `CR0.TS`; the next FPU instruction then raises
`DEVICE_NOT_AVAILABLE`, and `trigger` clears `CR0.TS`, saves the registers into the context of
`lastFpuThread` (when there is one) and loads the current thread's context. `checkTerminatedThread`
forgets a terminated owner. The save format is `FXSAVE`/`FXRSTOR` when `fxsrAvailable` holds and
`FNSAVE`/`FRSTOR` otherwise; `Fpu::Fpu` captures the default context every thread starts with in
the same format.

A run is a sequence of `Event`s: scheduler switches, FPU instructions of the current thread,
spurious traps and thread terminations. The FPU registers are of an arbitrary type `α`, and an FPU
instruction is any function on them. The registers after a restore of an image in the other layout
are undefined (`none`).

The specification is `Eager`: every thread has its own FPU registers, and an instruction acts on
those of the current thread. `Simulates` relates the two, and it holds in every reachable pair
(`reachable_simulates`). Hence an FPU instruction of a live thread reads that thread's own
registers (`lazy_switch_reads_own_state`), and `lastFpuThread` never names a terminated thread:
once the owner terminates, the next trap saves nothing and only loads the current thread's context
(`lastFpuThread_never_dangles`).
-/

namespace HhuOS

namespace Fpu

/-- A saved FPU context: registers stored by `FXSAVE` (`extended`) or by `FNSAVE`. -/
structure Image (α : Type) where
  extended : Bool
  regs : Option α
  deriving DecidableEq, Repr

section Instructions

variable {α : Type}

/-- `FXSAVE`: store the registers in the extended layout; the FPU keeps them. -/
def fxsave (fpu : Option α) : Image α × Option α := (⟨true, fpu⟩, fpu)

/-- `FNSAVE`: store the registers in the legacy layout, then reinitialise the FPU as `FNINIT`. -/
def fnsave (fninit : α) (fpu : Option α) : Image α × Option α := (⟨false, fpu⟩, some fninit)

/-- `FXRSTOR`: load an image of the extended layout. -/
def fxrstor (img : Image α) : Option α := if img.extended then img.regs else none

/-- `FRSTOR`: load an image of the legacy layout. -/
def frstor (img : Image α) : Option α := if img.extended then none else img.regs

/-- The save instruction of a format. -/
def saveWith (fninit : α) (fxsrAvailable : Bool) : Option α → Image α × Option α :=
  if fxsrAvailable then fxsave else fnsave fninit

/-- The restore instruction of a format. -/
def restoreWith (fxsrAvailable : Bool) : Image α → Option α :=
  if fxsrAvailable then fxrstor else frstor

/-- Restoring what the same format saved gives the registers back. -/
@[simp] lemma restoreWith_saveWith (fninit : α) (b : Bool) (fpu : Option α) :
    restoreWith b (saveWith fninit b fpu).1 = fpu := by
  cases b <;> rfl

end Instructions

/-- The FPU, `CR0.TS`, the fields of `Device::Fpu`, and what `trigger` reads of the scheduler:
each thread's FPU context, the current thread, and which threads have not terminated. -/
structure State (Tid α : Type) where
  fxsrAvailable : Bool
  fpu : Option α
  taskSwitched : Bool
  lastFpuThread : Option Tid
  fpuContext : Tid → Image α
  currentThread : Option Tid
  live : Tid → Bool

section Switcher

variable {Tid α : Type} [DecidableEq Tid] (fninit : α)

/-- The context `Fpu::Fpu` saves after `FNINIT`, in the format the CPU supports. -/
def defaultFpuContext (fxsrAvailable : Bool) : Image α :=
  (saveWith fninit fxsrAvailable (some fninit)).1

/-- `switchContext` and `switchContextFpuOnly`: save the registers into the context of
`lastFpuThread` when there is one, then load the context of `currentThread`. -/
def switchWith (save : Option α → Image α × Option α) (restore : Image α → Option α)
    (s : State Tid α) (currentThread : Tid) : State Tid α :=
  let s := match s.lastFpuThread with
    | some last =>
      { s with fpuContext := Function.update s.fpuContext last (save s.fpu).1, fpu := (save s.fpu).2 }
    | none => s
  { s with fpu := restore (s.fpuContext currentThread) }

/-- `Fpu::switchContext`: `FXSAVE`, then `FXRSTOR`. -/
def switchContext : State Tid α → Tid → State Tid α := switchWith fxsave fxrstor

/-- `Fpu::switchContextFpuOnly`: `FNSAVE`, then `FRSTOR`. -/
def switchContextFpuOnly : State Tid α → Tid → State Tid α := switchWith (fnsave fninit) frstor

/-- `Fpu::trigger`: clear `CR0.TS`; return at once when the current thread owns the FPU;
otherwise switch contexts in the supported format and record the new owner. -/
def trigger (s : State Tid α) : State Tid α :=
  let s := { s with taskSwitched := false }
  match s.currentThread with
  | none => s
  | some currentThread =>
    if some currentThread = s.lastFpuThread then s
    else
      let s := if s.fxsrAvailable then switchContext s currentThread
        else switchContextFpuOnly fninit s currentThread
      { s with lastFpuThread := some currentThread }

/-- `Fpu::checkTerminatedThread`: compare-and-set `lastFpuThread` from `thread` to null. -/
def checkTerminatedThread (s : State Tid α) (thread : Tid) : State Tid α :=
  if s.lastFpuThread = some thread then { s with lastFpuThread := none } else s

/-- `Fpu::armFpuMonitor`: set `CR0.TS` (with `CR0.MP`). -/
def armFpuMonitor (s : State Tid α) : State Tid α := { s with taskSwitched := true }

end Switcher

/-- What happens next in a run. -/
inductive Event (Tid α : Type) where
  /-- The scheduler switches to a thread and arms the monitor. -/
  | switch (thread : Tid)
  /-- The current thread executes an FPU instruction. -/
  | execute (instruction : α → α)
  /-- `DEVICE_NOT_AVAILABLE` is raised while the current thread runs. -/
  | trap
  /-- A thread terminates and the teardown path calls `checkTerminatedThread`. -/
  | terminate (thread : Tid)

section Run

variable {Tid α : Type} [DecidableEq Tid] (fninit : α)

/-- The state an FPU instruction operates on: the trap is taken first when `CR0.TS` is set. -/
def beforeInstruction (s : State Tid α) : State Tid α :=
  if s.taskSwitched then trigger fninit s else s

/-- One event of the lazy switcher. -/
def step (s : State Tid α) : Event Tid α → State Tid α
  | .switch thread => armFpuMonitor { s with currentThread := some thread }
  | .execute instruction =>
    let s := beforeInstruction fninit s
    { s with fpu := s.fpu.map instruction }
  | .trap => trigger fninit s
  | .terminate thread => checkTerminatedThread { s with live := Function.update s.live thread false } thread

/-- Instructions and traps come from a current thread that has not terminated. -/
def Event.Enabled (s : State Tid α) : Event Tid α → Prop
  | .execute _ | .trap => ∃ t, s.currentThread = some t ∧ s.live t = true
  | .switch _ | .terminate _ => True

/-- The state after `Fpu::Fpu`: registers after `FNINIT`, no owner, and every thread's context
the default context. -/
def init (fxsrAvailable : Bool) : State Tid α :=
  ⟨fxsrAvailable, some fninit, false, none, fun _ => defaultFpuContext fninit fxsrAvailable, none,
    fun _ => true⟩

/-- The specification: every thread has its own FPU registers. -/
structure Eager (Tid α : Type) where
  own : Tid → α
  currentThread : Option Tid

/-- Every thread starts with the registers of `FNINIT`. -/
def Eager.init : Eager Tid α := ⟨fun _ => fninit, none⟩

/-- One event of the specification: an instruction acts on the current thread's registers. -/
def Eager.step (a : Eager Tid α) : Event Tid α → Eager Tid α
  | .switch thread => { a with currentThread := some thread }
  | .execute instruction =>
    match a.currentThread with
    | some t => { a with own := Function.update a.own t (instruction (a.own t)) }
    | none => a
  | .trap | .terminate _ => a

/-- The pairs of states the two reach on the same runs. -/
inductive Reachable (fxsrAvailable : Bool) : State Tid α → Eager Tid α → Prop where
  | init : Reachable fxsrAvailable (init fninit fxsrAvailable) (Eager.init fninit)
  | step {s : State Tid α} {a : Eager Tid α} {e : Event Tid α} :
      Reachable fxsrAvailable s a → e.Enabled s → Reachable fxsrAvailable (step fninit s e) (a.step e)

end Run

/-! ## The lazy switcher simulates the specification -/

section Simulation

variable {Tid α : Type} [DecidableEq Tid] {fninit : α}

/-- The lazy switcher against the specification: the owner's registers are in the FPU, every
other live thread's registers are in its saved context, the current live thread owns the FPU
whenever `CR0.TS` is clear, and the owner has not terminated. -/
structure Simulates (s : State Tid α) (a : Eager Tid α) : Prop where
  current : s.currentThread = a.currentThread
  owner : ∀ t, s.lastFpuThread = some t → s.fpu = some (a.own t)
  saved : ∀ t, s.live t = true → s.lastFpuThread ≠ some t →
    restoreWith s.fxsrAvailable (s.fpuContext t) = some (a.own t)
  armed : ∀ t, s.taskSwitched = false → s.currentThread = some t → s.live t = true →
    s.lastFpuThread = some t
  ownerLive : ∀ t, s.lastFpuThread = some t → s.live t = true

omit [DecidableEq Tid] in
/-- After `Fpu::Fpu` the switcher simulates the specification. -/
lemma simulates_init (b : Bool) : Simulates (init fninit b : State Tid α) (Eager.init fninit) :=
  ⟨rfl, by simp [init], fun _ _ _ => by simp [init, defaultFpuContext, Eager.init],
    by simp [init], by simp [init]⟩

/-- `trigger` for a thread that does not own the FPU: the owner's registers go to its context,
and the thread's context is loaded. -/
lemma trigger_of_ne {s : State Tid α} {t : Tid} (hc : s.currentThread = some t)
    (hne : s.lastFpuThread ≠ some t) :
    trigger fninit s =
      { s with taskSwitched := false, lastFpuThread := some t,
               fpuContext := match s.lastFpuThread with
                 | some l => Function.update s.fpuContext l (saveWith fninit s.fxsrAvailable s.fpu).1
                 | none => s.fpuContext,
               fpu := restoreWith s.fxsrAvailable (s.fpuContext t) } := by
  rcases hl : s.lastFpuThread with _ | l
  · cases hx : s.fxsrAvailable <;>
      simp [trigger, hc, hl, hx, switchContext, switchContextFpuOnly, switchWith, saveWith,
        restoreWith]
  · have htl : t ≠ l := by rintro rfl; exact hne hl
    cases hx : s.fxsrAvailable <;>
      simp [trigger, hc, hl, hx, htl, switchContext, switchContextFpuOnly, switchWith, saveWith,
        restoreWith, Function.update_noteq htl]

/-- A trap of a live current thread: afterwards the thread owns the FPU, the FPU holds its
registers, and the relation still holds. -/
lemma trigger_simulates {s : State Tid α} {a : Eager Tid α} {t : Tid} (h : Simulates s a)
    (hc : s.currentThread = some t) (hl : s.live t = true) :
    Simulates (trigger fninit s) a ∧ (trigger fninit s).lastFpuThread = some t ∧
      (trigger fninit s).fpu = some (a.own t) ∧ (trigger fninit s).taskSwitched = false ∧
      (trigger fninit s).currentThread = s.currentThread ∧ (trigger fninit s).live = s.live := by
  by_cases hown : s.lastFpuThread = some t
  · have heq : trigger fninit s = { s with taskSwitched := false } := by
      simp [trigger, hc, hown]
    rw [heq]
    exact ⟨⟨h.current, h.owner, h.saved, fun _ _ hc' _ => by simp_all, h.ownerLive⟩,
      hown, h.owner t hown, rfl, rfl, rfl⟩
  · rw [trigger_of_ne hc hown]
    have hfpu := h.saved t hl hown
    refine ⟨⟨h.current, fun t' ht' => by simp_all, fun t' hl' ht' => ?_, fun _ _ hc' _ => by
      simp_all, fun t' ht' => by simp_all⟩, rfl, hfpu, rfl, rfl, rfl⟩
    have htt' : t' ≠ t := fun e => ht' (by rw [e])
    rcases hlast : s.lastFpuThread with _ | l
    · simpa using h.saved t' hl' (by rw [hlast]; simp)
    · by_cases hl't : t' = l
      · subst hl't; simp [h.owner t' hlast]
      · simpa [Function.update_noteq hl't] using h.saved t' hl' (by rw [hlast]; simpa using Ne.symm hl't)

/-- An FPU instruction of a live current thread runs on its own registers. -/
lemma beforeInstruction_simulates {s : State Tid α} {a : Eager Tid α} {t : Tid} (h : Simulates s a)
    (hc : s.currentThread = some t) (hl : s.live t = true) :
    Simulates (beforeInstruction fninit s) a ∧ (beforeInstruction fninit s).lastFpuThread = some t ∧
      (beforeInstruction fninit s).fpu = some (a.own t) ∧
      (beforeInstruction fninit s).currentThread = s.currentThread ∧
      (beforeInstruction fninit s).live = s.live := by
  unfold beforeInstruction
  split_ifs with hts
  · obtain ⟨h', hl', hf', -, hc', hv'⟩ := trigger_simulates h hc hl
    exact ⟨h', hl', hf', hc', hv'⟩
  · have hown := h.armed t (by simpa using hts) hc hl
    exact ⟨h, hown, h.owner t hown, rfl, rfl⟩

/-- One event keeps the relation. -/
theorem simulates_step {s : State Tid α} {a : Eager Tid α} {e : Event Tid α} (h : Simulates s a)
    (he : e.Enabled s) : Simulates (step fninit s e) (a.step e) := by
  cases e with
  | switch thread =>
    exact ⟨by simp [step, armFpuMonitor, Eager.step], h.owner, h.saved, by simp [step, armFpuMonitor],
      h.ownerLive⟩
  | execute instruction =>
    obtain ⟨t, hc, hl⟩ := he
    obtain ⟨h₁, hown, hfpu, hc₁, hl₁⟩ := beforeInstruction_simulates h hc hl
    have ha : a.currentThread = some t := h.current ▸ hc
    simp only [step, Eager.step, ha]
    refine ⟨h₁.current.trans ha, fun t' ht' => ?_, fun t' hl' ht' => ?_, fun t' hts hc' _ => ?_,
      h₁.ownerLive⟩
    · simp only at ht'; rw [hown] at ht'; cases ht'; simp [hfpu]
    · have htt' : t' ≠ t := by rintro rfl; exact ht' hown
      simpa [Function.update_noteq htt'] using h₁.saved t' hl' ht'
    · simp only at hc' ⊢; rw [hc₁, hc] at hc'; cases hc'; exact hown
  | trap =>
    obtain ⟨t, hc, hl⟩ := he
    exact (trigger_simulates h hc hl).1
  | terminate thread =>
    simp only [step, Eager.step, checkTerminatedThread]
    split_ifs with hown
    · refine ⟨h.current, by simp, fun t' hl' _ => ?_, fun t' hts hc' hl' => ?_, by simp⟩
      · have ht' : t' ≠ thread := by rintro rfl; simp at hl'
        simpa [Function.update_noteq ht'] using h.saved t' (by simpa [ht'] using hl')
          (by rw [hown]; simpa using Ne.symm ht')
      · have ht' : t' ≠ thread := by rintro rfl; simp at hl'
        have := h.armed t' hts hc' (by simpa [ht'] using hl')
        rw [hown] at this; cases this; exact absurd rfl ht'
    · refine ⟨h.current, h.owner, fun t' hl' ht' => ?_, fun t' hts hc' hl' => ?_, fun t' ht' => ?_⟩
      · have ht'' : t' ≠ thread := by rintro rfl; simp at hl'
        exact h.saved t' (by simpa [ht''] using hl') ht'
      · have ht'' : t' ≠ thread := by rintro rfl; simp at hl'
        exact h.armed t' hts hc' (by simpa [ht''] using hl')
      · have ht'' : t' ≠ thread := by rintro rfl; exact hown ht'
        simpa [ht''] using h.ownerLive t' ht'

/-- The relation holds in every reachable pair. -/
theorem reachable_simulates {b : Bool} {s : State Tid α} {a : Eager Tid α}
    (h : Reachable fninit b s a) : Simulates s a := by
  induction h with
  | init => exact simulates_init b
  | step _ he ih => exact simulates_step ih he

end Simulation

/-! ## Consequences -/

section Consequences

variable {Tid α : Type} [DecidableEq Tid] {fninit : α}

/-- Whenever a live thread executes an FPU instruction, in either save format, the instruction
runs on that thread's own registers: those its previous instruction left, or those of `FNINIT`
before its first. -/
theorem lazy_switch_reads_own_state {b : Bool} {s : State Tid α} {a : Eager Tid α}
    (h : Reachable fninit b s a) {t : Tid} (hc : s.currentThread = some t) (hl : s.live t = true) :
    a.currentThread = some t ∧ (beforeInstruction fninit s).fpu = some (a.own t) := by
  have hs := reachable_simulates h
  exact ⟨hs.current ▸ hc, (beforeInstruction_simulates hs hc hl).2.2.1⟩

/-- The first thread to run reads the registers of `FNINIT`. -/
theorem lazy_switch_reads_own_state_first_thread :
    Reachable (0 : Nat) true (step 0 (init 0 true : State Nat Nat) (.switch 0))
        ((Eager.init 0 : Eager Nat Nat).step (.switch 0)) ∧
      (step 0 (init 0 true : State Nat Nat) (.switch 0)).currentThread = some 0 ∧
      (step 0 (init 0 true : State Nat Nat) (.switch 0)).live 0 = true ∧
      (((Eager.init 0 : Eager Nat Nat).step (.switch 0)).currentThread = some 0 ∧
        (beforeInstruction 0 (step 0 (init 0 true : State Nat Nat) (.switch 0))).fpu =
          some (((Eager.init 0 : Eager Nat Nat).step (.switch 0)).own 0)) :=
  ⟨.step .init (by trivial), rfl, rfl, lazy_switch_reads_own_state (.step .init (by trivial)) rfl rfl⟩

/-- `trigger` writes no context but the one of `lastFpuThread`. -/
lemma trigger_fpuContext (s : State Tid α) {t : Tid} (ht : s.lastFpuThread ≠ some t) :
    (trigger fninit s).fpuContext t = s.fpuContext t := by
  rcases hc : s.currentThread with _ | c
  · simp [trigger, hc]
  · by_cases hown : s.lastFpuThread = some c
    · simp [trigger, hc, hown]
    · rw [trigger_of_ne hc hown]
      rcases hl : s.lastFpuThread with _ | l
      · rfl
      · have htl : t ≠ l := by rintro rfl; exact ht hl
        simp [Function.update_noteq htl]

/-- `lastFpuThread` is null or a thread that has not terminated, so `trigger` never saves into the
context of a terminated thread. Terminating the owner clears `lastFpuThread`, and until the next
`trigger` every event leaves it null. A `trigger` while there is no owner saves nothing: it loads
the current thread's context into the FPU and records that thread as the owner. -/
theorem lastFpuThread_never_dangles {b : Bool} {s : State Tid α} {a : Eager Tid α}
    (h : Reachable fninit b s a) :
    (∀ t, s.lastFpuThread = some t → s.live t = true) ∧
      (∀ t, s.live t = false → (trigger fninit s).fpuContext t = s.fpuContext t) ∧
      (∀ t, s.lastFpuThread = some t → (step fninit s (.terminate t)).lastFpuThread = none) ∧
      (s.lastFpuThread = none → (trigger fninit s).fpuContext = s.fpuContext) ∧
      (s.lastFpuThread = none → ∀ e : Event Tid α, e ≠ .trap →
        (∀ instruction, e = .execute instruction → s.taskSwitched = false) →
        (step fninit s e).lastFpuThread = none) ∧
      (s.lastFpuThread = none → ∀ c, s.currentThread = some c →
        trigger fninit s = { s with taskSwitched := false, lastFpuThread := some c,
                                    fpu := restoreWith s.fxsrAvailable (s.fpuContext c) }) := by
  have hs := reachable_simulates h
  refine ⟨hs.ownerLive, fun t ht => trigger_fpuContext s fun ho => ?_, fun t ho => ?_,
    fun hn => funext fun t => trigger_fpuContext s (by simp [hn]), fun hn e htrap hts => ?_,
    fun hn c hc => ?_⟩
  · simp [hs.ownerLive t ho] at ht
  · simp [step, checkTerminatedThread, ho]
  · cases e with
    | switch thread => exact hn
    | execute instruction => simpa [step, beforeInstruction, hts instruction rfl] using hn
    | trap => exact absurd rfl htrap
    | terminate thread => simp [step, checkTerminatedThread, hn]
  · rw [trigger_of_ne hc (by simp [hn])]
    simp only [hn]

/-- The switcher after `Fpu::Fpu`, a switch to thread 1, a trap that makes it the owner, a switch
to thread 2 and the termination of thread 1. -/
def ownerTerminated : State Nat Nat :=
  step 0 (step 0 (step 0 (step 0 (init 0 true) (.switch 1)) .trap) (.switch 2)) (.terminate 1)

/-- The specification on the same events. -/
def ownerTerminatedEager : Eager Nat Nat :=
  (((Eager.init 0).step (.switch 1)).step .trap |>.step (.switch 2)).step (.terminate 1)

/-- `ownerTerminated` is reachable, and `lastFpuThread_never_dangles` applies to it: the owner has
terminated, thread 2 is current, and the next trap only restores thread 2's context. -/
theorem lastFpuThread_never_dangles_ownerTerminated :
    Reachable 0 true ownerTerminated ownerTerminatedEager ∧
      ((∀ t, ownerTerminated.lastFpuThread = some t → ownerTerminated.live t = true) ∧
        (∀ t, ownerTerminated.live t = false →
          (trigger 0 ownerTerminated).fpuContext t = ownerTerminated.fpuContext t) ∧
        (∀ t, ownerTerminated.lastFpuThread = some t →
          (step 0 ownerTerminated (.terminate t)).lastFpuThread = none) ∧
        (ownerTerminated.lastFpuThread = none →
          (trigger 0 ownerTerminated).fpuContext = ownerTerminated.fpuContext) ∧
        (ownerTerminated.lastFpuThread = none → ∀ e : Event Nat Nat, e ≠ .trap →
          (∀ instruction, e = .execute instruction → ownerTerminated.taskSwitched = false) →
          (step 0 ownerTerminated e).lastFpuThread = none) ∧
        (ownerTerminated.lastFpuThread = none → ∀ c, ownerTerminated.currentThread = some c →
          trigger 0 ownerTerminated =
            { ownerTerminated with
              taskSwitched := false, lastFpuThread := some c,
              fpu := restoreWith ownerTerminated.fxsrAvailable (ownerTerminated.fpuContext c) })) :=
  have hrun : Reachable 0 true ownerTerminated ownerTerminatedEager :=
    .step (.step (.step (.step .init trivial) ⟨1, rfl, rfl⟩) trivial) trivial
  ⟨hrun, lastFpuThread_never_dangles hrun⟩

example : ownerTerminated.lastFpuThread = none ∧ ownerTerminated.currentThread = some 2 := by
  decide

end Consequences

end Fpu

end HhuOS
