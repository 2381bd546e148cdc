import HhuOS.Device.Cpu

/-!
# Interrupt handlers interleaved with the nesting counter

On one core, an interrupt can arrive between any two instructions while `IF` is set. A call of
`Cpu::disableInterrupts` or `Cpu::enableInterrupts` is two instructions here: the atomic
`lock xadd` on `cliCount` (`Call.fetch`), and what the call does with the value it fetched
(`Call.afterFetch`: the test, then `cli`, `sti` or nothing). Run back to back they are the call of
`Cpu.lean` (`Call.afterFetch_fetch`).

A `Machine` is the counter and `IF`, the mainline's call sequence, and the stack of interrupt
handlers that are running, innermost first. Entering a handler clears `IF` and pushes the old
`IF`; `iret` pops it back. Neither touches `cliCount`. Each handler runs a `ProperlyNested`
sequence of calls. A thrown exception halts the processor, so a throwing instruction has no
successor state.

`Invariant` holds in every reachable machine (`reachable_invariant`). It gives the two facts of
`handler_nesting`: a handler leaves `cliCount` as it found it, and while a handler entered with
`cliCount ≥ 1` runs, `IF` stays clear. A handler entered with `cliCount = 0` is different: the
`enableInterrupts` that closes its outermost `disableInterrupts` fetches 1 and executes `sti`
inside the handler (`handler_can_unmask`).
-/

namespace HhuOS

namespace Cpu

/-! ## The two instructions of a call -/

namespace Call

/-- The `lock xadd` of a call (`fetchAndInc` or `fetchAndDec`): the new state and the value fetched. -/
def fetch : Call → State → State × Int
  | disable, s => ({ s with cliCount := wrapInt32 (s.cliCount + 1) }, s.cliCount)
  | enable, s => ({ s with cliCount := wrapInt32 (s.cliCount - 1) }, s.cliCount)

/-- What a call does after its `lock xadd`, from the fetched value. -/
def afterFetch : Call → Int → State → Except Exception State
  | disable, count, s =>
    if count < 0 then .error ⟨.illegalState, cliCountMessage⟩
    else .ok { s with interruptFlag := false }
  | enable, count, s =>
    if count = 1 then .ok { s with interruptFlag := true }
    else if count < 1 then .error ⟨.illegalState, cliCountMessage⟩
    else .ok s

/-- Run back to back, the two instructions are the call. -/
theorem afterFetch_fetch (c : Call) (s : State) :
    c.afterFetch (c.fetch s).2 (c.fetch s).1 = c.run s := by
  cases c <;> rfl

/-- The `lock xadd` of a call fetches the old `cliCount`. -/
@[simp] lemma fetch_snd (c : Call) (s : State) : (c.fetch s).2 = s.cliCount := by
  cases c <;> rfl

/-- The `lock xadd` of a call adds its step to `cliCount`, in `int32_t`. -/
@[simp] lemma fetch_cliCount (c : Call) (s : State) :
    (c.fetch s).1.cliCount = wrapInt32 (s.cliCount + c.delta) := by
  cases c <;> simp [fetch, sub_eq_add_neg]

/-- The `lock xadd` of a call leaves `IF`. -/
@[simp] lemma fetch_interruptFlag (c : Call) (s : State) :
    (c.fetch s).1.interruptFlag = s.interruptFlag := by
  cases c <;> rfl

/-- The second instruction leaves the counter alone; it sets `IF` only as the `sti` of an enable
that fetched 1. -/
lemma afterFetch_eq_ok {c : Call} {count : Int} {s s' : State} (h : c.afterFetch count s = .ok s') :
    s'.cliCount = s.cliCount ∧
      (s'.interruptFlag = true → (c = enable ∧ count = 1) ∨ (c = enable ∧ s.interruptFlag = true)) := by
  cases c <;> simp only [afterFetch] at h <;> split_ifs at h <;> cases h <;> simp_all

end Call

/-! ## Threads, handlers and the machine -/

/-- A call sequence being executed: the calls not started yet, and the call whose `lock xadd` has
run but whose second instruction has not, with the value it fetched. -/
structure Thread where
  code : List Call
  fetched : Option (Call × Int)
  deriving DecidableEq, Repr

namespace Thread

/-- The calls whose second instruction has not run. -/
def rest (t : Thread) : List Call :=
  match t.fetched with
  | some (c, _) => c :: t.code
  | none => t.code

/-- The next instruction of a thread: `none` when nothing is left, an exception when it throws. -/
def exec (t : Thread) (s : State) : Option (Except Exception (Thread × State)) :=
  match t.fetched, t.code with
  | some (c, count), _ => some ((c.afterFetch count s).map fun s' => (⟨t.code, none⟩, s'))
  | none, c :: code => some (.ok (⟨code, some (c, (c.fetch s).2)⟩, (c.fetch s).1))
  | none, [] => none

/-- An instruction that does not throw is a `lock xadd` or the instruction after one. -/
lemma exec_eq_ok {t t' : Thread} {s s' : State} (h : t.exec s = some (.ok (t', s'))) :
    (∃ c code, t = ⟨c :: code, none⟩ ∧ t' = ⟨code, some (c, s.cliCount)⟩ ∧ s' = (c.fetch s).1) ∨
      (∃ c count, t.fetched = some (c, count) ∧ t' = ⟨t.code, none⟩ ∧
        c.afterFetch count s = .ok s') := by
  rcases t with ⟨code, _ | ⟨c, count⟩⟩
  · cases code with
    | nil => cases h
    | cons c code => simp only [exec, Option.some.injEq, Except.ok.injEq, Prod.mk.injEq] at h
                     exact .inl ⟨c, code, rfl, by simp [← h.1], h.2.symm⟩
  · simp only [exec, Option.some.injEq] at h
    cases hc : c.afterFetch count s <;> rw [hc] at h <;> cases h
    exact .inr ⟨c, count, rfl, rfl, hc⟩

end Thread

/-- A running interrupt handler: its calls, the `IF` its interrupt pushed, and `cliCount` at its
entry (recorded for the statements only; the hardware does not keep it). -/
structure Handler where
  thread : Thread
  savedFlag : Bool
  entryCount : Int
  deriving DecidableEq, Repr

/-- The counter and `IF`, the mainline, and the running handlers, innermost first. -/
structure Machine where
  cpu : State
  mainline : Thread
  handlers : List Handler
  deriving DecidableEq, Repr

namespace Machine

/-- The next instruction of the innermost running code. -/
def exec (m : Machine) : Option Machine :=
  match m.handlers with
  | [] =>
    match m.mainline.exec m.cpu with
    | some (.ok (t, s)) => some { m with cpu := s, mainline := t }
    | _ => none
  | h :: hs =>
    match h.thread.exec m.cpu with
    | some (.ok (t, s)) => some { m with cpu := s, handlers := { h with thread := t } :: hs }
    | _ => none

/-- An interrupt enters a handler that runs `body`: `IF` is pushed and cleared. -/
def interrupt (m : Machine) (body : List Call) : Machine :=
  { m with cpu := { m.cpu with interruptFlag := false },
           handlers := ⟨⟨body, none⟩, m.cpu.interruptFlag, m.cpu.cliCount⟩ :: m.handlers }

/-- `iret` of the innermost handler once it has run all its calls: `IF` is popped. -/
def iret (m : Machine) : Option Machine :=
  match m.handlers with
  | h :: hs =>
    if h.thread = ⟨[], none⟩ then some { m with cpu := { m.cpu with interruptFlag := h.savedFlag }, handlers := hs }
    else none
  | [] => none

/-- The machine at boot, about to run the mainline `main`. -/
def boot (main : List Call) : Machine := ⟨Cpu.boot, ⟨main, none⟩, []⟩

end Machine

/-- A handler body: a balanced sequence whose every prefix has at least as many disables as
enables, and fewer than `2^31 - 1` more. -/
def ProperlyNested (body : List Call) : Prop :=
  (∀ q, q <+: body → 0 ≤ depth q ∧ depth q < 2 ^ 31 - 1) ∧ depth body = 0

/-- The machines reachable from boot, for any mainline, when interrupts arrive while `IF` is set
and run properly nested handlers. -/
inductive Reachable : Machine → Prop where
  | boot (main : List Call) : Reachable (Machine.boot main)
  | exec {m m' : Machine} : Reachable m → m.exec = some m' → Reachable m'
  | interrupt {m : Machine} (body : List Call) :
      Reachable m → m.cpu.interruptFlag = true → ProperlyNested body → Reachable (m.interrupt body)
  | iret {m m' : Machine} : Reachable m → m.iret = some m' → Reachable m'

/-! ## The invariant -/

/-- A value in the range of `int32_t`. -/
def InRange (x : Int) : Prop := -2 ^ 31 ≤ x ∧ x < 2 ^ 31

/-- A wrapped value is in the range of `int32_t`. -/
lemma wrapInt32_inRange (x : Int) : InRange (wrapInt32 x) := by
  unfold InRange wrapInt32; omega

/-- Wrapping before an addition changes nothing after the final wrap. -/
lemma wrapInt32_wrapInt32_add (x d : Int) : wrapInt32 (wrapInt32 x + d) = wrapInt32 (x + d) := by
  unfold wrapInt32; omega

/-- A value in the range of `int32_t` wraps to itself. -/
lemma wrapInt32_of_inRange {x : Int} (h : InRange x) : wrapInt32 x = x :=
  wrapInt32_of_bounds h.1 h.2

/-- What remains of a handler's calls closes what it opened: every suffix has at least as many
enables as disables, and fewer than `2^31 - 1` more. -/
def Closing (rest : List Call) : Prop :=
  ∀ r, r <:+ rest → -(2 ^ 31 - 1) < depth r ∧ depth r ≤ 0

/-- A properly nested handler body is closing: each of its suffixes closes what it opens. -/
lemma ProperlyNested.closing {body : List Call} (h : ProperlyNested body) : Closing body := by
  rintro r ⟨q, rfl⟩
  have hq := h.1 q (List.prefix_append q r)
  have hb := h.2
  simp only [depth_append] at hb
  omega

/-- What is left of a closing run of calls after its first call is closing. -/
lemma Closing.of_cons {c : Call} {code : List Call} (h : Closing (c :: code)) : Closing code :=
  fun r hr => h r (hr.trans (List.suffix_cons c code))

/-- `cliCount` against the handlers' entry values: each handler has moved the value it found by
what its started calls add, modulo `2^32`. -/
def CountChain : Int → List Handler → Prop
  | _, [] => True
  | count, h :: hs =>
    count = wrapInt32 (h.entryCount - depth h.thread.code) ∧ CountChain h.entryCount hs

/-- A handler's own facts: its entry value is an `int32_t`, its remaining calls close what it
opened, and a fetched value is the counter before that call's `lock xadd`. -/
structure HandlerFacts (h : Handler) : Prop where
  entry_inRange : InRange h.entryCount
  closing : Closing h.thread.rest
  fetched : ∀ c count, h.thread.fetched = some (c, count) →
    count = wrapInt32 (h.entryCount - depth (c :: h.thread.code))

/-- Only the innermost handler can have been entered with `cliCount ≥ 1`, and `IF` is clear
while it runs. -/
def Masked (flag : Bool) : List Handler → Prop
  | [] => True
  | h :: hs => (1 ≤ h.entryCount → flag = false) ∧ ∀ h' ∈ hs, h'.entryCount < 1

/-- The invariant of the interleaved machine. -/
structure Invariant (m : Machine) : Prop where
  inRange : InRange m.cpu.cliCount
  chain : CountChain m.cpu.cliCount m.handlers
  handlers : ∀ h ∈ m.handlers, HandlerFacts h
  masked : Masked m.cpu.interruptFlag m.handlers

/-- The machine at boot satisfies the invariant. -/
lemma invariant_boot (main : List Call) : Invariant (Machine.boot main) :=
  ⟨by simp only [InRange, Machine.boot, Cpu.boot]; omega, trivial, by simp [Machine.boot], trivial⟩

/-- Inside a handler entered with `cliCount ≥ 1`, an enable never fetches 1. -/
lemma fetched_ne_one {h : Handler} (hf : HandlerFacts h) {count : Int}
    (hc : h.thread.fetched = some (.enable, count)) (he : 1 ≤ h.entryCount) : count ≠ 1 := by
  have hcount := hf.fetched _ _ hc
  have hcl : Closing (.enable :: h.thread.code) := by
    simpa [Thread.rest, hc] using hf.closing
  have h₁ := hcl _ (List.suffix_refl _)
  have h₂ := hcl _ (List.suffix_cons _ _)
  have he' := hf.entry_inRange
  simp only [depth_cons, Call.delta_enable, InRange] at h₁ h₂ hcount he'
  rw [hcount]; unfold wrapInt32; omega

/-- One instruction of the innermost handler keeps the invariant's facts about the handlers. -/
lemma handler_exec {s s' : State} {h : Handler} {hs : List Handler} {t' : Thread}
    (hi : Invariant ⟨s, main, h :: hs⟩) (hex : h.thread.exec s = some (.ok (t', s'))) :
    Invariant ⟨s', main, { h with thread := t' } :: hs⟩ := by
  obtain ⟨hr, ⟨hchain, hchain'⟩, hfacts, hmask, hmask'⟩ := hi
  dsimp only at hr hchain hfacts hmask
  have hf := hfacts h (List.mem_cons_self _ _)
  have hfs := fun h' hh' => hfacts h' (List.mem_cons_of_mem h hh')
  rcases Thread.exec_eq_ok hex with ⟨c, code, ht, rfl, rfl⟩ | ⟨c, count, hc, rfl, hc'⟩
  · -- the `lock xadd` of the next call
    have hrest : h.thread.rest = c :: code := by simp [Thread.rest, ht]
    refine ⟨by simpa using wrapInt32_inRange _, ⟨?_, hchain'⟩, ?_, ?_, hmask'⟩
    · simp only [Call.fetch_cliCount]
      rw [hchain, ht, wrapInt32_wrapInt32_add]
      simp only [depth_cons]; congr 1; omega
    · simp only [List.mem_cons, forall_eq_or_imp]
      refine ⟨⟨hf.entry_inRange, show Closing (c :: code) from hrest ▸ hf.closing, ?_⟩, hfs⟩
      rintro c' count' ⟨⟩
      simpa [ht] using hchain
    · simpa using hmask
  · -- the instruction after it
    obtain ⟨hcount, hflag⟩ := Call.afterFetch_eq_ok hc'
    have hrest : h.thread.rest = c :: h.thread.code := by simp [Thread.rest, hc]
    refine ⟨hcount ▸ hr, ⟨hcount ▸ hchain, hchain'⟩, ?_, ?_, hmask'⟩
    · simp only [List.mem_cons, forall_eq_or_imp]
      refine ⟨⟨hf.entry_inRange, ?_, by simp⟩, hfs⟩
      simpa [Thread.rest] using (hrest ▸ hf.closing).of_cons
    · intro he
      cases hs' : s'.interruptFlag
      · rfl
      · rcases hflag hs' with ⟨rfl, rfl⟩ | ⟨-, hs⟩
        · exact absurd rfl (fetched_ne_one hf hc he)
        · exact absurd hs (by simp [hmask he])

/-- One step of the running thread keeps the invariant. -/
lemma Invariant.exec {m m' : Machine} (hi : Invariant m) (h : m.exec = some m') : Invariant m' := by
  rcases m with ⟨s, main, _ | ⟨hd, hs⟩⟩
  · simp only [Machine.exec] at h
    split at h
    · rename_i t s' hex
      cases h
      rcases Thread.exec_eq_ok hex with ⟨c, code, -, -, rfl⟩ | ⟨c, count, -, -, hc⟩
      · exact ⟨by simpa using wrapInt32_inRange _, trivial, by simp, trivial⟩
      · exact ⟨(Call.afterFetch_eq_ok hc).1 ▸ hi.inRange, trivial, by simp, trivial⟩
    · cases h
  · simp only [Machine.exec] at h
    split at h
    · rename_i t s' hex
      cases h
      exact handler_exec hi hex
    · cases h

/-- Entering a properly nested handler while `IF` is set keeps the invariant. -/
lemma Invariant.interrupt {m : Machine} {body : List Call} (hi : Invariant m)
    (hflag : m.cpu.interruptFlag = true) (hbody : ProperlyNested body) :
    Invariant (m.interrupt body) := by
  refine ⟨hi.inRange, ⟨?_, hi.chain⟩, ?_, ⟨fun _ => rfl, ?_⟩⟩
  · simp [Machine.interrupt, hbody.2, wrapInt32_of_inRange hi.inRange]
  · simp only [Machine.interrupt, List.mem_cons, forall_eq_or_imp]
    exact ⟨⟨hi.inRange, hbody.closing, by simp⟩, hi.handlers⟩
  · have hm := hi.masked
    rcases hh : m.handlers with _ | ⟨h, hs⟩
    · simp
    · rw [hh] at hm
      simp only [List.mem_cons, forall_eq_or_imp]
      exact ⟨by by_contra he; simp [hm.1 (by omega)] at hflag, hm.2⟩

/-- Returning from a finished handler keeps the invariant. -/
lemma Invariant.iret {m m' : Machine} (hi : Invariant m) (h : m.iret = some m') : Invariant m' := by
  rcases m with ⟨s, main, _ | ⟨hd, hs⟩⟩
  · cases h
  · simp only [Machine.iret] at h
    split_ifs at h with hdone
    cases h
    obtain ⟨hr, ⟨hchain, hchain'⟩, hfacts, -, hmask'⟩ := hi
    have he := (hfacts hd (List.mem_cons_self _ _)).entry_inRange
    simp only [hdone, depth_nil, sub_zero, wrapInt32_of_inRange he] at hchain
    refine ⟨hr, hchain ▸ hchain', fun h' hh' => hfacts h' (List.mem_cons_of_mem _ hh'), ?_⟩
    rcases hs with _ | ⟨h', hs'⟩
    · trivial
    · simp only [List.mem_cons, forall_eq_or_imp] at hmask'
      exact ⟨fun he' => absurd he' (by omega), hmask'.2⟩

/-- The run lemma: every reachable machine satisfies the invariant. -/
theorem reachable_invariant {m : Machine} (hm : Reachable m) : Invariant m := by
  induction hm with
  | boot main => exact invariant_boot main
  | exec _ h ih => exact ih.exec h
  | interrupt body _ hflag hbody ih => exact ih.interrupt hflag hbody
  | iret _ h ih => exact ih.iret h

/-! ## What a handler can do to the counter and to `IF` -/

/-- In every reachable machine: a handler that has run all its calls has left `cliCount` as it
found it on entry, and while a handler entered with `cliCount ≥ 1` is on the stack, `IF` is
clear. -/
theorem handler_nesting {m : Machine} (hm : Reachable m) :
    (∀ h hs, m.handlers = h :: hs → h.thread = ⟨[], none⟩ → m.cpu.cliCount = h.entryCount) ∧
      ∀ h ∈ m.handlers, 1 ≤ h.entryCount → m.cpu.interruptFlag = false := by
  have hi := reachable_invariant hm
  refine ⟨fun h hs hh hdone => ?_, fun h hh he => ?_⟩
  · have hchain := hi.chain
    rw [hh] at hchain
    have he := (hi.handlers h (hh ▸ List.mem_cons_self _ _)).entry_inRange
    simpa [hdone, wrapInt32_of_inRange he] using hchain.1
  · have hmask := hi.masked
    rcases hhs : m.handlers with _ | ⟨h', hs⟩
    · simp [hhs] at hh
    · rw [hhs] at hmask hh
      rcases List.mem_cons.mp hh with rfl | hh
      · exact hmask.1 he
      · exact absurd he (by have := hmask.2 h hh; omega)

/-- The machine after a handler entered with `cliCount = 1`: the mainline's boot enable has
unmasked interrupts, and its next disable had run its `lock xadd` when the interrupt came; the
handler has then run `disableInterrupts; enableInterrupts` to the end. -/
def maskedEntry : Machine := ⟨⟨1, false⟩, ⟨[], some (.disable, 0)⟩, [⟨⟨[], none⟩, true, 1⟩]⟩

/-- `maskedEntry` is reachable, and `handler_nesting` applies to its handler: it leaves
`cliCount` at its entry value 1, and `IF` is clear while it runs. -/
theorem handler_nesting_maskedEntry :
    Reachable maskedEntry ∧
      (∀ h hs, maskedEntry.handlers = h :: hs → h.thread = ⟨[], none⟩ →
        maskedEntry.cpu.cliCount = h.entryCount) ∧
      ∀ h ∈ maskedEntry.handlers, 1 ≤ h.entryCount → maskedEntry.cpu.interruptFlag = false :=
  have hbody : ProperlyNested [.disable, .enable] :=
    ⟨fun q hq => by rw [← List.mem_inits] at hq; revert q; decide, by decide⟩
  have hxadd : Reachable ⟨⟨1, true⟩, ⟨[], some (.disable, 0)⟩, []⟩ :=
    .exec (.exec (.exec (.boot [.enable, .disable]) rfl) rfl) rfl
  have hrun : Reachable maskedEntry :=
    .exec (.exec (.exec (.exec (.interrupt [.disable, .enable] hxadd rfl hbody) rfl) rfl) rfl) rfl
  ⟨hrun, handler_nesting hrun⟩

/-- `IF` can be set while a handler runs: the mainline's boot enable unmasks interrupts, a handler
running `disableInterrupts; enableInterrupts` is entered, and its enable fetches 1 and executes
`sti`. -/
theorem handler_can_unmask :
    ¬ ∀ m, Reachable m → m.handlers ≠ [] → m.cpu.interruptFlag = false := by
  intro hclaim
  have hbody : ProperlyNested [.disable, .enable] :=
    ⟨fun q hq => by rw [← List.mem_inits] at hq; revert q; decide, by decide⟩
  have h₂ : Reachable ⟨⟨0, true⟩, ⟨[], none⟩, []⟩ :=
    .exec (.exec (.boot [.enable]) rfl) rfl
  have h₃ := Reachable.interrupt [.disable, .enable] h₂ rfl hbody
  have h₄ : Reachable ⟨⟨0, true⟩, ⟨[], none⟩, [⟨⟨[], none⟩, true, 0⟩]⟩ :=
    .exec (.exec (.exec (.exec h₃ rfl) rfl) rfl) rfl
  exact absurd (hclaim _ h₄ (by simp)) (by simp)

end Cpu

end HhuOS
