import Mathlib.Logic.Function.Basic
import HhuOS.Util.Exception

/-!
# The kernel service registry

`System::serviceMap` holds 256 slots, each a service or null. `System::registerService` stores a
service in the slot of its id, and throws `INVALID_ARGUMENT` when the slot is already taken;
`System::isServiceRegistered` tests a slot. A service id is an index of `serviceMap` (every
`SERVICE_ID` of the kernel is below 256), and a registered service is never null.

`registerServices` runs a sequence of registrations from the empty map. A failing call throws
before its write, so the map it found is the map after it. `registerServices_eq_lookup` is the
refinement: the slots are the append-only association list of the calls, read first match first.
`registerServices_append_only` collects what follows for every sequence.
-/

namespace HhuOS

namespace System

variable {σ : Type}

/-- `Service* serviceMap[256]{}`: every slot null. -/
def emptyServiceMap : Fin 256 → Option σ := fun _ => none

/-- `System::isServiceRegistered`: the slot is not null. -/
def isServiceRegistered (serviceMap : Fin 256 → Option σ) (serviceId : Fin 256) : Bool :=
  (serviceMap serviceId).isSome

/-- The message of a duplicate registration. -/
def alreadyRegisteredMessage : String := "Service is already registered!"

/-- `System::registerService`: throw `INVALID_ARGUMENT` when the slot is taken, otherwise store
the service in it. -/
def registerService (serviceMap : Fin 256 → Option σ) (serviceId : Fin 256) (kernelService : σ) :
    Except Exception (Fin 256 → Option σ) :=
  if isServiceRegistered serviceMap serviceId then
    .error ⟨.invalidArgument, alreadyRegisteredMessage⟩
  else .ok (Function.update serviceMap serviceId (some kernelService))

/-- The map after one call: a failing call throws before it writes. -/
def registerOrKeep (serviceMap : Fin 256 → Option σ) (call : Fin 256 × σ) : Fin 256 → Option σ :=
  match registerService serviceMap call.1 call.2 with
  | .ok serviceMap' => serviceMap'
  | .error _ => serviceMap

/-- A sequence of registrations from the empty map. -/
def registerServices (calls : List (Fin 256 × σ)) : Fin 256 → Option σ :=
  calls.foldl registerOrKeep emptyServiceMap

/-- Registering calls and one more is registering that call after them. -/
lemma registerServices_append_singleton (p : List (Fin 256 × σ)) (call : Fin 256 × σ) :
    registerServices (p ++ [call]) = registerOrKeep (registerServices p) call := by
  simp [registerServices]

/-- A call fails exactly when its slot is taken, and then with `INVALID_ARGUMENT`. -/
lemma registerService_eq_error_iff (serviceMap : Fin 256 → Option σ) (serviceId : Fin 256)
    (kernelService : σ) (e : Exception) :
    registerService serviceMap serviceId kernelService = .error e ↔
      (serviceMap serviceId).isSome ∧ e = ⟨.invalidArgument, alreadyRegisteredMessage⟩ := by
  unfold registerService isServiceRegistered
  split_ifs with h <;> simp [h, eq_comm]

/-- The map after one call: unchanged when the slot is taken, otherwise that slot set. -/
lemma registerOrKeep_apply (serviceMap : Fin 256 → Option σ) (call : Fin 256 × σ) (id : Fin 256) :
    registerOrKeep serviceMap call id =
      ((serviceMap id).or (if id = call.1 then some call.2 else none)) := by
  obtain ⟨k, v⟩ := call
  unfold registerOrKeep registerService isServiceRegistered
  by_cases hid : id = k
  · rw [hid]
    cases h : serviceMap k <;> simp [h]
  · split_ifs <;> simp [hid, Function.update_noteq hid]

/-- The refinement: after any sequence of calls, each slot holds what the first call with its id
registered, and is null when no call used the id. -/
theorem registerServices_eq_lookup (p : List (Fin 256 × σ)) (id : Fin 256) :
    registerServices p id = p.lookup id := by
  induction p using List.reverseRecOn with
  | nil => rfl
  | append_singleton p call ih =>
    rw [registerServices_append_singleton, registerOrKeep_apply, ih, List.lookup_append]
    obtain ⟨k, v⟩ := call
    by_cases h : id = k
    · rw [h]; simp
    · have hb : (id == k) = false := by simpa using h
      simp [h, hb, List.lookup_cons]

/-- For every sequence of registrations: a call fails, with `INVALID_ARGUMENT`, exactly when an
earlier call used its id, and a failing call changes no slot; a slot is registered exactly when
some call used its id, and holds the service of the first such call, which is the one that
succeeded; a call leaves every other slot alone. -/
theorem registerServices_append_only (p : List (Fin 256 × σ)) (serviceId : Fin 256)
    (kernelService : σ) :
    (registerService (registerServices p) serviceId kernelService =
        .error ⟨.invalidArgument, alreadyRegisteredMessage⟩ ↔ serviceId ∈ p.map Prod.fst) ∧
      (∀ e, registerService (registerServices p) serviceId kernelService = .error e →
        registerServices (p ++ [(serviceId, kernelService)]) = registerServices p) ∧
      (isServiceRegistered (registerServices p) serviceId = true ↔ serviceId ∈ p.map Prod.fst) ∧
      (∀ id, registerServices p id = p.lookup id) ∧
      (∀ id, id ≠ serviceId →
        registerServices (p ++ [(serviceId, kernelService)]) id = registerServices p id) := by
  have hreg : isServiceRegistered (registerServices p) serviceId = true ↔
      serviceId ∈ p.map Prod.fst := by
    simp only [isServiceRegistered, registerServices_eq_lookup, List.lookup_isSome_iff,
      List.mem_map, beq_iff_eq, @eq_comm _ serviceId]
  refine ⟨?_, fun e he => ?_, hreg, registerServices_eq_lookup p, fun id hid => ?_⟩
  · rw [registerService_eq_error_iff, ← hreg, isServiceRegistered]
    simp only [and_true]
  · rw [registerService_eq_error_iff] at he
    funext id
    rw [registerServices_append_singleton, registerOrKeep_apply]
    by_cases h : id = serviceId
    · obtain ⟨v, hv⟩ := Option.isSome_iff_exists.1 he.1
      rw [h, hv]; rfl
    · simp [h]
  · rw [registerServices_append_singleton, registerOrKeep_apply]
    simp [hid]

end System

end HhuOS
