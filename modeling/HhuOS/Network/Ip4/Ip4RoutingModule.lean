import Mathlib.Data.List.Nodup

/-!
# The IPv4 routing table

`Ip4RoutingModule` keeps its routes in the list `routes` and a separate `defaultRoute`.
`addRoute` appends a route unless an equal one is there, `removeRoute` removes the first equal
one, and `findRouteTo` scans the table for a route whose subnet the destination matches and falls
back to the default route.

Routes are compared with `==` (`Ip4Route` and `ArrayList` are outside the source tree); they are
a type with decidable equality. `findRouteTo` reads each route only through
`address.compareTo(route.getNetworkMask().extractSubnet(route.getAddress()))`, which is the input
`compareTo`.

A sequence of calls from the empty table keeps the list free of duplicates, and its routes are
the routes whose last `addRoute` or `removeRoute` call was an `addRoute` (`added`):
`routes_set_semantics`. Its last part is where the table and `findRouteTo` part: the search
returns a route of the table or the default route, so a removed route comes back exactly when
it is the default route (`removed_route_found_as_default`). `findRouteTo_eq` says which route the
search returns: `longestPrefix` is never raised, so the last matching route wins.
-/

namespace HhuOS

namespace Network.Ip4

/-- The fields of `Ip4RoutingModule`. -/
structure Ip4RoutingModule (ρ : Type) where
  routes : List ρ
  defaultRoute : ρ

/-- A call of the routing module. -/
inductive Call (ρ : Type) where
  | setDefaultRoute (route : ρ)
  | addRoute (route : ρ)
  | removeRoute (route : ρ)
  deriving DecidableEq, Repr

namespace Ip4RoutingModule

variable {ρ : Type} [DecidableEq ρ]

/-- `Ip4RoutingModule::setDefaultRoute`. -/
def setDefaultRoute (m : Ip4RoutingModule ρ) (route : ρ) : Ip4RoutingModule ρ :=
  { m with defaultRoute := route }

/-- `Ip4RoutingModule::addRoute`: add the route unless the table contains it. -/
def addRoute (m : Ip4RoutingModule ρ) (route : ρ) : Ip4RoutingModule ρ :=
  if route ∈ m.routes then m else { m with routes := m.routes ++ [route] }

/-- `Ip4RoutingModule::removeRoute`: `ArrayList::remove` drops the first equal element. -/
def removeRoute (m : Ip4RoutingModule ρ) (route : ρ) : Ip4RoutingModule ρ :=
  { m with routes := m.routes.erase route }

/-- `Ip4RoutingModule::findRouteTo`, for the destination that `compareTo` compares with. -/
def findRouteTo (m : Ip4RoutingModule ρ) (compareTo : ρ → Int) : ρ :=
  let longestPrefix : Int := 0
  let ret := m.routes.foldl
    (fun ret route => if compareTo route > longestPrefix then some route else ret) none
  ret.getD m.defaultRoute

/-- One call. -/
def apply (m : Ip4RoutingModule ρ) : Call ρ → Ip4RoutingModule ρ
  | .setDefaultRoute route => m.setDefaultRoute route
  | .addRoute route => m.addRoute route
  | .removeRoute route => m.removeRoute route

/-- A sequence of calls. -/
def run (m : Ip4RoutingModule ρ) (calls : List (Call ρ)) : Ip4RoutingModule ρ :=
  calls.foldl apply m

end Ip4RoutingModule

open Ip4RoutingModule

variable {ρ : Type}

/-! ## The table as a set -/

section Table

variable [DecidableEq ρ]

/-- What a call says about `route` being in the table, given what was said before. -/
def Call.decides (route : ρ) (inTable : Bool) : Call ρ → Bool
  | .setDefaultRoute _ => inTable
  | .addRoute r => if r = route then true else inTable
  | .removeRoute r => if r = route then false else inTable

/-- Whether the last `addRoute` or `removeRoute` call on `route` was an `addRoute`. -/
def added (calls : List (Call ρ)) (route : ρ) : Bool := calls.foldl (fun b c => c.decides route b) false

/-- The table holds each route once, and exactly the routes the set `inTable` holds. -/
structure Represents (m : Ip4RoutingModule ρ) (inTable : ρ → Bool) : Prop where
  nodup : m.routes.Nodup
  mem_iff : ∀ r, r ∈ m.routes ↔ inTable r = true

/-- The step lemma: each call updates the table as it updates the set. -/
lemma Represents.apply {m : Ip4RoutingModule ρ} {inTable : ρ → Bool} (h : Represents m inTable)
    (c : Call ρ) : Represents (m.apply c) (fun r => c.decides r (inTable r)) := by
  cases c with
  | setDefaultRoute route => exact ⟨h.nodup, h.mem_iff⟩
  | addRoute route =>
    show Represents (m.addRoute route) _
    unfold addRoute
    split
    · next hin =>
      refine ⟨h.nodup, fun r => ?_⟩
      by_cases hr : route = r
      · subst hr; simp [Call.decides, hin]
      · simp [Call.decides, hr, h.mem_iff]
    · next hin =>
      refine ⟨by simpa using h.nodup.concat hin, fun r => ?_⟩
      by_cases hr : route = r
      · subst hr; simp [Call.decides]
      · simp [Call.decides, hr, Ne.symm hr, h.mem_iff]
  | removeRoute route =>
    refine ⟨h.nodup.erase route, fun r => ?_⟩
    show r ∈ m.routes.erase route ↔ _
    rw [h.nodup.mem_erase_iff]
    by_cases hr : route = r
    · subst hr; simp [Call.decides]
    · simp [Call.decides, hr, Ne.symm hr, h.mem_iff]

/-- The run lemma. -/
lemma Represents.run {m : Ip4RoutingModule ρ} {inTable : ρ → Bool} (h : Represents m inTable)
    (calls : List (Call ρ)) :
    Represents (m.run calls) (fun r => calls.foldl (fun b c => c.decides r b) (inTable r)) := by
  induction calls generalizing m inTable with
  | nil => exact h
  | cons c calls ih => exact ih (h.apply c)

end Table

/-! ## What `findRouteTo` returns -/

/-- The loop of `findRouteTo` ends with the last matching route, or with what it started with. -/
lemma foldl_findRouteTo (compareTo : ρ → Int) (routes : List ρ) (acc : Option ρ) :
    routes.foldl (fun ret route => if compareTo route > 0 then some route else ret) acc =
      (routes.filter fun r => 0 < compareTo r).getLast?.or acc := by
  induction routes generalizing acc with
  | nil => rfl
  | cons r routes ih =>
    rw [List.foldl_cons, ih, List.filter_cons]
    by_cases hr : 0 < compareTo r
    · simp only [gt_iff_lt, hr, decide_True, ↓reduceIte, List.getLast?_cons]
      cases (routes.filter fun r => 0 < compareTo r).getLast? <;> rfl
    · simp [hr]

/-- `findRouteTo` returns the last route of the table, in table order, whose `compareTo` is
positive, and the default route when there is none: `longestPrefix` stays 0, so a later
matching route replaces an earlier one whatever their prefix lengths. -/
theorem findRouteTo_eq (m : Ip4RoutingModule ρ) (compareTo : ρ → Int) :
    m.findRouteTo compareTo =
      ((m.routes.filter fun r => 0 < compareTo r).getLast?).getD m.defaultRoute := by
  rw [findRouteTo, foldl_findRouteTo, Option.or_none]

/-- `findRouteTo` returns a route of the table or the default route. -/
lemma findRouteTo_mem_or_default (m : Ip4RoutingModule ρ) (compareTo : ρ → Int) :
    m.findRouteTo compareTo ∈ m.routes ∨ m.findRouteTo compareTo = m.defaultRoute := by
  rw [findRouteTo, foldl_findRouteTo, Option.or_none]
  cases h : (m.routes.filter fun r => 0 < compareTo r).getLast? with
  | none => exact .inr rfl
  | some r => exact .inl (List.mem_of_mem_filter (List.mem_of_getLast?_eq_some h))

/-! ## Longest-prefix matching -/

/-- The parts of an `Ip4Route` that `findRouteTo` reads: its address and the bit count of its
network mask. -/
structure Ip4Route where
  address : BitVec 32
  maskBits : Nat
  deriving DecidableEq, Repr

/-- `route.getNetworkMask().extractSubnet(route.getAddress())`: the route's address with the
bits past the mask cleared. -/
def Ip4Route.subnet (route : Ip4Route) : BitVec 32 :=
  route.address &&& BitVec.allOnes 32 <<< (32 - route.maskBits)

/-- The route's subnet contains `address`: they agree on the mask's bits. -/
def Ip4Route.Contains (route : Ip4Route) (address : BitVec 32) : Prop :=
  (address &&& BitVec.allOnes 32 <<< (32 - route.maskBits)) = route.subnet

instance (route : Ip4Route) (address : BitVec 32) : Decidable (route.Contains address) :=
  inferInstanceAs (Decidable (_ = _))

/-- `findRouteTo` for an address, with `compareTo` standing for `Ip4Address::compareTo`. -/
def findRouteToAddress (m : Ip4RoutingModule Ip4Route) (compareTo : BitVec 32 → BitVec 32 → Int)
    (address : BitVec 32) : Ip4Route :=
  m.findRouteTo fun route => compareTo address route.subnet

/-- A longest-prefix match for `address`: when some route's subnet contains the address, a route
of the table whose subnet contains it with a mask at least as long as every such route's; and
the default route exactly when no route's subnet contains the address. -/
def IsLongestPrefixMatch (m : Ip4RoutingModule Ip4Route) (address : BitVec 32) (r : Ip4Route) :
    Prop :=
  ((∃ r' ∈ m.routes, r'.Contains address) →
      r ∈ m.routes ∧ r.Contains address ∧
        ∀ r' ∈ m.routes, r'.Contains address → r'.maskBits ≤ r.maskBits) ∧
    (r = m.defaultRoute ↔ ∀ r' ∈ m.routes, ¬ r'.Contains address)

/-- The table `10.0.0.0/24`, then `10.0.0.0/8`, with the default route `0.0.0.0/0`. -/
def overlappingRoutes : Ip4RoutingModule Ip4Route :=
  ⟨[⟨0x0A000000, 24⟩, ⟨0x0A000000, 8⟩], ⟨0, 0⟩⟩

/-- Whatever `Ip4Address::compareTo` computes, `findRouteTo` is no longest-prefix match for
`10.0.0.5` in the table `10.0.0.0/24`, `10.0.0.0/8`: both subnets are `10.0.0.0`, so the two
comparisons agree; when they are positive the later `/8` route replaces the `/24` one
(`longestPrefix` stays 0), and otherwise the default route comes back although both subnets
contain the address. -/
theorem findRouteTo_not_longest_prefix (compareTo : BitVec 32 → BitVec 32 → Int) :
    ¬ IsLongestPrefixMatch overlappingRoutes 0x0A000005
      (findRouteToAddress overlappingRoutes compareTo 0x0A000005) := by
  have hsubnet : ∀ r ∈ overlappingRoutes.routes, r.subnet = 0x0A000000 := by decide
  have hcontains : ∀ r ∈ overlappingRoutes.routes, r.Contains 0x0A000005 := by decide
  rintro ⟨hlongest, -⟩
  obtain ⟨-, -, hmax⟩ := hlongest ⟨_, List.mem_cons_self _ _, hcontains _ (List.mem_cons_self _ _)⟩
  have h24 := hmax _ (List.mem_cons_self _ _) (hcontains _ (List.mem_cons_self _ _))
  simp only [findRouteToAddress, findRouteTo, overlappingRoutes, List.foldl,
    hsubnet _ (List.mem_cons_self _ _), hsubnet _ (List.mem_cons_of_mem _ (List.mem_cons_self _ _))]
    at h24
  split_ifs at h24 <;> simp at h24

/-! ## Runs from the empty table -/

/-- From the empty table, every sequence of calls keeps each route at most once, and a route is
in the table exactly when the last `addRoute` or `removeRoute` call on it was an `addRoute`.
`findRouteTo` returns a route of the table or the default route, so after its last call was a
`removeRoute`, a route is returned only as the default route. -/
theorem routes_set_semantics [DecidableEq ρ] (defaultRoute : ρ) (calls : List (Call ρ)) :
    (run ⟨[], defaultRoute⟩ calls).routes.Nodup ∧
      (∀ r, r ∈ (run ⟨[], defaultRoute⟩ calls).routes ↔ added calls r = true) ∧
      ∀ compareTo r, added calls r = false →
        (run ⟨[], defaultRoute⟩ calls).findRouteTo compareTo = r →
          r = (run ⟨[], defaultRoute⟩ calls).defaultRoute := by
  have h := (⟨List.nodup_nil, fun r => by simp⟩ :
    Represents (⟨[], defaultRoute⟩ : Ip4RoutingModule ρ) fun _ => false).run calls
  refine ⟨h.nodup, h.mem_iff, fun compareTo r hr hfind => ?_⟩
  rcases findRouteTo_mem_or_default (run ⟨[], defaultRoute⟩ calls) compareTo with hmem | hdef
  · rw [hfind, h.mem_iff] at hmem
    exact absurd hmem (by simpa [added] using hr)
  · exact hfind ▸ hdef

/-- A removed route that is the default route is found again: the default route is 5, route 5 is
added and removed, and `findRouteTo` returns 5. -/
theorem removed_route_found_as_default :
    ¬ ∀ (defaultRoute : Nat) (calls : List (Call Nat)) (r : Nat) (compareTo : Nat → Int),
      added calls r = false → (run ⟨[], defaultRoute⟩ calls).findRouteTo compareTo ≠ r := by
  intro h
  exact h 5 [.addRoute 5, .removeRoute 5] 5 (fun _ => 0) rfl rfl

end Network.Ip4

end HhuOS
