import GateBench.Proofs.HandleLife
import GateBench.Worker.Pool
import Mathlib.Data.List.Basic

/-!
The slots of a pool.  Workers are acquired through clones of the pool, and their handles are used,
released and dropped in any order.  Each of these moves as many slots into the pool as it takes from
the handles, so the slots that are free and those that are out always make up the capacity.
-/

namespace GateBench.Worker

open Message

variable {ν ω : Type} {transport : Transport ν ω}

/-! ### What the operations of a pool do -/

namespace Pool

variable {pool : Pool} {surroundings later : ω}

/-- Without a free slot no worker is started. -/
theorem acquire_of_full (hfull : pool.available = 0) :
    pool.acquire transport surroundings =
      (.error (.unavailable pool.capacity), pool, surroundings) :=
  if_pos hfull

/-- The slot of a worker that does not start stays free. -/
theorem acquire_of_failure (hfree : pool.available ≠ 0) {error : WorkerError}
    (hspawn : transport.spawn surroundings = (.error error, later)) :
    pool.acquire transport surroundings = (.error error, pool, later) := by
  simp only [acquire, if_neg hfree, hspawn]

theorem acquire_of_worker (hfree : pool.available ≠ 0) {worker : ν}
    (hspawn : transport.spawn surroundings = (.ok worker, later)) :
    pool.acquire transport surroundings =
      (.ok { worker, timeout := pool.timeout, holdsSlot := true },
        { pool with available := pool.available - 1 }, later) := by
  simp only [acquire, if_neg hfree, hspawn]

end Pool

/-- A request leaves the slot of its handle alone, even at its deadline. -/
@[simp]
theorem Handle.issue_holdsSlot (transport : Transport ν ω) (handle : Handle ν) (request : Request)
    (reception : Reception) (abandonAfter : Option Nat) (surroundings : ω) :
    (handle.issue transport request reception abandonAfter surroundings).2.1.holdsSlot =
      handle.holdsSlot := by
  cases hrefusal : handle.state.refusal? with
  | some error => rw [issue_of_refusal hrefusal]
  | none =>
      rcases hcall : transport.call request reception ⟨handle.timeout, abandonAfter⟩ handle.worker
        surroundings with ⟨call, worker, later⟩
      rw [issue_of_accepts (HandleState.refusal?_eq_none_iff.mp hrefusal) hcall]
      exact conclude_holdsSlot _ { handle with worker, state := .busy } _ _

/-! ### Pools and the handles they gave out -/

/-- What has become of a handle that a pool gave out: somebody holds it, who may have released it;
or it was dropped. -/
inductive Lease (ν : Type) where
  | held (handle : Handle ν) (released : Bool)
  | dropped

/-- Whether a handle was neither released nor dropped. -/
def Lease.isOut : Lease ν → Bool
  | .held _ released => !released
  | .dropped => false

/-- A handle has a slot until it is released. -/
def Lease.KeepsSlot : Lease ν → Prop
  | .held handle released => handle.holdsSlot = !released
  | .dropped => True

/-- What happens to a pool: a worker is acquired through a clone of it, which has a timeout of its
own; or one of the handles that it gave out is used or dropped. -/
inductive PoolAction where
  | acquire (timeout : Nat)
  | use (index : Nat) (action : HandleAction)
  | drop (index : Nat)

/-- A pool, what has become of the handles that it gave out, in their order, and what surrounds
them. -/
structure Tenancy (ν ω : Type) where
  pool : Pool
  leases : List (Lease ν) := []
  surroundings : ω

namespace Tenancy

/-- How many handles are out. -/
def out (tenancy : Tenancy ν ω) : Nat :=
  tenancy.leases.countP Lease.isOut

/-- A clone of the pool, whose slots are those of the pool. -/
def clone (tenancy : Tenancy ν ω) (timeout : Nat) : Pool :=
  { tenancy.pool with timeout }

/-- Acquire a worker through a clone of the pool. -/
def acquire (transport : Transport ν ω) (tenancy : Tenancy ν ω) (timeout : Nat) :
    Except WorkerError (Handle ν) × Tenancy ν ω :=
  let (result, clone, surroundings) :=
    (tenancy.clone timeout).acquire transport tenancy.surroundings
  let pool := { tenancy.pool with available := clone.available }
  match result with
  | .error error => (.error error, { tenancy with pool, surroundings })
  | .ok handle =>
    (.ok handle, { pool, leases := tenancy.leases ++ [.held handle false], surroundings })

/-- Put a lease in the place of another. -/
def exchange (tenancy : Tenancy ν ω) (index : Nat) (lease : Lease ν) (pool : Pool)
    (surroundings : ω) : Tenancy ν ω :=
  { pool, leases := tenancy.leases.set index lease, surroundings }

/-- Use one of the handles, if somebody holds it. -/
def use (transport : Transport ν ω) (tenancy : Tenancy ν ω) (index : Nat)
    (action : HandleAction) : Tenancy ν ω :=
  match tenancy.leases[index]?, action with
  | some (.held handle released), .issue request reception abandonAfter =>
    let (_, handle, surroundings) :=
      handle.issue transport request reception abandonAfter tenancy.surroundings
    tenancy.exchange index (.held handle released) tenancy.pool surroundings
  | some (.held handle _), .release =>
    let (handle, pool, surroundings) :=
      tenancy.pool.release transport handle tenancy.surroundings
    tenancy.exchange index (.held handle true) pool surroundings
  | _, _ => tenancy

/-- Drop one of the handles, if somebody holds it. -/
def drop (transport : Transport ν ω) (tenancy : Tenancy ν ω) (index : Nat) : Tenancy ν ω :=
  match tenancy.leases[index]? with
  | some (.held handle _) =>
    let (pool, surroundings) := tenancy.pool.drop transport handle tenancy.surroundings
    tenancy.exchange index .dropped pool surroundings
  | _ => tenancy

/-- One action. -/
def step (transport : Transport ν ω) (tenancy : Tenancy ν ω) : PoolAction → Tenancy ν ω
  | .acquire timeout => (tenancy.acquire transport timeout).2
  | .use index action => tenancy.use transport index action
  | .drop index => tenancy.drop transport index

/-- One action after another. -/
def run (transport : Transport ν ω) (tenancy : Tenancy ν ω) (actions : List PoolAction) :
    Tenancy ν ω :=
  actions.foldl (step transport) tenancy

section Acquire

variable {tenancy : Tenancy ν ω} {later : ω}

theorem acquire_of_full (hfull : tenancy.pool.available = 0) (timeout : Nat) :
    tenancy.acquire transport timeout =
      (.error (.unavailable tenancy.pool.capacity), tenancy) := by
  have hclone : (tenancy.clone timeout).available = 0 := hfull
  rw [acquire, Pool.acquire_of_full hclone]
  rfl

theorem acquire_of_failure (hfree : tenancy.pool.available ≠ 0) {error : WorkerError}
    (hspawn : transport.spawn tenancy.surroundings = (.error error, later)) (timeout : Nat) :
    tenancy.acquire transport timeout =
      (.error error, { tenancy with surroundings := later }) := by
  have hclone : (tenancy.clone timeout).available ≠ 0 := hfree
  rw [acquire, Pool.acquire_of_failure hclone hspawn]
  rfl

theorem acquire_of_worker (hfree : tenancy.pool.available ≠ 0) {worker : ν}
    (hspawn : transport.spawn tenancy.surroundings = (.ok worker, later)) (timeout : Nat) :
    tenancy.acquire transport timeout =
      (.ok { worker, timeout, holdsSlot := true },
        { pool := { tenancy.pool with available := tenancy.pool.available - 1 }
          leases := tenancy.leases ++ [.held { worker, timeout, holdsSlot := true } false]
          surroundings := later }) := by
  have hclone : (tenancy.clone timeout).available ≠ 0 := hfree
  rw [acquire, Pool.acquire_of_worker hclone hspawn]
  rfl

/-- An attempt to acquire a worker that fails changes nothing but the surroundings. -/
theorem acquire_failed {timeout : Nat} {error : WorkerError}
    (hacquire : (tenancy.acquire transport timeout).1 = .error error) :
    (tenancy.acquire transport timeout).2.pool = tenancy.pool ∧
      (tenancy.acquire transport timeout).2.leases = tenancy.leases := by
  by_cases hfull : tenancy.pool.available = 0
  · rw [acquire_of_full hfull]
    exact ⟨rfl, rfl⟩
  · rcases hspawn : transport.spawn tenancy.surroundings with ⟨failure | worker, later⟩
    · rw [acquire_of_failure hfull hspawn]
      exact ⟨rfl, rfl⟩
    · rw [acquire_of_worker hfull hspawn] at hacquire
      nomatch hacquire

end Acquire

/-! ### Slots that are free and slots that are out -/

/-- Every slot is either free or out, and each handle has one until it is released. -/
structure IsBalanced (capacity : Nat) (tenancy : Tenancy ν ω) : Prop where
  capacity_eq : tenancy.pool.capacity = capacity
  total : tenancy.pool.available + tenancy.out = capacity
  slots : ∀ lease ∈ tenancy.leases, lease.KeepsSlot

variable {capacity : Nat} {tenancy : Tenancy ν ω}

theorem isBalanced_start (timeout : Nat) (surroundings : ω) :
    IsBalanced capacity ({ pool := { capacity, timeout }, surroundings } : Tenancy ν ω) :=
  ⟨rfl, rfl, by simp⟩

namespace IsBalanced

/-- The pool has a free slot exactly if fewer handles are out than it has slots. -/
theorem available_eq_zero_iff (hbalanced : tenancy.IsBalanced capacity) :
    tenancy.pool.available = 0 ↔ tenancy.out = capacity := by
  have htotal := hbalanced.total
  omega

/-- What becomes of a handle moves as many slots as the pool gains or loses. -/
theorem exchange (hbalanced : tenancy.IsBalanced capacity) {index : Nat} {before : Lease ν}
    (hbefore : tenancy.leases[index]? = some before) (after : Lease ν) (hafter : after.KeepsSlot)
    {pool : Pool} (hcapacity : pool.capacity = tenancy.pool.capacity)
    (hmoved : pool.available + (if after.isOut then 1 else 0) =
      tenancy.pool.available + if before.isOut then 1 else 0) (surroundings : ω) :
    (tenancy.exchange index after pool surroundings).IsBalanced capacity := by
  obtain ⟨hindex, rfl⟩ := List.getElem?_eq_some_iff.mp hbefore
  refine ⟨hcapacity.trans hbalanced.capacity_eq, ?_, fun lease hlease => ?_⟩
  · have htotal := hbalanced.total
    have hcounted : (if tenancy.leases[index].isOut then 1 else 0) ≤ tenancy.out :=
      List.boole_getElem_le_countP hindex
    have hout : (tenancy.exchange index after pool surroundings).out =
        tenancy.out - (if tenancy.leases[index].isOut then 1 else 0) +
          if after.isOut then 1 else 0 := List.countP_set hindex
    change pool.available + _ = capacity
    omega
  · rcases List.mem_or_eq_of_mem_set hlease with hmem | rfl
    · exact hbalanced.slots lease hmem
    · exact hafter

theorem acquire (hbalanced : tenancy.IsBalanced capacity) (timeout : Nat) :
    (tenancy.acquire transport timeout).2.IsBalanced capacity := by
  by_cases hfull : tenancy.pool.available = 0
  · rw [acquire_of_full hfull]
    exact hbalanced
  · rcases hspawn : transport.spawn tenancy.surroundings with ⟨error | worker, later⟩
    · rw [acquire_of_failure hfull hspawn]
      exact ⟨hbalanced.capacity_eq, hbalanced.total, hbalanced.slots⟩
    · rw [acquire_of_worker hfull hspawn]
      refine ⟨hbalanced.capacity_eq, ?_, ?_⟩
      · have htotal := hbalanced.total
        simp only [out, List.countP_append, List.countP_singleton, Lease.isOut, Bool.not_false,
          if_true] at htotal ⊢
        omega
      · simpa [or_imp, forall_and, Lease.KeepsSlot] using hbalanced.slots

/-- A handle that is released, again or not, or dropped gives back the slot that it has. -/
theorem takeBack (hbalanced : tenancy.IsBalanced capacity) {index : Nat} {handle : Handle ν}
    {released : Bool} (hlease : tenancy.leases[index]? = some (.held handle released))
    (after : Lease ν) (hafter : after.KeepsSlot) (hout : after.isOut = false) (surroundings : ω) :
    (tenancy.exchange index after (tenancy.pool.takeBack handle.holdsSlot)
      surroundings).IsBalanced capacity := by
  have hslot : handle.holdsSlot = !released := hbalanced.slots _ (List.mem_of_getElem? hlease)
  have hheld : (Lease.held handle released).isOut = handle.holdsSlot := hslot.symm
  have hmoved : (tenancy.pool.takeBack handle.holdsSlot).available +
      (if after.isOut then 1 else 0) =
        tenancy.pool.available + if (Lease.held handle released).isOut then 1 else 0 := by
    rw [hheld, hout]
    rfl
  have hcapacity : (tenancy.pool.takeBack handle.holdsSlot).capacity = tenancy.pool.capacity := rfl
  exact hbalanced.exchange hlease after hafter hcapacity hmoved surroundings

theorem use (hbalanced : tenancy.IsBalanced capacity) (index : Nat) (action : HandleAction) :
    (tenancy.use transport index action).IsBalanced capacity := by
  unfold Tenancy.use
  split
  · rename_i handle released request reception abandonAfter hlease
    have hslot : handle.holdsSlot = !released := hbalanced.slots _ (List.mem_of_getElem? hlease)
    exact hbalanced.exchange hlease (.held _ released)
      ((Handle.issue_holdsSlot ..).trans hslot) rfl rfl _
  · -- a second release finds that the handle has no slot, and moves none
    rename_i handle released hlease
    exact hbalanced.takeBack hlease (.held (handle.release transport tenancy.surroundings).1 true)
      rfl rfl _
  · exact hbalanced

theorem drop (hbalanced : tenancy.IsBalanced capacity) (index : Nat) :
    (tenancy.drop transport index).IsBalanced capacity := by
  unfold Tenancy.drop
  split
  · rename_i handle released hlease
    exact hbalanced.takeBack hlease .dropped trivial rfl _
  · exact hbalanced

theorem acquire_refused (hbalanced : tenancy.IsBalanced capacity) (timeout : Nat)
    (hout : tenancy.out = capacity) :
    tenancy.acquire transport timeout = (.error (.unavailable capacity), tenancy) := by
  rw [acquire_of_full (hbalanced.available_eq_zero_iff.mpr hout), hbalanced.capacity_eq]

theorem acquire_started (hbalanced : tenancy.IsBalanced capacity) (timeout : Nat)
    (hout : tenancy.out ≠ capacity) :
    (tenancy.acquire transport timeout).1.map (·.worker) =
      (transport.spawn tenancy.surroundings).1 := by
  have hfree : tenancy.pool.available ≠ 0 := mt hbalanced.available_eq_zero_iff.mp hout
  rcases hspawn : transport.spawn tenancy.surroundings with ⟨error | worker, later⟩
  · rw [acquire_of_failure hfree hspawn]
    rfl
  · rw [acquire_of_worker hfree hspawn]
    rfl

/-- If slots are unavailable to an attempt to acquire a worker, all of them are out, unless starting
the worker has failed for that reason. -/
theorem out_of_unavailable (hbalanced : tenancy.IsBalanced capacity) {timeout slots : Nat}
    (hspawn : (transport.spawn tenancy.surroundings).1 ≠ .error (.unavailable slots))
    (hacquire : (tenancy.acquire transport timeout).1 = .error (.unavailable slots)) :
    tenancy.out = capacity := by
  by_contra hout
  apply hspawn
  rw [← hbalanced.acquire_started timeout hout, hacquire]
  rfl

theorem step (hbalanced : tenancy.IsBalanced capacity) (action : PoolAction) :
    (tenancy.step transport action).IsBalanced capacity := by
  cases action with
  | acquire timeout => exact hbalanced.acquire timeout
  | use index action => exact hbalanced.use index action
  | drop index => exact hbalanced.drop index

theorem run (hbalanced : tenancy.IsBalanced capacity) (actions : List PoolAction) :
    (tenancy.run transport actions).IsBalanced capacity := by
  induction actions generalizing tenancy with
  | nil => exact hbalanced
  | cons action others ih => exact ih (hbalanced.step action)

end IsBalanced

/-- What holds of a pool whose slots are neither lost nor made up. -/
structure KeepsSlots (transport : Transport ν ω) (capacity : Nat) (tenancy : Tenancy ν ω) :
    Prop where
  /-- The slots that are free and those that are out make up the capacity. -/
  total : tenancy.pool.available + tenancy.out = capacity
  /-- If all slots are out, nothing comes of an attempt to acquire a worker. -/
  refused : ∀ timeout, tenancy.out = capacity →
    tenancy.acquire transport timeout = (.error (.unavailable capacity), tenancy)
  /-- Otherwise the attempt comes to what starting a worker comes to. -/
  started : ∀ timeout, tenancy.out ≠ capacity →
    (tenancy.acquire transport timeout).1.map (·.worker) =
      (transport.spawn tenancy.surroundings).1
  /-- So unless starting a worker fails for that reason, slots are unavailable exactly if all are
  out. -/
  unavailable : ∀ timeout,
    (∀ slots, (transport.spawn tenancy.surroundings).1 ≠ .error (.unavailable slots)) →
    ((∃ slots, (tenancy.acquire transport timeout).1 = .error (.unavailable slots)) ↔
      tenancy.out = capacity)
  /-- An attempt that fails leaves the slots as they were. -/
  failed : ∀ timeout error, (tenancy.acquire transport timeout).1 = .error error →
    (tenancy.acquire transport timeout).2.pool = tenancy.pool ∧
      (tenancy.acquire transport timeout).2.leases = tenancy.leases

/-- Whatever is done with a pool and with the handles that it gave out, it keeps its slots. -/
theorem run_keepsSlots (transport : Transport ν ω) (capacity timeout : Nat)
    (actions : List PoolAction) (surroundings : ω) :
    (run transport { pool := { capacity, timeout }, surroundings } actions).KeepsSlots transport
      capacity := by
  have hbalanced : (run transport { pool := { capacity, timeout }, surroundings }
      actions).IsBalanced capacity := (isBalanced_start timeout surroundings).run actions
  exact {
    total := hbalanced.total
    refused := hbalanced.acquire_refused
    started := hbalanced.acquire_started
    unavailable := fun timeout hspawn =>
      ⟨fun ⟨slots, hacquire⟩ => hbalanced.out_of_unavailable (hspawn slots) hacquire,
        fun hout => ⟨capacity, by rw [hbalanced.acquire_refused timeout hout]⟩⟩
    failed := fun _ _ => acquire_failed }

end Tenancy

end GateBench.Worker
