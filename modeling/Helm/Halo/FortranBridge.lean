import Helm.Framework.OrdMap
import Helm.Framework.System
import Helm.Halo.HaloPlan

/-! # The Fortran bridge of HALO

  Fortran code holds communicators, plans and asynchronous handles by
  integer tokens. One registry maps every token to a pointer without its
  type, and each entry point casts the pointer it looks up.

  A call gets what MPI answers as an argument. A call that uses memory as
  an object it does not hold is undefined behaviour and has no reply; this
  is how a token of another kind shows up, since no entry point checks the
  kind.

  Main results:
  - `call_effect`: what one call does to the registry and to the heap
  - `bridge_sound_iff`: which calls keep the promise of the bridge, in
    every state that such calls lead to
-/

namespace Halo

open LTS

/-! ## Section 1: Handle_Registry -/

/-- An address. Memory that is freed is not handed out again. -/
abbrev Ptr := Nat

def HALO_HANDLE_INVALID : Int := 0

/-- `std::numeric_limits<int>::max()` -/
def int_max : Int := 2147483647

structure HandleRegistry where
  handles : OrdMap Int Ptr
  next_token : Int

namespace HandleRegistry

def make : HandleRegistry := ⟨.empty, 1⟩

def register_handle (reg : HandleRegistry) (ptr : Ptr) : Int × HandleRegistry :=
  if reg.next_token = int_max then (HALO_HANDLE_INVALID, reg)
  else (reg.next_token,
    { handles := reg.handles.insert reg.next_token ptr, next_token := reg.next_token + 1 })

def lookup (reg : HandleRegistry) (token : Int) : Option Ptr := reg.handles.lookup token

def release (reg : HandleRegistry) (token : Int) : Option Ptr × HandleRegistry :=
  match reg.handles.lookup token with
  | none => (none, reg)
  | some ptr => (some ptr, { reg with handles := reg.handles.erase token })

end HandleRegistry

/-! ## Section 2: The entry points -/

def HALO_SUCCESS : Int := 0
def HALO_ERR_INVALID_ARG : Int := 1
def HALO_ERR_RUNTIME : Int := 3
def HALO_ERR_BAD_HANDLE : Int := 4
def HALO_ERR_UNKNOWN : Int := 99

/-- The handlers of `HALO_C_TRY`. -/
def error_code : Exn → Int
  | .invalid_argument _ => HALO_ERR_INVALID_ARG
  | .runtime_error _ => HALO_ERR_RUNTIME
  | .other => HALO_ERR_UNKNOWN

/-- What an object is. -/
inductive Kind
  | communicator
  | plan
  | handle
  deriving DecidableEq

/-- An object on the heap. A plan refers to its communicator by address. -/
inductive Object
  | communicator
  | plan (p : HaloPlan Ptr)
  | handle
  deriving DecidableEq

def Object.kind : Object → Kind
  | .communicator => .communicator
  | .plan _ => .plan
  | .handle => .handle

structure Bridge where
  registry : HandleRegistry
  heap : OrdMap Ptr Object
  next_ptr : Ptr

/-- The code an entry point returns, what it stores through its output
    argument, and the state it leaves. -/
structure Reply where
  code : Int
  out : Option Int
  bridge : Bridge

namespace Bridge

def make : Bridge := ⟨.make, .empty, 0⟩

/-- Use the memory at `ptr` as a communicator. -/
def as_communicator (b : Bridge) (ptr : Ptr) : Option Unit :=
  match b.heap.lookup ptr with
  | some .communicator => some ()
  | _ => none

/-- Use the memory at `ptr` as a plan. -/
def as_plan (b : Bridge) (ptr : Ptr) : Option (HaloPlan Ptr) :=
  match b.heap.lookup ptr with
  | some (.plan p) => some p
  | _ => none

/-- Use the memory at `ptr` as an asynchronous handle. -/
def as_handle (b : Bridge) (ptr : Ptr) : Option Unit :=
  match b.heap.lookup ptr with
  | some .handle => some ()
  | _ => none

def bad_handle (b : Bridge) : Reply := ⟨HALO_ERR_BAD_HANDLE, none, b⟩

def failed (b : Bridge) (e : Exn) : Reply := ⟨error_code e, none, b⟩

/-- Allocate an object, register it and return its token. -/
def publish (b : Bridge) (o : Object) : Reply :=
  let token := b.registry.register_handle b.next_ptr
  ⟨HALO_SUCCESS, some token.1, ⟨token.2, b.heap.insert b.next_ptr o, b.next_ptr + 1⟩⟩

/-- `startup` is how `Environment::initialize` ends: it throws when MPI has not
    been initialized. -/
def halo_init (b : Bridge) (startup : Except Exn Unit) : Option Reply :=
  match startup with
  | .error e => some (b.failed e)
  | .ok () => some (b.publish .communicator)

/-- `split` is what `MPI_Comm_split` answers. -/
def halo_comm_create (b : Bridge) (parent : Int) (split : Except Exn Unit) : Option Reply :=
  match b.registry.lookup parent with
  | none => some b.bad_handle
  | some ptr =>
    match b.as_communicator ptr with
    | none => none
    | some () =>
      match split with
      | .error e => some (b.failed e)
      | .ok () => some (b.publish .communicator)

/-- The arrays of neighbor ranks and counts, and their length. -/
structure NeighborArrays where
  num : Int
  ranks : Nat → Int
  counts : Nat → Int

/-- The vector an array is copied to. A negative length becomes a size no
    vector can have, and a negative count a large `size_t`. -/
def NeighborArrays.neighbors (a : NeighborArrays) : Except Exn (List NeighborInfo) :=
  if a.num < 0 then .error .other
  else .ok ((List.range a.num.toNat).map fun i => ⟨a.ranks i, (a.counts i % 2 ^ 64).toNat⟩)

/-- `size` is what `Communicator::size` returns or throws. -/
def halo_plan_create (b : Bridge) (comm : Int) (sends recvs : NeighborArrays)
    (size : Except Exn Int) : Option Reply :=
  match b.registry.lookup comm with
  | none => some b.bad_handle
  | some ptr =>
    match sends.neighbors, recvs.neighbors with
    -- the vectors are built before the communicator is used
    | .error e, _ => some (b.failed e)
    | .ok _, .error e => some (b.failed e)
    | .ok s, .ok r =>
      match b.as_communicator ptr with
      | none => none
      | some () =>
        match size with
        | .error e => some (b.failed e)
        | .ok comm_size =>
          match HaloPlan.make ptr comm_size s r with
          | .error e => some (b.failed e)
          | .ok plan => some (b.publish (.plan plan))

/-- The body shared by the two exchanges: a plan without neighbors returns
    before it uses its communicator. `run` is what the exchange comes to. -/
def run_exchange (b : Bridge) (plan : HaloPlan Ptr) (run : Except Exn Unit) :
    Option (Except Exn Unit) :=
  if plan.send_neighbors = [] ∧ plan.recv_neighbors = [] then some (.ok ())
  else (b.as_communicator plan.comm).map fun _ => run

def halo_exchange_blocking (b : Bridge) (plan_handle : Int) (run : Except Exn Unit) :
    Option Reply :=
  match b.registry.lookup plan_handle with
  | none => some b.bad_handle
  | some ptr =>
    match (b.as_plan ptr).bind (b.run_exchange · run) with
    | none => none
    | some (.error e) => some (b.failed e)
    | some (.ok ()) => some ⟨HALO_SUCCESS, none, b⟩

def halo_exchange_async (b : Bridge) (plan_handle : Int) (run : Except Exn Unit) :
    Option Reply :=
  match b.registry.lookup plan_handle with
  | none => some b.bad_handle
  | some ptr =>
    match (b.as_plan ptr).bind (b.run_exchange · run) with
    | none => none
    | some (.error e) => some (b.failed e)
    | some (.ok ()) => some (b.publish .handle)

def halo_wait (b : Bridge) (handle : Int) : Option Reply :=
  match b.registry.lookup handle with
  | none => some b.bad_handle
  | some ptr => (b.as_handle ptr).map fun _ => ⟨HALO_SUCCESS, none, b⟩

/-- `complete` is what `Halo_Handle::test` returns. -/
def halo_test (b : Bridge) (handle : Int) (complete : Bool) : Option Reply :=
  match b.registry.lookup handle with
  | none => some b.bad_handle
  | some ptr =>
    (b.as_handle ptr).map fun _ => ⟨HALO_SUCCESS, some (if complete then 1 else 0), b⟩

/-- Release the token and delete what it stood for as an object of kind
    `kind`. -/
def destroy (b : Bridge) (kind : Kind) (token : Int) : Option Reply :=
  match b.registry.release token with
  | (none, _) => some b.bad_handle
  | (some ptr, registry) =>
    if (b.heap.lookup ptr).map Object.kind = some kind then
      some ⟨HALO_SUCCESS, none, { b with registry, heap := b.heap.erase ptr }⟩
    else none

def halo_destroy_plan (b : Bridge) (plan_handle : Int) : Option Reply :=
  b.destroy .plan plan_handle

def halo_destroy_comm (b : Bridge) (comm_handle : Int) : Option Reply :=
  b.destroy .communicator comm_handle

end Bridge

/-- A call through the bridge, with the answers it gets. -/
inductive Call
  | halo_init (startup : Except Exn Unit)
  | halo_comm_create (parent : Int) (split : Except Exn Unit)
  | halo_plan_create (comm : Int) (sends recvs : Bridge.NeighborArrays) (size : Except Exn Int)
  | halo_exchange_blocking (plan_handle : Int) (run : Except Exn Unit)
  | halo_exchange_async (plan_handle : Int) (run : Except Exn Unit)
  | halo_wait (handle : Int)
  | halo_test (handle : Int) (complete : Bool)
  | halo_destroy_plan (plan_handle : Int)
  | halo_destroy_comm (comm_handle : Int)

/-- The reply to a call, or `none` when its behaviour is undefined. -/
def Call.run (b : Bridge) : Call → Option Reply
  | .halo_init startup => b.halo_init startup
  | .halo_comm_create parent split => b.halo_comm_create parent split
  | .halo_plan_create comm sends recvs size => b.halo_plan_create comm sends recvs size
  | .halo_exchange_blocking plan_handle run => b.halo_exchange_blocking plan_handle run
  | .halo_exchange_async plan_handle run => b.halo_exchange_async plan_handle run
  | .halo_wait handle => b.halo_wait handle
  | .halo_test handle complete => b.halo_test handle complete
  | .halo_destroy_plan plan_handle => b.halo_destroy_plan plan_handle
  | .halo_destroy_comm comm_handle => b.halo_destroy_comm comm_handle

def Bridge.next (b : Bridge) (c : Call) : Option Bridge := (Call.run b c).map (·.bridge)

/-- The bridge under every sequence of calls. -/
def bridgeSystem : System Bridge Call := .ofNext (· = Bridge.make) Bridge.next

/-! ## Section 3: What the bridge promises -/

namespace Bridge

/-- The token is not registered: it never was, or it has expired. -/
def Missing (b : Bridge) (token : Int) : Prop := b.registry.lookup token = none

/-- The token stands for a live object of this kind. -/
def Holds (b : Bridge) (token : Int) (kind : Kind) : Prop :=
  ((b.registry.lookup token).bind b.heap.lookup).map Object.kind = some kind

/-- There is a token left to give out. -/
def HasToken (b : Bridge) : Prop := b.registry.next_token ≠ int_max

/-- The token stands for a plan that can be run: one without neighbors, or one
    whose communicator has not been destroyed. -/
def CanExchange (b : Bridge) (token : Int) : Prop :=
  match (b.registry.lookup token).bind b.as_plan with
  | none => False
  | some plan => (plan.send_neighbors = [] ∧ plan.recv_neighbors = []) ∨
      b.as_communicator plan.comm = some ()

/-- The token stands for a plan without neighbors. -/
def EmptyPlan (b : Bridge) (token : Int) : Prop :=
  match (b.registry.lookup token).bind b.as_plan with
  | none => False
  | some plan => plan.send_neighbors = [] ∧ plan.recv_neighbors = []

/-- The arguments of a plan are valid. -/
def ValidPlan (sends recvs : NeighborArrays) (size : Except Exn Int) : Prop :=
  match size, sends.neighbors, recvs.neighbors with
  | .ok comm_size, .ok s, .ok r => ValidNeighbors comm_size s ∧ ValidNeighbors comm_size r
  | _, _, _ => False

instance (b : Bridge) (token : Int) : Decidable (b.Missing token) :=
  inferInstanceAs (Decidable (_ = _))

instance (b : Bridge) (token : Int) (kind : Kind) : Decidable (b.Holds token kind) :=
  inferInstanceAs (Decidable (_ = _))

instance (b : Bridge) : Decidable b.HasToken := inferInstanceAs (Decidable (_ ≠ _))

instance (b : Bridge) (token : Int) : Decidable (b.CanExchange token) := by
  unfold CanExchange
  split <;> infer_instance

instance (b : Bridge) (token : Int) : Decidable (b.EmptyPlan token) := by
  unfold EmptyPlan
  split <;> infer_instance

instance (sends recvs : NeighborArrays) (size : Except Exn Int) :
    Decidable (ValidPlan sends recvs size) := by
  unfold ValidPlan
  split <;> infer_instance

end Bridge

/-- The token a call takes, and the kind of object it works on. -/
def Call.token : Call → Option (Int × Kind)
  | .halo_init _ => none
  | .halo_comm_create parent _ => some (parent, .communicator)
  | .halo_plan_create comm _ _ _ => some (comm, .communicator)
  | .halo_exchange_blocking plan_handle _ => some (plan_handle, .plan)
  | .halo_exchange_async plan_handle _ => some (plan_handle, .plan)
  | .halo_wait handle => some (handle, .handle)
  | .halo_test handle _ => some (handle, .handle)
  | .halo_destroy_plan plan_handle => some (plan_handle, .plan)
  | .halo_destroy_comm comm_handle => some (comm_handle, .communicator)

/-- Some calls of the client leave nothing registered and nothing allocated. -/
def Releasable (b : Bridge) : Prop :=
  ∃ cs b', System.exec Bridge.next b cs = some b' ∧ b'.registry.handles = .empty ∧
    b'.heap = .empty

/-- What the bridge promises for a call: it uses objects as what they are, a
    token that does not stand for an object of the right kind gives an error
    and changes nothing, and everything can still be released afterwards. -/
def Promise (b : Bridge) (c : Call) : Prop :=
  ∃ r, c.run b = some r ∧
    (∀ token kind, c.token = some (token, kind) → ¬ b.Holds token kind →
      r.code ≠ HALO_SUCCESS ∧ r.bridge = b) ∧
    Releasable r.bridge

/-- The calls that keep the promise. -/
def Sound (b : Bridge) : Call → Prop
  | .halo_init startup => startup.isOk = true → b.HasToken
  | .halo_comm_create parent split =>
      b.Missing parent ∨ b.Holds parent .communicator ∧ (split.isOk = true → b.HasToken)
  | .halo_plan_create comm sends recvs size =>
      b.Missing comm ∨ (sends.num < 0 ∨ recvs.num < 0) ∨
        b.Holds comm .communicator ∧ (Bridge.ValidPlan sends recvs size → b.HasToken)
  | .halo_exchange_blocking plan_handle _ => b.Missing plan_handle ∨ b.CanExchange plan_handle
  -- no call destroys an asynchronous handle, so none may come into being
  | .halo_exchange_async plan_handle run =>
      b.Missing plan_handle ∨
        b.CanExchange plan_handle ∧ ¬ b.EmptyPlan plan_handle ∧ run.isOk = false
  | .halo_wait handle => b.Missing handle ∨ b.Holds handle .handle
  | .halo_test handle _ => b.Missing handle ∨ b.Holds handle .handle
  | .halo_destroy_plan plan_handle => b.Missing plan_handle ∨ b.Holds plan_handle .plan
  | .halo_destroy_comm comm_handle => b.Missing comm_handle ∨ b.Holds comm_handle .communicator

instance (b : Bridge) (c : Call) : Decidable (Sound b c) :=
  match c with
  | .halo_init _ => inferInstanceAs (Decidable (_ → _))
  | .halo_comm_create _ _ => inferInstanceAs (Decidable (_ ∨ _))
  | .halo_plan_create _ _ _ _ => inferInstanceAs (Decidable (_ ∨ _))
  | .halo_exchange_blocking _ _ => inferInstanceAs (Decidable (_ ∨ _))
  | .halo_exchange_async _ _ => inferInstanceAs (Decidable (_ ∨ _))
  | .halo_wait _ => inferInstanceAs (Decidable (_ ∨ _))
  | .halo_test _ _ => inferInstanceAs (Decidable (_ ∨ _))
  | .halo_destroy_plan _ => inferInstanceAs (Decidable (_ ∨ _))
  | .halo_destroy_comm _ => inferInstanceAs (Decidable (_ ∨ _))

/-! ## Section 4: One call -/

namespace Bridge

/-- The state after a token and its object are gone. -/
def delete (b : Bridge) (token : Int) (ptr : Ptr) : Bridge :=
  { b with registry := { b.registry with handles := b.registry.handles.erase token },
           heap := b.heap.erase ptr }

section
variable {b : Bridge} {token : Int} {kind : Kind} {ptr : Ptr}

theorem holds_iff :
    b.Holds token kind ↔
      ∃ ptr o, b.registry.lookup token = some ptr ∧ b.heap.lookup ptr = some o ∧ o.kind = kind := by
  unfold Holds
  simp only [Option.map_eq_some_iff, Option.bind_eq_some_iff]
  constructor
  · rintro ⟨o, ⟨ptr, hl, ho⟩, hk⟩
    exact ⟨ptr, o, hl, ho, hk⟩
  · rintro ⟨ptr, o, hl, ho, hk⟩
    exact ⟨o, ⟨ptr, hl, ho⟩, hk⟩

theorem as_communicator_eq_some :
    b.as_communicator ptr = some () ↔ b.heap.lookup ptr = some .communicator := by
  unfold as_communicator
  split <;> simp_all

theorem as_handle_eq_some :
    b.as_handle ptr = some () ↔ b.heap.lookup ptr = some .handle := by
  unfold as_handle
  split <;> simp_all

theorem as_plan_eq_some {p : HaloPlan Ptr} :
    b.as_plan ptr = some p ↔ b.heap.lookup ptr = some (.plan p) := by
  unfold as_plan
  split <;> simp_all

theorem kind_eq_communicator {o : Object} : o.kind = .communicator ↔ o = .communicator := by
  cases o <;> simp [Object.kind]

theorem kind_eq_handle {o : Object} : o.kind = .handle ↔ o = .handle := by
  cases o <;> simp [Object.kind]

theorem holds_of_lookup (hl : b.registry.lookup token = some ptr) :
    b.Holds token kind ↔ (b.heap.lookup ptr).map Object.kind = some kind := by
  unfold Holds
  rw [hl]
  rfl

theorem holds_communicator (hl : b.registry.lookup token = some ptr) :
    b.Holds token .communicator ↔ b.as_communicator ptr = some () := by
  rw [holds_of_lookup hl, as_communicator_eq_some]
  simp [Option.map_eq_some_iff, kind_eq_communicator]

theorem holds_handle (hl : b.registry.lookup token = some ptr) :
    b.Holds token .handle ↔ b.as_handle ptr = some () := by
  rw [holds_of_lookup hl, as_handle_eq_some]
  simp [Option.map_eq_some_iff, kind_eq_handle]

theorem holds_plan {plan : HaloPlan Ptr} (hl : b.registry.lookup token = some ptr)
    (hp : b.as_plan ptr = some plan) : b.Holds token .plan := by
  rw [holds_of_lookup hl, as_plan_eq_some.mp hp]
  rfl

theorem destroy_eq (hl : b.registry.lookup token = some ptr) :
    b.destroy kind token =
      if b.Holds token kind then some ⟨HALO_SUCCESS, none, b.delete token ptr⟩ else none := by
  have hrelease : b.registry.release token =
      (some ptr, { b.registry with handles := b.registry.handles.erase token }) := by
    unfold HandleRegistry.release
    rw [show b.registry.handles.lookup token = some ptr from hl]
  unfold destroy
  rw [hrelease]
  exact if_congr (holds_of_lookup hl).symm rfl rfl

theorem destroy_missing (h : b.Missing token) : b.destroy kind token = some b.bad_handle := by
  have hrelease : b.registry.release token = (none, b.registry) := by
    unfold HandleRegistry.release
    rw [show b.registry.handles.lookup token = none from h]
  unfold destroy
  rw [hrelease]

theorem exchange_cases (hl : b.registry.lookup token = some ptr) (run : Except Exn Unit) :
    (b.CanExchange token ∧ b.Holds token .plan ∧ (b.as_plan ptr).bind (b.run_exchange · run) =
      some (if b.EmptyPlan token then .ok () else run)) ∨
    (¬ b.CanExchange token ∧ (b.as_plan ptr).bind (b.run_exchange · run) = none) := by
  rcases hp : b.as_plan ptr with _ | plan
  · have hfound : (b.registry.lookup token).bind b.as_plan = none := by rw [hl]; exact hp
    refine .inr ⟨?_, rfl⟩
    unfold CanExchange
    rw [hfound]
    exact id
  have hfound : (b.registry.lookup token).bind b.as_plan = some plan := by rw [hl]; exact hp
  have hcan : b.CanExchange token ↔ (plan.send_neighbors = [] ∧ plan.recv_neighbors = []) ∨
      b.as_communicator plan.comm = some () := by
    unfold CanExchange
    rw [hfound]
  have hnone : b.EmptyPlan token ↔ plan.send_neighbors = [] ∧ plan.recv_neighbors = [] := by
    unfold EmptyPlan
    rw [hfound]
  have hheld := holds_plan hl hp
  by_cases hempty : plan.send_neighbors = [] ∧ plan.recv_neighbors = []
  · refine .inl ⟨hcan.mpr (.inl hempty), hheld, ?_⟩
    rw [if_pos (hnone.mpr hempty)]
    exact if_pos hempty
  · have hbody : b.run_exchange plan run = (b.as_communicator plan.comm).map fun _ => run :=
      if_neg hempty
    rcases hcomm : b.as_communicator plan.comm with _ | u
    · rw [hcomm] at hbody
      refine .inr ⟨?_, hbody⟩
      rw [hcan, hcomm]
      simp [hempty]
    · rw [hcomm] at hbody
      refine .inl ⟨hcan.mpr (.inr hcomm), hheld, ?_⟩
      rw [if_neg (fun h => hempty (hnone.mp h))]
      exact hbody

end

end Bridge

/-- How a call ends, and whether it is one of the sound ones. -/
inductive Effect (b : Bridge) (c : Call) : Prop
  | same (r : Reply) (hrun : c.run b = some r) (hbridge : r.bridge = b) (hsound : Sound b c)
      (hcode : ∀ token kind, c.token = some (token, kind) → ¬ b.Holds token kind →
        r.code ≠ HALO_SUCCESS)
  | published (o : Object) (hrun : c.run b = some (b.publish o))
      (hheld : ∀ token kind, c.token = some (token, kind) → b.Holds token kind)
      (hsound : Sound b c ↔ o.kind ≠ .handle ∧ b.HasToken)
  | deleted (token : Int) (ptr : Ptr) (kind : Kind)
      (hrun : c.run b = some ⟨HALO_SUCCESS, none, b.delete token ptr⟩)
      (htoken : c.token = some (token, kind)) (hlookup : b.registry.lookup token = some ptr)
      (hheld : b.Holds token kind) (hkind : kind ≠ .handle) (hsound : Sound b c)
  | undefined (hrun : c.run b = none) (hsound : ¬ Sound b c)

theorem error_code_ne (e : Exn) : error_code e ≠ HALO_SUCCESS := by
  cases e <;> simp [error_code, HALO_SUCCESS, HALO_ERR_INVALID_ARG, HALO_ERR_RUNTIME,
    HALO_ERR_UNKNOWN]

section
variable {b : Bridge} {c : Call} {token : Int} {kind : Kind} {ptr : Ptr}

theorem Effect.missing (hrun : c.run b = some b.bad_handle) (hsound : Sound b c) :
    Effect b c := by
  refine .same _ hrun rfl hsound ?_
  intro _ _ _ _
  show HALO_ERR_BAD_HANDLE ≠ HALO_SUCCESS
  decide

theorem Effect.failed (e : Exn) (hrun : c.run b = some (b.failed e)) (hsound : Sound b c) :
    Effect b c :=
  .same _ hrun rfl hsound fun _ _ _ _ => error_code_ne e

theorem Effect.used {r : Reply} (hrun : c.run b = some r) (hbridge : r.bridge = b)
    (htoken : c.token = some (token, kind)) (hheld : b.Holds token kind) (hsound : Sound b c) :
    Effect b c := by
  refine .same _ hrun hbridge hsound ?_
  intro token' kind' htoken' hnot
  rw [htoken] at htoken'
  cases htoken'
  exact absurd hheld hnot

theorem not_missing (hl : b.registry.lookup token = some ptr) : ¬ b.Missing token := by
  simp [Bridge.Missing, hl]

theorem halo_init_effect (b : Bridge) (startup : Except Exn Unit) :
    Effect b (.halo_init startup) := by
  rcases startup with e | u
  · apply Effect.failed e rfl
    intro h
    cases h
  · refine .published .communicator rfl ?_ ?_
    · intro _ _ htoken
      cases htoken
    · simp [Sound, Object.kind, Except.isOk, Except.toBool]

theorem halo_comm_create_effect (b : Bridge) (parent : Int) (split : Except Exn Unit) :
    Effect b (.halo_comm_create parent split) := by
  have hrun : Call.run b (.halo_comm_create parent split) = b.halo_comm_create parent split := rfl
  unfold Bridge.halo_comm_create at hrun
  rcases hl : b.registry.lookup parent with _ | ptr
  · rw [hl] at hrun
    exact .missing hrun (Or.inl hl)
  rw [hl] at hrun
  have hheld := Bridge.holds_communicator hl
  rcases hcomm : b.as_communicator ptr with _ | u
  · simp only [hcomm] at hrun hheld
    refine .undefined hrun ?_
    simp [Sound, not_missing hl, hheld]
  · simp only [hcomm] at hrun hheld
    have hheld : b.Holds parent .communicator := hheld.mpr trivial
    rcases split with e | u
    · apply Effect.failed e hrun
      exact Or.inr ⟨hheld, by simp [Except.isOk, Except.toBool]⟩
    · refine .published _ hrun ?_ ?_
      · intro token kind htoken
        cases htoken
        exact hheld
      · simp [Sound, not_missing hl, hheld, Object.kind, Except.isOk, Except.toBool]

theorem neighbors_eq {a : Bridge.NeighborArrays} (h : ¬ a.num < 0) :
    ∃ l, a.neighbors = .ok l := by
  unfold Bridge.NeighborArrays.neighbors
  rw [if_neg h]
  exact ⟨_, rfl⟩

theorem halo_plan_create_effect (b : Bridge) (comm : Int) (sends recvs : Bridge.NeighborArrays)
    (size : Except Exn Int) : Effect b (.halo_plan_create comm sends recvs size) := by
  have hrun : Call.run b (.halo_plan_create comm sends recvs size) =
      b.halo_plan_create comm sends recvs size := rfl
  unfold Bridge.halo_plan_create at hrun
  rcases hl : b.registry.lookup comm with _ | ptr
  · rw [hl] at hrun
    exact .missing hrun (Or.inl hl)
  rw [hl] at hrun
  have hheld := Bridge.holds_communicator hl
  -- the vectors come first, and the communicator is not used when they fail
  by_cases hs : sends.num < 0
  · have hneg : sends.neighbors = .error .other := if_pos hs
    simp only [hneg] at hrun
    exact .failed .other hrun (Or.inr (Or.inl (Or.inl hs)))
  by_cases hr : recvs.num < 0
  · have hneg : recvs.neighbors = .error .other := if_pos hr
    obtain ⟨s, hs'⟩ := neighbors_eq hs
    simp only [hs', hneg] at hrun
    exact .failed .other hrun (Or.inr (Or.inl (Or.inr hr)))
  obtain ⟨s, hs'⟩ := neighbors_eq hs
  obtain ⟨r, hr'⟩ := neighbors_eq hr
  simp only [hs', hr'] at hrun
  rcases hcomm : b.as_communicator ptr with _ | u
  · simp only [hcomm] at hrun hheld
    refine .undefined hrun ?_
    simp [Sound, not_missing hl, hheld, hs, hr]
  · simp only [hcomm] at hrun hheld
    have hheld : b.Holds comm .communicator := hheld.mpr trivial
    rcases size with e | comm_size
    · apply Effect.failed e hrun
      exact Or.inr (Or.inr ⟨hheld, False.elim⟩)
    · have hvalid : Bridge.ValidPlan sends recvs (.ok comm_size) ↔
          ValidNeighbors comm_size s ∧ ValidNeighbors comm_size r := by
        unfold Bridge.ValidPlan
        rw [hs', hr']
      rcases hplan : HaloPlan.make ptr comm_size s r with e | plan
      · simp only [hplan] at hrun
        apply Effect.failed e hrun
        refine Or.inr (Or.inr ⟨hheld, ?_⟩)
        intro h
        obtain ⟨hvs, hvr⟩ := hvalid.mp h
        have hmade : HaloPlan.make ptr comm_size s r = _ := HaloPlan.make_eq_ok.mpr ⟨hvs, hvr, rfl⟩
        rw [hplan] at hmade
        cases hmade
      · simp only [hplan] at hrun
        obtain ⟨hvs, hvr, -⟩ := HaloPlan.make_eq_ok.mp hplan
        refine .published _ hrun ?_ ?_
        · intro token kind htoken
          cases htoken
          exact hheld
        · simp [Sound, not_missing hl, hheld, hs, hr, hvalid, hvs, hvr, Object.kind]

theorem halo_exchange_blocking_effect (b : Bridge) (plan_handle : Int) (run : Except Exn Unit) :
    Effect b (.halo_exchange_blocking plan_handle run) := by
  have hrun : Call.run b (.halo_exchange_blocking plan_handle run) =
      b.halo_exchange_blocking plan_handle run := rfl
  unfold Bridge.halo_exchange_blocking at hrun
  rcases hl : b.registry.lookup plan_handle with _ | ptr
  · rw [hl] at hrun
    exact .missing hrun (Or.inl hl)
  rw [hl] at hrun
  obtain ⟨hcan, hheld, hbody⟩ | ⟨hcannot, hbody⟩ := Bridge.exchange_cases hl run
  · simp only [hbody] at hrun
    rcases hend : (if b.EmptyPlan plan_handle then .ok () else run : Except Exn Unit) with e | u
    · simp only [hend] at hrun
      exact .failed e hrun (Or.inr hcan)
    · simp only [hend] at hrun
      exact .used hrun rfl rfl hheld (Or.inr hcan)
  · simp only [hbody] at hrun
    refine .undefined hrun ?_
    simp [Sound, not_missing hl, hcannot]

theorem halo_exchange_async_effect (b : Bridge) (plan_handle : Int) (run : Except Exn Unit) :
    Effect b (.halo_exchange_async plan_handle run) := by
  have hrun : Call.run b (.halo_exchange_async plan_handle run) =
      b.halo_exchange_async plan_handle run := rfl
  unfold Bridge.halo_exchange_async at hrun
  rcases hl : b.registry.lookup plan_handle with _ | ptr
  · rw [hl] at hrun
    exact .missing hrun (Or.inl hl)
  rw [hl] at hrun
  obtain ⟨hcan, hheld, hbody⟩ | ⟨hcannot, hbody⟩ := Bridge.exchange_cases hl run
  · simp only [hbody] at hrun
    have hpublished : (if b.EmptyPlan plan_handle then .ok () else run : Except Exn Unit) = .ok () →
        ¬ Sound b (.halo_exchange_async plan_handle run) →
        Effect b (.halo_exchange_async plan_handle run) := by
      intro hend hunsound
      simp only [hend] at hrun
      refine .published .handle hrun ?_ ?_
      · intro token kind htoken
        cases htoken
        exact hheld
      · simp [hunsound, Object.kind]
    by_cases hempty : b.EmptyPlan plan_handle
    · apply hpublished (if_pos hempty)
      simp [Sound, not_missing hl, hempty]
    · rcases run with e | u
      · simp only [if_neg hempty] at hrun
        exact .failed e hrun (Or.inr ⟨hcan, hempty, rfl⟩)
      · apply hpublished (if_neg hempty)
        simp [Sound, not_missing hl, Except.isOk, Except.toBool]
  · simp only [hbody] at hrun
    refine .undefined hrun ?_
    simp [Sound, not_missing hl, hcannot]

theorem handle_effect {reply : Reply} (hbridge : reply.bridge = b)
    (htoken : c.token = some (token, .handle))
    (hrun : c.run b = match b.registry.lookup token with
      | none => some b.bad_handle
      | some ptr => (b.as_handle ptr).map fun _ => reply)
    (hsound : Sound b c ↔ b.Missing token ∨ b.Holds token .handle) : Effect b c := by
  rcases hl : b.registry.lookup token with _ | ptr
  · rw [hl] at hrun
    exact .missing hrun (hsound.mpr (.inl hl))
  rw [hl] at hrun
  have hheld := Bridge.holds_handle hl
  rcases hhandle : b.as_handle ptr with _ | u
  · rw [hhandle] at hheld
    simp only [hhandle] at hrun
    refine .undefined hrun ?_
    rw [hsound, hheld]
    simp [not_missing hl]
  · have hheld := hheld.mpr hhandle
    simp only [hhandle] at hrun
    exact .used hrun hbridge htoken hheld (hsound.mpr (.inr hheld))

theorem destroy_effect (hkind : kind ≠ .handle) (htoken : c.token = some (token, kind))
    (hrun : c.run b = b.destroy kind token)
    (hsound : Sound b c ↔ b.Missing token ∨ b.Holds token kind) : Effect b c := by
  rcases hl : b.registry.lookup token with _ | ptr
  · rw [Bridge.destroy_missing hl] at hrun
    exact .missing hrun (hsound.mpr (.inl hl))
  rw [Bridge.destroy_eq hl] at hrun
  by_cases hheld : b.Holds token kind
  · rw [if_pos hheld] at hrun
    exact .deleted token ptr kind hrun htoken hl hheld hkind (hsound.mpr (.inr hheld))
  · rw [if_neg hheld] at hrun
    refine .undefined hrun ?_
    rw [hsound]
    simp [not_missing hl, hheld]

theorem call_effect (b : Bridge) (c : Call) : Effect b c := by
  cases c with
  | halo_init startup => exact halo_init_effect b startup
  | halo_comm_create parent split => exact halo_comm_create_effect b parent split
  | halo_plan_create comm sends recvs size => exact halo_plan_create_effect b comm sends recvs size
  | halo_exchange_blocking plan_handle run => exact halo_exchange_blocking_effect b plan_handle run
  | halo_exchange_async plan_handle run => exact halo_exchange_async_effect b plan_handle run
  | halo_wait handle => exact handle_effect rfl rfl rfl Iff.rfl
  | halo_test handle complete => exact handle_effect rfl rfl rfl Iff.rfl
  | halo_destroy_plan plan_handle => exact destroy_effect (by decide) rfl rfl Iff.rfl
  | halo_destroy_comm comm_handle => exact destroy_effect (by decide) rfl rfl Iff.rfl

end

/-! ## Section 5: Every run of sound calls -/

/-- Tokens and live objects correspond one to one, and every object is of a
    kind some call destroys. -/
structure Inv (b : Bridge) : Prop where
  registered : ∀ token ptr, b.registry.lookup token = some ptr →
    ∃ o, b.heap.lookup ptr = some o ∧ o.kind ≠ .handle
  live : ∀ ptr o, b.heap.lookup ptr = some o → ∃ token, b.registry.lookup token = some ptr
  one_token : ∀ token token' ptr, b.registry.lookup token = some ptr →
    b.registry.lookup token' = some ptr → token = token'
  fresh_token : ∀ token ptr, b.registry.lookup token = some ptr → token < b.registry.next_token
  fresh_ptr : ∀ ptr o, b.heap.lookup ptr = some o → ptr < b.next_ptr

section
variable {b : Bridge} {token : Int} {ptr : Ptr} {o : Object}

theorem inv_make : Inv .make := by
  constructor
  · intro token ptr h
    cases h
  · intro ptr o h
    cases h
  · intro token token' ptr h
    cases h
  · intro token ptr h
    cases h
  · intro ptr o h
    cases h

theorem publish_lookup (h : b.HasToken) (t : Int) :
    (b.publish o).bridge.registry.lookup t =
      if t = b.registry.next_token then some b.next_ptr else b.registry.lookup t := by
  unfold Bridge.publish HandleRegistry.register_handle HandleRegistry.lookup
  rw [if_neg h]
  exact OrdMap.lookup_insert

theorem publish_next_token (h : b.HasToken) :
    (b.publish o).bridge.registry.next_token = b.registry.next_token + 1 := by
  unfold Bridge.publish HandleRegistry.register_handle
  rw [if_neg h]

theorem publish_heap (p : Ptr) :
    (b.publish o).bridge.heap.lookup p = if p = b.next_ptr then some o else b.heap.lookup p :=
  OrdMap.lookup_insert

theorem Inv.publish (hinv : Inv b) (ho : o.kind ≠ .handle) (h : b.HasToken) :
    Inv (b.publish o).bridge := by
  -- the new pointer is nowhere in the registry
  have hnew : ∀ t, b.registry.lookup t ≠ some b.next_ptr := by
    intro t ht
    obtain ⟨o', ho', -⟩ := hinv.registered t _ ht
    exact absurd (hinv.fresh_ptr _ _ ho') (lt_irrefl _)
  constructor
  · intro t p ht
    rw [publish_lookup h] at ht
    split at ht
    · cases ht
      exact ⟨o, by rw [publish_heap, if_pos rfl], ho⟩
    · obtain ⟨o', ho', hk⟩ := hinv.registered t p ht
      refine ⟨o', ?_, hk⟩
      rw [publish_heap, if_neg (hinv.fresh_ptr p o' ho').ne]
      exact ho'
  · intro p o' hp
    rw [publish_heap] at hp
    split at hp
    · next heq =>
      refine ⟨b.registry.next_token, ?_⟩
      rw [publish_lookup h, if_pos rfl, heq]
    · obtain ⟨t, ht⟩ := hinv.live p o' hp
      refine ⟨t, ?_⟩
      rw [publish_lookup h, if_neg (hinv.fresh_token t p ht).ne]
      exact ht
  · intro t t' p ht ht'
    rw [publish_lookup h] at ht ht'
    split at ht
    · cases ht
      split at ht'
      · omega
      · exact absurd ht' (hnew t')
    · split at ht'
      · cases ht'
        exact absurd ht (hnew t)
      · exact hinv.one_token t t' p ht ht'
  · intro t p ht
    rw [publish_lookup h] at ht
    rw [publish_next_token h]
    split at ht
    · omega
    · have := hinv.fresh_token t p ht
      omega
  · intro p o' hp
    show p < b.next_ptr + 1
    rw [publish_heap] at hp
    split at hp
    · next heq =>
      rw [heq]
      exact Nat.lt_succ_self _
    · exact Nat.lt_succ_of_lt (hinv.fresh_ptr p o' hp)

theorem delete_lookup (t : Int) :
    (b.delete token ptr).registry.lookup t =
      if t = token then none else b.registry.lookup t :=
  OrdMap.lookup_erase

theorem delete_heap (p : Ptr) :
    (b.delete token ptr).heap.lookup p = if p = ptr then none else b.heap.lookup p :=
  OrdMap.lookup_erase

theorem Inv.delete (hinv : Inv b) (hl : b.registry.lookup token = some ptr) :
    Inv (b.delete token ptr) := by
  constructor
  · intro t p ht
    rw [delete_lookup] at ht
    split at ht
    · cases ht
    · next hne =>
      obtain ⟨o', ho', hk⟩ := hinv.registered t p ht
      refine ⟨o', ?_, hk⟩
      rw [delete_heap, if_neg]
      · exact ho'
      · rintro rfl
        exact hne (hinv.one_token t token p ht hl)
  · intro p o' hp
    rw [delete_heap] at hp
    split at hp
    · cases hp
    · next hne =>
      obtain ⟨t, ht⟩ := hinv.live p o' hp
      refine ⟨t, ?_⟩
      rw [delete_lookup, if_neg]
      · exact ht
      · rintro rfl
        rw [hl] at ht
        exact hne (Option.some.inj ht).symm
  · intro t t' p ht ht'
    rw [delete_lookup] at ht ht'
    split at ht
    · cases ht
    · split at ht'
      · cases ht'
      · exact hinv.one_token t t' p ht ht'
  · intro t p ht
    rw [delete_lookup] at ht
    split at ht
    · cases ht
    · exact hinv.fresh_token t p ht
  · intro p o' hp
    rw [delete_heap] at hp
    split at hp
    · cases hp
    · exact hinv.fresh_ptr p o' hp

theorem Inv.run {c : Call} (hinv : Inv b) (h : Sound b c) :
    ∃ r, c.run b = some r ∧ Inv r.bridge ∧
      ∀ token kind, c.token = some (token, kind) → ¬ b.Holds token kind →
        r.code ≠ HALO_SUCCESS ∧ r.bridge = b := by
  cases call_effect b c with
  | same r hrun hbridge hsound hcode =>
    exact ⟨r, hrun, hbridge ▸ hinv, fun t k ht hnot => ⟨hcode t k ht hnot, hbridge⟩⟩
  | published o hrun hheld hsound =>
    obtain ⟨ho, htoken⟩ := hsound.mp h
    exact ⟨_, hrun, hinv.publish ho htoken, fun t k ht hnot => absurd (hheld t k ht) hnot⟩
  | deleted token ptr kind hrun htoken hlookup hheld hkind hsound =>
    refine ⟨_, hrun, hinv.delete hlookup, ?_⟩
    intro t k ht hnot
    rw [htoken] at ht
    cases ht
    exact absurd hheld hnot
  | undefined hrun hsound => exact absurd h hsound

theorem inv_of_reachable (hr : (bridgeSystem.restrict Sound).Reachable b) : Inv b := by
  refine hr.invariant ?_ ?_
  · intro s hs
    rw [show s = .make from hs]
    exact inv_make
  · intro s c s' _ hinv hstep
    obtain ⟨hsound, hnext⟩ := hstep
    obtain ⟨r, hrun, hinv', -⟩ := hinv.run hsound
    have hs' : s' = r.bridge := by
      have : (c.run s).map (·.bridge) = some s' := hnext
      rw [hrun] at this
      exact (Option.some.inj this).symm
    rw [hs']
    exact hinv'

/-- Any registered token can be destroyed, so destroying them one by one
    empties the registry, and with it the heap. -/
theorem Inv.releasable (hinv : Inv b) : Releasable b := by
  induction hn : b.registry.handles.entries.length generalizing b with
  | zero =>
    have hentries := List.length_eq_zero_iff.mp hn
    have hhandles : b.registry.handles = .empty := by
      rcases hreg : b.registry.handles with ⟨entries, sorted⟩
      rw [hreg] at hentries
      subst hentries
      rfl
    refine ⟨[], b, rfl, hhandles, ?_⟩
    rcases hheap : b.heap with ⟨entries, sorted⟩
    rcases entries with _ | ⟨⟨p, o⟩, rest⟩
    · rfl
    · have hlive : b.heap.lookup p = some o := by
        rw [OrdMap.lookup_eq_some, hheap]
        exact List.mem_cons_self
      obtain ⟨t, ht⟩ := hinv.live p o hlive
      unfold HandleRegistry.lookup at ht
      rw [hhandles] at ht
      cases ht
  | succ n ih =>
    rcases hentries : b.registry.handles.entries with _ | ⟨⟨t, p⟩, rest⟩
    · rw [hentries] at hn
      cases hn
    have hl : b.registry.lookup t = some p := by
      show b.registry.handles.lookup t = some p
      rw [OrdMap.lookup_eq_some, hentries]
      exact List.mem_cons_self
    obtain ⟨o, ho, hkind⟩ := hinv.registered t p hl
    have hlen : (b.delete t p).registry.handles.entries.length = n := by
      have hperm := (OrdMap.entries_erase hl).length_eq
      simp only [List.length_cons] at hperm
      show (b.registry.handles.erase t).entries.length = n
      omega
    obtain ⟨cs, b', hexec, hempty⟩ := ih (hinv.delete hl) hlen
    have hheld : b.Holds t o.kind := Bridge.holds_iff.mpr ⟨p, o, hl, ho, rfl⟩
    have hdestroy : b.destroy o.kind t = some ⟨HALO_SUCCESS, none, b.delete t p⟩ := by
      rw [Bridge.destroy_eq hl, if_pos hheld]
    -- the kind of the object says which call to make
    obtain ⟨c, hc⟩ : ∃ c, Call.run b c = b.destroy o.kind t := by
      rcases o with _ | plan | _
      · exact ⟨.halo_destroy_comm t, rfl⟩
      · exact ⟨.halo_destroy_plan t, rfl⟩
      · exact absurd rfl hkind
    refine ⟨c :: cs, b', ?_, hempty⟩
    have hnext : Bridge.next b c = some (b.delete t p) := by
      unfold Bridge.next
      rw [hc, hdestroy]
      rfl
    simp only [System.exec, hnext, Option.bind_some]
    exact hexec

/-- An object no call can delete: an asynchronous handle, or an object without
    a token. -/
structure Pinned (b : Bridge) (ptr : Ptr) : Prop where
  live : ∃ o, b.heap.lookup ptr = some o ∧
    (o.kind = .handle ∨ ∀ token, b.registry.lookup token ≠ some ptr)
  old : ptr < b.next_ptr

theorem Pinned.run {c : Call} {r : Reply} (h : Pinned b ptr) (hrun : c.run b = some r) :
    Pinned r.bridge ptr := by
  obtain ⟨⟨o, ho, hwhy⟩, hold⟩ := h
  cases call_effect b c with
  | same r' hrun' hbridge hsound hcode =>
    rw [hrun'] at hrun
    cases hrun
    rw [hbridge]
    exact ⟨⟨o, ho, hwhy⟩, hold⟩
  | published o' hrun' hheld hsound =>
    rw [hrun'] at hrun
    cases hrun
    refine ⟨⟨o, ?_, ?_⟩, Nat.lt_succ_of_lt hold⟩
    · rw [publish_heap, if_neg hold.ne]
      exact ho
    · rcases hwhy with hkind | hnone
      · exact .inl hkind
      · refine .inr ?_
        intro t ht
        by_cases htoken : b.HasToken
        · rw [publish_lookup htoken] at ht
          split at ht
          · exact absurd (Option.some.inj ht) hold.ne'
          · exact hnone t ht
        · -- no token is left, and the registry stays as it is
          have hsame : (b.publish o').bridge.registry = b.registry := by
            unfold Bridge.publish HandleRegistry.register_handle
            rw [if_pos (not_not.mp htoken)]
          rw [hsame] at ht
          exact hnone t ht
  | deleted t p kind hrun' htoken hlookup hheld hkind hsound =>
    rw [hrun'] at hrun
    cases hrun
    have hne : ptr ≠ p := by
      rintro rfl
      rcases hwhy with hhandle | hnone
      · obtain ⟨p', o', hl', ho', hk'⟩ := Bridge.holds_iff.mp hheld
        rw [hlookup] at hl'
        cases hl'
        rw [ho] at ho'
        cases ho'
        exact hkind (hk' ▸ hhandle)
      · exact hnone t hlookup
    refine ⟨⟨o, ?_, ?_⟩, hold⟩
    · show (b.delete t p).heap.lookup ptr = some o
      rw [delete_heap, if_neg hne]
      exact ho
    · rcases hwhy with hhandle | hnone
      · exact .inl hhandle
      · refine .inr ?_
        intro t' ht'
        change (b.delete t p).registry.lookup t' = some ptr at ht'
        rw [delete_lookup] at ht'
        split at ht'
        · cases ht'
        · exact hnone t' ht'
  | undefined hrun' hsound =>
    rw [hrun'] at hrun
    cases hrun

theorem Pinned.not_releasable (h : Pinned b ptr) : ¬ Releasable b := by
  rintro ⟨cs, b', hexec, -, hheap⟩
  have hpinned : Pinned b' ptr := by
    induction cs generalizing b with
    | nil =>
      cases hexec
      exact h
    | cons c cs ih =>
      obtain ⟨t, ht, hrest⟩ := Option.bind_eq_some_iff.mp hexec
      obtain ⟨r, hrun, rfl⟩ := Option.map_eq_some_iff.mp ht
      exact ih (h.run hrun) hrest
  obtain ⟨⟨o, ho, -⟩, -⟩ := hpinned
  rw [hheap] at ho
  cases ho

theorem pinned_publish (hinv : Inv b) (h : ¬ (o.kind ≠ .handle ∧ b.HasToken)) :
    Pinned (b.publish o).bridge b.next_ptr := by
  refine ⟨⟨o, by rw [publish_heap, if_pos rfl], ?_⟩, Nat.lt_succ_self _⟩
  by_cases htoken : b.HasToken
  · exact .inl (by_contra fun hk => h ⟨hk, htoken⟩)
  · refine .inr ?_
    intro t ht
    have hsame : (b.publish o).bridge.registry = b.registry := by
      unfold Bridge.publish HandleRegistry.register_handle
      rw [if_pos (not_not.mp htoken)]
    rw [hsame] at ht
    obtain ⟨o', ho', -⟩ := hinv.registered t _ ht
    exact absurd (hinv.fresh_ptr _ _ ho') (lt_irrefl _)

theorem bridge_sound_iff (hr : (bridgeSystem.restrict Sound).Reachable b) :
    Releasable b ∧ ∀ c, Promise b c ↔ Sound b c := by
  have hinv := inv_of_reachable hr
  refine ⟨hinv.releasable, ?_⟩
  intro c
  constructor
  · rintro ⟨r, hrun, -, hrelease⟩
    cases call_effect b c with
    | same r' hrun' hbridge hsound hcode => exact hsound
    | published o hrun' hheld hsound =>
      rw [hrun'] at hrun
      cases hrun
      by_contra hnot
      exact (pinned_publish hinv fun h => hnot (hsound.mpr h)).not_releasable hrelease
    | deleted t p kind hrun' htoken hlookup hheld hkind hsound => exact hsound
    | undefined hrun' hsound =>
      rw [hrun'] at hrun
      cases hrun
  · intro hsound
    obtain ⟨r, hrun, hinv', hwrong⟩ := hinv.run hsound
    exact ⟨r, hrun, hwrong, hinv'.releasable⟩

/-- A communicator and a plan on it that no other process takes part in. -/
def lonePlan : List Call :=
  let none : Bridge.NeighborArrays := ⟨0, fun _ => 0, fun _ => 0⟩
  [.halo_init (.ok ()), .halo_plan_create 1 none none (.ok 1)]

theorem bridge_sound_iff_lonePlan :
    ∃ b, System.exec Bridge.next .make lonePlan = some b ∧
      Releasable b ∧ ∀ c, Promise b c ↔ Sound b c :=
  ⟨_, rfl, bridge_sound_iff (System.restrict_reachable_of_exec rfl
    (by rfl : System.exec (System.guarded Bridge.next Sound) .make lonePlan = some _))⟩

theorem bridge_wrong_kind : ¬ ∀ b, bridgeSystem.Reachable b → ∀ c, Promise b c := by
  intro h
  have hr : bridgeSystem.Reachable (Bridge.make.publish .communicator).bridge :=
    System.reachable_of_exec rfl
      (rfl : System.exec Bridge.next .make [.halo_init (.ok ())] = some _)
  obtain ⟨r, hrun, -⟩ := h _ hr (.halo_exchange_blocking 1 (.ok ()))
  cases hrun

end

end Halo
