import Helm.Amio.WritePath

/-! # The ledger of the write path

  Where each write is, and what has been done for it. A write is in the hands
  of the call that makes it, in the queue, in the hands of a worker, executed,
  or rejected. The ledger lists the writes place by place; `Balanced` says
  that the books agree with the rest of the runtime:

  - the staging pool's references are the buffers of the writes that have
    not given theirs back;
  - `pending_writes` of a dataset is the number of its writes that are still
    to be carried out, up to the calls that have not counted theirs yet;
  - each write is in one place only, and the driver calls and releases are
    those of the places it has been through.

  Every step of the runtime is one of a few moves on the ledger, and every
  move keeps it balanced. Rejected writes keep their buffer and stay pending.
-/

namespace Amio

open scoped List
open Holders (held)

/-! ## Section 1: Entries -/

/-- What a call has in hand. -/
inductive Ticket
  /-- A staging buffer. -/
  | buffer (buf : Nat)
  /-- A closure, not yet submitted. -/
  | closure (cl : WriteClosure)
  /-- The right to count a write that has been submitted. -/
  | counting (cl : WriteClosure)

namespace Ticket

/-- The staging buffer of a ticket. -/
def buf : Ticket → Option Nat
  | .buffer b => some b
  | .closure cl => some cl.buf
  | .counting _ => none

/-- The write of a ticket that is still to be submitted. -/
def unsubmitted : Ticket → Option Nat
  | .buffer _ => none
  | .closure cl => some cl.io_rec
  | .counting _ => none

/-- The dataset of a ticket that is still to be counted. -/
def uncounted : Ticket → Option Nat
  | .buffer _ => none
  | .closure _ => none
  | .counting cl => some cl.dataset_id

@[simp] theorem buf_buffer (b : Nat) : (buffer b).buf = some b := rfl
@[simp] theorem buf_closure (cl : WriteClosure) : (closure cl).buf = some cl.buf := rfl
@[simp] theorem buf_counting (cl : WriteClosure) : (counting cl).buf = none := rfl
@[simp] theorem unsubmitted_buffer (b : Nat) : (buffer b).unsubmitted = none := rfl
@[simp] theorem unsubmitted_closure (cl : WriteClosure) :
    (closure cl).unsubmitted = some cl.io_rec := rfl
@[simp] theorem unsubmitted_counting (cl : WriteClosure) : (counting cl).unsubmitted = none := rfl
@[simp] theorem uncounted_buffer (b : Nat) : (buffer b).uncounted = none := rfl
@[simp] theorem uncounted_closure (cl : WriteClosure) : (closure cl).uncounted = none := rfl
@[simp] theorem uncounted_counting (cl : WriteClosure) :
    (counting cl).uncounted = some cl.dataset_id := rfl

end Ticket

namespace Stage

/-- Has the driver been called? -/
def wrote : Stage → Bool
  | .called => false
  | _ => true

/-- Has the buffer been given back? -/
def freed : Stage → Bool
  | .called => false
  | .written => false
  | _ => true

/-- Has the write stopped being pending? -/
def settled : Stage → Bool
  | .counted => true
  | _ => false

end Stage

/-- A closure in the hands of a worker. -/
abbrev Hand := WriteClosure × Stage

/-- The staging buffer in the hands of a worker. -/
def hand_buf (h : Hand) : Option Nat := if h.2.freed then none else some h.1.buf

/-- The books of the write path. -/
structure Ledger where
  tickets : List Ticket
  queued : List WriteClosure
  hands : List Hand
  executed : List WriteClosure
  rejected : List WriteClosure
  staging : StagingPool
  pending : Nat → BitVec 64
  /-- The writes for which the driver has been called. -/
  driver_writes : List Nat
  released : List Nat
  returned : List Nat
  /-- The number of request records. -/
  records : Nat

namespace Ledger

/-- The buffers that have not been given back. -/
def owners (L : Ledger) : List Nat :=
  L.tickets.filterMap Ticket.buf ++
    (L.queued.map (·.buf) ++ (L.hands.filterMap hand_buf ++ L.rejected.map (·.buf)))

/-- How often a write has been handed to `submit_write`. -/
def handed (L : Ledger) (io : Nat) : Nat :=
  L.queued.countP (·.io_rec = io) + L.hands.countP (·.1.io_rec = io) +
    L.executed.countP (·.io_rec = io) + L.rejected.countP (·.io_rec = io)

/-- How often a write occurs. -/
def places (L : Ledger) (io : Nat) : Nat :=
  L.tickets.countP (·.unsubmitted = some io) + L.handed io

/-- The writes of a dataset that have been submitted and not settled. -/
def unsettled (L : Ledger) (d : Nat) : Nat :=
  L.queued.countP (·.dataset_id = d) +
    L.hands.countP (fun h => h.1.dataset_id = d ∧ h.2.settled = false) +
    L.rejected.countP (·.dataset_id = d)

/-- **The books agree.** -/
structure Balanced (L : Ledger) : Prop where
  owned : L.staging.Owned L.owners
  pending : ∀ d, L.pending d + BitVec.ofNat 64 (L.tickets.countP (·.uncounted = some d)) =
    BitVec.ofNat 64 (L.unsettled d)
  once : ∀ io, L.places io ≤ 1
  /-- Records are numbered in the order of their creation. -/
  fresh : ∀ io, L.records ≤ io → L.places io = 0
  driver : ∀ io, L.driver_writes.count io = L.executed.countP (·.io_rec = io) +
    L.hands.countP (fun h => h.1.io_rec = io ∧ h.2.wrote = true)
  release : ∀ io, L.released.count io = L.executed.countP (·.io_rec = io) +
    L.hands.countP (fun h => h.1.io_rec = io ∧ h.2.freed = true)
  returned : ∀ io ∈ L.returned, 0 < L.handed io
  counting : ∀ cl, .counting cl ∈ L.tickets → 0 < L.handed cl.io_rec

theorem count_owners (L : Ledger) (b : Nat) :
    L.owners.count b = L.tickets.countP (·.buf = some b) + L.queued.countP (·.buf = b) +
      L.hands.countP (hand_buf · = some b) + L.rejected.countP (·.buf = b) := by
  rw [owners, List.count_append, List.count_append, List.count_append, List.count_filterMap,
    List.count_filterMap]
  simp only [List.count, List.countP_map, Function.comp_def, beq_eq_decide, Nat.add_assoc]

/-! ## Section 2: Moves -/

namespace Balanced

variable {L : Ledger} {cl : WriteClosure} {rest tickets' : List Ticket}

theorem acquire (h : L.Balanced) {b required : Nat} {staging' : StagingPool}
    (hacq : L.staging.acquire required = (staging', some b))
    (ht : tickets' ~ .buffer b :: L.tickets) :
    ({ L with tickets := tickets', staging := staging' } : Ledger).Balanced where
  owned := by
    refine (h.owned.acquire hacq).1.perm ?_
    exact ((ht.filterMap Ticket.buf).append_right _).symm
  pending := fun d => by
    have := h.pending d
    simpa [ht.countP_eq, unsettled] using this
  once := fun io => by
    have := h.once io
    simpa [places, handed, ht.countP_eq] using this
  fresh := fun io hio => by
    have := h.fresh io hio
    simpa [places, handed, ht.countP_eq] using this
  driver := h.driver
  release := h.release
  returned := h.returned
  counting := fun cl hcl => by
    rw [ht.mem_iff, List.mem_cons] at hcl
    rcases hcl with hcl | hcl
    · cases hcl
    · exact h.counting cl hcl

theorem with_staging (h : L.Balanced) {staging' : StagingPool} (ho : staging'.Owned L.owners) :
    ({ L with staging := staging' } : Ledger).Balanced :=
  { h with owned := ho }

/-- A call fills its buffer and makes the record. -/
theorem stage (h : L.Balanced) (cl : WriteClosure) {b : Nat} (used_bytes : Nat) (hbuf : cl.buf = b)
    (hio : cl.io_rec = L.records) (ht : L.tickets ~ .buffer b :: rest)
    (ht' : tickets' ~ .closure cl :: rest) :
    ({ L with tickets := tickets', records := L.records + 1,
              staging := L.staging.set_used_bytes b used_bytes } : Ledger).Balanced := by
  -- the only place that is new is that of the new record
  have hplaces : ∀ io,
      ({ L with tickets := tickets', records := L.records + 1,
                staging := L.staging.set_used_bytes b used_bytes } : Ledger).places io =
      L.places io + if L.records = io then 1 else 0 := by
    intro io
    simp [places, handed, ht.countP_eq, ht'.countP_eq, List.countP_cons, hio]
    omega
  constructor
  case owned =>
    have hb : b ∈ L.owners := by
      refine List.mem_append_left _ (List.mem_filterMap.mpr ⟨.buffer b, ?_, rfl⟩)
      exact ht.mem_iff.mpr List.mem_cons_self
    refine (h.owned.set_used_bytes hb used_bytes).perm (List.perm_iff_count.mpr fun a => ?_)
    simp only [count_owners, ht.countP_eq, ht'.countP_eq, List.countP_cons]
    simp [hbuf]
  case pending =>
    intro d
    have := h.pending d
    simpa [ht.countP_eq, ht'.countP_eq, unsettled] using this
  case once =>
    intro io
    rw [hplaces]
    split
    · next hrec =>
      rw [h.fresh io hrec.le]
    · exact h.once io
  case fresh =>
    intro io (hle : L.records + 1 ≤ io)
    rw [hplaces, h.fresh io (by omega), if_neg (by omega)]
  case driver => exact h.driver
  case release => exact h.release
  case returned => exact h.returned
  case counting =>
    intro cl' hcl
    rw [ht'.mem_iff, List.mem_cons] at hcl
    rcases hcl with hcl | hcl
    · cases hcl
    · exact h.counting cl' (ht.mem_iff.mpr (List.mem_cons_of_mem _ hcl))

/-- A closure is handed over: the write stays where it is counted once, and
    its buffer goes with it. -/
theorem hand_over (h : L.Balanced) {L' : Ledger} (ht : L.tickets ~ .closure cl :: rest)
    (ht' : L'.tickets ~ .counting cl :: rest)
    (hhanded : ∀ io, L'.handed io = L.handed io + if cl.io_rec = io then 1 else 0)
    (hunsettled : ∀ d, L'.unsettled d = L.unsettled d + if cl.dataset_id = d then 1 else 0)
    (howners : L'.owners ~ L.owners)
    (hsame : L'.staging = L.staging ∧ L'.pending = L.pending ∧ L'.records = L.records ∧
      L'.driver_writes = L.driver_writes ∧ L'.released = L.released ∧ L'.returned = L.returned ∧
      L'.executed = L.executed ∧ L'.hands = L.hands) : L'.Balanced := by
  obtain ⟨hstaging, hpending, hrecords, hdriver, hreleased, hreturned, hexecuted, hhands⟩ := hsame
  have hplaces : ∀ io, L'.places io = L.places io := by
    intro io
    rw [places, places, hhanded, ht.countP_eq, ht'.countP_eq, List.countP_cons, List.countP_cons]
    simp
    omega
  constructor
  case owned => rw [hstaging]; exact h.owned.perm howners.symm
  case pending =>
    intro d
    have := h.pending d
    rw [ht.countP_eq, List.countP_cons] at this
    rw [hpending, hunsettled, ht'.countP_eq, List.countP_cons]
    by_cases hd : cl.dataset_id = d
    · simp [hd, BitVec.ofNat_add, ← BitVec.add_assoc] at this ⊢
      rw [this]
    · simpa [hd] using this
  case once => intro io; rw [hplaces]; exact h.once io
  case fresh => intro io hle; rw [hplaces]; exact h.fresh io (hrecords ▸ hle)
  case driver => rw [hdriver, hexecuted, hhands]; exact h.driver
  case release => rw [hreleased, hexecuted, hhands]; exact h.release
  case returned =>
    intro io hio
    have := h.returned io (hreturned ▸ hio)
    rw [hhanded]
    omega
  case counting =>
    intro cl' hcl
    rw [hhanded]
    rw [ht'.mem_iff, List.mem_cons] at hcl
    rcases hcl with hcl | hcl
    · cases hcl
      simp
    · have := h.counting cl' (ht.mem_iff.mpr (List.mem_cons_of_mem _ hcl))
      omega

theorem accept (h : L.Balanced) (ht : L.tickets ~ .closure cl :: rest)
    (ht' : tickets' ~ .counting cl :: rest) :
    ({ L with tickets := tickets', queued := L.queued ++ [cl] } : Ledger).Balanced := by
  refine h.hand_over ht ht' (fun io => ?_) (fun d => ?_) (List.perm_iff_count.mpr fun a => ?_)
    ⟨rfl, rfl, rfl, rfl, rfl, rfl, rfl, rfl⟩
  · simp [handed, List.countP_append, List.countP_singleton]
    omega
  · simp [unsettled, List.countP_append, List.countP_singleton]
    omega
  · simp [count_owners, ht.countP_eq, ht'.countP_eq, List.countP_append, List.countP_cons]
    omega

theorem reject (h : L.Balanced) (ht : L.tickets ~ .closure cl :: rest)
    (ht' : tickets' ~ .counting cl :: rest) :
    ({ L with tickets := tickets', rejected := L.rejected ++ [cl] } : Ledger).Balanced := by
  refine h.hand_over ht ht' (fun io => ?_) (fun d => ?_) (List.perm_iff_count.mpr fun a => ?_)
    ⟨rfl, rfl, rfl, rfl, rfl, rfl, rfl, rfl⟩
  · simp [handed, List.countP_append, List.countP_singleton]
    omega
  · simp [unsettled, List.countP_append, List.countP_singleton]
    omega
  · simp [count_owners, ht.countP_eq, ht'.countP_eq, List.countP_append, List.countP_cons]
    omega

theorem count (h : L.Balanced) (pending' : Nat → BitVec 64) (ht : L.tickets ~ .counting cl :: rest)
    (ht' : tickets' ~ rest)
    (hp : ∀ d, pending' d = if d = cl.dataset_id then L.pending d + 1 else L.pending d) :
    ({ L with tickets := tickets', pending := pending',
              returned := L.returned ++ [cl.io_rec] } : Ledger).Balanced where
  owned := by
    refine h.owned.perm (List.perm_iff_count.mpr fun a => ?_)
    simp [count_owners, ht.countP_eq, ht'.countP_eq]
  pending := fun d => by
    have := h.pending d
    rw [ht.countP_eq, List.countP_cons] at this
    change pending' d + BitVec.ofNat 64 (tickets'.countP _) = BitVec.ofNat 64 (L.unsettled d)
    rw [hp, ht'.countP_eq, ← this]
    by_cases hd : cl.dataset_id = d
    · simp only [hd, Ticket.uncounted_counting, decide_true, if_true, BitVec.ofNat_add,
        BitVec.ofNat_eq_ofNat]
      ring
    · simp [hd, Ne.symm hd]
  once := fun io => by
    have := h.once io
    simpa [places, handed, ht.countP_eq, ht'.countP_eq] using this
  fresh := fun io hio => by
    have := h.fresh io hio
    simpa [places, handed, ht.countP_eq, ht'.countP_eq] using this
  driver := h.driver
  release := h.release
  returned := fun io hio => by
    rcases List.mem_append.mp hio with hio | hio
    · exact h.returned io hio
    · obtain rfl := List.mem_singleton.mp hio
      exact h.counting cl (ht.mem_iff.mpr List.mem_cons_self)
  counting := fun cl' hcl => h.counting cl' <| by
    rw [ht.mem_iff]
    exact List.mem_cons_of_mem _ (ht'.mem_iff.mp hcl)

theorem start (h : L.Balanced) (cl : WriteClosure) {queued' : List WriteClosure} {hands' : List Hand}
    (hq : L.queued ~ cl :: queued') (hh : hands' ~ (cl, .called) :: L.hands) :
    ({ L with queued := queued', hands := hands' } : Ledger).Balanced := by
  have hhanded : ∀ io, ({ L with queued := queued', hands := hands' } : Ledger).handed io =
      L.handed io := by
    intro io
    simp [handed, hq.countP_eq, hh.countP_eq, List.countP_cons]
    omega
  constructor
  case owned =>
    refine h.owned.perm (List.perm_iff_count.mpr fun a => ?_)
    simp [count_owners, hq.countP_eq, hh.countP_eq, List.countP_cons, hand_buf, Stage.freed]
    omega
  case pending =>
    intro d
    rw [h.pending d]
    simp [unsettled, hq.countP_eq, hh.countP_eq, List.countP_cons, Stage.settled]
    congr 1
    omega
  case once => intro io; rw [places, hhanded]; exact h.once io
  case fresh => intro io hio; rw [places, hhanded]; exact h.fresh io hio
  case driver =>
    intro io
    rw [h.driver io]
    simp [hh.countP_eq, Stage.wrote]
  case release =>
    intro io
    rw [h.release io]
    simp [hh.countP_eq, Stage.freed]
  case returned => intro io hio; rw [hhanded]; exact h.returned io hio
  case counting => intro cl' hcl; rw [hhanded]; exact h.counting cl' hcl

theorem requeue (h : L.Balanced) {queued' : List WriteClosure} (hq : queued' ~ L.queued) :
    ({ L with queued := queued' } : Ledger).Balanced := by
  have hhanded : ∀ io, ({ L with queued := queued' } : Ledger).handed io = L.handed io := by
    intro io
    simp [handed, hq.countP_eq]
  constructor
  case owned =>
    refine h.owned.perm (List.perm_iff_count.mpr fun a => ?_)
    simp [count_owners, hq.countP_eq]
  case pending =>
    intro d
    rw [h.pending d]
    simp [unsettled, hq.countP_eq]
  case once => intro io; rw [places, hhanded]; exact h.once io
  case fresh => intro io hio; rw [places, hhanded]; exact h.fresh io hio
  case driver => exact h.driver
  case release => exact h.release
  case returned => intro io hio; rw [hhanded]; exact h.returned io hio
  case counting => intro cl' hcl; rw [hhanded]; exact h.counting cl' hcl

section Closure

variable {others hands' : List Hand}

theorem advance (h : L.Balanced) {L' : Ledger} {stage stage' : Stage}
    (hh : L.hands ~ (cl, stage) :: others) (hh' : L'.hands ~ (cl, stage') :: others)
    (howned : L'.staging.Owned L'.owners)
    (hpending : ∀ d, L'.pending d + BitVec.ofNat 64 (L'.tickets.countP (·.uncounted = some d)) =
      BitVec.ofNat 64 (L'.unsettled d))
    (hdriver : ∀ io, L'.driver_writes.count io = L'.executed.countP (·.io_rec = io) +
      L'.hands.countP (fun h => h.1.io_rec = io ∧ h.2.wrote = true))
    (hrelease : ∀ io, L'.released.count io = L'.executed.countP (·.io_rec = io) +
      L'.hands.countP (fun h => h.1.io_rec = io ∧ h.2.freed = true))
    (hsame : L'.tickets = L.tickets ∧ L'.queued = L.queued ∧ L'.executed = L.executed ∧
      L'.rejected = L.rejected ∧ L'.returned = L.returned ∧ L'.records = L.records) :
    L'.Balanced := by
  obtain ⟨htickets, hqueued, hexecuted, hrejected, hreturned, hrecords⟩ := hsame
  have hhanded : ∀ io, L'.handed io = L.handed io := by
    intro io
    simp [handed, hqueued, hexecuted, hrejected, hh.countP_eq, hh'.countP_eq, List.countP_cons]
  have hplaces : ∀ io, L'.places io = L.places io := fun io => by
    rw [places, places, hhanded, htickets]
  constructor
  case owned => exact howned
  case pending => exact hpending
  case driver => exact hdriver
  case release => exact hrelease
  case once => intro io; rw [hplaces]; exact h.once io
  case fresh => intro io hio; rw [hplaces]; exact h.fresh io (hrecords ▸ hio)
  case returned => intro io hio; rw [hhanded]; exact h.returned io (hreturned ▸ hio)
  case counting => intro cl' hcl; rw [hhanded]; exact h.counting cl' (htickets ▸ hcl)

theorem write (h : L.Balanced) (hh : L.hands ~ (cl, .called) :: others)
    (hh' : hands' ~ (cl, .written) :: others) :
    ({ L with hands := hands', driver_writes := L.driver_writes ++ [cl.io_rec] } :
      Ledger).Balanced := by
  refine h.advance hh hh' ?_ (fun d => ?_) (fun io => ?_) (fun io => ?_)
    ⟨rfl, rfl, rfl, rfl, rfl, rfl⟩
  · refine h.owned.perm (List.perm_iff_count.mpr fun a => ?_)
    simp [count_owners, hh.countP_eq, hh'.countP_eq, List.countP_cons, hand_buf, Stage.freed]
  · rw [h.pending d]
    simp [unsettled, hh.countP_eq, hh'.countP_eq, List.countP_cons, Stage.settled]
  · have := h.driver io
    simp [hh.countP_eq, hh'.countP_eq, List.countP_cons, List.count_append, List.count_singleton,
      Stage.wrote] at this ⊢
    omega
  · have := h.release io
    simpa [hh.countP_eq, hh'.countP_eq, List.countP_cons, Stage.freed] using this

theorem free (h : L.Balanced) (hh : L.hands ~ (cl, .written) :: others)
    (hh' : hands' ~ (cl, .released) :: others) :
    ({ L with hands := hands', staging := L.staging.release cl.buf,
              released := L.released ++ [cl.io_rec] } : Ledger).Balanced := by
  refine h.advance hh hh' ?_ (fun d => ?_) (fun io => ?_) (fun io => ?_)
    ⟨rfl, rfl, rfl, rfl, rfl, rfl⟩
  · refine h.owned.release (List.perm_iff_count.mpr fun a => ?_)
    rw [List.count_cons]
    simp [count_owners, hh.countP_eq, hh'.countP_eq, List.countP_cons, hand_buf, Stage.freed]
    omega
  · rw [h.pending d]
    simp [unsettled, hh.countP_eq, hh'.countP_eq, List.countP_cons, Stage.settled]
  · have := h.driver io
    simpa [hh.countP_eq, hh'.countP_eq, List.countP_cons, Stage.wrote] using this
  · have := h.release io
    simp [hh.countP_eq, hh'.countP_eq, List.countP_cons, List.count_append, List.count_singleton,
      Stage.freed] at this ⊢
    omega

theorem settle (h : L.Balanced) (pending' : Nat → BitVec 64)
    (hh : L.hands ~ (cl, .released) :: others) (hh' : hands' ~ (cl, .counted) :: others)
    (hp : ∀ d, pending' d = if d = cl.dataset_id then L.pending d - 1 else L.pending d) :
    ({ L with hands := hands', pending := pending' } : Ledger).Balanced := by
  refine h.advance hh hh' ?_ (fun d => ?_) (fun io => ?_) (fun io => ?_)
    ⟨rfl, rfl, rfl, rfl, rfl, rfl⟩
  · refine h.owned.perm (List.perm_iff_count.mpr fun a => ?_)
    simp [count_owners, hh.countP_eq, hh'.countP_eq, hand_buf, Stage.freed]
  · have := h.pending d
    by_cases hd : cl.dataset_id = d
    · simp [unsettled, hh.countP_eq, hh'.countP_eq, Stage.settled, hp, hd, BitVec.ofNat_add]
        at this ⊢
      linear_combination this
    · simpa [unsettled, hh.countP_eq, hh'.countP_eq, List.countP_cons, Stage.settled, hp, hd,
        Ne.symm hd] using this
  · have := h.driver io
    simpa [hh.countP_eq, hh'.countP_eq, List.countP_cons, Stage.wrote] using this
  · have := h.release io
    simpa [hh.countP_eq, hh'.countP_eq, List.countP_cons, Stage.freed] using this

theorem finish (h : L.Balanced) (hh : L.hands ~ (cl, .counted) :: others) (hh' : hands' ~ others) :
    ({ L with hands := hands', executed := L.executed ++ [cl] } : Ledger).Balanced := by
  have hhanded : ∀ io, ({ L with hands := hands', executed := L.executed ++ [cl] } :
      Ledger).handed io = L.handed io := by
    intro io
    simp [handed, hh.countP_eq, hh'.countP_eq, List.countP_cons, List.countP_append]
    omega
  constructor
  case owned =>
    refine h.owned.perm (List.perm_iff_count.mpr fun a => ?_)
    simp [count_owners, hh.countP_eq, hh'.countP_eq, hand_buf, Stage.freed]
  case pending =>
    intro d
    rw [h.pending d]
    simp [unsettled, hh.countP_eq, hh'.countP_eq, Stage.settled]
  case once => intro io; rw [places, hhanded]; exact h.once io
  case fresh => intro io hio; rw [places, hhanded]; exact h.fresh io hio
  case driver =>
    intro io
    rw [h.driver io]
    simp [hh.countP_eq, hh'.countP_eq, List.countP_cons, List.countP_append, Stage.wrote]
    omega
  case release =>
    intro io
    rw [h.release io]
    simp [hh.countP_eq, hh'.countP_eq, List.countP_cons, List.countP_append, Stage.freed]
    omega
  case returned => intro io hio; rw [hhanded]; exact h.returned io hio
  case counting => intro cl' hcl; rw [hhanded]; exact h.counting cl' hcl

end Closure

/-! ### What balanced books say -/

theorem hands_le (hands : List Hand) (p : Stage → Bool) (io : Nat) :
    hands.countP (fun h => h.1.io_rec = io ∧ p h.2 = true) ≤
      hands.countP (·.1.io_rec = io) := by
  refine List.countP_mono_left fun h _ => ?_
  simp only [decide_eq_true_eq]
  exact And.left

theorem at_most_once (h : L.Balanced) (io : Nat) :
    L.driver_writes.count io ≤ 1 ∧ L.released.count io ≤ 1 := by
  have honce := h.once io
  have hdriver := hands_le L.hands Stage.wrote io
  have hrelease := hands_le L.hands Stage.freed io
  rw [h.driver, h.release]
  simp only [places, handed] at honce
  omega

theorem executed_once (h : L.Balanced) (hcl : cl ∈ L.executed) :
    L.driver_writes.count cl.io_rec = 1 ∧ L.released.count cl.io_rec = 1 := by
  have hpos : 0 < L.executed.countP (·.io_rec = cl.io_rec) :=
    List.countP_pos_iff.mpr ⟨cl, hcl, by simp⟩
  have honce := h.at_most_once cl.io_rec
  rw [h.driver, h.release] at honce ⊢
  omega

theorem rejected_never (h : L.Balanced) (hcl : cl ∈ L.rejected) :
    L.driver_writes.count cl.io_rec = 0 ∧ L.released.count cl.io_rec = 0 ∧
      0 < (L.staging.buf cl.buf).ref_count := by
  have hpos : 0 < L.rejected.countP (·.io_rec = cl.io_rec) :=
    List.countP_pos_iff.mpr ⟨cl, hcl, by simp⟩
  have honce := h.once cl.io_rec
  have hdriver := hands_le L.hands Stage.wrote cl.io_rec
  have hrelease := hands_le L.hands Stage.freed cl.io_rec
  refine ⟨?_, ?_, h.owned.pos ?_⟩
  · rw [h.driver]
    simp only [places, handed] at honce
    omega
  · rw [h.release]
    simp only [places, handed] at honce
    omega
  · refine List.mem_append_right _ (List.mem_append_right _ (List.mem_append_right _ ?_))
    exact List.mem_map.mpr ⟨cl, hcl, rfl⟩

theorem at_rest (h : L.Balanced) (ht : L.tickets = []) (hq : L.queued = []) (hh : L.hands = [])
    (hr : L.rejected = []) :
    (∀ d, L.pending d = 0) ∧ L.staging.free_buffer_count = L.staging.total_buffer_count := by
  constructor
  · intro d
    have := h.pending d
    simpa [ht, hq, hh, hr, unsettled] using this
  · have howned := h.owned
    rw [owners, ht, hq, hh, hr] at howned
    exact howned.all_free

theorem exists_place {io : Nat} (hio : 0 < L.handed io) :
    (∃ cl ∈ L.queued, cl.io_rec = io) ∨ (∃ h ∈ L.hands, h.1.io_rec = io) ∨
      (∃ cl ∈ L.executed, cl.io_rec = io) ∨ ∃ cl ∈ L.rejected, cl.io_rec = io := by
  by_contra hnone
  push Not at hnone
  obtain ⟨hq, hh, he, hr⟩ := hnone
  have hzero : L.handed io = 0 := by
    simp only [handed, Nat.add_eq_zero_iff, List.countP_eq_zero, decide_eq_true_eq]
    exact ⟨⟨⟨hq, hh⟩, he⟩, hr⟩
  omega


end Balanced

end Ledger

/-! ## Section 3: The ledger of the runtime -/

/-- What a call has in hand, by its phase. -/
def CallPhase.ticket : CallPhase → Option Ticket
  | .idle _ => none
  | .acquiring _ => none
  | .staged _ buf => some (.buffer buf)
  | .recorded _ cl => some (.closure cl)
  | .submitting _ cl => some (.closure cl)
  | .submitted _ cl _ => some (.counting cl)

namespace WritePath

variable {m n : Nat} {s s' : WritePath m n}

/-- What client `c` has in hand. -/
def ticket (s : WritePath m n) (c : Fin m) : Option Ticket := (s.clients c).ticket

/-- What worker `w` has in hand. -/
def hand (s : WritePath m n) (w : Fin n) : Option Hand :=
  (s.pool.workers w).write.map fun task => (task.callback, s.stages w)

/-- The books. -/
def ledger (s : WritePath m n) : Ledger where
  tickets := held s.ticket
  queued := s.pool.write_queue.map (·.callback)
  hands := held s.hand
  executed := s.pool.executed.map (·.callback)
  rejected := s.rejected
  staging := s.staging
  pending := fun d => (s.datasets d).pending_writes
  driver_writes := s.driver_writes.map (·.io_rec)
  released := s.released
  returned := s.returned
  records := s.io_records.length

/-- The client of the pool is inside `submit_write`, with the given closure. -/
def InSubmit (phase : ClientPhase WriteClosure) (token : Token) (cl : WriteClosure) : Prop :=
  phase = .checked (.submit_write cl.dv_key token.toNat cl) ∨
    phase = .waiting cl.dv_key token.toNat cl

/-- **The invariant of the write path.** -/
structure Inv (s : WritePath m n) : Prop where
  pool : s.pool.Inv
  balanced : s.ledger.Balanced
  /-- The worker pool is called with the closure that the client has in hand. -/
  submitting : ∀ c token cl, s.clients c = .submitting token cl →
    InSubmit (s.pool.clients c) token cl

/-! ### Hands and tickets -/

theorem clients_set_client (s : WritePath m n) (c : Fin m) (phase : CallPhase) :
    (s.set_client c phase).clients = Function.update s.clients c phase := rfl

theorem ticket_set_client (s : WritePath m n) (c : Fin m) (phase : CallPhase) :
    (s.set_client c phase).ticket = Function.update s.ticket c phase.ticket :=
  Function.comp_update ..

theorem tickets_same {c : Fin m} {phase : CallPhase} (hold : s.ticket c = none)
    (hnew : phase.ticket = none) : (s.set_client c phase).ticket = s.ticket := by
  rw [ticket_set_client, hnew, ← hold, Function.update_eq_self]

theorem tickets_take {c : Fin m} {phase : CallPhase} {t : Ticket} (hold : s.ticket c = none)
    (hnew : phase.ticket = some t) : held (s.set_client c phase).ticket ~ t :: held s.ticket := by
  rw [ticket_set_client, hnew]
  exact Holders.held_take hold t

theorem tickets_exchange {c : Fin m} {t : Ticket} (hold : s.ticket c = some t) :
    ∃ rest, held s.ticket ~ t :: rest ∧
      ∀ phase : CallPhase, held (s.set_client c phase).ticket ~ phase.ticket.toList ++ rest := by
  obtain ⟨rest, hdrop, hnone, hsome⟩ := Holders.held_exchange hold
  refine ⟨rest, hdrop, fun phase => ?_⟩
  rw [ticket_set_client]
  cases phase.ticket with
  | none => rw [hnone]; rfl
  | some t' => exact hsome t'

theorem hand_eq_some {w : Fin n} {task : WriteTask WriteClosure}
    (hw : s.pool.workers w = .writing task) : s.hand w = some (task.callback, s.stages w) := by
  rw [hand, hw]
  rfl

theorem hand_set_stage {w : Fin n} {task : WriteTask WriteClosure} {stage : Stage}
    (hw : s.pool.workers w = .writing task) :
    (s.set_stage w stage).hand = Function.update s.hand w (some (task.callback, stage)) := by
  funext v
  by_cases hv : v = w
  · subst hv
    simp [hand, set_stage, hw]
  · simp [hand, set_stage, Function.update_of_ne hv]

theorem hand_congr (hw : s'.pool.workers = s.pool.workers) (hs : s'.stages = s.stages) :
    s'.hand = s.hand := by
  funext v
  rw [hand, hand, hw, hs]

/-! ### What `submit_write` does -/

/-- **`submit_write`**, step by step: it goes on, it rejects the closure for
    the reason `why`, or it queues it. -/
inductive Submitted (pool : WorkerPool WriteClosure n) (c : Nat) (token : Token)
    (cl : WriteClosure) (why : Prop) : WorkerPool WriteClosure n → Prop
  | goes_on (phase : ClientPhase WriteClosure) (h : InSubmit phase token cl) :
      Submitted pool c token cl why (pool.set_client c phase)
  | rejects (result : Except AmioStatus Nat) (h : why) :
      Submitted pool c token cl why (pool.set_client c (.ready (some result)))
  | queues : Submitted pool c token cl why (pool.enqueue_write c cl.dv_key token.toNat cl)

section Submit

variable {pool pool' : WorkerPool WriteClosure n} {c : Nat} {token : Token} {cl : WriteClosure}

theorem submitted_of_admit :
    Submitted pool c token cl (pool.shutdown = true)
      (pool.admit_write c cl.dv_key token.toNat cl) := by
  unfold WorkerPool.admit_write
  split
  · next hshutdown => exact .rejects _ hshutdown
  · exact .queues

theorem submitted_of_check
    (h : pool.next (.check c (.submit_write cl.dv_key token.toNat cl)) = some pool') :
    Submitted pool c token cl (pool.shutdown = true) pool' := by
  simp only [WorkerPool.next] at h
  split at h
  · split at h
    · next hshutdown =>
      cases h
      exact .rejects _ hshutdown
    · cases h
      exact .goes_on _ (.inl rfl)
  · cases h

/-- Why `submit_write` may reject a write once it has the lock. -/
def Refuses (pool : WorkerPool WriteClosure n) : Prop :=
  pool.shutdown = true ∨ pool.backpressure.enabled = false ∧
    pool.backpressure.queue_capacity ≤ pool.write_queue.length

theorem submitted_of_enter (hin : InSubmit (pool.clients c) token cl)
    (h : pool.next (.enter c) = some pool') : Submitted pool c token cl (Refuses pool) pool' := by
  rcases hin with hin | hin
  · simp only [WorkerPool.next, hin, Option.some.injEq] at h
    subst h
    unfold WorkerPool.submit_write
    split
    · split
      · exact .goes_on _ (.inr rfl)
      · unfold WorkerPool.admit_write
        split
        · next hshutdown => exact .rejects _ (.inl hshutdown)
        · exact .queues
    · next henabled =>
      split
      · next hfull => exact .rejects _ (.inr ⟨by simpa using henabled, hfull⟩)
      · exact .queues
  · simp [WorkerPool.next, hin] at h

theorem submitted_of_resume (hin : InSubmit (pool.clients c) token cl)
    (h : pool.next (.resume c) = some pool') :
    Submitted pool c token cl (pool.shutdown = true) pool' := by
  rcases hin with hin | hin
  · simp [WorkerPool.next, hin] at h
  · simp only [WorkerPool.next, hin, Option.some.injEq] at h
    subst h
    exact submitted_of_admit

end Submit

theorem submit_step_cases {c : Fin m} {token : Token} {cl : WriteClosure} {why : Prop}
    {pl : WorkerLabel WriteClosure n}
    (hsub : ∀ pool', s.pool.next pl = some pool' → Submitted s.pool c token cl why pool')
    (hstep : s.submit_step c token cl pl = some s') :
    (∃ phase, InSubmit phase token cl ∧
      s' = { s.set_client c (.submitting token cl) with pool := s.pool.set_client c phase }) ∨
    (∃ result, why ∧
      s' = { s.set_client c (.submitted token cl (returned_seq result)) with
        pool := s.pool.set_client c (.ready (some result))
        rejected := s.rejected ++ [cl] }) ∨
    s' = { s.set_client c (.submitted token cl (s.pool.next_seq cl.dv_key)) with
      pool := s.pool.enqueue_write c cl.dv_key token.toNat cl } := by
  obtain ⟨pool, hpool, heq⟩ := Option.map_eq_some_iff.mp hstep
  cases hsub pool hpool with
  | goes_on phase hin =>
    refine .inl ⟨phase, hin, ?_⟩
    have hphase : (s.pool.set_client c phase).clients c = phase := Function.update_self ..
    rw [← heq, hphase]
    rcases hin with rfl | rfl
    · rfl
    · rfl
  | rejects result hwhy =>
    refine .inr (.inl ⟨result, hwhy, ?_⟩)
    have hphase : (s.pool.set_client c (.ready (some result))).clients c = .ready (some result) :=
      Function.update_self ..
    rw [← heq, hphase]
    simp [WorkerPool.set_client]
  | queues =>
    refine .inr (.inr ?_)
    have hphase : (s.pool.enqueue_write c cl.dv_key token.toNat cl).clients c =
        .ready (some (.ok (s.pool.next_seq cl.dv_key))) := Function.update_self ..
    rw [← heq, hphase]
    simp [WorkerPool.enqueue_write, returned_seq, set_client]

/-! ## Section 4: Every step is a move -/

/-- The step that the worker pool takes in a step of the runtime. -/
def pool_label (s : WritePath m n) : WriteLabel m n → Option (WorkerLabel WriteClosure n)
  | .submit c =>
    match s.clients c with
    | .recorded token cl => some (.check c (.submit_write cl.dv_key token.toNat cl))
    | _ => none
  | .enter c => some (.enter c)
  | .resume c => some (.resume c)
  | .wake w pick => some (.wake w pick)
  | .finish w => some (.finish w none)
  | .shutdown => some .shutdown
  | .join => some .join
  | _ => none

theorem pool_of_submit_step {c : Fin m} {token : Token} {cl : WriteClosure}
    {pl : WorkerLabel WriteClosure n} (h : s.submit_step c token cl pl = some s') :
    s.pool.next pl = some s'.pool := by
  obtain ⟨pool, hpool, heq⟩ := Option.map_eq_some_iff.mp h
  rw [hpool, ← heq]
  split
  · rfl
  · rfl

theorem pool_of_wake {w : Fin n} {pick : Nat} (h : s.wake w pick = some s') :
    s.pool.next (.wake w pick) = some s'.pool := by
  obtain ⟨pool, hpool, heq⟩ := Option.map_eq_some_iff.mp h
  rw [hpool, ← heq]
  split
  · rfl
  · rfl

/-- **The worker pool inside the runtime** takes its own steps. -/
theorem pool_of_next {l : WriteLabel m n} (h : s.next l = some s') :
    (∃ pl, s.pool_label l = some pl ∧ s.pool.next pl = some s'.pool) ∨
      s.pool_label l = none ∧ s'.pool = s.pool := by
  cases l with
  | call c args =>
    refine .inr ⟨rfl, ?_⟩
    simp only [next, client_of, client_step] at h
    split at h
    · split at h
      · cases h; rfl
      · cases h; rfl
    · cases h
  | acquire c | acquire_timeout c =>
    refine .inr ⟨rfl, ?_⟩
    simp only [next, client_of, client_step] at h
    split at h
    · split at h
      · cases h <;> rfl
      · cases h <;> rfl
    · cases h
  | acquire_throw c | stage c | count c =>
    refine .inr ⟨rfl, ?_⟩
    simp only [next, client_of, client_step] at h
    split at h
    · cases h; rfl
    · cases h
  | submit c =>
    simp only [next, client_of, client_step] at h
    split at h
    · next token cl hc =>
      split at h
      · exact .inl ⟨_, by simp only [pool_label, hc], pool_of_submit_step h⟩
      · cases h
    · cases h
  | enter c | resume c =>
    simp only [next, client_of, client_step] at h
    split at h
    · exact .inl ⟨_, rfl, pool_of_submit_step h⟩
    · cases h
  | complete c =>
    refine .inr ⟨rfl, ?_⟩
    simp only [next, client_of, client_step] at h
    split at h
    · split at h
      · cases h
      · cases h; rfl
    · cases h
  | wake w pick => exact .inl ⟨_, rfl, pool_of_wake h⟩
  | driver w throws =>
    refine .inr ⟨rfl, ?_⟩
    simp only [next, client_of, worker_of, closure_step] at h
    split at h
    · split at h
      · cases h
        cases throws <;> rfl
      · cases h
    · cases h
  | release w | decrement w =>
    refine .inr ⟨rfl, ?_⟩
    simp only [next, client_of, worker_of, closure_step] at h
    split at h
    · split at h
      · cases h; rfl
      · cases h
    · cases h
  | finish w =>
    simp only [next, client_of, worker_of, closure_step] at h
    split at h
    · split at h
      · obtain ⟨pool, hpool, rfl⟩ := Option.map_eq_some_iff.mp h
        exact .inl ⟨_, rfl, hpool⟩
      · cases h
    · cases h
  | shutdown | join =>
    obtain ⟨pool, hpool, rfl⟩ := Option.map_eq_some_iff.mp h
    exact .inl ⟨_, rfl, hpool⟩

namespace Inv

theorem submitting_set_client (h : s.Inv) {c : Fin m} {phase : CallPhase}
    (hphase : ∀ token cl, phase ≠ .submitting token cl) :
    ∀ c' token cl, (s.set_client c phase).clients c' = .submitting token cl →
      InSubmit (s.pool.clients c') token cl := by
  intro c' token cl hc'
  by_cases hc : c' = c
  · subst hc
    rw [clients_set_client, Function.update_self] at hc'
    exact absurd hc' (hphase token cl)
  · rw [clients_set_client, Function.update_of_ne hc] at hc'
    exact h.submitting c' token cl hc'

theorem of_client (h : s.Inv) (c : Fin m) (phase : CallPhase)
    (hphase : ∀ token cl, phase ≠ .submitting token cl)
    (hclients : s'.clients = (s.set_client c phase).clients) (hpool : s'.pool = s.pool)
    (hbalanced : s'.ledger.Balanced) : s'.Inv where
  pool := hpool ▸ h.pool
  balanced := hbalanced
  submitting := by
    rw [hclients, hpool]
    exact h.submitting_set_client hphase

/-! ### Calls -/

section Calls

variable {c : Fin m}

theorem ticket_of {phase : CallPhase} (hc : s.clients c = phase) : s.ticket c = phase.ticket := by
  rw [ticket, hc]

theorem call (h : s.Inv) (phase : CallPhase) (hold : s.ticket c = none)
    (hnew : phase.ticket = none) {staging' : StagingPool}
    (ho : staging'.Owned s.ledger.owners) :
    ({ s.set_client c phase with staging := staging' } : WritePath m n).Inv := by
  apply h.of_client c phase
  · rintro token cl rfl
    cases hnew
  · rfl
  · rfl
  · have hbal := h.balanced.with_staging ho
    show ({ s.ledger with tickets := held (s.set_client c phase).ticket,
                          staging := staging' } : Ledger).Balanced
    rw [tickets_same hold hnew]
    exact hbal

theorem acquire (h : s.Inv) {req : WriteRequest} (hc : s.clients c = .acquiring req)
    {staging' : StagingPool} {buf required : Nat}
    (hacq : s.staging.acquire required = (staging', some buf)) :
    ({ s.set_client c (.staged req buf) with staging := staging' } : WritePath m n).Inv := by
  refine h.of_client c (.staged req buf) (by simp) rfl rfl ?_
  exact h.balanced.acquire hacq (tickets_take (ticket_of hc) rfl)

theorem stage (h : s.Inv) {req : WriteRequest} {buf : Nat} (hc : s.clients c = .staged req buf) :
    (s.stage c req buf).Inv := by
  obtain ⟨rest, hdrop, htake⟩ := tickets_exchange (ticket_of hc)
  obtain ⟨token, cl, hphase, hbuf, hio⟩ : ∃ token cl,
      (s.stage c req buf).clients = (s.set_client c (.recorded token cl)).clients ∧
      cl.buf = buf ∧ cl.io_rec = s.io_records.length := ⟨_, _, rfl, rfl, rfl⟩
  apply h.of_client c (.recorded token cl) (by simp) hphase rfl
  have hbal := h.balanced.stage cl req.payload_bytes hbuf hio hdrop (htake (.recorded token cl))
  have htickets : (s.stage c req buf).ticket = (s.set_client c (.recorded token cl)).ticket := by
    funext c'
    rw [ticket, ticket, hphase]
  have hrecords : (s.stage c req buf).io_records.length = s.io_records.length + 1 := by
    simp [WritePath.stage]
  rw [← htickets] at hbal
  show ({ s.ledger with
            tickets := held (s.stage c req buf).ticket
            records := (s.stage c req buf).io_records.length
            staging := s.staging.set_used_bytes buf req.payload_bytes } : Ledger).Balanced
  rw [hrecords]
  exact hbal

theorem count (h : s.Inv) {token : Token} {cl : WriteClosure} {seq : Nat}
    (hc : s.clients c = .submitted token cl seq) : (s.count c token cl seq).Inv := by
  obtain ⟨rest, hdrop, htake⟩ := tickets_exchange (ticket_of hc)
  refine h.of_client c (.idle (some (.ok token))) (by simp) rfl rfl ?_
  have hbal := h.balanced.count (fun d => ((s.count c token cl seq).datasets d).pending_writes)
    hdrop (htake (.idle (some (.ok token)))) fun d => by
      by_cases hd : d = cl.dataset_id
      · simp [hd, WritePath.count, set_dataset, ledger, set_client, set_io]
      · simp [hd, WritePath.count, set_dataset, ledger, set_client, set_io]
  have hrecords : (s.count c token cl seq).io_records.length = s.io_records.length := by
    simp [WritePath.count, set_dataset, set_client, set_io]
  show ({ s.ledger with
            tickets := held (s.set_client c (.idle (some (.ok token)))).ticket
            pending := fun d => ((s.count c token cl seq).datasets d).pending_writes
            returned := s.returned ++ [cl.io_rec]
            records := (s.count c token cl seq).io_records.length } : Ledger).Balanced
  rw [hrecords]
  exact hbal

theorem submitting_submit (h : s.Inv) {phase' : CallPhase} {phase : ClientPhase WriteClosure}
    {pool : WorkerPool WriteClosure n}
    (hclients : pool.clients = Function.update s.pool.clients c phase)
    (hphase : ∀ token cl, phase' = .submitting token cl → InSubmit phase token cl) :
    ∀ c' token cl, (s.set_client c phase').clients c' = .submitting token cl →
      InSubmit (pool.clients c') token cl := by
  intro c' token cl hc'
  by_cases hcc : c' = c
  · subst hcc
    rw [clients_set_client, Function.update_self] at hc'
    rw [hclients, Function.update_self]
    exact hphase token cl hc'
  · have hne : c'.val ≠ c.val := fun heq => hcc (Fin.ext heq)
    rw [clients_set_client, Function.update_of_ne hcc] at hc'
    rw [hclients, Function.update_of_ne hne]
    exact h.submitting c' token cl hc'

theorem submit_step (h : s.Inv) {token : Token} {cl : WriteClosure} {why : Prop}
    {pl : WorkerLabel WriteClosure n} (hc : s.ticket c = some (.closure cl))
    (hsub : ∀ pool', s.pool.next pl = some pool' → Submitted s.pool c token cl why pool')
    (hstep : s.submit_step c token cl pl = some s') : s'.Inv := by
  have hinv : s'.pool.Inv := h.pool.step (WorkerPool.next_effect (pool_of_submit_step hstep))
  obtain ⟨rest, hdrop, htake⟩ := tickets_exchange hc
  rcases submit_step_cases hsub hstep with
    ⟨phase, hin, rfl⟩ | ⟨result, -, rfl⟩ | rfl
  · -- the closure stays in the hands of the client
    have hticket : (s.set_client c (.submitting token cl)).ticket = s.ticket := by
      rw [ticket_set_client, CallPhase.ticket, ← hc, Function.update_eq_self]
    refine ⟨hinv, ?_, h.submitting_submit rfl fun token' cl' heq' => ?_⟩
    · show ({ s.ledger with
                tickets := held (s.set_client c (.submitting token cl)).ticket } : Ledger).Balanced
      rw [hticket]
      exact h.balanced
    · cases heq'
      exact hin
  · refine ⟨hinv, ?_, h.submitting_submit rfl (by simp)⟩
    exact h.balanced.reject hdrop (htake (.submitted token cl (returned_seq result)))
  · refine ⟨hinv, ?_, h.submitting_submit rfl (by simp)⟩
    have hbal := h.balanced.accept hdrop (htake (.submitted token cl (s.pool.next_seq cl.dv_key)))
    have hqueue : ((s.pool.enqueue_write c cl.dv_key token.toNat cl).write_queue.map
        (·.callback)) = s.ledger.queued ++ [cl] := by
      simp [WorkerPool.enqueue_write, ledger]
    rw [← hqueue] at hbal
    exact hbal

end Calls

/-! ### Workers -/

section Workers

variable {w : Fin n}

theorem of_worker (h : s.Inv) (hclients : s'.clients = s.clients) (hpool : s'.pool.Inv)
    (hpclients : s'.pool.clients = s.pool.clients) (hbalanced : s'.ledger.Balanced) : s'.Inv where
  pool := hpool
  balanced := hbalanced
  submitting := by
    rw [hclients, hpclients]
    exact h.submitting

theorem pool_frame (h : s.Inv) {pool : WorkerPool WriteClosure n} (hinv : pool.Inv)
    (hclients : pool.clients = s.pool.clients) (hqueue : pool.write_queue ~ s.pool.write_queue)
    (hwrite : ∀ v, (pool.workers v).write = (s.pool.workers v).write)
    (hexec : pool.executed = s.pool.executed) : ({ s with pool } : WritePath m n).Inv := by
  refine h.of_worker rfl hinv hclients ?_
  have hhand : ({ s with pool } : WritePath m n).hand = s.hand := by
    funext v
    rw [hand, hand, hwrite]
  show ({ s.ledger with
            queued := pool.write_queue.map (·.callback)
            hands := held ({ s with pool } : WritePath m n).hand
            executed := pool.executed.map (·.callback) } : Ledger).Balanced
  rw [hhand, hexec]
  exact h.balanced.requeue (hqueue.map _)

/-- Worker `w` looks for work. -/
theorem wake (h : s.Inv) {pick : Nat} (hstep : s.wake w pick = some s') : s'.Inv := by
  obtain ⟨pool, hpool, heq⟩ := Option.map_eq_some_iff.mp hstep
  have heff := WorkerPool.next_effect hpool
  have hinv : pool.Inv := h.pool.step heff
  -- a worker that takes no write leaves the writes alone
  have hframe : (pool.workers w).write = none → pool.clients = s.pool.clients →
      pool.write_queue ~ s.pool.write_queue →
      (∀ v, (pool.workers v).write = (s.pool.workers v).write) →
      pool.executed = s.pool.executed → s'.Inv := by
    intro hnone hclients hqueue hwrite hexec
    have hs' : s' = { s with pool } := by
      rw [← heq]
      split
      · next task hw => simp [hw] at hnone
      · rfl
    rw [hs']
    exact h.pool_frame hinv hclients hqueue hwrite hexec
  -- the other workers keep what they have
  have hwrite : ∀ phase : WorkerPhase WriteClosure, s.pool.workers w = .idle →
      phase.write = none → ∀ v, (Function.update s.pool.workers w phase v).write =
        (s.pool.workers v).write := by
    intro phase hidle hnone v
    by_cases hv : v = w
    · subst hv
      rw [Function.update_self, hnone, hidle, WorkerPhase.write]
    · rw [Function.update_of_ne hv]
  cases heff with
  | client c phase hl | accept c _ _ _ hl | schedule c _ hl => simp [WorkerPool.client_of] at hl
  | exit _ _ hidle =>
    refine hframe ?_ rfl (.refl _) (hwrite .exited hidle rfl) rfl
    simp [WorkerPool.set_worker]
  | pass _ _ hidle =>
    refine hframe (by simp [hidle]) rfl (s.pool.write_queue.rotate_perm 1) (fun _ => rfl) rfl
  | fetch _ _ task hidle =>
    refine hframe ?_ rfl (s.pool.write_queue.rotate_perm 1)
      (hwrite (.prefetching task) hidle rfl) rfl
    simp [WorkerPool.set_worker]
  | start _ _ task rest hidle hqueue =>
    have hs' : s' = { s.set_stage w .called with
        pool :=
          { s.pool.set_worker w (.writing task) with
            write_queue := rest
            in_flight := s.pool.in_flight + 1
            started := s.pool.started ++ [task] } } := by
      rw [← heq]
      simp [WorkerPool.set_worker]
    subst hs'
    refine h.of_worker rfl hinv rfl ?_
    -- the write goes from the queue into the hands of the worker
    have hnone : s.hand w = none := by rw [hand, hidle]; rfl
    refine h.balanced.start task.callback ?_ ?_
    · show s.pool.write_queue.map _ ~ _
      rw [hqueue]
      exact .refl _
    · refine List.Perm.trans (.of_eq (congrArg held ?_)) (Holders.held_take hnone _)
      funext v
      by_cases hv : v = w
      · subst hv
        simp [hand, set_stage, WorkerPool.set_worker]
      · simp [hand, set_stage, WorkerPool.set_worker, Function.update_of_ne hv]

theorem hands_advance {task : WriteTask WriteClosure} (hw : s.pool.workers w = .writing task)
    {stage : Stage} (hstage : s.stages w = stage) (stage' : Stage) :
    ∃ others, held s.hand ~ (task.callback, stage) :: others ∧
      held (s.set_stage w stage').hand ~ (task.callback, stage') :: others := by
  have hhand : s.hand w = some (task.callback, stage) := hstage ▸ hand_eq_some hw
  obtain ⟨others, hdrop, -, htake⟩ := Holders.held_exchange hhand
  exact ⟨others, hdrop, by rw [hand_set_stage hw]; exact htake _⟩

theorem driver (h : s.Inv) {task : WriteTask WriteClosure} (hw : s.pool.workers w = .writing task)
    (hstage : s.stages w = .called) (throws : Bool) :
    (s.driver_returned w task.callback throws).Inv := by
  obtain ⟨others, hdrop, htake⟩ := hands_advance hw hstage .written
  have hbal := h.balanced.write hdrop htake
  have hdriver : (s.driver_returned w task.callback throws).driver_writes.map (·.io_rec) =
      s.ledger.driver_writes ++ [task.callback.io_rec] := by
    cases throws <;> simp [driver_returned, set_io, set_dataset, set_stage, ledger]
  have hrecords : (s.driver_returned w task.callback throws).io_records.length =
      s.io_records.length := by
    cases throws <;> simp [driver_returned, set_io, set_dataset, set_stage]
  have hpending : ∀ d, ((s.driver_returned w task.callback throws).datasets d).pending_writes =
      (s.datasets d).pending_writes := by
    intro d
    cases throws with
    | false => rfl
    | true =>
      by_cases hd : d = task.callback.dataset_id
      · subst hd
        simp [driver_returned, set_io, set_dataset, set_stage]
      · simp [driver_returned, set_io, set_dataset, set_stage, Function.update_of_ne hd]
  refine h.of_worker ?_ ?_ ?_ ?_
  · cases throws <;> rfl
  · cases throws <;> exact h.pool
  · cases throws <;> rfl
  · have hledger : (s.driver_returned w task.callback throws).ledger =
        { s.ledger with
          hands := held (s.set_stage w .written).hand
          driver_writes := s.ledger.driver_writes ++ [task.callback.io_rec] } := by
      rw [ledger, hdriver, hrecords]
      simp only [hpending]
      cases throws <;> rfl
    rw [hledger]
    exact hbal

theorem release (h : s.Inv) {task : WriteTask WriteClosure} (hw : s.pool.workers w = .writing task)
    (hstage : s.stages w = .written) :
    ({ s.set_stage w .released with
        staging := s.staging.release task.callback.buf
        released := s.released ++ [task.callback.io_rec] } : WritePath m n).Inv := by
  obtain ⟨others, hdrop, htake⟩ := hands_advance hw hstage .released
  exact h.of_worker rfl h.pool rfl (h.balanced.free hdrop htake)

theorem decrement (h : s.Inv) {task : WriteTask WriteClosure}
    (hw : s.pool.workers w = .writing task) (hstage : s.stages w = .released) :
    ((s.set_stage w .counted).set_dataset task.callback.dataset_id fun d =>
      { d with pending_writes := d.pending_writes - 1 }).Inv := by
  obtain ⟨others, hdrop, htake⟩ := hands_advance hw hstage .counted
  refine h.of_worker rfl h.pool rfl (h.balanced.settle _ hdrop htake fun d => ?_)
  by_cases hd : d = task.callback.dataset_id
  · subst hd
    simp [set_dataset, set_stage, ledger]
  · simp [set_dataset, set_stage, ledger, hd]

theorem finish (h : s.Inv) {task : WriteTask WriteClosure} (hw : s.pool.workers w = .writing task)
    (hstage : s.stages w = .counted) {pool : WorkerPool WriteClosure n}
    (hpool : s.pool.next (.finish w none) = some pool) : ({ s with pool } : WritePath m n).Inv := by
  have hinv : pool.Inv := h.pool.step (WorkerPool.next_effect hpool)
  have hfin : pool = s.pool.finish_write w task none := by
    simpa [WorkerPool.next, hw, eq_comm] using hpool
  subst hfin
  have hhand : s.hand w = some (task.callback, .counted) := hstage ▸ hand_eq_some hw
  obtain ⟨others, hdrop, hnone, -⟩ := Holders.held_exchange hhand
  have hhands : ({ s with pool := s.pool.finish_write w task none } : WritePath m n).hand =
      Function.update s.hand w none := by
    funext v
    by_cases hv : v = w
    · subst hv
      simp [hand, WorkerPool.finish_write, WorkerPool.set_worker]
    · simp [hand, WorkerPool.finish_write, WorkerPool.set_worker, Function.update_of_ne hv]
  refine h.of_worker rfl hinv rfl ?_
  have hbal := h.balanced.finish hdrop (.refl others)
  have hexec : (s.pool.finish_write w task none).executed.map (·.callback) =
      s.ledger.executed ++ [task.callback] := by
    simp [WorkerPool.finish_write, ledger]
  rw [← hexec, ← hnone, ← hhands] at hbal
  exact hbal

end Workers

/-! ### The run -/

/-- **Step lemma.** There is a worker pool. -/
theorem step (hn : 0 < n) (h : s.Inv) {l : WriteLabel m n} (hstep : s.next l = some s') :
    s'.Inv := by
  cases l with
  | call c args =>
    simp only [next, client_of, client_step] at hstep
    split at hstep
    · next hc =>
      split at hstep
      · cases hstep
        exact h.call _ (ticket_of hc) rfl h.balanced.owned
      · cases hstep
        exact h.call _ (ticket_of hc) rfl h.balanced.owned
    · cases hstep
  | acquire c =>
    simp only [next, client_of, client_step] at hstep
    split at hstep
    · next hc =>
      split at hstep
      · next hacq =>
        cases hstep
        exact h.acquire hc hacq
      · cases hstep
    · cases hstep
  | acquire_timeout c =>
    simp only [next, client_of, client_step] at hstep
    split at hstep
    · next req hc =>
      split at hstep
      · cases hstep
      · next staging hacq =>
        cases hstep
        obtain rfl := h.balanced.owned.acquire_none hacq
        exact h.call _ (ticket_of hc) rfl h.balanced.owned
    · cases hstep
  | acquire_throw c =>
    simp only [next, client_of, client_step] at hstep
    split at hstep
    · next hc =>
      cases hstep
      exact h.call _ (ticket_of hc) rfl (h.balanced.owned.acquire_failed _)
    · cases hstep
  | stage c =>
    simp only [next, client_of, client_step] at hstep
    split at hstep
    · next hc =>
      cases hstep
      exact h.stage hc
    · cases hstep
  | submit c =>
    simp only [next, client_of, client_step] at hstep
    split at hstep
    · next hc =>
      rw [if_pos hn] at hstep
      exact h.submit_step (ticket_of hc) (fun _ => submitted_of_check) hstep
    · cases hstep
  | enter c =>
    simp only [next, client_of, client_step] at hstep
    split at hstep
    · next hc =>
      exact h.submit_step (ticket_of hc) (fun _ => submitted_of_enter (h.submitting _ _ _ hc)) hstep
    · cases hstep
  | resume c =>
    simp only [next, client_of, client_step] at hstep
    split at hstep
    · next hc =>
      exact h.submit_step (ticket_of hc) (fun _ => submitted_of_resume (h.submitting _ _ _ hc))
        hstep
    · cases hstep
  | count c =>
    simp only [next, client_of, client_step] at hstep
    split at hstep
    · next hc =>
      cases hstep
      exact h.count hc
    · cases hstep
  | complete c =>
    simp only [next, client_of, client_step] at hstep
    split at hstep
    · rw [if_pos hn] at hstep
      cases hstep
    · cases hstep
  | wake w pick => exact h.wake hstep
  | driver w throws =>
    simp only [next, client_of, worker_of, closure_step] at hstep
    split at hstep
    · next hw =>
      split at hstep
      · next hstage =>
        cases hstep
        exact h.driver hw hstage throws
      · cases hstep
    · cases hstep
  | release w =>
    simp only [next, client_of, worker_of, closure_step] at hstep
    split at hstep
    · next hw =>
      split at hstep
      · next hstage =>
        cases hstep
        exact h.release hw hstage
      · cases hstep
    · cases hstep
  | decrement w =>
    simp only [next, client_of, worker_of, closure_step] at hstep
    split at hstep
    · next hw =>
      split at hstep
      · next hstage =>
        cases hstep
        exact h.decrement hw hstage
      · cases hstep
    · cases hstep
  | finish w =>
    simp only [next, client_of, worker_of, closure_step] at hstep
    split at hstep
    · next hw =>
      split at hstep
      · next hstage =>
        obtain ⟨pool, hpool, rfl⟩ := Option.map_eq_some_iff.mp hstep
        exact h.finish hw hstage hpool
      · cases hstep
    · cases hstep
  | shutdown | join =>
    obtain ⟨pool, hpool, rfl⟩ := Option.map_eq_some_iff.mp hstep
    have heff := WorkerPool.next_effect hpool
    have hinv := h.pool.step heff
    cases heff with
    | client c phase hl | accept c _ _ _ hl | schedule c _ hl => simp [WorkerPool.client_of] at hl
    | _ => exact h.pool_frame hinv rfl (.refl _) (fun _ => rfl) rfl

end Inv

theorem inv_make {cfg : StagingConfig} {staging : StagingPool} (hinit : PoolInit cfg staging)
    (backpressure : BackpressureConfig) : (make staging backpressure : WritePath m n).Inv := by
  have htickets : held (make staging backpressure : WritePath m n).ticket = [] := by
    have hnone : (make staging backpressure : WritePath m n).ticket = fun _ => none := rfl
    rw [hnone]
    simp [held]
  have hhands : held (make staging backpressure : WritePath m n).hand = [] := by
    have hnone : (make staging backpressure : WritePath m n).hand = fun _ => none := rfl
    rw [hnone]
    simp [held]
  have hledger : (make staging backpressure : WritePath m n).ledger =
      { tickets := [], queued := [], hands := [], executed := [], rejected := [], staging,
        pending := fun _ => 0, driver_writes := [], released := [], returned := [],
        records := 0 } := by
    rw [ledger, htickets, hhands]
    rfl
  refine ⟨WorkerPool.inv_make backpressure, ?_, by simp [make]⟩
  rw [hledger]
  constructor
  case owned => exact StagingPool.Owned.init hinit
  all_goals simp [Ledger.unsettled, Ledger.places, Ledger.handed]

/-- **Run lemma.** -/
theorem inv_of_reachable (hn : 0 < n) (hr : (system m n).Reachable s) : s.Inv := by
  refine hr.invariant (P := Inv) (fun t ht => ?_) fun t l t' _ h hstep => h.step hn hstep
  obtain ⟨cfg, staging, backpressure, hinit, rfl⟩ := ht
  exact inv_make hinit backpressure

end WritePath

end Amio
