import Helm.Framework.System
import Helm.Framework.Word

/-! # StagingPool

  The pool of staging buffers that reads and writes copy through. Buffers
  are slots with a reference count; their byte storage is committed on first
  use and replaced when a request needs more. Free slots are kept on a list
  sorted by committed capacity, from which `acquire` picks the best fit.

  Every method runs under the pool mutex. An `acquire` that finds no buffer
  either appends a slot and retries, still under the mutex, or waits; the
  wait changes nothing, so it does not appear in the model, and a caller that
  times out leaves the pool as it was.

  The invariant `PoolInv` says what the free list is; `acquire_spec` says
  which buffer a caller gets.
-/

namespace Amio

open LTS

/-! ## Section 1: Model -/

/-- `StagingBuffer`. -/
structure StagingBuffer where
  /-- The committed storage. Blocks are named in the order they were
      allocated; `none` is the null pointer. -/
  data : Option Nat := none
  capacity_bytes : Nat := 0
  used_bytes : Nat := 0
  ref_count : Nat := 0
  /-- A 64-bit counter of acquisitions. -/
  seq : Nat := 0
  deriving DecidableEq

/-- `StagingPool::GrowMode`. -/
inductive GrowMode
  | Bounded | Grow
  deriving DecidableEq

def kMaxBufferCount : Nat := 4096

def kMaxBufferCapacity : Nat := 1073741824

/-- The arguments of the constructor, with its assertions. -/
structure StagingConfig where
  buffer_count : Nat
  buffer_capacity : Nat
  max_buffer_count : Nat
  mode : GrowMode
  count_pos : 1 ≤ buffer_count
  capacity_pos : 1 ≤ buffer_capacity
  capacity_le : buffer_capacity ≤ kMaxBufferCapacity
  count_le : buffer_count ≤ max_buffer_count
  max_le : max_buffer_count ≤ kMaxBufferCount

/-- The hard ceiling on the number of slots. -/
def StagingConfig.ceiling (cfg : StagingConfig) : Nat :=
  if cfg.mode = .Bounded then cfg.buffer_count else cfg.max_buffer_count

/-- `StagingPool`. -/
structure StagingPool where
  buffers : List StagingBuffer
  /-- Indices of the free buffers, by ascending capacity. -/
  free_list : List Nat
  max_buffer_count : Nat
  buffer_capacity : Nat
  grow_mode : GrowMode
  /-- How many storage blocks have been allocated. -/
  allocations : Nat

namespace StagingPool

/-- Buffer `i`. -/
def buf (s : StagingPool) (i : Nat) : StagingBuffer := s.buffers.getD i {}

/-- The committed capacity of buffer `i`. -/
def cap (s : StagingPool) (i : Nat) : Nat := (s.buf i).capacity_bytes

/-- Replace buffer `i`. -/
def set_buf (s : StagingPool) (i : Nat) (b : StagingBuffer) : StagingPool :=
  { s with buffers := s.buffers.set i b }

/-- Pass A of `find_best_fit`: committed and large enough. -/
def fits (s : StagingPool) (required_bytes i : Nat) : Bool :=
  (s.buf i).data.isSome && s.cap i ≥ required_bytes

/-- `find_best_fit`: a position on the free list, or its length. -/
def find_best_fit (s : StagingPool) (required_bytes : Nat) : Nat :=
  match s.free_list.findIdx? (s.fits required_bytes) with
  | some i => i
  | none =>
    match s.free_list.findIdx? fun i => (s.buf i).data.isNone with
    | some i => i
    | none => if s.free_list ≠ [] then s.free_list.length - 1 else s.free_list.length

/-- The size `ensure_storage` provisions. -/
def target (s : StagingPool) (required_bytes : Nat) : Nat :=
  if required_bytes > s.buffer_capacity then required_bytes else s.buffer_capacity

/-- `ensure_storage`. -/
def ensure_storage (s : StagingPool) (i required_bytes : Nat) : StagingPool :=
  if (s.buf i).data.isSome ∧ s.cap i ≥ s.target required_bytes then s
  else
    { s.set_buf i { s.buf i with
        data := some s.allocations, capacity_bytes := s.target required_bytes } with
      allocations := s.allocations + 1 }

/-- `remove_from_free_list`, for the buffer at the given position. -/
def remove_from_free_list (s : StagingPool) (free_idx : Nat) : StagingPool :=
  let i := s.free_list.getD free_idx 0
  { s.set_buf i { s.buf i with ref_count := 1, seq := Word.add 64 (s.buf i).seq 1 } with
    free_list := s.free_list.eraseIdx free_idx }

/-- Append a fresh slot. -/
def grow (s : StagingPool) : StagingPool :=
  { s with buffers := s.buffers ++ [{}], free_list := s.free_list ++ [s.buffers.length] }

/-- The loop of `acquire` up to the point where it takes a buffer or waits. -/
def find_slot (s : StagingPool) (required_bytes : Nat) : Nat → StagingPool × Option Nat
  | 0 => (s, none)
  | fuel + 1 =>
    if s.find_best_fit required_bytes < s.free_list.length then
      (s, some (s.find_best_fit required_bytes))
    else if s.grow_mode = .Grow ∧ s.buffers.length < s.max_buffer_count then
      s.grow.find_slot required_bytes fuel
    else (s, none)

/-- `acquire`, without the wait: the index of the buffer handed out, or `none`
    where the code waits and finally returns the null pointer. The slot found
    in the second iteration at the latest is taken. -/
def acquire (s : StagingPool) (required_bytes : Nat) : StagingPool × Option Nat :=
  match s.find_slot required_bytes 2 with
  | (s, none) => (s, none)
  | (s, some idx) =>
    let i := s.free_list.getD idx 0
    ((s.ensure_storage i required_bytes).remove_from_free_list idx, some i)

/-- What is left of `acquire` when the allocation in `ensure_storage` throws. -/
def acquire_failed (s : StagingPool) (required_bytes : Nat) : StagingPool :=
  (s.find_slot required_bytes 2).1

/-- `std::lower_bound` by capacity, followed by the insertion. -/
def insert_free (s : StagingPool) (i : Nat) : List Nat :=
  s.free_list.takeWhile (fun a => s.cap a < s.cap i) ++
    i :: s.free_list.dropWhile fun a => s.cap a < s.cap i

/-- `release`, for a buffer with a positive reference count. -/
def release (s : StagingPool) (i : Nat) : StagingPool :=
  if (s.buf i).ref_count = 1 then
    { s.set_buf i { s.buf i with ref_count := 0, used_bytes := 0 } with
      free_list := s.insert_free i }
  else s.set_buf i { s.buf i with ref_count := (s.buf i).ref_count - 1 }

/-- `add_ref`, for a buffer with a positive reference count. -/
def add_ref (s : StagingPool) (i : Nat) : StagingPool :=
  s.set_buf i { s.buf i with ref_count := (s.buf i).ref_count + 1 }

/-- The accessors `total_buffer_count` and `free_buffer_count`. -/
def total_buffer_count (s : StagingPool) : Nat := s.buffers.length

def free_buffer_count (s : StagingPool) : Nat := s.free_list.length

/-- The buffers somebody holds a reference to. -/
def in_use_count (s : StagingPool) : Nat := s.buffers.countP (·.ref_count > 0)

end StagingPool

/-- A freshly constructed pool. The constructor sorts a list of equal
    capacities, which leaves the order open. -/
def PoolInit (cfg : StagingConfig) (s : StagingPool) : Prop :=
  s.buffers = List.replicate cfg.buffer_count {} ∧
  s.free_list.Perm (List.range cfg.buffer_count) ∧
  s.max_buffer_count = cfg.ceiling ∧ s.buffer_capacity = cfg.buffer_capacity ∧
  s.grow_mode = cfg.mode

/-- The operations on a pool. The caller's obligation to hold a reference,
    asserted by the code, is a guard. -/
inductive PoolLabel
  | acquire (required_bytes : Nat)
  | acquire_failed (required_bytes : Nat)
  | add_ref (i : Nat)
  | release (i : Nat)

def StagingPool.next (s : StagingPool) : PoolLabel → Option StagingPool
  | .acquire required_bytes => some (s.acquire required_bytes).1
  | .acquire_failed required_bytes => some (s.acquire_failed required_bytes)
  | .add_ref i => if 0 < (s.buf i).ref_count then some (s.add_ref i) else none
  | .release i => if 0 < (s.buf i).ref_count then some (s.release i) else none

/-- Any sequence of operations on a fresh pool. -/
def poolSystem (cfg : StagingConfig) : System StagingPool PoolLabel :=
  .ofNext (PoolInit cfg) StagingPool.next

/-! ## Section 2: Buffers -/

namespace StagingPool

variable {s : StagingPool} {i j : Nat}

theorem buf_set_buf (hi : i < s.buffers.length) (b : StagingBuffer) (j : Nat) :
    (s.set_buf i b).buf j = if j = i then b else s.buf j := by
  simp only [buf, set_buf, List.getD_eq_getElem?_getD, List.getElem?_set]
  by_cases hj : j = i
  · simp [hj, hi]
  · simp [hj, Ne.symm hj]

theorem buf_grow (j : Nat) : s.grow.buf j = s.buf j := by
  simp only [buf, grow, List.getD_eq_getElem?_getD, List.getElem?_append]
  split
  · rfl
  · next hlt =>
    rw [List.getElem?_eq_none (not_lt.mp hlt)]
    cases h : j - s.buffers.length <;> simp

theorem buf_of_le (h : s.buffers.length ≤ i) : s.buf i = {} := by
  simp [buf, List.getD_eq_getElem?_getD, List.getElem?_eq_none h]

theorem lt_of_ref_count (h : 0 < (s.buf i).ref_count) : i < s.buffers.length := by
  by_contra hle
  rw [buf_of_le (not_lt.mp hle)] at h
  exact absurd h (lt_irrefl 0)

end StagingPool

/-! ## Section 3: The invariant -/

/-- The free list is the set of unreferenced buffers, sorted by capacity; a
    committed buffer has at least the nominal capacity. -/
structure PoolInv (s : StagingPool) : Prop where
  nodup : s.free_list.Nodup
  free_iff : ∀ i, i ∈ s.free_list ↔ i < s.buffers.length ∧ (s.buf i).ref_count = 0
  sorted : s.free_list.Pairwise fun i j => s.cap i ≤ s.cap j
  committed : ∀ i, (s.buf i).data.isSome → s.buffer_capacity ≤ s.cap i
  uncommitted : ∀ i, (s.buf i).data.isNone → s.cap i = 0
  size : s.buffers.length ≤ s.max_buffer_count

theorem pool_inv_init {cfg : StagingConfig} {s : StagingPool} (h : PoolInit cfg s) : PoolInv s := by
  obtain ⟨hbuf, hfree, hmax, -, -⟩ := h
  have hdefault : ∀ i, s.buf i = {} := fun i => by
    rw [StagingPool.buf, hbuf, List.getD_eq_getElem?_getD, List.getElem?_replicate]
    split <;> rfl
  have hlen : s.buffers.length = cfg.buffer_count := by rw [hbuf, List.length_replicate]
  refine ⟨hfree.nodup_iff.mpr List.nodup_range, fun i => ?_, ?_, fun i hi => ?_, fun i _ => ?_, ?_⟩
  · rw [hfree.mem_iff, List.mem_range, hdefault, hlen]; simp
  · simp [StagingPool.cap, hdefault, List.pairwise_of_forall]
  · rw [hdefault] at hi; cases hi
  · rw [StagingPool.cap, hdefault]
  · rw [hlen, hmax, StagingConfig.ceiling]
    split
    · exact le_rfl
    · exact cfg.count_le

/-! ## Section 4: Which buffer is found -/

namespace StagingPool

variable {s : StagingPool}

theorem le_target (s : StagingPool) (required : Nat) :
    required ≤ s.target required ∧ s.buffer_capacity ≤ s.target required := by
  unfold target
  split <;> omega

/-- **`find_best_fit`** finds the smallest committed buffer that is large
    enough, and any other free buffer only when there is none. -/
theorem find_best_fit_spec (h : PoolInv s) (required : Nat) (hne : s.free_list ≠ []) :
    ∃ i, s.free_list[s.find_best_fit required]? = some i ∧
      ∀ j ∈ s.free_list, s.fits required j → s.fits required i ∧ s.cap i ≤ s.cap j := by
  unfold find_best_fit
  cases hA : s.free_list.findIdx? (s.fits required) with
  | some idx =>
    obtain ⟨hlt, hfit, hfirst⟩ := List.findIdx?_eq_some_iff_getElem.mp hA
    refine ⟨s.free_list[idx], List.getElem?_eq_getElem hlt, fun j hj hjfit => ⟨hfit, ?_⟩⟩
    obtain ⟨k, hk, rfl⟩ := List.getElem_of_mem hj
    -- an earlier position does not fit, a later one is not smaller
    rcases lt_trichotomy k idx with hki | rfl | hki
    · exact absurd hjfit (by simpa using hfirst k hki)
    · exact le_rfl
    · exact List.pairwise_iff_getElem.mp h.sorted idx k hlt hk hki
  | none =>
    have hnofit : ∀ j ∈ s.free_list, ¬ s.fits required j := fun j hj => by
      simpa using List.findIdx?_eq_none_iff.mp hA j hj
    have hsome : ∀ idx, idx < s.free_list.length → ∃ i, s.free_list[idx]? = some i ∧
        ∀ j ∈ s.free_list, s.fits required j → s.fits required i ∧ s.cap i ≤ s.cap j :=
      fun idx hlt => ⟨_, List.getElem?_eq_getElem hlt, fun j hj hfit => absurd hfit (hnofit j hj)⟩
    cases hB : s.free_list.findIdx? fun i => (s.buf i).data.isNone with
    | some idx =>
      exact hsome idx (List.findIdx?_eq_some_iff_getElem.mp hB).1
    | none =>
      simp only
      rw [if_pos hne]
      have hlen := List.length_pos_iff.mpr hne
      exact hsome _ (by omega)

theorem find_best_fit_lt (h : PoolInv s) (required : Nat) (hne : s.free_list ≠ []) :
    s.find_best_fit required < s.free_list.length := by
  obtain ⟨i, hi, -⟩ := find_best_fit_spec h required hne
  exact (List.getElem?_eq_some_iff.mp hi).1

theorem find_best_fit_nil (required : Nat) (h : s.free_list = []) :
    ¬ s.find_best_fit required < s.free_list.length := by
  simp [find_best_fit, h]

/-! ### Growth -/

theorem grow_inv (h : PoolInv s) (hempty : s.free_list = [])
    (hroom : s.buffers.length < s.max_buffer_count) : PoolInv s.grow := by
  have hcap : ∀ i, s.grow.cap i = s.cap i := fun i => by rw [cap, buf_grow, cap]
  have hlen : s.grow.buffers.length = s.buffers.length + 1 := by simp [grow]
  have hfree : s.grow.free_list = [s.buffers.length] := by simp [grow, hempty]
  refine ⟨by simp [hfree], fun i => ?_, by simp [hfree], fun i hi => ?_, fun i hi => ?_, ?_⟩
  · have hnone := h.free_iff i
    rw [hempty] at hnone
    rw [hfree, List.mem_singleton, hlen, buf_grow]
    constructor
    · rintro rfl
      exact ⟨Nat.lt_succ_self _, by rw [buf_of_le le_rfl]⟩
    · rintro ⟨hlt, hzero⟩
      by_contra hne
      exact absurd (hnone.mpr ⟨by omega, hzero⟩) List.not_mem_nil
  · rw [hcap]; rw [buf_grow] at hi; exact h.committed i hi
  · rw [hcap]; rw [buf_grow] at hi; exact h.uncommitted i hi
  · rw [hlen]; exact hroom

theorem find_slot_cases (h : PoolInv s) (required fuel : Nat) :
    (s.free_list ≠ [] ∧ s.find_slot required (fuel + 2) =
      (s, some (s.find_best_fit required))) ∨
    (s.free_list = [] ∧ ¬ (s.grow_mode = .Grow ∧ s.buffers.length < s.max_buffer_count) ∧
      s.find_slot required (fuel + 2) = (s, none)) ∨
    (s.free_list = [] ∧ (s.grow_mode = .Grow ∧ s.buffers.length < s.max_buffer_count) ∧
      s.find_slot required (fuel + 2) = (s.grow, some (s.grow.find_best_fit required))) := by
  by_cases hempty : s.free_list = []
  · have hmiss := find_best_fit_nil required hempty
    by_cases hgrow : s.grow_mode = .Grow ∧ s.buffers.length < s.max_buffer_count
    · have hfound := find_best_fit_lt (grow_inv h hempty hgrow.2) required (by simp [grow])
      refine .inr (.inr ⟨hempty, hgrow, ?_⟩)
      rw [find_slot, if_neg hmiss, if_pos hgrow, find_slot, if_pos hfound]
    · refine .inr (.inl ⟨hempty, hgrow, ?_⟩)
      rw [find_slot, if_neg hmiss, if_neg hgrow]
  · refine .inl ⟨hempty, ?_⟩
    rw [find_slot, if_pos (find_best_fit_lt h required hempty)]

/-! ### Handing out -/

/-- Buffer `i` after `ensure_storage`. -/
def provisioned (s : StagingPool) (i required : Nat) : StagingBuffer :=
  if (s.buf i).data.isSome ∧ s.cap i ≥ s.target required then s.buf i
  else { s.buf i with data := some s.allocations, capacity_bytes := s.target required }

theorem ensure_storage_buf {i : Nat} (hi : i < s.buffers.length) (required j : Nat) :
    (s.ensure_storage i required).buf j = if j = i then s.provisioned i required else s.buf j := by
  unfold ensure_storage provisioned
  split
  · split
    · next hj => rw [hj]
    · rfl
  · exact buf_set_buf hi _ j

theorem ensure_storage_frame (s : StagingPool) (i required : Nat) :
    (s.ensure_storage i required).free_list = s.free_list ∧
    (s.ensure_storage i required).buffers.length = s.buffers.length ∧
    (s.ensure_storage i required).max_buffer_count = s.max_buffer_count ∧
    (s.ensure_storage i required).buffer_capacity = s.buffer_capacity := by
  unfold ensure_storage
  split
  · exact ⟨rfl, rfl, rfl, rfl⟩
  · exact ⟨rfl, List.length_set, rfl, rfl⟩

theorem provisioned_spec (h : PoolInv s) (i required : Nat) :
    (s.provisioned i required).data.isSome ∧
    required ≤ (s.provisioned i required).capacity_bytes ∧
    s.buffer_capacity ≤ (s.provisioned i required).capacity_bytes ∧
    (s.fits required i → s.provisioned i required = s.buf i) := by
  have htarget := s.le_target required
  unfold provisioned
  split
  · next hok =>
    exact ⟨hok.1, htarget.1.trans hok.2, htarget.2.trans hok.2, fun _ => rfl⟩
  · next hnot =>
    refine ⟨rfl, htarget.1, htarget.2, fun hfit => absurd ?_ hnot⟩
    simp only [fits, Bool.and_eq_true, decide_eq_true_eq] at hfit
    have := h.committed i hfit.1
    refine ⟨hfit.1, ?_⟩
    unfold target
    split
    · exact hfit.2
    · exact this

/-- The pool after the buffer at position `idx` has been handed out. -/
def hand_out (s : StagingPool) (idx required : Nat) : StagingPool :=
  (s.ensure_storage (s.free_list.getD idx 0) required).remove_from_free_list idx

/-- The buffer that is handed out. -/
def handed (s : StagingPool) (i required : Nat) : StagingBuffer :=
  { s.provisioned i required with
    ref_count := 1, seq := Word.add 64 (s.provisioned i required).seq 1 }

section HandOut

variable {i idx required : Nat}

theorem hand_out_buf (h : PoolInv s) (hidx : s.free_list[idx]? = some i) (j : Nat) :
    (s.hand_out idx required).buf j = if j = i then s.handed i required else s.buf j := by
  have hi : i < s.buffers.length := ((h.free_iff i).mp (List.mem_of_getElem? hidx)).1
  have hget : s.free_list.getD idx 0 = i := by simp [List.getD_eq_getElem?_getD, hidx]
  obtain ⟨hfree, hlen, -⟩ := ensure_storage_frame s i required
  unfold hand_out remove_from_free_list
  rw [hget]
  simp only [hfree, hget]
  refine (buf_set_buf (hlen ▸ hi) _ j).trans ?_
  rw [ensure_storage_buf hi, if_pos rfl, ensure_storage_buf hi]
  by_cases hj : j = i
  · simp [hj, handed]
  · simp [hj]

theorem hand_out_frame (s : StagingPool) (idx required : Nat) :
    (s.hand_out idx required).free_list = s.free_list.eraseIdx idx ∧
    (s.hand_out idx required).buffers.length = s.buffers.length ∧
    (s.hand_out idx required).max_buffer_count = s.max_buffer_count ∧
    (s.hand_out idx required).buffer_capacity = s.buffer_capacity := by
  obtain ⟨hfree, hlen, hmax, hcap⟩ := ensure_storage_frame s (s.free_list.getD idx 0) required
  unfold hand_out remove_from_free_list
  refine ⟨by simp only [hfree], ?_, hmax, hcap⟩
  simp only [set_buf, List.length_set, hlen]

theorem hand_out_inv (h : PoolInv s) (hidx : s.free_list[idx]? = some i) :
    PoolInv (s.hand_out idx required) := by
  obtain ⟨hfree, hlen, hmax, hnom⟩ := hand_out_frame s idx required
  have hbuf : ∀ j, (s.hand_out idx required).buf j =
      if j = i then s.handed i required else s.buf j := hand_out_buf h hidx
  obtain ⟨hsome, -, hcapge, -⟩ := provisioned_spec h i required
  have hlt := (List.getElem?_eq_some_iff.mp hidx).1
  have hi : s.free_list[idx] = i := (List.getElem?_eq_some_iff.mp hidx).2
  have hkeep : ∀ j, j ∈ s.free_list.eraseIdx idx ↔ j ∈ s.free_list ∧ j ≠ i := fun j => by
    rw [List.mem_eraseIdx_iff_getElem]
    constructor
    · rintro ⟨m, hm, hne, rfl⟩
      exact ⟨List.getElem_mem hm,
        fun heq => hne ((h.nodup.getElem_inj_iff).mp (heq.trans hi.symm))⟩
    · rintro ⟨hj, hne⟩
      obtain ⟨m, hm, rfl⟩ := List.getElem_of_mem hj
      exact ⟨m, hm, by rintro rfl; exact hne hi, rfl⟩
  refine ⟨?_, fun j => ?_, ?_, fun j hj => ?_, fun j hj => ?_, by rw [hlen, hmax]; exact h.size⟩
  · rw [hfree]; exact h.nodup.sublist (List.eraseIdx_sublist _ _)
  · rw [hfree, hkeep, h.free_iff, hlen, hbuf]
    by_cases hj : j = i
    · simp [hj, handed]
    · simp [hj]
  · rw [hfree]
    refine (h.sorted.sublist (List.eraseIdx_sublist _ _)).imp_of_mem fun {a b} ha hb hab => ?_
    have hane : a ≠ i := ((hkeep a).mp ha).2
    have hbne : b ≠ i := ((hkeep b).mp hb).2
    simpa only [cap, hbuf, if_neg hane, if_neg hbne] using hab
  · rw [hnom, cap, hbuf]
    rw [hbuf] at hj
    by_cases hji : j = i
    · rw [if_pos hji]; exact hcapge
    · rw [if_neg hji] at hj ⊢; exact h.committed j hj
  · rw [cap, hbuf]
    rw [hbuf] at hj
    by_cases hji : j = i
    · rw [if_pos hji] at hj
      simp only [handed, Option.isNone_iff_eq_none] at hj
      rw [hj] at hsome
      cases hsome
    · rw [if_neg hji] at hj ⊢; exact h.uncommitted j hj

end HandOut

/-! ## Section 5: One specification per operation -/

/-- What a caller gets from **`acquire`**: a buffer nobody holds, taken from
    the free list or freshly appended, with enough capacity; the smallest
    committed one that is large enough, with its storage as it was, if there
    is one. All other buffers are left alone. -/
structure Acquired (s s' : StagingPool) (required i : Nat) : Prop where
  fresh : i ∈ s.free_list ∨ (s.free_list = [] ∧ i = s.buffers.length)
  unused : (s.buf i).ref_count = 0
  referenced : (s'.buf i).ref_count = 1
  large : required ≤ s'.cap i
  best : ∀ j ∈ s.free_list, (s.buf j).data.isSome → required ≤ s.cap j →
    i ∈ s.free_list ∧ (s.buf i).data.isSome ∧ required ≤ s.cap i ∧ s.cap i ≤ s.cap j ∧
      (s'.buf i).data = (s.buf i).data ∧ s'.cap i = s.cap i
  others : ∀ j, j ≠ i → s'.buf j = s.buf j

theorem hand_out_acquired (h : PoolInv s) (required : Nat) (hne : s.free_list ≠ []) :
    ∃ i, s.free_list[s.find_best_fit required]? = some i ∧ i ∈ s.free_list ∧
      Acquired s (s.hand_out (s.find_best_fit required) required) required i := by
  obtain ⟨i, hidx, hbest⟩ := find_best_fit_spec h required hne
  have hmem := List.mem_of_getElem? hidx
  have hbuf : ∀ j, (s.hand_out (s.find_best_fit required) required).buf j =
      if j = i then s.handed i required else s.buf j := hand_out_buf h hidx
  have hself : (s.hand_out (s.find_best_fit required) required).buf i = s.handed i required := by
    rw [hbuf, if_pos rfl]
  obtain ⟨-, hlarge, -, hsame⟩ := provisioned_spec h i required
  refine ⟨i, hidx, hmem, .inl hmem, ((h.free_iff i).mp hmem).2, ?_, ?_, ?_, fun j hj => ?_⟩
  · rw [hself]; rfl
  · rw [cap, hself]; exact hlarge
  · intro j hj hdata hcap
    obtain ⟨hfit, hle⟩ := hbest j hj (by simp [fits, hdata, hcap])
    have heq := hsame hfit
    simp only [fits, Bool.and_eq_true, decide_eq_true_eq] at hfit
    refine ⟨hmem, hfit.1, hfit.2, hle, ?_, ?_⟩
    · rw [hself, handed, heq]
    · rw [cap, hself, handed, heq]; rfl
  · rw [hbuf, if_neg hj]

theorem acquire_eq_hand_out {idx i : Nat} {t : StagingPool} {required : Nat}
    (hfind : s.find_slot required 2 = (t, some idx)) (hidx : t.free_list[idx]? = some i) :
    s.acquire required = (t.hand_out idx required, some i) := by
  have hget : t.free_list.getD idx 0 = i := by simp [List.getD_eq_getElem?_getD, hidx]
  unfold acquire hand_out
  rw [hfind]
  simp only [hget]

/-- **`acquire`** keeps the invariant, and hands out a buffer as specified or
    leaves the pool alone. -/
theorem acquire_spec (h : PoolInv s) (required : Nat) :
    PoolInv (s.acquire required).1 ∧
    (s.acquire required = (s, none) ∨
      ∃ i, (s.acquire required).2 = some i ∧ Acquired s (s.acquire required).1 required i) := by
  rcases find_slot_cases h required 0 with ⟨hne, hfind⟩ | ⟨-, -, hfind⟩ | ⟨hempty, ⟨-, hroom⟩, hfind⟩
  · obtain ⟨i, hidx, -, hacq⟩ := hand_out_acquired h required hne
    rw [acquire_eq_hand_out hfind hidx]
    exact ⟨hand_out_inv h hidx, .inr ⟨i, rfl, hacq⟩⟩
  · have hnone : s.acquire required = (s, none) := by rw [acquire, hfind]
    rw [hnone]
    exact ⟨h, .inl rfl⟩
  · have hgrown := grow_inv h hempty hroom
    obtain ⟨i, hidx, hmem, hacq⟩ := hand_out_acquired hgrown required (by simp [grow])
    have hi : i = s.buffers.length := by simpa [grow, hempty] using hmem
    rw [acquire_eq_hand_out hfind hidx]
    refine ⟨hand_out_inv hgrown hidx, .inr ⟨i, rfl, .inr ⟨hempty, hi⟩, ?_, hacq.referenced,
      hacq.large, fun j hj => ?_, fun j hj => ?_⟩⟩
    · rw [hi, buf_of_le le_rfl]
    · rw [hempty] at hj; exact absurd hj List.not_mem_nil
    · rw [hacq.others j hj, buf_grow]

theorem acquire_failed_spec (h : PoolInv s) (required : Nat) :
    PoolInv (s.acquire_failed required) ∧ ∀ j, (s.acquire_failed required).buf j = s.buf j := by
  unfold acquire_failed
  rcases find_slot_cases h required 0 with ⟨-, hfind⟩ | ⟨-, -, hfind⟩ | ⟨hempty, ⟨-, hroom⟩, hfind⟩
  · rw [hfind]; exact ⟨h, fun _ => rfl⟩
  · rw [hfind]; exact ⟨h, fun _ => rfl⟩
  · rw [hfind]; exact ⟨grow_inv h hempty hroom, buf_grow⟩

theorem set_in_use_inv {i : Nat} {b : StagingBuffer} (h : PoolInv s)
    (hi : 0 < (s.buf i).ref_count) (hb : 0 < b.ref_count) (hdata : b.data = (s.buf i).data)
    (hcap : b.capacity_bytes = s.cap i) : PoolInv (s.set_buf i b) := by
  have hbuf := buf_set_buf (lt_of_ref_count hi) b
  have hdata' : ∀ j, ((s.set_buf i b).buf j).data = (s.buf j).data := fun j => by
    rw [hbuf]
    split
    · next hj => rw [hj, hdata]
    · rfl
  have hcap' : ∀ j, (s.set_buf i b).cap j = s.cap j := fun j => by
    rw [cap, hbuf]
    split
    · next hj => rw [hj, hcap]
    · rfl
  refine ⟨h.nodup, fun j => ?_, ?_, fun j hj => ?_, fun j hj => ?_, ?_⟩
  · refine (h.free_iff j).trans ?_
    rw [hbuf, set_buf, List.length_set]
    by_cases hj : j = i
    · subst hj
      simp only [if_pos]
      omega
    · simp [hj]
  · exact h.sorted.imp fun {a b} hab => by rw [hcap', hcap']; exact hab
  · rw [hcap']; rw [hdata'] at hj; exact h.committed j hj
  · rw [hcap']; rw [hdata'] at hj; exact h.uncommitted j hj
  · simpa [set_buf] using h.size

theorem insert_free_perm (s : StagingPool) (i : Nat) : (s.insert_free i).Perm (i :: s.free_list) := by
  unfold insert_free
  refine List.perm_middle.trans (List.Perm.cons i ?_)
  rw [List.takeWhile_append_dropWhile]

theorem insert_free_sorted {i : Nat} (h : s.free_list.Pairwise fun a b => s.cap a ≤ s.cap b) :
    (s.insert_free i).Pairwise fun a b => s.cap a ≤ s.cap b := by
  unfold insert_free
  have hsmall : ∀ a ∈ s.free_list.takeWhile (fun a => s.cap a < s.cap i), s.cap a < s.cap i :=
    fun a ha => by simpa using List.mem_takeWhile_imp ha
  have hlarge : ∀ b ∈ s.free_list.dropWhile (fun a => s.cap a < s.cap i), s.cap i ≤ s.cap b := by
    intro b hb
    cases hdrop : s.free_list.dropWhile (fun a => s.cap a < s.cap i) with
    | nil => rw [hdrop] at hb; exact absurd hb List.not_mem_nil
    | cons c rest =>
      have hc : ¬ s.cap c < s.cap i := by
        have := List.head_dropWhile_not (fun a => decide (s.cap a < s.cap i)) (l := s.free_list)
          (by rw [hdrop]; exact List.cons_ne_nil _ _)
        simp only [hdrop, List.head_cons] at this
        simpa using this
      have hsorted : (c :: rest).Pairwise fun a b => s.cap a ≤ s.cap b :=
        hdrop ▸ h.sublist (List.dropWhile_sublist _)
      rw [hdrop] at hb
      rcases List.mem_cons.mp hb with rfl | hb
      · exact not_lt.mp hc
      · exact (not_lt.mp hc).trans ((List.pairwise_cons.mp hsorted).1 b hb)
  rw [List.pairwise_append]
  refine ⟨h.sublist (List.takeWhile_sublist _), List.pairwise_cons.mpr
    ⟨hlarge, h.sublist (List.dropWhile_sublist _)⟩, fun a ha b hb => ?_⟩
  rcases List.mem_cons.mp hb with rfl | hb
  · exact (hsmall a ha).le
  · exact (hsmall a ha).le.trans (hlarge b hb)

/-- **`release`** drops one reference; the last one returns the buffer to the
    free list. -/
theorem release_spec {i : Nat} (h : PoolInv s) (hi : 0 < (s.buf i).ref_count) :
    PoolInv (s.release i) ∧ ((s.release i).buf i).ref_count = (s.buf i).ref_count - 1 ∧
      ((s.release i).buf i).data = (s.buf i).data ∧ (s.release i).cap i = s.cap i ∧
      (∀ j, j ≠ i → (s.release i).buf j = s.buf j) := by
  have hlt := lt_of_ref_count hi
  unfold release
  split
  · next hone =>
    have hbuf : ∀ j, ({ s.set_buf i { s.buf i with ref_count := 0, used_bytes := 0 } with
        free_list := s.insert_free i } : StagingPool).buf j =
        if j = i then { s.buf i with ref_count := 0, used_bytes := 0 } else s.buf j :=
      buf_set_buf hlt _
    have hcap : ∀ j, ({ s.set_buf i { s.buf i with ref_count := 0, used_bytes := 0 } with
        free_list := s.insert_free i } : StagingPool).cap j = s.cap j := fun j => by
      rw [cap, hbuf, cap]
      split
      · next hj => rw [hj]
      · rfl
    have hdata : ∀ j, (({ s.set_buf i { s.buf i with ref_count := 0, used_bytes := 0 } with
        free_list := s.insert_free i } : StagingPool).buf j).data = (s.buf j).data := fun j => by
      rw [hbuf]
      split
      · next hj => rw [hj]
      · rfl
    have hperm := insert_free_perm s i
    have hnew : i ∉ s.free_list := fun hmem => by
      have := ((h.free_iff i).mp hmem).2
      omega
    refine ⟨⟨?_, fun j => ?_, ?_, fun j hj => ?_, fun j hj => ?_, ?_⟩, ?_, hdata i, hcap i,
      fun j hj => by rw [hbuf, if_neg hj]⟩
    · exact hperm.nodup_iff.mpr (List.nodup_cons.mpr ⟨hnew, h.nodup⟩)
    · rw [hperm.mem_iff, List.mem_cons, h.free_iff, hbuf]
      simp only [set_buf, List.length_set]
      by_cases hj : j = i
      · simp [hj, hlt]
      · simp [hj]
    · exact (insert_free_sorted h.sorted).imp fun {a b} hab => by rw [hcap, hcap]; exact hab
    · rw [hcap]; rw [hdata] at hj; exact h.committed j hj
    · rw [hcap]; rw [hdata] at hj; exact h.uncommitted j hj
    · simpa [set_buf] using h.size
    · rw [hbuf, if_pos rfl, hone]
  · next hone =>
    have hbuf := buf_set_buf hlt { s.buf i with ref_count := (s.buf i).ref_count - 1 }
    refine ⟨set_in_use_inv h hi (by simp only; omega) rfl rfl, ?_, ?_, ?_, fun j hj => by rw [hbuf, if_neg hj]⟩
    · rw [hbuf, if_pos rfl]
    · rw [hbuf, if_pos rfl]
    · rw [cap, hbuf, if_pos rfl]; rfl

theorem add_ref_spec {i : Nat} (h : PoolInv s) (hi : 0 < (s.buf i).ref_count) :
    PoolInv (s.add_ref i) ∧ ((s.add_ref i).buf i).ref_count = (s.buf i).ref_count + 1 ∧
      ((s.add_ref i).buf i).data = (s.buf i).data ∧ (s.add_ref i).cap i = s.cap i ∧
      (∀ j, j ≠ i → (s.add_ref i).buf j = s.buf j) := by
  have hbuf := buf_set_buf (lt_of_ref_count hi)
    { s.buf i with ref_count := (s.buf i).ref_count + 1 }
  refine ⟨set_in_use_inv h hi (Nat.succ_pos _) rfl rfl, ?_, ?_, ?_, fun j hj => ?_⟩
  · rw [add_ref, hbuf, if_pos rfl]
  · rw [add_ref, hbuf, if_pos rfl]
  · rw [add_ref, cap, hbuf, if_pos rfl]; rfl
  · rw [add_ref, hbuf, if_neg hj]

end StagingPool

/-! ## Section 6: Runs -/

theorem pool_inv_step {s s' : StagingPool} {l : PoolLabel} (h : PoolInv s)
    (hstep : s.next l = some s') : PoolInv s' := by
  cases l with
  | acquire required =>
    cases hstep
    exact (s.acquire_spec h required).1
  | acquire_failed required =>
    cases hstep
    exact (s.acquire_failed_spec h required).1
  | add_ref i =>
    simp only [StagingPool.next] at hstep
    split at hstep
    · next hi => cases hstep; exact (StagingPool.add_ref_spec h hi).1
    · cases hstep
  | release i =>
    simp only [StagingPool.next] at hstep
    split at hstep
    · next hi => cases hstep; exact (StagingPool.release_spec h hi).1
    · cases hstep

theorem max_buffer_count_step {s s' : StagingPool} {l : PoolLabel} (h : PoolInv s)
    (hstep : s.next l = some s') : s'.max_buffer_count = s.max_buffer_count := by
  have hfind : ∀ required, (s.find_slot required 2).1.max_buffer_count = s.max_buffer_count :=
    fun required => by
      rcases StagingPool.find_slot_cases h required 0 with ⟨-, hf⟩ | ⟨-, -, hf⟩ | ⟨-, -, hf⟩
      · rw [hf]
      · rw [hf]
      · rw [hf]; rfl
  cases l with
  | acquire required =>
    cases hstep
    unfold StagingPool.acquire
    have := hfind required
    rcases hres : s.find_slot required 2 with ⟨t, _ | idx⟩
    · rw [hres] at this; exact this
    · rw [hres] at this
      exact (StagingPool.hand_out_frame t idx required).2.2.1.trans this
  | acquire_failed required => cases hstep; exact hfind required
  | add_ref i =>
    simp only [StagingPool.next] at hstep
    split at hstep
    · cases hstep; rfl
    · cases hstep
  | release i =>
    simp only [StagingPool.next] at hstep
    split at hstep
    · cases hstep
      unfold StagingPool.release
      split <;> rfl
    · cases hstep

theorem pool_inv_reachable {cfg : StagingConfig} {s : StagingPool}
    (hr : (poolSystem cfg).Reachable s) : PoolInv s ∧ s.max_buffer_count = cfg.ceiling := by
  refine hr.invariant (P := fun s => PoolInv s ∧ s.max_buffer_count = cfg.ceiling)
    (fun t ht => ?_) fun t l t' _ h hstep => ?_
  · have ht : PoolInit cfg t := ht
    exact ⟨pool_inv_init ht, ht.2.2.1⟩
  · exact ⟨pool_inv_step h.1 hstep, (max_buffer_count_step h.1 hstep).trans h.2⟩

/-- A buffer in use keeps its storage through every step, and an `acquire`
    does not hand it out. -/
theorem in_use_untouched {s s' : StagingPool} {l : PoolLabel} (h : PoolInv s)
    (hstep : s.next l = some s') {i : Nat} (hi : 0 < (s.buf i).ref_count) :
    (s'.buf i).data = (s.buf i).data ∧ s'.cap i = s.cap i ∧
    ∀ required, l = .acquire required → (s.acquire required).2 ≠ some i := by
  cases l with
  | acquire required =>
    cases hstep
    rcases (s.acquire_spec h required).2 with hnone | ⟨j, hj, hacq⟩
    · rw [hnone]
      refine ⟨rfl, rfl, fun r hr => ?_⟩
      cases hr
      rw [hnone]
      simp
    · have hij : i ≠ j := by
        rintro rfl
        rw [hacq.unused] at hi
        exact absurd hi (lt_irrefl 0)
      refine ⟨by rw [hacq.others i hij], by rw [StagingPool.cap, hacq.others i hij]; rfl,
        fun r hr => ?_⟩
      cases hr
      rw [hj]
      simpa using Ne.symm hij
  | acquire_failed required =>
    cases hstep
    have := (s.acquire_failed_spec h required).2 i
    exact ⟨by rw [this], by rw [StagingPool.cap, this]; rfl, fun r hr => by cases hr⟩
  | add_ref j =>
    simp only [StagingPool.next] at hstep
    split at hstep
    · next hj =>
      cases hstep
      obtain ⟨-, -, hdata, hcap, hothers⟩ := StagingPool.add_ref_spec h hj
      by_cases hij : i = j
      · subst hij; exact ⟨hdata, hcap, fun r hr => by cases hr⟩
      · exact ⟨by rw [hothers i hij], by rw [StagingPool.cap, hothers i hij]; rfl,
          fun r hr => by cases hr⟩
    · cases hstep
  | release j =>
    simp only [StagingPool.next] at hstep
    split at hstep
    · next hj =>
      cases hstep
      obtain ⟨-, -, hdata, hcap, hothers⟩ := StagingPool.release_spec h hj
      by_cases hij : i = j
      · subst hij; exact ⟨hdata, hcap, fun r hr => by cases hr⟩
      · exact ⟨by rw [hothers i hij], by rw [StagingPool.cap, hothers i hij]; rfl,
          fun r hr => by cases hr⟩
    · cases hstep

theorem PoolInv.free_add_in_use {s : StagingPool} (h : PoolInv s) :
    s.free_buffer_count + s.in_use_count = s.total_buffer_count := by
  have hperm : s.free_list.Perm
      ((List.range s.buffers.length).filter fun i => (s.buf i).ref_count = 0) := by
    refine (List.perm_ext_iff_of_nodup h.nodup (List.nodup_range.filter _)).mpr fun i => ?_
    rw [h.free_iff, List.mem_filter, List.mem_range, decide_eq_true_eq]
  have hbuf : s.buffers = (List.range s.buffers.length).map s.buf := by
    refine List.ext_getElem (by simp) fun i h₁ h₂ => ?_
    simp [StagingPool.buf, List.getD_eq_getElem?_getD, List.getElem?_eq_getElem h₁]
  have hcount : s.in_use_count =
      (List.range s.buffers.length).countP fun i => (s.buf i).ref_count > 0 := by
    rw [StagingPool.in_use_count]
    conv_lhs => rw [hbuf]
    rw [List.countP_map]
    rfl
  have hsplit := List.length_eq_countP_add_countP (fun i => decide ((s.buf i).ref_count = 0))
    (l := List.range s.buffers.length)
  have hpos : (List.range s.buffers.length).countP
      (fun i => decide (¬ decide ((s.buf i).ref_count = 0) = true)) =
      (List.range s.buffers.length).countP fun i => (s.buf i).ref_count > 0 :=
    List.countP_congr fun i _ => by simp [Nat.pos_iff_ne_zero]
  rw [StagingPool.free_buffer_count, StagingPool.total_buffer_count, hperm.length_eq,
    ← List.countP_eq_length_filter, hcount]
  rw [hpos, List.length_range] at hsplit
  omega

/-- Two slots of sixteen bytes, at most three. -/
def smallStaging : StagingConfig :=
  ⟨2, 16, 3, .Grow, by decide, by decide, by decide, by decide, by decide⟩

end Amio
