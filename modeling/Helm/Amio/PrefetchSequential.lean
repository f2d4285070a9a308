import Helm.Amio.PrefetchSelection
import Helm.Framework.Liveness
import Helm.Framework.Signed

/-! # A sequential reader

  One thread reads the timesteps of a variable in order with one selection,
  as `amio_read` does: it calls `get_buffer` for a timestep and, once it has
  the buffer, `schedule_next`. The fetches of the worker pool succeed, and no
  wait times out.

  * **The window**: the timesteps that are pending or completed are those
    from the position of the reader up to a frontier (`frontier`), which is
    never more than the depth ahead. The frontier is where the next fetch
    is scheduled, so no timestep is left out or fetched twice.
  * **Safety** (`Sound`): an invariant of every run.
  * **Progress**: in a fair run every timestep is delivered.

  The timesteps are `int64_t`. `schedule_next` adds the depth to the
  timestep before it compares, so the code is undefined when the last
  timestep is closer to the end of the type than the depth.
-/

namespace Amio

/-! ## Section 1: Model -/

deriving instance DecidableEq for Method

/-- The queue, and the timesteps that the driver has read. -/
structure SequentialRead (n : Nat) where
  queue : PrefetchQueue n
  fetched : List Int

namespace PrefetchQueue

variable {n : Nat}

/-- The timestep that the driver has read. -/
def read_by (s : PrefetchQueue n) : QueueLabel n → Option Int
  | .read i (some _) => ((s.threads i).fetch).map Fetch.timestep
  | _ => none

/-- The next timestep of the reader. -/
def position (s : PrefetchQueue n) (first : Int) : Int := first + s.deliveries.length

/-- The next call of the reader. It reads while there are timesteps. -/
def reader_call (s : PrefetchQueue n) (c : Fin n) (first : Int) (bbox : Option AmioBbox) :
    Option Method :=
  match (s.threads c).caller with
  | .idle none =>
    if s.position first < s.total_timesteps then some (.get_buffer (s.position first) bbox) else none
  | .idle (some (.ok _)) => some (.schedule_next (s.position first - 1))
  | _ => none

/-- The arithmetic of a call is defined. -/
def Defined (s : PrefetchQueue n) : Method → Prop
  | .get_buffer timestep _ => s.kicked_off = true ∨ Signed.Fits 64 (s.total_timesteps - timestep)
  | .schedule_next timestep => Signed.Fits 64 (timestep + s.depth)
  | _ => True

/-- The payload that the driver reports fits the buffer of thread `i`. -/
def payload_fits (s : PrefetchQueue n) (i : Fin n) (used_bytes : Nat) : Bool :=
  match (s.threads i).fetch with
  | some (.reading _ b) => used_bytes ≤ s.pool.cap b
  | _ => true

/-- The steps of a sequential reader `c` and of fetches that succeed. -/
def sequential (c : Fin n) (first : Int) (bbox : Option AmioBbox) (s : PrefetchQueue n) :
    QueueLabel n → Bool
  | .call i method => i = c ∧ s.reader_call c first bbox = some method
  | .schedule _ dropped => !dropped
  | .wake _ timed_out => !timed_out
  | .run i _ => i ≠ c
  | .acquire_timeout _ => false
  | .acquire_throw _ => false
  | .read i (some used_bytes) => s.payload_fits i used_bytes
  | .read _ none => false
  | _ => true

end PrefetchQueue

namespace SequentialRead

variable {n : Nat}

open PrefetchQueue

def next (r : SequentialRead n) (l : QueueLabel n) : Option (SequentialRead n) :=
  (r.queue.next l).map fun queue => ⟨queue, r.fetched ++ (r.queue.read_by l).toList⟩

/-- A reader and a new queue with a worker pool. -/
def start (depth : Nat) (total_timesteps : Int) (info : VariableInfo) (pool : StagingPool) :
    SequentialRead n :=
  ⟨make depth total_timesteps info true pool, []⟩

/-- Thread `c` reads from timestep `first` on; the other threads are the
    workers. -/
def system (n : Nat) (c : Fin n) (first : Int) (bbox : Option AmioBbox) :
    LTS.System (SequentialRead n) (QueueLabel n) :=
  (LTS.System.ofNext (fun r => ∃ depth total_timesteps info cfg pool,
    PoolInit cfg pool ∧ r = start depth total_timesteps info pool) next).restrict
      fun r l => r.queue.sequential c first bbox l = true

/-- **What a sequential reader may rely on.** -/
structure Sound (c : Fin n) (first : Int) (bbox : Option AmioBbox) (r : SequentialRead n) : Prop where
  in_order : r.queue.deliveries.map (·.timestep) = window first r.queue.deliveries.length
  once : r.fetched.Nodup
  inside : ∀ t ∈ r.fetched, first ≤ t ∧ t < r.queue.total_timesteps
  delivered : ∀ d ∈ r.queue.deliveries, d.timestep ∈ r.fetched
  /-- The timesteps pending, and completed but not read. -/
  outstanding : r.queue.pending.size + r.queue.completed.entries.length ≤ r.queue.depth
  defined : ∀ method, r.queue.reader_call c first bbox = some method → r.queue.Defined method

/-- Every timestep to be read, plus the depth, is an `int64_t`. -/
def InRange (first : Int) (q : PrefetchQueue n) : Prop :=
  first < q.total_timesteps → Signed.Fits 64 first ∧
    Signed.Fits 64 (q.total_timesteps - first) ∧ Signed.Fits 64 (q.total_timesteps - 1 + q.depth)

/-- Every timestep has been read, and delivered in its turn. -/
def Complete (first : Int) (r : SequentialRead n) : Prop :=
  r.fetched.Perm (window first (r.queue.total_timesteps - first)) ∧
    r.queue.deliveries.map (·.timestep) = window first (r.queue.total_timesteps - first)

/-- While there are timesteps to read the reader takes steps, and every fetch
    that is under way ends. -/
structure Fair {c : Fin n} {first : Int} {bbox : Option AmioBbox}
    (e : (system n c first bbox).Execution) : Prop where
  reader : ∀ i, (e.state i).queue.position first < (e.state i).queue.total_timesteps →
    ∃ j, i ≤ j ∧ thread_of (e.label j) = some c
  fetches : ∀ i, ∀ t ∈ (e.state i).queue.tokens, ∃ j, i ≤ j ∧ t ∉ (e.state j).queue.tokens

end SequentialRead

/-! ## Section 2: Windows -/

namespace PrefetchQueue

variable {n : Nat} {first count t : Int}

theorem window_eq : window first count = (List.range count.toNat).map fun k : Nat => first + k := by
  simp [window, List.map_eq_flatMap, List.flatMap_assoc]

theorem window_of_nonpos (h : count ≤ 0) : window first count = [] := by
  rw [window_eq, Int.toNat_of_nonpos h]
  rfl

theorem window_cons (h : 0 < count) : window first count = first :: window (first + 1) (count - 1) := by
  have hcount : count.toNat = (count - 1).toNat + 1 := by omega
  rw [window_eq, window_eq, hcount, List.range_succ_eq_map, List.map_cons, List.map_map]
  congr 1
  · exact Int.add_zero first
  · apply List.map_congr_left
    intro k _
    show first + ((k + 1 : Nat) : Int) = first + 1 + k
    omega

theorem window_snoc (h : 0 ≤ count) : window first (count + 1) = window first count ++ [first + count] := by
  have hcount : (count + 1).toNat = count.toNat + 1 := by omega
  rw [window_eq, window_eq, hcount, List.range_succ, List.map_append, List.map_singleton]
  congr 2
  omega

theorem length_window : (window first count).length = count.toNat := by
  rw [window_eq, List.length_map, List.length_range]

theorem nodup_window : (window first count).Nodup := by
  rw [window_eq]
  apply List.nodup_range.map
  intro j k hjk
  have heq : first + (j : Int) = first + (k : Int) := hjk
  omega

theorem mem_window : t ∈ window first count ↔ first ≤ t ∧ t < first + count := by
  rw [window_eq, List.mem_map]
  constructor
  · intro ⟨k, hk, ht⟩
    rw [List.mem_range] at hk
    omega
  · intro ⟨hlow, hhigh⟩
    exact ⟨(t - first).toNat, List.mem_range.mpr (by omega), by omega⟩

/-! ## Section 3: The invariant -/

/-- Where the next fetch is scheduled. -/
def frontier (s : PrefetchQueue n) (c : Fin n) (first : Int) : Int :=
  if s.kicked_off = false then s.position first
  else
    match (s.threads c).caller with
    | .scheduling todo _ =>
      min (s.position first + s.depth) s.total_timesteps - todo.length
    | .idle (some _) => min (s.position first - 1 + s.depth) s.total_timesteps
    | _ => min (s.position first + s.depth) s.total_timesteps

theorem frontier_of_scheduling {s : PrefetchQueue n} {c : Fin n} (hkick : s.kicked_off = true)
    {todo : List Int} {cont : Continuation} (h : (s.threads c).caller = .scheduling todo cont) :
    s.frontier c first = min (s.position first + s.depth) s.total_timesteps - todo.length := by
  rw [frontier, hkick, h, if_neg (by decide)]

/-- Where the reader stands. -/
def AtCaller (s : PrefetchQueue n) (c : Fin n) (first : Int) (bbox : Option AmioBbox) :
    Caller → Prop
  | .idle none => s.kicked_off = true ∨ s.deliveries = []
  | .idle (some (.ok _)) => s.kicked_off = true ∧ s.deliveries ≠ []
  | .idle (some (.error _)) => False
  | .scheduling todo (.check t b) =>
    s.kicked_off = true ∧ s.deliveries = [] ∧ t = s.position first ∧ b = bbox ∧
      t < s.total_timesteps ∧ todo = window (s.frontier c first) todo.length ∧
      s.position first ≤ s.frontier c first
  | .scheduling todo .done =>
    s.kicked_off = true ∧ todo = window (s.frontier c first) todo.length ∧
      s.position first ≤ s.frontier c first
  | .scheduling _ _ => False
  | .waiting t b => s.kicked_off = true ∧ t = s.position first ∧ b = bbox ∧ t < s.total_timesteps

/-- A fetch that goes well. -/
def Succeeds (f : Fetch) (bbox : Option AmioBbox) : Prop :=
  f.task.sel = bbox ∧ (∀ task b, f ≠ .discarding task b) ∧ ∀ task e, f ≠ .failing task e

/-- What holds between the steps of the reader. -/
structure Steady (c : Fin n) (bbox : Option AmioBbox) (s : PrefetchQueue n) : Prop where
  has_workers : s.has_workers = true
  depth_pos : 1 ≤ s.depth
  cancelled : s.cancelled = false
  no_failure : ∀ t, s.failed.lookup t = none
  others_idle : ∀ i, i ≠ c → (s.threads i).caller = .idle none
  reader_free : s.fetch_of c = none
  /-- Everything is fetched with the one selection. -/
  latched : s.kicked_off = true → s.latched_bbox = bbox
  sel_tasks : ∀ task ∈ s.tasks, task.sel = bbox
  sel_fetch : ∀ i f, s.fetch_of i = some f → Succeeds f bbox
  sel_stored : ∀ t b, s.completed.lookup t = some b → s.fetched_bbox.lookup t = bbox
  /-- A pending timestep has a fetch. -/
  pending_tokens : ∀ t ∈ s.pending, t ∈ s.tokens

/-- **The reader and its window.** -/
structure Sequenced (c : Fin n) (first : Int) (bbox : Option AmioBbox) (s : PrefetchQueue n) :
    Prop where
  inv : s.Inv
  steady : s.Steady c bbox
  position_le : s.kicked_off = true → s.position first ≤ s.total_timesteps
  in_order : s.deliveries.map (·.timestep) = window first s.deliveries.length
  caller : s.AtCaller c first bbox (s.threads c).caller
  tracked : ∀ t, s.tracked t = true ↔ s.position first ≤ t ∧ t < s.frontier c first

/-- The timestep that a fetch has read and not reported. -/
def filled_timestep : Fetch → Option Int
  | .filled task _ => some task.timestep
  | _ => none

/-- Some fetch has read the timestep. -/
def Unreported (s : PrefetchQueue n) (t : Int) : Prop :=
  ∃ i, (s.fetch_of i).bind filled_timestep = some t

/-- **The timesteps read** are those delivered, completed or about to be. -/
structure Fetched (first : Int) (s : PrefetchQueue n) (fetched : List Int) : Prop where
  nodup : fetched.Nodup
  mem_iff : ∀ t, t ∈ fetched ↔ (first ≤ t ∧ t < s.position first) ∨
    (s.completed.lookup t).isSome = true ∨ s.Unreported t

theorem bbox_same_self (bbox : Option AmioBbox) : bbox_same bbox bbox = true := by
  cases bbox with
  | none => rfl
  | some b => simp [bbox_same]

/-! ### The reader -/

section Reader

variable {s s' : PrefetchQueue n} {c i : Fin n} {bbox : Option AmioBbox}

@[simp] theorem caller_set_caller (s : PrefetchQueue n) (c : Fin n) (caller : Caller) :
    ((s.set_caller c caller).threads c).caller = caller := by
  simp [set_caller]

theorem caller_set_caller_of_ne (caller : Caller) (h : i ≠ c) :
    ((s.set_caller c caller).threads i).caller = (s.threads i).caller := by
  simp [set_caller, Function.update_of_ne h]

theorem tracked_iff : s.tracked t = true ↔ t ∈ s.pending ∨ (s.completed.lookup t).isSome = true ∨
    (s.failed.lookup t).isSome = true := by
  simp [tracked]

theorem Steady.tracked_iff (h : s.Steady c bbox) :
    s.tracked t = true ↔ t ∈ s.pending ∨ (s.completed.lookup t).isSome = true := by
  rw [PrefetchQueue.tracked_iff, h.no_failure t]
  simp

theorem Steady.set_caller (h : s.Steady c bbox) (caller : Caller) :
    (s.set_caller c caller).Steady c bbox where
  has_workers := h.has_workers
  depth_pos := h.depth_pos
  cancelled := h.cancelled
  no_failure := h.no_failure
  others_idle := fun i hi => (caller_set_caller_of_ne caller hi).trans (h.others_idle i hi)
  reader_free := by
    rw [fetch_of_set_caller]
    exact h.reader_free
  latched := h.latched
  sel_tasks := h.sel_tasks
  sel_fetch := by
    rw [fetch_of_set_caller]
    exact h.sel_fetch
  sel_stored := h.sel_stored
  pending_tokens := by
    have htok : (s.set_caller c caller).tokens = s.tokens :=
      tokens_congr rfl (fetch_of_set_caller s c caller)
    rw [htok]
    exact h.pending_tokens

/-- The end of a round of `get_buffer`: return the buffer if it is there. -/
def receive (s : PrefetchQueue n) (c : Fin n) (t : Int) (bbox : Option AmioBbox) :
    PrefetchQueue n :=
  match s.completed.lookup t with
  | some b => { s.deliver c t bbox b with fetched_bbox := s.fetched_bbox.erase t }
  | none => s.set_caller c (.waiting t bbox)

theorem Steady.get_loop_eq (h : s.Steady c bbox) : s.get_loop c t bbox = s.receive c t bbox := by
  unfold get_loop receive
  cases hb : s.completed.lookup t with
  | some b =>
    show (if bbox_same (s.fetched_bbox.lookup t) bbox = true then _ else _) = _
    rw [h.sel_stored t b hb, bbox_same_self, if_pos rfl]
  | none =>
    show s.get_rest c t bbox = _
    rw [get_rest, h.no_failure t]
    show (if s.cancelled = true then _ else _) = _
    rw [h.cancelled, if_neg (by decide)]

theorem Steady.get_check_eq (h : s.Steady c bbox) (ht : s.tracked t = true) :
    s.get_check c t bbox = s.receive c t bbox := by
  rw [get_check, h.no_failure t]
  show (match s.completed.lookup t with
    | some b => if bbox_same (s.fetched_bbox.lookup t) bbox = true then _ else _
    | none => s.get_wait c t bbox) = _
  cases hb : s.completed.lookup t with
  | some b =>
    rw [h.sel_stored t b hb, bbox_same_self]
    show (if true = true then _ else _) = _
    rw [if_pos rfl, receive, hb]
  | none =>
    -- the fetch is under way
    have hpending : t ∈ s.pending := by
      rcases h.tracked_iff.mp ht with hp | hc
      · exact hp
      · rw [hb] at hc
        cases hc
    show s.get_wait c t bbox = _
    rw [get_wait, if_neg (not_not.mpr hpending), h.get_loop_eq]

/-- What a window of the reader is when all of it has been scheduled. -/
def Scheduled (s : PrefetchQueue n) (first : Int) : Prop :=
  ∀ t, s.tracked t = true ↔
    s.position first ≤ t ∧ t < min (s.position first + s.depth) s.total_timesteps

theorem position_deliver {b : Nat} {fetched : OrdMap Int AmioBbox} :
    position { s.deliver c t bbox b with fetched_bbox := fetched } first = s.position first + 1 := by
  show first + ((s.deliveries ++ [_]).length : Int) = first + s.deliveries.length + 1
  rw [List.length_append, List.length_singleton]
  omega

/-- **One round of `get_buffer`.** -/
theorem Sequenced.receive (hinv : (s.receive c (s.position first) bbox).Inv) (hs : s.Inv)
    (h : s.Steady c bbox) (hkick : s.kicked_off = true)
    (horder : s.deliveries.map (·.timestep) = window first s.deliveries.length)
    (hlt : s.position first < s.total_timesteps) (hwindow : s.Scheduled first) :
    (s.receive c (s.position first) bbox).Sequenced c first bbox := by
  unfold PrefetchQueue.receive at hinv ⊢
  cases hb : s.completed.lookup (s.position first) with
  | none =>
    rw [hb] at hinv
    refine ⟨hinv, h.set_caller _, fun _ => hlt.le, horder, ?_, ?_⟩
    · rw [caller_set_caller]
      exact ⟨hkick, rfl, rfl, hlt⟩
    · intro t
      rw [frontier, caller_set_caller]
      show s.tracked t = true ↔ _ ∧ t < if s.kicked_off = false then _ else _
      rw [hkick, if_neg (by decide)]
      exact hwindow t
  | some b =>
    rw [hb] at hinv
    have hsteady : Steady c bbox { s.deliver c (s.position first) bbox b with
        fetched_bbox := s.fetched_bbox.erase (s.position first) } :=
      { h.set_caller (.idle (some (.ok b))) with
        sel_stored := by
          intro t b' hb'
          obtain ⟨hne, hold⟩ := OrdMap.lookup_erase_eq_some.mp hb'
          show (s.fetched_bbox.erase (s.position first)).lookup t = bbox
          rw [OrdMap.lookup_erase, if_neg hne]
          exact h.sel_stored t b' hold }
    have hposition : position { s.deliver c (s.position first) bbox b with
        fetched_bbox := s.fetched_bbox.erase (s.position first) } first = s.position first + 1 :=
      position_deliver
    refine ⟨hinv, hsteady, fun _ => ?_, ?_, ?_, ?_⟩
    · rw [hposition]
      exact hlt
    · show (s.deliveries ++ [_]).map (fun d : Delivery => d.timestep) =
        window first ((s.deliveries ++ [_]).length : Nat)
      rw [List.map_append, horder, List.length_append, List.length_singleton, Nat.cast_succ,
        window_snoc (by omega)]
      rfl
    · show AtCaller _ c first bbox ((s.set_caller c (.idle (some (.ok b)))).threads c).caller
      rw [caller_set_caller]
      exact ⟨hkick, List.append_ne_nil_of_right_ne_nil _ (List.cons_ne_nil _ _)⟩
    · intro t
      have hfrontier : frontier { s.deliver c (s.position first) bbox b with
          fetched_bbox := s.fetched_bbox.erase (s.position first) } c first =
          min (s.position first + s.depth) s.total_timesteps := by
        rw [frontier, hposition]
        show (if s.kicked_off = false then _ else
          match ((s.set_caller c (.idle (some (.ok b)))).threads c).caller with
          | .scheduling _ _ => _
          | .idle (some _) => min (s.position first + 1 - 1 + s.depth) s.total_timesteps
          | _ => _) = _
        rw [hkick, if_neg (by decide), caller_set_caller, Int.add_sub_cancel]
      have hold := (hwindow t).symm.trans h.tracked_iff
      rw [hsteady.tracked_iff, hposition, hfrontier]
      show t ∈ s.pending ∨ ((s.completed.erase (s.position first)).lookup t).isSome = true ↔ _
      rw [OrdMap.lookup_erase]
      have hfresh : s.position first ∉ s.pending := by
        intro hp
        have hnone := (hs.tables.pending_fresh _ hp).1
        rw [hb] at hnone
        cases hnone
      by_cases ht : t = s.position first
      · rw [if_pos ht, ht]
        constructor
        · intro hc
          rcases hc with hc | hc
          · exact absurd hc hfresh
          · cases hc
        · intro hc
          omega
      · rw [if_neg ht, ← hold]
        omega

end Reader

/-! ## Section 4: Steps beside the reader -/

section Beside

variable {s s' : PrefetchQueue n} {c i : Fin n} {bbox : Option AmioBbox} {l : QueueLabel n}

/-- **What the others do** while fetches succeed: the workers, and the users of
    the staging pool. -/
inductive Beside (bbox : Option AmioBbox) (s : PrefetchQueue n) :
    QueueLabel n → PrefetchQueue n → Prop
  /-- A worker begins a fetch. -/
  | run {i : Fin n} {k : Nat} {task : FetchTask} (hf : s.fetch_of i = none)
      (hk : s.tasks[k]? = some task) :
      Beside bbox s (.run i k)
        { s.set_fetch i (some (.entering task)) with tasks := s.tasks.eraseIdx k }
  /-- A fetch goes on, and has nothing to report yet. -/
  | move {i : Fin n} {l : QueueLabel n} {f f' : Fetch} {pool : StagingPool}
      (hf : s.fetch_of i = some f) (htask : f'.task = f.task) (hgood : Succeeds f' bbox)
      (hbefore : ∀ task b, f ≠ .filled task b) (hafter : ∀ task b, f' ≠ .filled task b)
      (hread : s.read_by l = none) : Beside bbox s l { s.set_fetch i (some f') with pool }
  /-- The driver returns. -/
  | read {i : Fin n} {task : FetchTask} {b used_bytes : Nat} {pool : StagingPool}
      {contents : Nat → Option (Int × Option BoundingBox)}
      (hf : s.fetch_of i = some (.reading task b)) :
      Beside bbox s (.read i (some used_bytes))
        { s.set_fetch i (some (.filled task b)) with pool, contents }
  /-- A fetch reports. -/
  | finish {i : Fin n} {task : FetchTask} {b : Nat} (hf : s.fetch_of i = some (.filled task b)) :
      Beside bbox s (.finish i) (s.mark_complete i task b)
  /-- The staging pool is used. -/
  | user {l : QueueLabel n} {pool : StagingPool} {handed others : List Nat}
      {contents : Nat → Option (Int × Option BoundingBox)} {released_twice : Bool}
      (hl : thread_of l = none) :
      Beside bbox s l { s with pool, handed, others, contents, released_twice }

theorem read_by_of_user (hl : thread_of l = none) : s.read_by l = none := by
  cases l <;> first | rfl | cases hl

/-- A fetch that succeeds goes on towards its report. -/
theorem Steady.fetch_step (h : s.Steady c bbox) (hl : thread_of l = some i) {f : Fetch}
    (hf : s.fetch_of i = some f) (hok : s.sequential c first bbox l = true)
    (hstep : s.fetch_step i f l = some s') : Beside bbox s l s' := by
  have hgood := h.sel_fetch i f hf
  unfold PrefetchQueue.fetch_step at hstep
  split at hstep
  -- enter
  · split at hstep
    · next task =>
      rw [h.cancelled, if_neg (by decide)] at hstep
      cases hl
      cases hstep
      have hmove : Beside bbox s (.enter i) { s.set_fetch i (some (.acquiring task)) with
          pool := s.pool } :=
        .move hf rfl ⟨hgood.1, by simp, by simp⟩ (by simp) (by simp) rfl
      exact hmove
    · cases hstep
  -- acquire
  · split at hstep
    · split at hstep
      · cases hstep
        exact .move hf rfl ⟨hgood.1, by simp, by simp⟩ (by simp) (by simp) rfl
      · cases hstep
    · cases hstep
  · cases hok
  · cases hok
  -- read
  · split at hstep
    · next j task b used_bytes =>
      cases hl
      cases hstep
      -- the payload fits the buffer
      have hfits : used_bytes ≤ s.pool.cap b := by
        have hfetch : (s.threads i).fetch = some (.reading task b) := hf
        simpa [sequential, payload_fits, hfetch] using hok
      rw [read_returned, if_neg]
      · exact .read hf
      · rw [not_lt]
        exact hfits.trans_eq (StagingPool.cap_set_used_bytes ..).symm
    · cases hok
    · cases hstep
  -- discard
  · split at hstep
    · exact absurd rfl (hgood.2.1 _ _)
    · cases hstep
  -- finish
  · split at hstep
    · cases hl
      cases hstep
      exact .finish hf
    · exact absurd rfl (hgood.2.2 _ _)
    · cases hstep
  · cases hstep

/-- **Whose step it is**: one of the reader, or one beside it. -/
theorem Steady.next_cases (h : s.Steady c bbox) (hok : s.sequential c first bbox l = true)
    (hstep : s.next l = some s') :
    (thread_of l = some c ∧ s.caller_step c (s.threads c).caller l = some s') ∨
      (thread_of l ≠ some c ∧ Beside bbox s l s') := by
  unfold next at hstep
  split at hstep
  · next i hi =>
    rw [hi]
    split at hstep
    · next f hf =>
      refine .inr ⟨?_, h.fetch_step hi hf hok hstep⟩
      intro hc
      cases hc
      rw [show (s.threads c).fetch = none from h.reader_free] at hf
      cases hf
    · next hf =>
      by_cases hc : i = c
      · subst hc
        exact .inl ⟨rfl, hstep⟩
      · -- a thread that is in no call can only begin a fetch
        refine .inr ⟨fun h => hc (Option.some.inj h), ?_⟩
        rw [h.others_idle i hc] at hstep
        unfold caller_step at hstep
        split at hstep
        · cases hi
          simp [sequential, hc] at hok
        · cases hstep
        · cases hstep
        · cases hstep
        · split at hstep
          · next hk =>
            cases hi
            cases hstep
            exact .run hf hk
          · cases hstep
        · cases hstep
  · next hi =>
    have hne : thread_of l ≠ some c := by
      rw [hi]
      exact Option.some_ne_none c |>.symm
    refine .inr ⟨hne, ?_⟩
    split at hstep
    · obtain ⟨-, hstep⟩ := Option.ite_none_right_eq_some.mp hstep
      cases hstep
      exact .user rfl
    · split at hstep
      · cases hstep
        exact .user rfl
      · cases hstep
    · obtain ⟨-, hstep⟩ := Option.ite_none_right_eq_some.mp hstep
      cases hstep
      exact .user rfl
    · cases hstep

theorem caller_set_fetch (s : PrefetchQueue n) (i j : Fin n) (fetch : Option Fetch) :
    ((s.set_fetch i fetch).threads j).caller = (s.threads j).caller := by
  by_cases hj : j = i
  · subst hj
    simp [set_fetch]
  · simp [set_fetch, Function.update_of_ne hj]

theorem Beside.caller_eq (h : Beside bbox s l s') (j : Fin n) :
    (s'.threads j).caller = (s.threads j).caller := by
  cases h with
  | run hf hk => exact caller_set_fetch s _ j _
  | move hf htask hgood hbefore hafter hread => exact caller_set_fetch s _ j _
  | read hf => exact caller_set_fetch s _ j _
  | finish hf => exact caller_set_fetch s _ j _
  | user hl => rfl

theorem Beside.same (h : Beside bbox s l s') : s'.deliveries = s.deliveries ∧
    s'.kicked_off = s.kicked_off ∧ s'.total_timesteps = s.total_timesteps ∧ s'.depth = s.depth := by
  cases h <;> exact ⟨rfl, rfl, rfl, rfl⟩

theorem Steady.sel_update (h : s.Steady c bbox) {f : Option Fetch}
    (hf : ∀ f', f = some f' → Succeeds f' bbox) :
    ∀ j f', Function.update s.fetch_of i f j = some f' → Succeeds f' bbox := by
  intro j f' hj
  by_cases hji : j = i
  · subst hji
    rw [Function.update_self] at hj
    exact hf f' hj
  · rw [Function.update_of_ne hji] at hj
    exact h.sel_fetch j f' hj

theorem Steady.reader_update (h : s.Steady c bbox) {f : Fetch} (hf : s.fetch_of i = some f)
    (f' : Option Fetch) : Function.update s.fetch_of i f' c = none := by
  have hne : c ≠ i := by
    intro hc
    rw [← hc, h.reader_free] at hf
    cases hf
  rw [Function.update_of_ne hne]
  exact h.reader_free

theorem tokens_of_same {f f' : Fetch} (hf : s.fetch_of i = some f) (htask : f'.task = f.task)
    (hfetch : s'.fetch_of = Function.update s.fetch_of i (some f')) (htasks : s'.tasks = s.tasks) :
    s'.tokens = s.tokens := by
  rw [tokens, tokens, htasks, hfetch, held_times_same hf f' htask]

theorem tokens_run (s : PrefetchQueue n) {k : Nat} {task : FetchTask} (hf : s.fetch_of i = none)
    (hk : s.tasks[k]? = some task) {t : Int} : t ∈ ({ s.set_fetch i (some (.entering task)) with
      tasks := s.tasks.eraseIdx k } : PrefetchQueue n).tokens ↔ t ∈ s.tokens := by
  have hlt : k < s.tasks.length := (List.getElem?_eq_some_iff.mp hk).1
  have hget : s.tasks[k] = task := (List.getElem?_eq_some_iff.mp hk).2
  have hperm : s.tasks.Perm (task :: s.tasks.eraseIdx k) := by
    rw [← hget]
    exact (List.getElem_cons_eraseIdx_perm hlt).symm
  have hfetch : ({ s.set_fetch i (some (.entering task)) with
      tasks := s.tasks.eraseIdx k } : PrefetchQueue n).fetch_of =
      Function.update s.fetch_of i (some (.entering task)) := fetch_of_set_fetch ..
  rw [tokens, tokens, hfetch, List.mem_append, List.mem_append,
    (held_times_begin hf (.entering task)).mem_iff, (hperm.map _).mem_iff, List.map_cons,
    List.mem_cons, List.mem_cons]
  show t ∈ (s.tasks.eraseIdx k).map _ ∨ t = task.timestep ∨ _ ↔ _
  tauto

theorem tokens_finish {task : FetchTask} {b : Nat} (hf : s.fetch_of i = some (.filled task b)) :
    s.tokens.Perm (task.timestep :: (s.mark_complete i task b).tokens) := by
  have hfetch : (s.mark_complete i task b).fetch_of = Function.update s.fetch_of i none :=
    fetch_of_set_fetch ..
  rw [tokens, tokens, hfetch]
  exact ((held_times_end hf).append_left _).trans List.perm_middle

theorem Steady.beside (h : s.Steady c bbox) (hne : thread_of l ≠ some c)
    (hstep : Beside bbox s l s') : s'.Steady c bbox := by
  have hothers : ∀ j, j ≠ c → (s'.threads j).caller = .idle none :=
    fun j hj => (hstep.caller_eq j).trans (h.others_idle j hj)
  cases hstep with
  | @run i k task hf hk =>
    have hfetch : ({ s.set_fetch i (some (.entering task)) with
        tasks := s.tasks.eraseIdx k } : PrefetchQueue n).fetch_of =
        Function.update s.fetch_of i (some (.entering task)) := fetch_of_set_fetch ..
    have htask : task ∈ s.tasks := List.mem_of_getElem? hk
    exact { h with
      others_idle := hothers
      reader_free := by
        have hci : c ≠ i := fun hc => hne (congrArg some hc.symm)
        rw [hfetch, Function.update_of_ne hci]
        exact h.reader_free
      sel_tasks := fun t ht => h.sel_tasks t (List.mem_of_mem_eraseIdx ht)
      sel_fetch := by
        rw [hfetch]
        apply h.sel_update
        intro f' hf'
        cases hf'
        exact ⟨h.sel_tasks task htask, by simp, by simp⟩
      pending_tokens := fun t ht => (tokens_run s hf hk).mpr (h.pending_tokens t ht) }
  | @move i l f f' pool hf htask hgood hbefore hafter hread =>
    have hfetch : ({ s.set_fetch i (some f') with pool } : PrefetchQueue n).fetch_of =
        Function.update s.fetch_of i (some f') := fetch_of_set_fetch ..
    exact { h with
      others_idle := hothers
      reader_free := hfetch ▸ h.reader_update hf _
      sel_fetch := by
        rw [hfetch]
        apply h.sel_update
        intro f'' hf''
        cases hf''
        exact hgood
      pending_tokens := by
        rw [tokens_of_same hf htask hfetch rfl]
        exact h.pending_tokens }
  | @read i task b used_bytes pool contents hf =>
    have hfetch : ({ s.set_fetch i (some (.filled task b)) with
        pool, contents } : PrefetchQueue n).fetch_of =
        Function.update s.fetch_of i (some (.filled task b)) := fetch_of_set_fetch ..
    exact { h with
      others_idle := hothers
      reader_free := hfetch ▸ h.reader_update hf _
      sel_fetch := by
        rw [hfetch]
        apply h.sel_update
        intro f' hf'
        cases hf'
        exact ⟨(h.sel_fetch i _ hf).1, by simp, by simp⟩
      pending_tokens := by
        rw [tokens_of_same hf (rfl : (Fetch.filled task b).task = _) hfetch rfl]
        exact h.pending_tokens }
  | @finish i task b hf =>
    have hfetch : (s.mark_complete i task b).fetch_of = Function.update s.fetch_of i none :=
      fetch_of_set_fetch ..
    exact { h with
      others_idle := hothers
      reader_free := hfetch ▸ h.reader_update hf _
      sel_fetch := by
        rw [hfetch]
        apply h.sel_update
        intro f' hf'
        cases hf'
      sel_stored := by
        intro t b' hb'
        replace hb' : (s.completed.insert task.timestep b).lookup t = some b' := hb'
        have hsel : task.sel = bbox := (h.sel_fetch i _ hf).1
        have hlookup : (s.mark_complete i task b).fetched_bbox.lookup t =
            if t = task.timestep then bbox else s.fetched_bbox.lookup t := by
          rw [← hsel, mark_complete]
          cases task.sel with
          | some x => rw [OrdMap.lookup_insert]
          | none => rw [OrdMap.lookup_erase]
        rw [hlookup]
        rw [OrdMap.lookup_insert] at hb'
        split
        · rfl
        · next ht =>
          rw [if_neg ht] at hb'
          exact h.sel_stored t b' hb'
      pending_tokens := by
        intro t ht
        obtain ⟨ht, hnew⟩ := OrdSet.mem_erase.mp ht
        exact (List.mem_cons.mp ((tokens_finish hf).mem_iff.mp (h.pending_tokens t ht))).resolve_left
          hnew }
  | user hl =>
    exact { h with }

theorem Steady.tracked_beside (h : s.Steady c bbox) (hs : s.Inv) (hstep : Beside bbox s l s') :
    s'.tracked t = s.tracked t := by
  cases hstep with
  | run hf hk => rfl
  | move hf htask hgood hbefore hafter hread => rfl
  | read hf => rfl
  | @finish i task b hf =>
    -- from pending to completed
    have hpending : task.timestep ∈ s.pending := by
      apply hs.tables.token_pending h.cancelled
      exact (tokens_finish hf).mem_iff.mpr List.mem_cons_self
    apply Bool.eq_iff_iff.mpr
    rw [PrefetchQueue.tracked_iff, PrefetchQueue.tracked_iff]
    show t ∈ s.pending.erase task.timestep ∨
      ((s.completed.insert task.timestep b).lookup t).isSome = true ∨ _ ↔ _
    rw [OrdSet.mem_erase, OrdMap.lookup_insert]
    by_cases ht : t = task.timestep
    · rw [if_pos ht]
      simp [ht, hpending]
    · rw [if_neg ht]
      simp [ht]
      rfl
  | user hl => rfl

theorem Sequenced.beside (h : s.Sequenced c first bbox) (hinv : s'.Inv) (hne : thread_of l ≠ some c)
    (hstep : Beside bbox s l s') : s'.Sequenced c first bbox := by
  obtain ⟨hdel, hkick, htotal, hdepth⟩ := hstep.same
  have hposition : s'.position first = s.position first := by rw [position, position, hdel]
  have hcaller := hstep.caller_eq c
  have hfrontier : s'.frontier c first = s.frontier c first := by
    rw [frontier, frontier, hposition, hkick, htotal, hdepth, hcaller]
  exact
    { inv := hinv
      steady := h.steady.beside hne hstep
      position_le := by
        rw [hkick, hposition, htotal]
        exact h.position_le
      in_order := by
        rw [hdel]
        exact h.in_order
      caller := by
        have hold := h.caller
        rw [hcaller]
        unfold AtCaller at hold ⊢
        rw [hkick, hdel, hposition, htotal, hfrontier]
        exact hold
      tracked := by
        intro t
        rw [h.steady.tracked_beside h.inv hstep, hposition, hfrontier]
        exact h.tracked t }

end Beside

/-! ## Section 5: Steps of the reader -/

section ReaderSteps

variable {s s' : PrefetchQueue n} {c : Fin n} {bbox : Option AmioBbox} {l : QueueLabel n}

theorem kick_off_eq (hkick : s.kicked_off = false) : s.get_buffer c t bbox =
    { s with latched_bbox := bbox, kicked_off := true }.set_caller c
      (.scheduling (window t (min s.depth (s.total_timesteps - t))) (.check t bbox)) := by
  unfold get_buffer
  show (if s.kicked_off = true then _ else _) = _
  rw [hkick, if_neg (by decide)]

theorem Sequenced.kick_off (h : s.Sequenced c first bbox) (hkick : s.kicked_off = false)
    (hidle : (s.threads c).caller = .idle none) (hlt : s.position first < s.total_timesteps)
    (hinv : (s.get_buffer c (s.position first) bbox).Inv) :
    (s.get_buffer c (s.position first) bbox).Sequenced c first bbox := by
  let s₁ : PrefetchQueue n := { s with latched_bbox := bbox, kicked_off := true }
  let todo := window (s.position first) (min s.depth (s.total_timesteps - s.position first))
  have heq : s.get_buffer c (s.position first) bbox =
      s₁.set_caller c (.scheduling todo (.check (s.position first) bbox)) := kick_off_eq hkick
  have hlen : (todo.length : Int) = min (s.depth : Int) (s.total_timesteps - s.position first) := by
    rw [length_window]
    omega
  have hempty : s.deliveries = [] := by
    have hat := h.caller
    rw [hidle] at hat
    rcases hat with hk | hd
    · rw [hkick] at hk
      cases hk
    · exact hd
  rw [heq] at hinv ⊢
  have hfrontier : (s₁.set_caller c (.scheduling todo (.check (s.position first) bbox))).frontier
      c first = s.position first := by
    rw [frontier, caller_set_caller]
    show min (s.position first + s.depth) s.total_timesteps - (todo.length : Int) = _
    rw [hlen]
    omega
  have hsteady : s₁.Steady c bbox := { h.steady with latched := fun _ => rfl }
  refine ⟨hinv, hsteady.set_caller _, fun _ => hlt.le, h.in_order, ?_, ?_⟩
  · rw [caller_set_caller]
    refine ⟨rfl, hempty, rfl, rfl, hlt, ?_, ?_⟩
    · rw [hfrontier, hlen]
    · rw [hfrontier]
      exact le_refl _
  · intro t
    rw [hfrontier]
    show s.tracked t = true ↔ s.position first ≤ t ∧ t < s.position first
    have hold := h.tracked t
    rw [frontier, hkick, if_pos rfl] at hold
    exact hold

/-- The window moves on by one. -/
theorem Sequenced.schedule_next (h : s.Sequenced c first bbox) {b : Nat}
    (hidle : (s.threads c).caller = .idle (some (.ok b)))
    (hinv : (s.schedule_next c (s.position first - 1)).Inv) :
    (s.schedule_next c (s.position first - 1)).Sequenced c first bbox := by
  have hat := h.caller
  rw [hidle] at hat
  obtain ⟨hkick, hne⟩ := hat
  have hold : s.frontier c first = min (s.position first - 1 + s.depth) s.total_timesteps := by
    rw [frontier, hkick, hidle, if_neg (by decide)]
  have hdepth := h.steady.depth_pos
  have hle := h.position_le hkick
  unfold PrefetchQueue.schedule_next at hinv ⊢
  by_cases hend : s.position first - 1 + s.depth ≥ s.total_timesteps
  · -- the window has reached the last timestep
    rw [if_pos hend] at hinv ⊢
    refine ⟨hinv, h.steady.set_caller _, h.position_le, h.in_order, ?_, ?_⟩
    · rw [caller_set_caller]
      exact .inl hkick
    · intro t
      rw [frontier, caller_set_caller]
      show s.tracked t = true ↔ s.position first ≤ t ∧ t < if s.kicked_off = false then _ else
        min (s.position first + s.depth) s.total_timesteps
      rw [hkick, if_neg (by decide), h.tracked t, hold]
      omega
  · rw [if_neg hend] at hinv ⊢
    have hfrontier : (s.set_caller c (.scheduling [s.position first - 1 + s.depth] .done)).frontier
        c first = s.position first - 1 + s.depth := by
      rw [frontier, caller_set_caller]
      show (if s.kicked_off = false then _ else
        min (s.position first + s.depth) s.total_timesteps - ((1 : Nat) : Int)) = _
      rw [hkick, if_neg (by decide)]
      omega
    refine ⟨hinv, h.steady.set_caller _, h.position_le, h.in_order, ?_, ?_⟩
    · rw [caller_set_caller]
      refine ⟨hkick, ?_, ?_⟩
      · rw [hfrontier, window_eq]
        show _ = [s.position first - 1 + s.depth + ((0 : Nat) : Int)]
        rw [Nat.cast_zero, add_zero]
      · rw [hfrontier]
        show s.position first ≤ _
        omega
    · intro t
      rw [hfrontier]
      show s.tracked t = true ↔ s.position first ≤ t ∧ _
      rw [h.tracked t, hold]
      omega

theorem AtCaller.head {todo : List Int} {cont : Continuation}
    (hat : s.AtCaller c first bbox (.scheduling (t :: todo) cont)) :
    t = s.frontier c first ∧ todo = window (s.frontier c first + 1) todo.length ∧
      s.position first ≤ s.frontier c first ∧ s.kicked_off = true := by
  have key : t :: todo = window (s.frontier c first) (t :: todo).length →
      t = s.frontier c first ∧ todo = window (s.frontier c first + 1) todo.length := by
    intro hwin
    rw [List.length_cons, window_cons (by omega), Nat.cast_succ, Int.add_sub_cancel] at hwin
    exact ⟨(List.cons.inj hwin).1, (List.cons.inj hwin).2⟩
  cases cont with
  | done => exact ⟨(key hat.2.1).1, (key hat.2.1).2, hat.2.2, hat.1⟩
  | check t' b =>
    obtain ⟨hkick, -, -, -, -, hwin, hle⟩ := hat
    exact ⟨(key hwin).1, (key hwin).2, hle, hkick⟩
  | loop t' b => exact hat.elim
  | rest t' b => exact hat.elim

theorem Sequenced.schedule_eq (h : s.Sequenced c first bbox) {todo : List Int}
    {cont : Continuation} (hcaller : (s.threads c).caller = .scheduling (t :: todo) cont) :
    (s.set_caller c (.scheduling todo cont)).schedule_fetch c t false =
      { s.set_caller c (.scheduling todo cont) with
        pending := s.pending.insert t
        tasks := s.tasks ++ [⟨t, s.latched_bbox⟩] } := by
  have hat := h.caller
  rw [hcaller] at hat
  have hfree : s.tracked t = false := by
    apply Bool.eq_false_iff.mpr
    intro htr
    exact absurd ((h.tracked t).mp htr).2 (not_lt.mpr hat.head.1.ge)
  have hcond : ¬((s.set_caller c (.scheduling todo cont)).cancelled = true ∨
      (s.set_caller c (.scheduling todo cont)).tracked t = true) := by
    show ¬(s.cancelled = true ∨ s.tracked t = true)
    rw [h.steady.cancelled, hfree]
    decide
  rw [schedule_fetch, if_neg hcond]
  show (if s.has_workers = true then _ else _) = _
  rw [h.steady.has_workers]
  rfl

/-- **The frontier moves.** -/
theorem Sequenced.schedule (h : s.Sequenced c first bbox) {todo : List Int} {cont : Continuation}
    (hcaller : (s.threads c).caller = .scheduling (t :: todo) cont)
    (hinv : ((s.set_caller c (.scheduling todo cont)).schedule_fetch c t false).Inv) :
    ((s.set_caller c (.scheduling todo cont)).schedule_fetch c t false).Sequenced c first bbox := by
  have hat := h.caller
  rw [hcaller] at hat
  obtain ⟨ht, htodo, hle, hkick⟩ := hat.head
  let s₁ := s.set_caller c (.scheduling todo cont)
  let s₂ : PrefetchQueue n :=
    { s₁ with pending := s₁.pending.insert t, tasks := s₁.tasks ++ [⟨t, s₁.latched_bbox⟩] }
  have heq : s₁.schedule_fetch c t false = s₂ := h.schedule_eq hcaller
  rw [show (s.set_caller c (.scheduling todo cont)).schedule_fetch c t false = s₂ from heq] at hinv ⊢
  have hfrontier : s₂.frontier c first = s.frontier c first + 1 := by
    have hnew : s₂.frontier c first =
        min (s.position first + s.depth) s.total_timesteps - (todo.length : Int) :=
      frontier_of_scheduling (s := s₂) hkick (caller_set_caller s c _)
    rw [hnew, frontier_of_scheduling hkick hcaller, List.length_cons]
    omega
  have hsteady₁ := h.steady.set_caller (.scheduling todo cont)
  have hmem : ∀ t', t' ∈ s₂.tokens ↔ t' ∈ s₁.tokens ∨ t' = t := by
    intro t'
    show t' ∈ (s₁.tasks ++ [_]).map _ ++ Holders.held _ ↔ t' ∈ s₁.tasks.map _ ++ Holders.held _ ∨ _
    rw [List.map_append, List.mem_append, List.mem_append, List.mem_append, List.map_singleton,
      List.mem_singleton]
    tauto
  have hsteady : s₂.Steady c bbox :=
    { hsteady₁ with
      sel_tasks := by
        intro task htask
        rcases List.mem_append.mp htask with hold | hnew
        · exact hsteady₁.sel_tasks task hold
        · rw [List.mem_singleton.mp hnew]
          exact h.steady.latched hkick
      pending_tokens := by
        intro t' ht'
        rw [hmem]
        rcases OrdSet.mem_insert.mp ht' with hnew | hold
        · exact .inr hnew
        · exact .inl (hsteady₁.pending_tokens t' hold) }
  refine ⟨hinv, hsteady, h.position_le, h.in_order, ?_, ?_⟩
  · show s₂.AtCaller c first bbox (s₁.threads c).caller
    rw [caller_set_caller]
    cases cont with
    | done =>
      refine ⟨hkick, ?_, ?_⟩
      · rw [hfrontier]
        exact htodo
      · rw [hfrontier]
        exact hle.trans (by omega)
    | check t' b =>
      obtain ⟨-, hdel, ht', hb, hlt, -, -⟩ := hat
      refine ⟨hkick, hdel, ht', hb, hlt, ?_, ?_⟩
      · rw [hfrontier]
        exact htodo
      · rw [hfrontier]
        exact hle.trans (by omega)
    | loop t' b => exact hat.elim
    | rest t' b => exact hat.elim
  · intro t'
    rw [hfrontier, hsteady.tracked_iff]
    show t' ∈ s.pending.insert t ∨ (s.completed.lookup t').isSome = true ↔ s.position first ≤ t' ∧ _
    rw [OrdSet.mem_insert, or_assoc, ← h.steady.tracked_iff, h.tracked t', ht]
    omega

/-! ### Turns -/

/-- The reader is about to look for the buffer. -/
def Looking (s : PrefetchQueue n) (c : Fin n) (first : Int) (bbox : Option AmioBbox) : Prop :=
  s.kicked_off = true ∧ s.position first < s.total_timesteps ∧
    ((s.threads c).caller = .idle none ∨
      (s.threads c).caller = .scheduling [] (.check (s.position first) bbox) ∨
      (s.threads c).caller = .waiting (s.position first) bbox)

/-- **What the reader does.** -/
inductive Turn (c : Fin n) (first : Int) (bbox : Option AmioBbox) (s : PrefetchQueue n) :
    PrefetchQueue n → Prop
  | kick_off (hkick : s.kicked_off = false) (hidle : (s.threads c).caller = .idle none)
      (hlt : s.position first < s.total_timesteps) :
      Turn c first bbox s (s.get_buffer c (s.position first) bbox)
  /-- A round of `get_buffer`. -/
  | receive (hlook : s.Looking c first bbox) :
      Turn c first bbox s (s.receive c (s.position first) bbox)
  | next {b : Nat} (hidle : (s.threads c).caller = .idle (some (.ok b))) :
      Turn c first bbox s (s.schedule_next c (s.position first - 1))
  | schedule {t : Int} {todo : List Int} {cont : Continuation}
      (hcaller : (s.threads c).caller = .scheduling (t :: todo) cont) :
      Turn c first bbox s ((s.set_caller c (.scheduling todo cont)).schedule_fetch c t false)
  | done (hcaller : (s.threads c).caller = .scheduling [] .done) :
      Turn c first bbox s (s.set_caller c (.idle none))

theorem Sequenced.scheduled (h : s.Sequenced c first bbox) (hlook : s.Looking c first bbox) :
    s.Scheduled first := by
  obtain ⟨hkick, -, hcaller⟩ := hlook
  intro t
  rw [h.tracked t, frontier, hkick, if_neg (by decide)]
  rcases hcaller with hc | hc | hc
  · rw [hc]
  · rw [hc]
    show _ ∧ t < min (s.position first + s.depth) s.total_timesteps - ((0 : Nat) : Int) ↔ _
    omega
  · rw [hc]

theorem Sequenced.tracked_position (h : s.Sequenced c first bbox)
    (hlook : s.Looking c first bbox) : s.tracked (s.position first) = true := by
  rw [h.scheduled hlook]
  have hdepth := h.steady.depth_pos
  have hlt := hlook.2.1
  omega

theorem Steady.latch_again (h : s.Steady c bbox) (hkick : s.kicked_off = true) :
    { s with latched_bbox := bbox } = s := by
  rw [← h.latched hkick]

theorem Sequenced.reader_cases (h : s.Sequenced c first bbox) (hl : thread_of l = some c)
    (hok : s.sequential c first bbox l = true)
    (hstep : s.caller_step c (s.threads c).caller l = some s') : Turn c first bbox s s' := by
  have hat := h.caller
  unfold caller_step at hstep
  split at hstep
  -- call
  · next method =>
    have hcall : s.reader_call c first bbox = some method := by
      have hboth := of_decide_eq_true hok
      exact hboth.2
    unfold reader_call at hcall
    split at hstep
    · next last hlast =>
      rw [hlast] at hcall hat
      rcases last with _ | e | b
      · obtain ⟨hlt, hmethod⟩ := Option.ite_none_right_eq_some.mp hcall
        cases hmethod
        cases hstep
        cases hkick : s.kicked_off with
        | false => exact .kick_off hkick hlast hlt
        | true =>
          have hlook : s.Looking c first bbox := ⟨hkick, hlt, .inl hlast⟩
          have heq : s.get_buffer c (s.position first) bbox =
              s.receive c (s.position first) bbox := by
            rw [← h.steady.get_check_eq (h.tracked_position hlook)]
            unfold get_buffer
            rw [h.steady.latch_again hkick]
            show (if s.kicked_off = true then _ else _) = _
            rw [hkick, if_pos rfl]
          rw [heq]
          exact .receive hlook
      · exact hat.elim
      · cases hcall
        cases hstep
        exact .next hlast
    · cases hstep
  -- schedule
  · next dropped =>
    split at hstep
    · next t todo cont hcaller =>
      cases hstep
      cases dropped with
      | true => cases hok
      | false => exact .schedule hcaller
    · cases hstep
  -- resume
  · split at hstep
    · next hcaller =>
      cases hstep
      exact .done hcaller
    · next t b hcaller =>
      cases hstep
      rw [hcaller] at hat
      obtain ⟨hkick, -, rfl, rfl, hlt, -, -⟩ := hat
      have hlook : s.Looking c first b := ⟨hkick, hlt, .inr (.inl hcaller)⟩
      rw [h.steady.get_check_eq (h.tracked_position hlook)]
      exact .receive hlook
    · next t b hcaller =>
      rw [hcaller] at hat
      exact hat.elim
    · next t b hcaller =>
      rw [hcaller] at hat
      exact hat.elim
    · cases hstep
  -- wake
  · next timed_out =>
    split at hstep
    · next t b hcaller =>
      rw [hcaller] at hat
      obtain ⟨hkick, rfl, rfl, hlt⟩ := hat
      have hlook : s.Looking c first b := ⟨hkick, hlt, .inr (.inr hcaller)⟩
      cases timed_out with
      | true => cases hok
      | false =>
        cases hstep
        rw [h.steady.get_loop_eq]
        exact .receive hlook
    · cases hstep
  -- the reader is no worker
  · next i k =>
    have hne : i ≠ c := of_decide_eq_true hok
    exact absurd (Option.some.inj hl) hne
  · cases hstep

/-- **A turn of the reader.** -/
theorem Sequenced.turn (h : s.Sequenced c first bbox) (hinv : s'.Inv)
    (hturn : Turn c first bbox s s') : s'.Sequenced c first bbox := by
  cases hturn with
  | kick_off hkick hidle hlt => exact h.kick_off hkick hidle hlt hinv
  | receive hlook =>
    exact Sequenced.receive hinv h.inv h.steady hlook.1 h.in_order hlook.2.1 (h.scheduled hlook)
  | next hidle => exact h.schedule_next hidle hinv
  | schedule hcaller => exact h.schedule hcaller hinv
  | done hcaller =>
    have hat := h.caller
    rw [hcaller] at hat
    refine ⟨hinv, h.steady.set_caller _, h.position_le, h.in_order, ?_, ?_⟩
    · rw [caller_set_caller]
      exact .inl hat.1
    · intro t
      rw [frontier, caller_set_caller]
      show s.tracked t = true ↔ s.position first ≤ t ∧ t < if s.kicked_off = false then _ else
        min (s.position first + s.depth) s.total_timesteps
      rw [hat.1, if_neg (by decide), h.tracked t, frontier_of_scheduling hat.1 hcaller]
      show _ ∧ t < _ - ((0 : Nat) : Int) ↔ _
      omega

/-- **Step lemma.** -/
theorem Sequenced.step (h : s.Sequenced c first bbox) (hok : s.sequential c first bbox l = true)
    (hstep : s.next l = some s') : s'.Sequenced c first bbox := by
  have hinv := h.inv.step hstep
  rcases h.steady.next_cases hok hstep with ⟨hl, hreader⟩ | ⟨hne, hbeside⟩
  · exact h.turn hinv (h.reader_cases hl hok hreader)
  · exact h.beside hinv hne hbeside

theorem sequenced_make (depth : Nat) (total_timesteps : Int) (info : VariableInfo)
    {cfg : StagingConfig} {pool : StagingPool} (hpool : PoolInit cfg pool) :
    (make depth total_timesteps info true pool : PrefetchQueue n).Sequenced c first bbox where
  inv := inv_make depth total_timesteps info true hpool
  steady :=
    { has_workers := rfl
      depth_pos := by
        show 1 ≤ min (max depth 1) 1024
        omega
      cancelled := rfl
      no_failure := fun _ => rfl
      others_idle := fun _ _ => rfl
      reader_free := rfl
      latched := fun h => by cases h
      sel_tasks := fun _ h => absurd h List.not_mem_nil
      sel_fetch := fun _ _ h => by cases h
      sel_stored := fun _ _ h => by cases h
      pending_tokens := fun t ht => absurd ht (OrdSet.not_mem_empty t) }
  position_le := fun h => by cases h
  in_order := rfl
  caller := .inr rfl
  tracked := by
    intro t
    have hfrontier : frontier (make depth total_timesteps info true pool : PrefetchQueue n) c first =
        position (make depth total_timesteps info true pool : PrefetchQueue n) first := by
      unfold frontier
      exact if_pos rfl
    rw [hfrontier]
    constructor
    · intro h
      cases h
    · intro h
      omega

theorem Sequenced.deliveries_eq_nil (h : s.Sequenced c first bbox) (hkick : s.kicked_off = false) :
    s.deliveries = [] := by
  have hat := h.caller
  have hno : ¬s.kicked_off = true := Bool.not_eq_true _ ▸ hkick
  unfold AtCaller at hat
  split at hat
  · exact hat.resolve_left hno
  · exact absurd hat.1 hno
  · exact hat.elim
  · exact absurd hat.1 hno
  · exact absurd hat.1 hno
  · exact hat.elim
  · exact absurd hat.1 hno

theorem frontier_le (s : PrefetchQueue n) (c : Fin n) (first : Int) :
    s.frontier c first ≤ s.position first + s.depth ∧
      (s.kicked_off = true → s.frontier c first ≤ s.total_timesteps) := by
  unfold frontier
  split
  · next hkick =>
    rw [hkick]
    exact ⟨by omega, fun h => by cases h⟩
  · split
    · omega
    · omega
    · omega

end ReaderSteps

/-! ## Section 6: Every timestep is read once -/

section Once

variable {s s' : PrefetchQueue n} {c i : Fin n} {bbox : Option AmioBbox} {l : QueueLabel n}
  {fetched : List Int}

theorem unreported_update {f : Option Fetch} (hfetch : s'.fetch_of = Function.update s.fetch_of i f) :
    s'.Unreported t ↔ f.bind filled_timestep = some t ∨
      ∃ j, j ≠ i ∧ (s.fetch_of j).bind filled_timestep = some t := by
  unfold Unreported
  rw [hfetch]
  constructor
  · intro ⟨j, hj⟩
    by_cases hji : j = i
    · subst hji
      rw [Function.update_self] at hj
      exact .inl hj
    · rw [Function.update_of_ne hji] at hj
      exact .inr ⟨j, hji, hj⟩
  · intro h
    rcases h with hi | ⟨j, hji, hj⟩
    · exact ⟨i, by rwa [Function.update_self]⟩
    · exact ⟨j, by rwa [Function.update_of_ne hji]⟩

theorem unreported_self (i : Fin n) : s.Unreported t ↔
    (s.fetch_of i).bind filled_timestep = some t ∨
      ∃ j, j ≠ i ∧ (s.fetch_of j).bind filled_timestep = some t :=
  unreported_update (Function.update_eq_self i s.fetch_of).symm

theorem Steady.not_unreported (h : s.Inv) {f : Fetch} (hf : s.fetch_of i = some f) {j : Fin n}
    (hj : j ≠ i) : (s.fetch_of j).bind filled_timestep ≠ some f.timestep := by
  intro hfilled
  obtain ⟨g, hg, hgt⟩ := Option.bind_eq_some_iff.mp hfilled
  cases g with
  | filled task b =>
    apply hj
    exact h.eq_of_timestep hg hf (Option.some.inj hgt)
  | entering task => cases hgt
  | acquiring task => cases hgt
  | reading task b => cases hgt
  | discarding task b => cases hgt
  | failing task e => cases hgt

theorem Fetched.congr (h : s.Fetched first fetched) (hposition : s'.position first = s.position first)
    (hcompleted : s'.completed = s.completed) (hsame : ∀ t, s'.Unreported t ↔ s.Unreported t) :
    s'.Fetched first fetched where
  nodup := h.nodup
  mem_iff := fun t => by rw [hposition, hcompleted, hsame t, h.mem_iff t]

theorem Fetched.beside (h : s.Fetched first fetched) (hs : s.Sequenced c first bbox)
    (hstep : Beside bbox s l s') : s'.Fetched first (fetched ++ (s.read_by l).toList) := by
  cases hstep with
  | @run i k task hf hk =>
    have hfetch : ({ s.set_fetch i (some (.entering task)) with
        tasks := s.tasks.eraseIdx k } : PrefetchQueue n).fetch_of =
        Function.update s.fetch_of i (some (.entering task)) := fetch_of_set_fetch ..
    show Fetched first _ (fetched ++ [])
    rw [List.append_nil]
    refine h.congr rfl rfl fun t => ?_
    rw [unreported_update hfetch, unreported_self i, hf]
    rfl
  | @move i l f f' pool hf htask hgood hbefore hafter hread =>
    have hfetch : ({ s.set_fetch i (some f') with pool } : PrefetchQueue n).fetch_of =
        Function.update s.fetch_of i (some f') := fetch_of_set_fetch ..
    have hnone : ∀ f : Fetch, (∀ task b, f ≠ .filled task b) → filled_timestep f = none := by
      intro f hf
      cases f with
      | filled task b => exact absurd rfl (hf task b)
      | entering task => rfl
      | acquiring task => rfl
      | reading task b => rfl
      | discarding task b => rfl
      | failing task e => rfl
    rw [hread]
    show Fetched first _ (fetched ++ [])
    rw [List.append_nil]
    refine h.congr rfl rfl fun t => ?_
    rw [unreported_update hfetch, unreported_self i, hf]
    show filled_timestep f' = some t ∨ _ ↔ filled_timestep f = some t ∨ _
    rw [hnone f hbefore, hnone f' hafter]
  | @read i task b used_bytes pool contents hf =>
    have hfetch : ({ s.set_fetch i (some (.filled task b)) with
        pool, contents } : PrefetchQueue n).fetch_of =
        Function.update s.fetch_of i (some (.filled task b)) := fetch_of_set_fetch ..
    have hread : s.read_by (.read i (some used_bytes)) = some task.timestep := by
      show (s.fetch_of i).map Fetch.timestep = _
      rw [hf]
      rfl
    have htoken : task.timestep ∈ s.tokens :=
      List.mem_append_right _ (Holders.mem_held.mpr ⟨i, by rw [times, hf]; rfl⟩)
    have hothers : ∀ t, s.Unreported t ↔
        ∃ j, j ≠ i ∧ (s.fetch_of j).bind filled_timestep = some t := by
      intro t
      rw [unreported_self i, hf]
      show none = some t ∨ _ ↔ _
      simp
    -- the timestep is pending, and nobody else fetches it
    have hnew : task.timestep ∉ fetched := by
      rw [h.mem_iff, hothers, (hs.inv.tables.token_fresh _ htoken).1]
      have hpending := hs.inv.tables.token_pending hs.steady.cancelled _ htoken
      have htracked := (hs.tracked task.timestep).mp (tracked_iff.mpr (.inl hpending))
      intro hmem
      rcases hmem with hdelivered | hcompleted | ⟨j, hj, hfilled⟩
      · omega
      · cases hcompleted
      · exact Steady.not_unreported hs.inv hf hj hfilled
    rw [hread]
    constructor
    · show (fetched ++ [task.timestep]).Nodup
      rw [List.nodup_append]
      refine ⟨h.nodup, List.nodup_singleton _, ?_⟩
      intro t ht t' ht' heq
      rw [List.mem_singleton.mp ht'] at heq
      exact hnew (heq ▸ ht)
    · intro t
      show t ∈ fetched ++ [task.timestep] ↔ (first ≤ t ∧ t < s.position first) ∨
        (s.completed.lookup t).isSome = true ∨ _
      rw [List.mem_append, List.mem_singleton, h.mem_iff, unreported_update hfetch, hothers]
      show _ ↔ _ ∨ _ ∨ some task.timestep = some t ∨ _
      rw [Option.some.injEq, eq_comm (a := t), or_assoc, or_assoc]
      exact or_congr Iff.rfl (or_congr Iff.rfl or_comm)
  | @finish i task b hf =>
    have hfetch : (s.mark_complete i task b).fetch_of = Function.update s.fetch_of i none :=
      fetch_of_set_fetch ..
    show Fetched first _ (fetched ++ [])
    rw [List.append_nil]
    refine ⟨h.nodup, fun t => ?_⟩
    rw [h.mem_iff, unreported_update hfetch, unreported_self i, hf]
    show _ ∨ _ ∨ some task.timestep = some t ∨ _ ↔ (first ≤ t ∧ t < s.position first) ∨
      ((s.completed.insert task.timestep b).lookup t).isSome = true ∨ none = some t ∨ _
    rw [OrdMap.lookup_insert, Option.some.injEq]
    by_cases ht : t = task.timestep
    · rw [if_pos ht]
      simp [ht]
    · rw [if_neg ht]
      simp [Ne.symm ht]
  | user hl =>
    rw [read_by_of_user hl]
    show Fetched first _ (fetched ++ [])
    rw [List.append_nil]
    exact h.congr rfl rfl fun _ => Iff.rfl

theorem Steady.read_by_reader (h : s.Steady c bbox) (hl : thread_of l = some c) :
    s.read_by l = none := by
  cases l with
  | read i used_bytes =>
    cases hl
    cases used_bytes with
    | none => rfl
    | some used_bytes =>
      show (s.fetch_of c).map _ = none
      rw [h.reader_free]
      rfl
  | _ => rfl

theorem Fetched.turn (h : s.Fetched first fetched) (hs : s.Sequenced c first bbox)
    (hturn : Turn c first bbox s s') : s'.Fetched first fetched := by
  have hsame : ∀ caller, ∀ t, (s.set_caller c caller).Unreported t ↔ s.Unreported t := by
    intro caller t
    rw [Unreported, Unreported, fetch_of_set_caller]
  cases hturn with
  | kick_off hkick hidle hlt =>
    rw [kick_off_eq hkick]
    exact h.congr rfl rfl (hsame _)
  | receive hlook =>
    unfold PrefetchQueue.receive
    split
    · next b hb =>
      -- the timestep has moved from the completed ones to those delivered
      refine ⟨h.nodup, fun t => ?_⟩
      have hposition : position { s.deliver c (s.position first) bbox b with
          fetched_bbox := s.fetched_bbox.erase (s.position first) } first =
          s.position first + 1 := position_deliver
      rw [h.mem_iff, hposition]
      show _ ↔ _ ∨ ((s.completed.erase (s.position first)).lookup t).isSome = true ∨
        (s.set_caller c (.idle (some (.ok b)))).Unreported t
      rw [hsame, OrdMap.lookup_erase]
      by_cases ht : t = s.position first
      · have hle : first ≤ s.position first := by
          unfold position
          omega
        rw [if_pos ht, ht, hb]
        simp [hle]
      · rw [if_neg ht]
        have hlt : t < s.position first ↔ t < s.position first + 1 := by omega
        rw [hlt]
    · exact h.congr rfl rfl (hsame _)
  | next hidle =>
    unfold PrefetchQueue.schedule_next
    split
    · exact h.congr rfl rfl (hsame _)
    · exact h.congr rfl rfl (hsame _)
  | schedule hcaller =>
    rw [hs.schedule_eq hcaller]
    exact h.congr rfl rfl (hsame _)
  | done hcaller => exact h.congr rfl rfl (hsame _)

end Once

/-! ## Section 7: Progress of the reader -/

section Phases

variable {s s' : PrefetchQueue n} {c : Fin n} {bbox : Option AmioBbox} {l : QueueLabel n}

/-- How far a caller is from its next wait. -/
def turns_left (depth : Nat) (kicked_off : Bool) : Caller → Nat
  | .idle none => if kicked_off then 1 else depth + 3
  | .idle (some _) => 4
  | .scheduling todo (.check _ _) => todo.length + 1
  | .scheduling todo _ => todo.length + 2
  | .waiting _ _ => 0

def phase (s : PrefetchQueue n) (c : Fin n) : Nat :=
  turns_left s.depth s.kicked_off (s.threads c).caller

/-- What is left to do for the reader. A timestep takes less than `depth + 5`
    turns. -/
def remaining (s : PrefetchQueue n) (c : Fin n) (first : Int) : Nat :=
  (s.total_timesteps - s.position first).toNat * (s.depth + 5) + s.phase c

/-- The reader waits, and the buffer is not there. -/
def Blocked (s : PrefetchQueue n) (c : Fin n) (first : Int) (bbox : Option AmioBbox) : Prop :=
  (s.threads c).caller = .waiting (s.position first) bbox ∧
    s.completed.lookup (s.position first) = none

theorem remaining_lt_of_phase (hposition : s'.position first = s.position first)
    (htotal : s'.total_timesteps = s.total_timesteps) (hdepth : s'.depth = s.depth)
    (hphase : s'.phase c < s.phase c) : s'.remaining c first < s.remaining c first := by
  rw [remaining, remaining, hposition, htotal, hdepth]
  exact Nat.add_lt_add_left hphase _

theorem phase_of_caller {s : PrefetchQueue n} {caller : Caller}
    (hcaller : (s.threads c).caller = caller) :
    s.phase c = turns_left s.depth s.kicked_off caller := by
  rw [phase, hcaller]

/-- **A turn is progress**, unless the reader waits in vain. -/
theorem Sequenced.turn_progress (h : s.Sequenced c first bbox) (hturn : Turn c first bbox s s')
    (hblocked : ¬s.Blocked c first bbox) : s'.remaining c first < s.remaining c first := by
  have hat := h.caller
  cases hturn with
  | kick_off hkick hidle hlt =>
    rw [kick_off_eq hkick]
    refine remaining_lt_of_phase rfl rfl rfl ?_
    rw [phase_of_caller (caller_set_caller ..), phase_of_caller hidle, hkick]
    show (window _ _).length + 1 < s.depth + 3
    rw [length_window]
    omega
  | receive hlook =>
    obtain ⟨hkick, hlt, hcaller⟩ := hlook
    unfold PrefetchQueue.receive
    split
    · next b hb =>
      -- one timestep less
      have hposition : position { s.deliver c (s.position first) bbox b with
          fetched_bbox := s.fetched_bbox.erase (s.position first) } first =
          s.position first + 1 := position_deliver
      have hphase : phase { s.deliver c (s.position first) bbox b with
          fetched_bbox := s.fetched_bbox.erase (s.position first) } c = 4 :=
        phase_of_caller (caller_set_caller s c (.idle (some (.ok b))))
      rw [remaining, remaining, hposition, hphase]
      show (s.total_timesteps - (s.position first + 1)).toNat * (s.depth + 5) + 4 < _
      have hone : (s.total_timesteps - s.position first).toNat =
          (s.total_timesteps - (s.position first + 1)).toNat + 1 := by omega
      rw [hone, Nat.succ_mul]
      omega
    · next hnone =>
      refine remaining_lt_of_phase rfl rfl rfl ?_
      rw [phase_of_caller (caller_set_caller ..)]
      rcases hcaller with hc | hc | hc
      · rw [phase_of_caller hc, hkick]
        exact Nat.one_pos
      · rw [phase_of_caller hc]
        exact Nat.succ_pos _
      · exact absurd ⟨hc, hnone⟩ hblocked
  | next hidle =>
    rw [hidle] at hat
    unfold PrefetchQueue.schedule_next
    split
    · refine remaining_lt_of_phase rfl rfl rfl ?_
      rw [phase_of_caller (caller_set_caller ..), phase_of_caller hidle]
      show (if s.kicked_off = true then 1 else _) < 4
      rw [hat.1, if_pos rfl]
      decide
    · refine remaining_lt_of_phase rfl rfl rfl ?_
      rw [phase_of_caller (caller_set_caller ..), phase_of_caller hidle]
      show 3 < 4
      decide
  | @schedule t todo cont hcaller =>
    rw [h.schedule_eq hcaller]
    refine remaining_lt_of_phase rfl rfl rfl ?_
    show (s.set_caller c (.scheduling todo cont)).phase c < s.phase c
    have hafter := caller_set_caller s c (.scheduling todo cont)
    cases cont with
    | check t' b =>
      rw [phase_of_caller hcaller, phase_of_caller hafter]
      exact Nat.lt_succ_self _
    | done =>
      rw [phase_of_caller hcaller, phase_of_caller hafter]
      exact Nat.lt_succ_self _
    | loop t' b =>
      rw [hcaller] at hat
      exact hat.elim
    | rest t' b =>
      rw [hcaller] at hat
      exact hat.elim
  | done hcaller =>
    rw [hcaller] at hat
    refine remaining_lt_of_phase rfl rfl rfl ?_
    rw [phase_of_caller (caller_set_caller ..), phase_of_caller hcaller]
    show (if s.kicked_off = true then 1 else _) < 2
    rw [hat.1, if_pos rfl]
    decide

theorem Turn.of_blocked (hblocked : s.Blocked c first bbox) (hturn : Turn c first bbox s s') :
    s' = s := by
  obtain ⟨hwait, hnone⟩ := hblocked
  cases hturn with
  | kick_off hkick hidle hlt =>
    rw [hwait] at hidle
    cases hidle
  | receive hlook =>
    rw [PrefetchQueue.receive, hnone]
    show s.set_caller c (.waiting _ _) = s
    rw [set_caller, ← hwait]
    show { s with threads := Function.update s.threads c (s.threads c) } = s
    rw [Function.update_eq_self]
  | next hidle =>
    rw [hwait] at hidle
    cases hidle
  | schedule hcaller =>
    rw [hwait] at hcaller
    cases hcaller
  | done hcaller =>
    rw [hwait] at hcaller
    cases hcaller

theorem Beside.position_eq (h : Beside bbox s l s') : s'.position first = s.position first := by
  rw [position, position, h.same.1]

theorem Beside.remaining_eq (h : Beside bbox s l s') :
    s'.remaining c first = s.remaining c first := by
  obtain ⟨-, hkick, htotal, hdepth⟩ := h.same
  rw [remaining, remaining, h.position_eq, htotal, hdepth, phase, phase, h.caller_eq, hkick, hdepth]

theorem Beside.completed (h : Beside bbox s l s') (ht : s.completed.lookup t ≠ none) :
    s'.completed.lookup t ≠ none := by
  cases h with
  | run hf hk => exact ht
  | move hf htask hgood hbefore hafter hread => exact ht
  | read hf => exact ht
  | @finish i task b hf =>
    show (s.completed.insert task.timestep b).lookup t ≠ none
    rw [OrdMap.lookup_insert]
    split
    · exact Option.some_ne_none b
    · exact ht
  | user hl => exact ht

end Phases

end PrefetchQueue

namespace SequentialRead

open PrefetchQueue

/-! ## Section 8: Runs -/

section Runs

variable {n : Nat} {c : Fin n} {first : Int} {bbox : Option AmioBbox} {r r' : SequentialRead n}
  {l : QueueLabel n}

theorem next_iff : r.next l = some r' ↔ r.queue.next l = some r'.queue ∧
    r'.fetched = r.fetched ++ (r.queue.read_by l).toList := by
  unfold next
  rw [Option.map_eq_some_iff]
  constructor
  · intro ⟨queue, hqueue, heq⟩
    subst heq
    exact ⟨hqueue, rfl⟩
  · intro ⟨hqueue, hfetched⟩
    exact ⟨r'.queue, hqueue, by rw [← hfetched]⟩

/-- **Run lemma.** -/
theorem sequenced_of_reachable (hr : (system n c first bbox).Reachable r) :
    r.queue.Sequenced c first bbox ∧ r.queue.Fetched first r.fetched := by
  induction hr with
  | init h =>
    obtain ⟨depth, total_timesteps, info, cfg, pool, hpool, rfl⟩ := h
    refine ⟨sequenced_make depth total_timesteps info hpool, List.nodup_nil, fun t => ?_⟩
    constructor
    · intro ht
      exact absurd ht List.not_mem_nil
    · intro ht
      rcases ht with hdelivered | hcompleted | ⟨i, hi⟩
      · have hposition : (start depth total_timesteps info pool : SequentialRead n).queue.position
            first = first := add_zero first
        omega
      · cases hcompleted
      · cases hi
  | step hr h ih =>
    obtain ⟨hok, hstep⟩ := h
    obtain ⟨hqueue, hfetched⟩ := next_iff.mp hstep
    refine ⟨ih.1.step hok hqueue, ?_⟩
    rw [hfetched]
    rcases ih.1.steady.next_cases hok hqueue with ⟨hl, hreader⟩ | ⟨-, hbeside⟩
    · rw [ih.1.steady.read_by_reader hl]
      show Fetched first _ (_ ++ [])
      rw [List.append_nil]
      exact ih.2.turn ih.1 (ih.1.reader_cases hl hok hreader)
    · exact ih.2.beside ih.1 hbeside

/-! ### Safety -/

theorem outstanding_le (h : r.queue.Sequenced c first bbox) :
    r.queue.pending.size + r.queue.completed.entries.length ≤ r.queue.depth := by
  let keys := r.queue.completed.entries.map (·.1)
  have hkey : ∀ t ∈ keys, ∃ b, r.queue.completed.lookup t = some b := by
    intro t ht
    obtain ⟨⟨t', b⟩, hmem, heq⟩ := List.mem_map.mp ht
    subst heq
    exact ⟨b, OrdMap.lookup_eq_some.mpr hmem⟩
  have hnodup : (r.queue.pending.toList ++ keys).Nodup := by
    rw [List.nodup_append]
    refine ⟨r.queue.pending.nodup, r.queue.completed.nodup_keys, ?_⟩
    intro t ht t' ht' heq
    obtain ⟨b, hb⟩ := hkey t' ht'
    have hnone := (h.inv.tables.pending_fresh t ht).1
    rw [heq, hb] at hnone
    cases hnone
  have hsub : r.queue.pending.toList ++ keys ⊆
      window (r.queue.position first) r.queue.depth := by
    intro t ht
    have htracked : r.queue.tracked t = true := by
      rw [tracked_iff]
      rcases List.mem_append.mp ht with hp | hk
      · exact .inl hp
      · obtain ⟨b, hb⟩ := hkey t hk
        exact .inr (.inl (by rw [hb]; rfl))
    have hrange := (h.tracked t).mp htracked
    have hfrontier := (frontier_le r.queue c first).1
    rw [mem_window]
    omega
  have hlen := (List.subperm_of_subset hnodup hsub).length_le
  rw [List.length_append, length_window, List.length_map, Int.toNat_natCast] at hlen
  exact hlen

theorem tracked_lt (h : r.queue.Sequenced c first bbox) {t : Int}
    (ht : r.queue.tracked t = true) : first ≤ t ∧ t < r.queue.total_timesteps := by
  obtain ⟨hlow, hhigh⟩ := (h.tracked t).mp ht
  have hfirst : first ≤ r.queue.position first := by
    unfold position
    omega
  cases hkick : r.queue.kicked_off with
  | true =>
    have hfrontier := (frontier_le r.queue c first).2 hkick
    omega
  | false =>
    unfold PrefetchQueue.frontier at hhigh
    rw [if_pos hkick] at hhigh
    omega

theorem delivered_lt (h : r.queue.Sequenced c first bbox) {t : Int} (hlow : first ≤ t)
    (hhigh : t < r.queue.position first) : t < r.queue.total_timesteps := by
  cases hkick : r.queue.kicked_off with
  | true =>
    have hle := h.position_le hkick
    omega
  | false =>
    rw [position, h.deliveries_eq_nil hkick] at hhigh
    exact absurd hhigh (not_lt.mpr (by simpa using hlow))

theorem mem_fetched_lt (h : r.queue.Sequenced c first bbox) (hf : r.queue.Fetched first r.fetched)
    {t : Int} (ht : t ∈ r.fetched) : first ≤ t ∧ t < r.queue.total_timesteps := by
  rcases (hf.mem_iff t).mp ht with ⟨hlow, hhigh⟩ | hcompleted | ⟨i, hi⟩
  · exact ⟨hlow, delivered_lt h hlow hhigh⟩
  · exact tracked_lt h (tracked_iff.mpr (.inr (.inl hcompleted)))
  · -- a fetch that has not reported is pending
    obtain ⟨f, hfetch, hft⟩ := Option.bind_eq_some_iff.mp hi
    have htime : f.timestep = t := by
      cases f with
      | filled task b => exact Option.some.inj hft
      | entering task => cases hft
      | acquiring task => cases hft
      | reading task b => cases hft
      | discarding task b => cases hft
      | failing task e => cases hft
    have htoken : t ∈ r.queue.tokens :=
      List.mem_append_right _ (Holders.mem_held.mpr ⟨i, by rw [times, hfetch, ← htime]; rfl⟩)
    have hpending := h.inv.tables.token_pending h.steady.cancelled t htoken
    exact tracked_lt h (tracked_iff.mpr (.inl hpending))

theorem defined_of_in_range (h : r.queue.Sequenced c first bbox) (hrange : InRange first r.queue)
    {method : Method} (hcall : r.queue.reader_call c first bbox = some method) :
    r.queue.Defined method := by
  have hat := h.caller
  unfold reader_call at hcall
  split at hcall
  · next hcaller =>
    obtain ⟨hlt, hmethod⟩ := Option.ite_none_right_eq_some.mp hcall
    cases hmethod
    rw [hcaller] at hat
    rcases hat with hkick | hempty
    · exact .inl hkick
    · have hposition : r.queue.position first = first := by
        rw [position, hempty]
        exact add_zero first
      rw [hposition] at hlt ⊢
      exact .inr (hrange hlt).2.1
  · next b hcaller =>
    cases hcall
    rw [hcaller] at hat
    obtain ⟨hkick, hne⟩ := hat
    have hle := h.position_le hkick
    have hpos : 0 < r.queue.deliveries.length := List.length_pos_of_ne_nil hne
    have hlow : first ≤ r.queue.position first - 1 := by
      unfold position
      omega
    obtain ⟨hfirst, -, hlast⟩ := hrange (by omega)
    rw [Signed.fits_64] at hfirst hlast
    show Signed.Fits 64 (r.queue.position first - 1 + r.queue.depth)
    rw [Signed.fits_64]
    omega
  · cases hcall

theorem sound_of_reachable (hr : (system n c first bbox).Reachable r)
    (hrange : InRange first r.queue) : Sound c first bbox r := by
  obtain ⟨h, hf⟩ := sequenced_of_reachable hr
  exact
    { in_order := h.in_order
      once := hf.nodup
      inside := fun t ht => mem_fetched_lt h hf ht
      delivered := by
        intro d hd
        have hmem : d.timestep ∈ window first r.queue.deliveries.length := by
          rw [← h.in_order]
          exact List.mem_map_of_mem hd
        exact (hf.mem_iff _).mpr (.inl (mem_window.mp hmem))
      outstanding := outstanding_le h
      defined := fun method hcall => defined_of_in_range h hrange hcall }

/-! ### Progress -/

section Fair

open LTS.System (Execution)

variable {e : (system n c first bbox).Execution}

theorem sequenced (e : (system n c first bbox).Execution) (i : ℕ) :
    (e.state i).queue.Sequenced c first bbox :=
  (sequenced_of_reachable (e.reachable i)).1

theorem step_cases (e : (system n c first bbox).Execution) (i : ℕ) :
    (thread_of (e.label i) = some c ∧
      Turn c first bbox (e.state i).queue (e.state (i + 1)).queue) ∨
    (thread_of (e.label i) ≠ some c ∧
      Beside bbox (e.state i).queue (e.label i) (e.state (i + 1)).queue) := by
  obtain ⟨hok, hstep⟩ := e.step i
  have hqueue := (next_iff.mp hstep).1
  have h := sequenced e i
  rcases h.steady.next_cases hok hqueue with ⟨hl, hreader⟩ | hbeside
  · exact .inl ⟨hl, h.reader_cases hl hok hreader⟩
  · exact .inr hbeside

/-- **A wait ends.** The fetch that the reader waits for ends. -/
theorem wait_ends (hfair : Fair e) (m : Nat) : e.LeadsTo
    (fun r => r.queue.Blocked c first bbox ∧ r.queue.remaining c first = m)
    fun r => r.queue.remaining c first < m ∨
      (r.queue.remaining c first = m ∧ ¬r.queue.Blocked c first bbox) := by
  intro i ⟨hblocked, hm⟩
  have h := sequenced e i
  obtain ⟨hwait, hnone⟩ := hblocked
  have hat := h.caller
  rw [hwait] at hat
  -- the timestep is being fetched
  have hlook : (e.state i).queue.Looking c first bbox := ⟨hat.1, hat.2.2.2, .inr (.inr hwait)⟩
  have hpending : (e.state i).queue.position first ∈ (e.state i).queue.pending := by
    rcases h.steady.tracked_iff.mp (h.tracked_position hlook) with hp | hc
    · exact hp
    · rw [hnone] at hc
      cases hc
  obtain ⟨j, hij, hj⟩ := hfair.fetches i _ (h.steady.pending_tokens _ hpending)
  -- until then the reader stays where it is, unless it gets the buffer
  have hstay := Execution.stays_or (e := e) (Q := fun r => r.queue.remaining c first < m)
    (P := fun r => (r.queue.threads c).caller =
        .waiting ((e.state i).queue.position first) bbox ∧
      r.queue.position first = (e.state i).queue.position first ∧
      r.queue.remaining c first = m) ?_ hij ⟨hwait, rfl, hm⟩
  · rcases hstay with ⟨hcaller, hposition, hrem⟩ | ⟨k, hik, hk⟩
    · refine ⟨j, hij, .inr ⟨hrem, fun hstill => ?_⟩⟩
      have hseq := sequenced e j
      rw [← hposition] at hcaller hj
      have hatj := hseq.caller
      rw [hcaller] at hatj
      have hlookj : (e.state j).queue.Looking c first bbox :=
        ⟨hatj.1, hatj.2.2.2, .inr (.inr hcaller)⟩
      rcases hseq.steady.tracked_iff.mp (hseq.tracked_position hlookj) with hp | hc
      · exact hj (hseq.steady.pending_tokens _ hp)
      · rw [hstill.2] at hc
        cases hc
    · exact ⟨k, hik, .inl hk⟩
  · intro k ⟨hcaller, hposition, hrem⟩
    rcases step_cases e k with ⟨-, hturn⟩ | ⟨-, hbeside⟩
    · by_cases hb : (e.state k).queue.Blocked c first bbox
      · rw [hturn.of_blocked hb]
        exact .inl ⟨hcaller, hposition, hrem⟩
      · exact .inr (hrem ▸ (sequenced e k).turn_progress hturn hb)
    · rw [hbeside.caller_eq, hbeside.position_eq, hbeside.remaining_eq]
      exact .inl ⟨hcaller, hposition, hrem⟩

/-- **The reader moves on** when it does not wait in vain. -/
theorem turn_comes (hfair : Fair e) (m : Nat) : e.LeadsTo
    (fun r => r.queue.position first < r.queue.total_timesteps ∧
      r.queue.remaining c first = m ∧ ¬r.queue.Blocked c first bbox)
    fun r => r.queue.remaining c first < m := by
  apply Execution.leads_to_of_helpful (fun l => thread_of l = some c)
  · intro i ⟨hlt, hm, hfree⟩
    rcases step_cases e i with ⟨-, hturn⟩ | ⟨-, hbeside⟩
    · exact .inr (hm ▸ (sequenced e i).turn_progress hturn hfree)
    · refine .inl ⟨?_, hbeside.remaining_eq.trans hm, fun hblocked => hfree ?_⟩
      · rw [hbeside.position_eq, hbeside.same.2.2.1]
        exact hlt
      · obtain ⟨hwait, hnone⟩ := hblocked
        rw [hbeside.caller_eq, hbeside.position_eq] at hwait
        rw [hbeside.position_eq] at hnone
        refine ⟨hwait, ?_⟩
        by_contra hsome
        exact hbeside.completed hsome hnone
  · intro i ⟨hlt, hm, hfree⟩ hl
    rcases step_cases e i with ⟨-, hturn⟩ | ⟨hne, -⟩
    · exact hm ▸ (sequenced e i).turn_progress hturn hfree
    · exact absurd hl hne
  · intro i ⟨hlt, _⟩
    exact hfair.reader i hlt

theorem reaches_end (hfair : Fair e) : e.LeadsTo
    (fun r => r.queue.position first < r.queue.total_timesteps)
    fun r => r.queue.total_timesteps ≤ r.queue.position first := by
  apply Execution.leads_to_of_measure fun r => r.queue.remaining c first
  intro m i ⟨hlt, hm⟩
  -- the measure falls
  have hfall : ∃ j, i ≤ j ∧ ((e.state j).queue.total_timesteps ≤ (e.state j).queue.position first ∨
      (e.state j).queue.remaining c first < m) := by
    by_cases hb : (e.state i).queue.Blocked c first bbox
    · obtain ⟨j, hij, hj | ⟨hmj, hfree⟩⟩ := wait_ends hfair m i ⟨hb, hm⟩
      · exact ⟨j, hij, .inr hj⟩
      · by_cases hltj : (e.state j).queue.position first < (e.state j).queue.total_timesteps
        · obtain ⟨k, hjk, hk⟩ := turn_comes hfair m j ⟨hltj, hmj, hfree⟩
          exact ⟨k, hij.trans hjk, .inr hk⟩
        · exact ⟨j, hij, .inl (not_lt.mp hltj)⟩
    · obtain ⟨j, hij, hj⟩ := turn_comes hfair m i ⟨hlt, hm, hb⟩
      exact ⟨j, hij, .inr hj⟩
  obtain ⟨j, hij, hj⟩ := hfall
  refine ⟨j, hij, ?_⟩
  by_cases hltj : (e.state j).queue.position first < (e.state j).queue.total_timesteps
  · rcases hj with hend | hless
    · exact absurd hltj (not_lt.mpr hend)
    · exact .inr ⟨hltj, hless⟩
  · exact .inl (not_lt.mp hltj)

theorem complete_of_end (hr : (system n c first bbox).Reachable r)
    (hend : r.queue.total_timesteps ≤ r.queue.position first) : Complete first r := by
  obtain ⟨h, hf⟩ := sequenced_of_reachable hr
  have hwindow : window first r.queue.deliveries.length =
      window first (r.queue.total_timesteps - first) := by
    cases hkick : r.queue.kicked_off with
    | true =>
      have hle := h.position_le hkick
      have hlen : (r.queue.deliveries.length : Int) = r.queue.total_timesteps - first := by
        unfold position at hend hle
        omega
      rw [hlen]
    | false =>
      have hempty := h.deliveries_eq_nil hkick
      have hposition : r.queue.position first = first := by
        rw [position, hempty]
        exact add_zero first
      rw [hempty, window_of_nonpos (by simp), window_of_nonpos (by omega)]
  refine ⟨?_, h.in_order.trans hwindow⟩
  rw [List.perm_ext_iff_of_nodup hf.nodup nodup_window]
  intro t
  rw [mem_window]
  constructor
  · intro ht
    have hrange := mem_fetched_lt h hf ht
    omega
  · intro ⟨hlow, hhigh⟩
    exact (hf.mem_iff t).mpr (.inl ⟨hlow, by omega⟩)

theorem complete_of_fair (hfair : Fair e) : ∃ j, Complete first (e.state j) := by
  by_cases hlt : (e.state 0).queue.position first < (e.state 0).queue.total_timesteps
  · obtain ⟨j, -, hend⟩ := reaches_end hfair 0 hlt
    exact ⟨j, complete_of_end (e.reachable j) hend⟩
  · exact ⟨0, complete_of_end (e.reachable 0) (not_lt.mp hlt)⟩

end Fair

end Runs

/-- **A sequential reader** whose timesteps are not at the end of the type:
    whatever happens in between, timesteps are read at most once, delivered in
    order, and never further ahead than the depth; and if the fetches and the
    reader go on, every timestep is read and delivered. -/
theorem sequential_reader_correct {n : Nat} (c : Fin n) (first : Int) (bbox : Option AmioBbox) :
    (∀ r, (system n c first bbox).Reachable r → InRange first r.queue → Sound c first bbox r) ∧
    ∀ e : (system n c first bbox).Execution, InRange first (e.state 0).queue → Fair e →
      ∃ j, Complete first (e.state j) :=
  ⟨fun _ hr hrange => sound_of_reachable hr hrange, fun _ _ hfair => complete_of_fair hfair⟩

/-! ### Runs on small queues -/

/-- A variable of `total_timesteps`, two of them ahead. -/
def smallReader (total_timesteps : Int) : SequentialRead 2 :=
  start 2 total_timesteps ⟨.F32, 1, fun _ => 4⟩ ⟨List.replicate 2 {}, [0, 1], 3, 16, .Grow, 0⟩

theorem smallReader_init (total_timesteps : Int) (c : Fin 2) (first : Int) (bbox : Option AmioBbox) :
    (system 2 c first bbox).init (smallReader total_timesteps) :=
  ⟨2, total_timesteps, _, smallStaging, _, ⟨rfl, List.Perm.refl _, rfl, rfl, rfl⟩, rfl⟩

section
local instance two_workers : NeZero 2 := ⟨two_ne_zero⟩

/-- The worker fetches the oldest timestep submitted. -/
def fetchOldest : List (QueueLabel 2) := [.run 1 0, .enter 1, .acquire 1, .read 1 (some 16), .finish 1]

end

theorem sequential_reader_correct_two : ∃ r : SequentialRead 2,
    (system 2 0 3 none).Reachable r ∧ r.queue.deliveries.length = 2 ∧ Sound 0 3 none r := by
  have hrun : ∃ r, LTS.System.exec (LTS.System.guarded next
      fun r l => r.queue.sequential 0 3 none l = true) (smallReader 5)
      ([.call 0 (.get_buffer 3 none), .schedule 0 false, .schedule 0 false, .run 1 1] ++
        fetchOldest.tail ++ fetchOldest ++ [.resume 0, .call 0 (.schedule_next 3),
        .call 0 (.get_buffer 4 none)]) = some r ∧ r.queue.deliveries.length = 2 ∧
      r.queue.total_timesteps = 5 ∧ r.queue.depth = 2 := ⟨_, rfl, rfl, rfl, rfl⟩
  obtain ⟨r, hexec, hlen, htotal, hdepth⟩ := hrun
  have hr := LTS.System.restrict_reachable_of_exec (smallReader_init 5 0 3 none) hexec
  refine ⟨r, hr, hlen, (sequential_reader_correct 0 3 none).1 r hr ?_⟩
  intro _
  rw [htotal, hdepth]
  decide

theorem sequential_reader_overflow : ∃ r : SequentialRead 2,
    (system 2 0 9223372036854775806 none).Reachable r ∧
      r.queue.total_timesteps = 9223372036854775807 ∧
      ¬ Sound 0 9223372036854775806 none r := by
  have hrun : ∃ r, LTS.System.exec (LTS.System.guarded next
      fun r l => r.queue.sequential 0 9223372036854775806 none l = true)
      (smallReader 9223372036854775807)
      ([.call 0 (.get_buffer 9223372036854775806 none), .schedule 0 false] ++ fetchOldest ++
        [.resume 0]) = some r ∧ r.queue.total_timesteps = 9223372036854775807 ∧
      r.queue.depth = 2 ∧
      r.queue.reader_call 0 9223372036854775806 none = some (.schedule_next 9223372036854775806) :=
    ⟨_, rfl, rfl, rfl, rfl⟩
  obtain ⟨r, hexec, htotal, hdepth, hcall⟩ := hrun
  refine ⟨r, LTS.System.restrict_reachable_of_exec (smallReader_init 9223372036854775807 0
    9223372036854775806 none) hexec, htotal, ?_⟩
  intro hsound
  have hdefined : Signed.Fits 64 (9223372036854775806 + (r.queue.depth : Int)) :=
    hsound.defined _ hcall
  rw [hdepth] at hdefined
  exact absurd hdefined (by decide)

end SequentialRead

end Amio
