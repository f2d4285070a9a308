import Helm.Dagr.DependencyOrder

/-! # GraphOrchestrator: conservation of ranks

  The orchestrator drives the event loop and lets its owner lend ranks to
  the pool (`yield_ranks`) and take them back (`reclaim_ranks`). Ranks that
  are allocated when they are reclaimed leave the pool later, in
  `process_deferred_reclamation`. A forced shutdown cancels whatever is
  still in flight.

  All of these meet in the rank pool. The invariant proved here accounts
  for every rank over all interleavings: the elastic operations and the
  forced cancellation may fire between any two steps of the loop, also
  while a callback runs.
-/

namespace Dagr

open LTS

variable {n : Nat}

/-! ## Section 1: Model -/

/-- `GraphOrchestrator::Impl`, the part that touches ranks. -/
structure OrchState (n : Nat) where
  run : LoopState n
  /-- Ranks to remove from the pool once they are available again. -/
  deferred_reclaim : OrdSet Int
  shut_down : Bool

namespace OrchState

/-- The event loop inside. -/
def loop (o : OrchState n) : EventLoop n := o.run.loop

/-- The orchestrator with another pool behind its loop. -/
def with_pool (o : OrchState n) (pool : RankPool) : OrchState n :=
  { o with run := { o.run with loop := { o.run.loop with rank_pool := pool } } }

/-- `yield_ranks`. -/
def yield_ranks (o : OrchState n) (rank_set : OrdSet Int) : OrchState n :=
  if o.shut_down then o else o.with_pool (o.loop.rank_pool.add_ranks rank_set)

/-- `reclaim_ranks`. What cannot be removed now is deferred. -/
def reclaim_ranks (o : OrchState n) (rank_set : OrdSet Int) : OrchState n :=
  if o.shut_down then o
  else
    let res := o.loop.rank_pool.remove_available rank_set
    { o.with_pool res.1 with
      deferred_reclaim := rank_set.toList.foldl
        (fun d r => if r ∈ res.2 then d else d.insert r) o.deferred_reclaim }

/-- `process_deferred_reclamation`. -/
def process_deferred_reclamation (o : OrchState n) : OrchState n :=
  if o.deferred_reclaim.size = 0 then o
  else
    let res := o.loop.rank_pool.remove_available o.deferred_reclaim
    { o.with_pool res.1 with
      deferred_reclaim := res.2.toList.foldl (fun d r => d.erase r) o.deferred_reclaim }

/-- `force_cancel_in_flight`, reached from `shutdown` when draining times out. -/
def force_cancel (o : OrchState n) : OrchState n :=
  { o with run := { o.run with loop := o.run.loop.force_cancel_in_flight } }

end OrchState

/-- The operations on an orchestrator. -/
inductive OrchLabel
  | loop (l : LoopLabel)
  | force_cancel
  | yield_ranks (rank_set : OrdSet Int)
  | reclaim_ranks (rank_set : OrdSet Int)
  | process_deferred_reclamation
  /-- The end of `shutdown`, when nothing is in flight any more. -/
  | shutdown

namespace OrchState

def next (o : OrchState n) : OrchLabel → Option (OrchState n)
  | .loop l => (o.run.next l).map fun run => { o with run }
  | .force_cancel => some o.force_cancel
  | .yield_ranks rank_set => some (o.yield_ranks rank_set)
  | .reclaim_ranks rank_set => some (o.reclaim_ranks rank_set)
  | .process_deferred_reclamation => some o.process_deferred_reclamation
  | .shutdown => if o.loop.in_flight = 0 then some { o with shut_down := true } else none

end OrchState

/-- An orchestrator starts with a fresh loop and nothing deferred. -/
def OrchInit (cfg : PipelineConfig) (ranks : OrdSet Int) (o : OrchState cfg.num_tasks) : Prop :=
  LoopInit cfg ranks o.run ∧ o.deferred_reclaim = .empty ∧ o.shut_down = false

/-- The orchestrator of a pipeline, under every interleaving. -/
def orchestratorSystem (cfg : PipelineConfig) (ranks : OrdSet Int) :
    System (OrchState cfg.num_tasks) OrchLabel :=
  .ofNext (OrchInit cfg ranks) OrchState.next

/-! ## Section 2: Who holds which rank -/

/-- The running nodes. -/
def EventLoop.running (s : EventLoop n) : Finset (Fin n) :=
  Finset.univ.filter fun v => s.status v = .running

@[simp] theorem EventLoop.mem_running {s : EventLoop n} {v : Fin n} :
    v ∈ s.running ↔ s.status v = .running := by
  simp [EventLoop.running]

/-- The allocations account for the unavailable ranks of the pool. -/
structure HoldInv (s : EventLoop n) : Prop where
  pool : s.rank_pool.Inv
  need : ∀ v, 0 < (s.nodes v).required_ranks
  held : ∀ v, s.status v = .running → (s.allocated_ranks v).size = (s.nodes v).required_ranks
  released : ∀ v, s.status v ≠ .running → s.allocated_ranks v = .empty
  disjoint : ∀ u v r, r ∈ s.allocated_ranks u → r ∈ s.allocated_ranks v → u = v
  unavailable : ∀ r, s.rank_pool.Unavailable r ↔ ∃ v, r ∈ s.allocated_ranks v

theorem HoldInv.of_same {s s' : EventLoop n} (h : HoldInv s)
    (hpool : s'.rank_pool = s.rank_pool) (halloc : s'.allocated_ranks = s.allocated_ranks)
    (hneed : ∀ v, (s'.nodes v).required_ranks = (s.nodes v).required_ranks)
    (hrun : ∀ v, s'.status v = .running ↔ s.status v = .running) : HoldInv s' where
  pool := hpool ▸ h.pool
  need := fun v => hneed v ▸ h.need v
  held := fun v hv => by rw [halloc, hneed]; exact h.held v ((hrun v).mp hv)
  released := fun v hv => by rw [halloc]; exact h.released v fun hr => hv ((hrun v).mpr hr)
  disjoint := by rw [halloc]; exact h.disjoint
  unavailable := by rw [hpool, halloc]; exact h.unavailable

theorem HoldInv.with_pool {s : EventLoop n} (h : HoldInv s) {pool : RankPool} (hpool : pool.Inv)
    (hun : ∀ r, pool.Unavailable r ↔ s.rank_pool.Unavailable r) :
    HoldInv { s with rank_pool := pool } where
  pool := hpool
  need := h.need
  held := h.held
  released := h.released
  disjoint := h.disjoint
  unavailable := fun r => (hun r).trans (h.unavailable r)

theorem release_allocated_pool_inv {s : EventLoop n} (h : s.rank_pool.Inv) (i : Fin n) :
    (s.release_allocated i).rank_pool.Inv := by
  unfold EventLoop.release_allocated
  split
  · exact h
  · exact RankPool.release_inv h _

theorem release_allocated_unavailable (s : EventLoop n) (i : Fin n) (r : Int) :
    (s.release_allocated i).rank_pool.Unavailable r ↔
      s.rank_pool.Unavailable r ∧ r ∉ s.allocated_ranks i := by
  unfold EventLoop.release_allocated
  split
  · next hempty =>
    rw [OrdSet.eq_empty_of_size_eq_zero hempty]
    simp
  · exact RankPool.release_unavailable _ _ r

theorem HoldInv.stop {s : EventLoop n} (h : HoldInv s) (i : Fin n) (st : TaskStatus)
    (hst : st ≠ .running) : HoldInv ((s.set_status i st).release_allocated i) := by
  have hshape : ∀ v, (((s.set_status i st).release_allocated i).nodes v).required_ranks =
      (s.nodes v).required_ranks := fun v => by
    rw [EventLoop.release_allocated_nodes]
    exact congrArg (·.2.2.1) (set_status_shape s i st v)
  have hother : ∀ v, v ≠ i → ((s.set_status i st).release_allocated i).allocated_ranks v =
      s.allocated_ranks v := fun v hv => by simp [hv]
  have hself : ((s.set_status i st).release_allocated i).allocated_ranks i = .empty := by simp
  refine ⟨release_allocated_pool_inv (s := s.set_status i st) h.pool i,
    fun v => hshape v ▸ h.need v, fun v hv => ?_,
    fun v hv => ?_, fun u v r hu hv => ?_, fun r => ?_⟩
  · rw [EventLoop.release_allocated_status, EventLoop.set_status_status] at hv
    by_cases hvi : v = i
    · rw [if_pos hvi] at hv; exact absurd hv hst
    · rw [if_neg hvi] at hv
      rw [hother v hvi, hshape]
      exact h.held v hv
  · rw [EventLoop.release_allocated_status, EventLoop.set_status_status] at hv
    by_cases hvi : v = i
    · rw [hvi, hself]
    · rw [if_neg hvi] at hv
      rw [hother v hvi]
      exact h.released v hv
  · have hui : u ≠ i := by rintro rfl; rw [hself] at hu; exact OrdSet.not_mem_empty r hu
    have hvi : v ≠ i := by rintro rfl; rw [hself] at hv; exact OrdSet.not_mem_empty r hv
    rw [hother u hui] at hu
    rw [hother v hvi] at hv
    exact h.disjoint u v r hu hv
  · rw [release_allocated_unavailable, EventLoop.set_status_rank_pool,
      EventLoop.set_status_allocated_ranks, h.unavailable]
    constructor
    · rintro ⟨⟨v, hv⟩, hnot⟩
      have hvi : v ≠ i := by rintro rfl; exact hnot hv
      exact ⟨v, by rw [hother v hvi]; exact hv⟩
    · rintro ⟨v, hv⟩
      have hvi : v ≠ i := by rintro rfl; rw [hself] at hv; exact OrdSet.not_mem_empty r hv
      rw [hother v hvi] at hv
      exact ⟨⟨v, hv⟩, fun hi => hvi (h.disjoint v i r hv hi)⟩

theorem HoldInv.allocated {s : EventLoop n} (h : HoldInv s) {i : Fin n} {pool : RankPool}
    {ranks : OrdSet Int} (hsome : ranks.size ≠ 0)
    (halloc : s.rank_pool.try_allocate (s.nodes i).required_ranks = .ok (pool, ranks)) :
    pool.Inv ∧ ranks.size = (s.nodes i).required_ranks ∧
      (∀ r ∈ ranks, ¬ s.rank_pool.Unavailable r) ∧
      (∀ r, pool.Unavailable r ↔ s.rank_pool.Unavailable r ∨ r ∈ ranks) := by
  rcases RankPool.try_allocate_spec h.pool (h.need i) with hnone | ⟨p, rs, hok, hsize, hinv, hfree, hun, -⟩
  · rw [halloc] at hnone
    cases hnone
    exact absurd rfl hsome
  · rw [halloc] at hok
    cases hok
    exact ⟨hinv, hsize, fun r hr => (hfree r hr).2, hun⟩

theorem HoldInv.not_allocated {s : EventLoop n} (h : HoldInv s) {i : Fin n} {pool : RankPool}
    {ranks : OrdSet Int} (hempty : ranks.size = 0)
    (halloc : s.rank_pool.try_allocate (s.nodes i).required_ranks = .ok (pool, ranks)) :
    pool = s.rank_pool := by
  have hneed := h.need i
  rcases RankPool.try_allocate_spec h.pool hneed with hnone | ⟨p, rs, hok, hsize, -⟩
  · rw [halloc] at hnone
    cases hnone
    rfl
  · rw [halloc] at hok
    cases hok
    omega

/-- A node that starts running takes ranks nobody holds. -/
theorem HoldInv.start {s : EventLoop n} (h : HoldInv s) {i : Fin n} {pool : RankPool}
    {ranks : OrdSet Int} {rest : List (Fin n)} {in_flight : Nat} (hi : s.status i ≠ .running)
    (hsome : ranks.size ≠ 0)
    (halloc : s.rank_pool.try_allocate (s.nodes i).required_ranks = .ok (pool, ranks)) :
    HoldInv { s.set_status i .running with
      rank_pool := pool, ready_queue := rest, in_flight
      allocated_ranks := Function.update s.allocated_ranks i ranks } := by
  obtain ⟨hinv, hsize, hfree, hun⟩ := h.allocated hsome halloc
  have hshape : ∀ v, ((s.set_status i .running).nodes v).required_ranks =
      (s.nodes v).required_ranks := fun v => congrArg (·.2.2.1) (set_status_shape s i .running v)
  have hnew : ∀ r ∈ ranks, ∀ v, r ∉ s.allocated_ranks v := fun r hr v hv =>
    hfree r hr ((h.unavailable r).mpr ⟨v, hv⟩)
  have hiempty := h.released i hi
  refine ⟨hinv, fun v => (hshape v).symm ▸ h.need v, fun v hv => ?_, fun v hv => ?_,
    fun u v r hu hv => ?_, fun r => ?_⟩
  · change (s.set_status i .running).status v = .running at hv
    rw [EventLoop.set_status_status] at hv
    refine Eq.trans ?_ (hshape v).symm
    by_cases hvi : v = i
    · subst hvi; simpa using hsize
    · rw [if_neg hvi] at hv
      simpa [hvi] using h.held v hv
  · change (s.set_status i .running).status v ≠ .running at hv
    rw [EventLoop.set_status_status] at hv
    by_cases hvi : v = i
    · rw [if_pos hvi] at hv; exact absurd rfl hv
    · rw [if_neg hvi] at hv
      simpa [hvi] using h.released v hv
  · by_cases hui : u = i
    · by_cases hvi : v = i
      · rw [hui, hvi]
      · simp only [hui, Function.update_self] at hu
        simp only [Function.update_of_ne hvi] at hv
        exact absurd hv (hnew r hu v)
    · by_cases hvi : v = i
      · simp only [hvi, Function.update_self] at hv
        simp only [Function.update_of_ne hui] at hu
        exact absurd hu (hnew r hv u)
      · simp only [Function.update_of_ne hui] at hu
        simp only [Function.update_of_ne hvi] at hv
        exact h.disjoint u v r hu hv
  · simp only [hun, h.unavailable]
    constructor
    · rintro (⟨v, hv⟩ | hr)
      · have hvi : v ≠ i := by rintro rfl; rw [hiempty] at hv; exact OrdSet.not_mem_empty r hv
        exact ⟨v, by rwa [Function.update_of_ne hvi]⟩
      · exact ⟨i, by rwa [Function.update_self]⟩
    · rintro ⟨v, hv⟩
      by_cases hvi : v = i
      · rw [hvi, Function.update_self] at hv; exact .inr hv
      · rw [Function.update_of_ne hvi] at hv; exact .inl ⟨v, hv⟩

/-! ### Completion, failure and forced cancellation -/

theorem complete_node_running (s : EventLoop n) (i : Fin n) :
    (s.complete_node i).running = s.running.erase i := by
  ext v
  rw [EventLoop.mem_running, complete_node_status, Finset.mem_erase, EventLoop.mem_running]
  by_cases hv : v = i <;> simp [hv]

theorem propagate_failure_running (s : EventLoop n) (i : Fin n) :
    (s.propagate_failure i).running = s.running.erase i := by
  ext v
  rw [EventLoop.mem_running, Finset.mem_erase, EventLoop.mem_running]
  rcases propagate_failure_status s i v with heq | ⟨hvi, hcan, heq⟩
  · rw [heq]
    by_cases hv : v = i <;> simp [hv]
  · rw [heq, EventLoop.status]
    rcases (cancellable_iff _).mp hcan with hst | hst <;> simp [hst]

theorem HoldInv.complete {s : EventLoop n} (h : HoldInv s) (i : Fin n) :
    HoldInv (s.complete_node i) := by
  refine (h.stop i .completed (by decide)).of_same rfl rfl (fun v => ?_) fun v => ?_
  · simp only [EventLoop.complete_node, EventLoop.foldl_decrement_dep]
  · rw [complete_node_status, EventLoop.release_allocated_status, EventLoop.set_status_status]

theorem HoldInv.fail {s : EventLoop n} (h : HoldInv s) (i : Fin n) :
    HoldInv (s.propagate_failure i) := by
  have hnodes := s.propagate_failure_nodes i
  refine (h.stop i .failed (by decide)).of_same rfl rfl (fun v => ?_) fun v => ?_
  · rw [EventLoop.release_allocated_nodes]
    exact congrArg (·.2.2.1) (hnodes.shape v)
  · rw [EventLoop.release_allocated_status]
    rcases hnodes.status v with heq | ⟨hcan, heq⟩
    · rw [EventLoop.status, heq]; rfl
    · rw [EventLoop.status, heq, EventLoop.status]
      rcases (cancellable_iff _).mp hcan with hst | hst <;> simp [hst]

theorem release_then_set_status (s : EventLoop n) (i : Fin n) (st : TaskStatus) :
    (s.release_allocated i).set_status i st = (s.set_status i st).release_allocated i := by
  unfold EventLoop.release_allocated
  rw [EventLoop.set_status_allocated_ranks]
  by_cases hempty : (s.allocated_ranks i).size = 0
  · rw [if_pos hempty, if_pos hempty]
  · rw [if_neg hempty, if_neg hempty]; rfl

/-- **`force_cancel_in_flight`** stops every running node. -/
theorem force_cancel_spec {s : EventLoop n} (h : HoldInv s) :
    HoldInv s.force_cancel_in_flight ∧ s.force_cancel_in_flight.running = ∅ ∧
      s.force_cancel_in_flight.max_concurrency = s.max_concurrency := by
  have key : ∀ (l : List (Fin n)) (s : EventLoop n), HoldInv s →
      HoldInv (l.foldl EventLoop.force_cancel_node s) ∧
      (∀ v, (l.foldl EventLoop.force_cancel_node s).status v = .running →
        s.status v = .running ∧ v ∉ l) ∧
      (l.foldl EventLoop.force_cancel_node s).max_concurrency = s.max_concurrency := by
    intro l
    induction l with
    | nil => exact fun s h => ⟨h, fun v hv => ⟨hv, List.not_mem_nil⟩, rfl⟩
    | cons i l ih =>
      intro s h
      have hstep : HoldInv (s.force_cancel_node i) ∧
          (∀ v, (s.force_cancel_node i).status v = .running → s.status v = .running ∧ v ≠ i) ∧
          (s.force_cancel_node i).max_concurrency = s.max_concurrency := by
        unfold EventLoop.force_cancel_node
        split
        · rw [release_then_set_status]
          refine ⟨h.stop i _ (by decide), fun v hv => ?_, by simp⟩
          rw [EventLoop.release_allocated_status, EventLoop.set_status_status] at hv
          split at hv
          · cases hv
          · next hvi => exact ⟨hv, hvi⟩
        · next hnot => exact ⟨h, fun v hv => ⟨hv, by rintro rfl; exact hnot hv⟩, rfl⟩
      obtain ⟨hinv, hrun, hmax⟩ := hstep
      obtain ⟨hinv', hrun', hmax'⟩ := ih _ hinv
      refine ⟨hinv', fun v hv => ?_, hmax'.trans hmax⟩
      obtain ⟨hv', hnotin⟩ := hrun' v hv
      obtain ⟨hv'', hne⟩ := hrun v hv'
      exact ⟨hv'', by simp [hne, hnotin]⟩
  obtain ⟨hinv, hrun, hmax⟩ := key (List.finRange n) s h
  refine ⟨hinv.of_same rfl rfl (fun _ => rfl) fun _ => Iff.rfl, ?_, hmax⟩
  ext v
  rw [EventLoop.mem_running]
  refine ⟨fun hv => absurd (List.mem_finRange v) (hrun v hv).2, fun hv => ?_⟩
  exact absurd hv (Finset.notMem_empty v)

/-! ## Section 3: Conservation -/

/-- The whole invariant: the allocations, the in-flight counter and its cap. A
    node inside its dispatch callback may have been cancelled by force; then
    nothing is running. -/
structure RankInv (cfg : PipelineConfig) (s : LoopState cfg.num_tasks) : Prop where
  hold : HoldInv s.loop
  in_flight_eq : s.loop.in_flight = s.loop.running.card
  cap : s.loop.in_flight ≤ s.loop.max_concurrency
  limit : s.loop.max_concurrency = cfg.max_concurrency ∧ cfg.max_concurrency ≤ 1024
  calling : ∀ i, s.phase = .calling i → s.loop.status i = .running ∨ s.loop.running = ∅

variable {cfg : PipelineConfig}

theorem rank_inv_init {ranks : OrdSet Int} {s : LoopState cfg.num_tasks}
    (h : LoopInit cfg ranks s) : RankInv cfg s := by
  obtain ⟨-, hmax, hloop⟩ := h.loop_eq
  have hpend : ∀ v, s.loop.status v = .pending := fun v => by
    rw [EventLoop.status, hloop]; rfl
  have hnone : s.loop.running = ∅ := by
    ext v; simp [hpend]
  refine ⟨⟨?_, fun v => ?_, fun v hv => ?_, fun v _ => ?_, fun u v r hu => ?_, fun r => ?_⟩, ?_, ?_,
    ⟨by rw [hloop], hmax⟩, fun i hi => ?_⟩
  · rw [hloop]; exact RankPool.inv_make ranks
  · rw [hloop]; exact Nat.zero_lt_one
  · rw [hpend] at hv; cases hv
  · rw [hloop]
  · rw [hloop] at hu; exact absurd hu (OrdSet.not_mem_empty r)
  · rw [hloop]
    constructor
    · exact fun hr => absurd hr (RankPool.not_unavailable_make ranks r)
    · rintro ⟨v, hv⟩; exact absurd hv (OrdSet.not_mem_empty r)
  · rw [hnone, hloop]; rfl
  · rw [hloop]; exact Nat.zero_le _
  · exact .inr hnone

theorem card_erase_in_flight {s : EventLoop n} {i : Fin n} (hcount : s.in_flight = s.running.card)
    (hle : s.in_flight ≤ 1024) (hi : s.status i = .running) :
    Word.sub 32 s.in_flight 1 = (s.running.erase i).card ∧ 0 < s.in_flight := by
  have hmem : i ∈ s.running := EventLoop.mem_running.mpr hi
  have hpos : 0 < s.running.card := Finset.card_pos.mpr ⟨i, hmem⟩
  rw [Finset.card_erase_of_mem hmem, hcount] at *
  exact ⟨Word.sub_of_le (by omega) hpos, hpos⟩

section Steps

variable {s : LoopState cfg.num_tasks}

theorem RankInv.fail (h : RankInv cfg s) {i : Fin cfg.num_tasks} {phase : Phase cfg.num_tasks}
    (hphase : ∀ j, phase ≠ .calling j) (hi : s.phase = .calling i ∨ s.loop.status i = .running) :
    RankInv cfg { s with loop := s.loop.propagate_failure i, phase } := by
  have hle : s.loop.in_flight ≤ 1024 := by have := h.cap; have := h.limit; omega
  have hfl : (s.loop.propagate_failure i).in_flight =
      if 0 < s.loop.in_flight then Word.sub 32 s.loop.in_flight 1 else s.loop.in_flight := by
    simp [EventLoop.propagate_failure]
  have hmax : (s.loop.propagate_failure i).max_concurrency = s.loop.max_concurrency := by
    simp [EventLoop.propagate_failure]
  have hcount : (s.loop.propagate_failure i).in_flight = (s.loop.running.erase i).card := by
    rcases hi.elim (h.calling i) .inl with hrun | hnone
    · obtain ⟨hsub, hpos⟩ := card_erase_in_flight h.in_flight_eq hle hrun
      rw [hfl, if_pos hpos, hsub]
    · -- the node was cancelled by force while its callback ran
      have hzero : s.loop.in_flight = 0 := by rw [h.in_flight_eq, hnone]; rfl
      rw [hfl, hzero, if_neg (lt_irrefl 0), hnone]
      rfl
  refine ⟨h.hold.fail i, ?_, ?_, ?_, fun j hj => absurd hj (hphase j)⟩
  · rw [propagate_failure_running]; exact hcount
  · have := Finset.card_le_card (Finset.erase_subset i s.loop.running)
    have := h.in_flight_eq
    have := h.cap
    simp only [hcount, hmax]
    omega
  · simp only [hmax]; exact h.limit

theorem RankInv.complete (h : RankInv cfg s) {i : Fin cfg.num_tasks} {phase : Phase cfg.num_tasks}
    (hphase : ∀ j, phase ≠ .calling j) (hrun : s.loop.status i = .running) :
    RankInv cfg { s with loop := s.loop.complete_node i, phase } := by
  have hle : s.loop.in_flight ≤ 1024 := by have := h.cap; have := h.limit; omega
  obtain ⟨hsub, -⟩ := card_erase_in_flight h.in_flight_eq hle hrun
  have hfl : (s.loop.complete_node i).in_flight = Word.sub 32 s.loop.in_flight 1 := by
    simp [EventLoop.complete_node]
  have hmax : (s.loop.complete_node i).max_concurrency = s.loop.max_concurrency := by
    simp [EventLoop.complete_node]
  refine ⟨h.hold.complete i, ?_, ?_, ?_, fun j hj => absurd hj (hphase j)⟩
  · rw [complete_node_running, hfl]; exact hsub
  · have := Finset.card_le_card (Finset.erase_subset i s.loop.running)
    have := h.in_flight_eq
    have := h.cap
    simp only [hfl, hsub, hmax]
    omega
  · simp only [hmax]; exact h.limit

theorem RankInv.start (h : RankInv cfg s) {i : Fin cfg.num_tasks} {pool : RankPool}
    {ranks : OrdSet Int} {rest : List (Fin cfg.num_tasks)} (hready : s.loop.status i = .ready)
    (hslot : s.loop.in_flight < s.loop.max_concurrency) (hsome : ranks.size ≠ 0)
    (halloc : s.loop.rank_pool.try_allocate (s.loop.nodes i).required_ranks = .ok (pool, ranks)) :
    RankInv cfg
      { loop :=
          { s.loop.set_status i .running with
            rank_pool := pool
            ready_queue := rest
            in_flight := Word.add 32 s.loop.in_flight 1
            allocated_ranks := Function.update s.loop.allocated_ranks i ranks }
        phase := .calling i
        dispatched := s.dispatched ++ [i] } := by
  have hle : s.loop.max_concurrency ≤ 1024 := by have := h.limit; omega
  have hadd : Word.add 32 s.loop.in_flight 1 = s.loop.in_flight + 1 :=
    Word.add_of_lt (by omega)
  have hrunning : (s.loop.set_status i .running).running = insert i s.loop.running := by
    ext v
    rw [EventLoop.mem_running, EventLoop.set_status_status, Finset.mem_insert,
      EventLoop.mem_running]
    by_cases hv : v = i <;> simp [hv]
  have hnew : i ∉ s.loop.running := by rw [EventLoop.mem_running, hready]; decide
  refine ⟨h.hold.start (by simp [hready]) hsome halloc, ?_, ?_, h.limit, fun j hj => ?_⟩
  · refine hadd.trans ?_
    change _ = (s.loop.set_status i .running).running.card
    rw [hrunning, Finset.card_insert_of_notMem hnew, h.in_flight_eq]
  · change Word.add 32 s.loop.in_flight 1 ≤ s.loop.max_concurrency
    omega
  · cases hj
    left
    change (s.loop.set_status i .running).status i = .running
    simp

theorem RankInv.of_same {s' : LoopState cfg.num_tasks} (h : RankInv cfg s) (hold : HoldInv s'.loop)
    (hfl : s'.loop.in_flight = s.loop.in_flight)
    (hmax : s'.loop.max_concurrency = s.loop.max_concurrency)
    (hrun : s'.loop.running = s.loop.running) (hphase : ∀ j, s'.phase ≠ .calling j) :
    RankInv cfg s' where
  hold := hold
  in_flight_eq := by rw [hfl, hrun, h.in_flight_eq]
  cap := by rw [hfl, hmax]; exact h.cap
  limit := by rw [hmax]; exact h.limit
  calling := fun i hi => absurd hi (hphase i)

theorem rank_inv_step {s' : LoopState cfg.num_tasks} (h : RankInv cfg s) (he : s.Effect s') :
    RankInv cfg s' := by
  cases he with
  | control phase hphase => exact h.of_same h.hold rfl rfl rfl hphase
  | poll =>
    have hrun : ∀ v, s.loop.poll_ready_nodes.status v = .running ↔ s.loop.status v = .running :=
      fun v => by
        simp only [EventLoop.status, poll_ready_nodes_nodes]
        rcases polled_status (s.loop.nodes v) with heq | ⟨hp, -, hr⟩
        · rw [heq]
        · rw [hp, hr]; simp
    have hneed : ∀ v, (s.loop.poll_ready_nodes.nodes v).required_ranks =
        (s.loop.nodes v).required_ranks := fun v => by
      rw [poll_ready_nodes_nodes]
      exact congrArg (·.2.2.1) (polled_shape (s.loop.nodes v))
    obtain ⟨q, hq⟩ := s.loop.poll_ready_nodes_eq
    refine h.of_same (h.hold.of_same ?_ ?_ hneed hrun) ?_ ?_ ?_ fun j => by simp
    · rw [hq]
    · rw [hq]
    · rw [hq]
    · rw [hq]
    · ext v; simp only [EventLoop.mem_running, hrun]
  | wait i pool ranks hempty halloc =>
    obtain rfl := h.hold.not_allocated hempty halloc
    exact h.of_same h.hold rfl rfl rfl fun j => by simp
  | skip rest =>
    exact h.of_same (h.hold.of_same rfl rfl (fun _ => rfl) fun _ => Iff.rfl) rfl rfl rfl
      fun j => by simp
  | start i rest pool ranks hready hslot hsome halloc => exact h.start hready hslot hsome halloc
  | fail i phase hphase hi => exact h.fail hphase hi
  | complete i phase hphase hrun => exact h.complete hphase hrun

theorem RankInv.force_cancel (h : RankInv cfg s) :
    RankInv cfg { s with loop := s.loop.force_cancel_in_flight } := by
  obtain ⟨hold, hnone, hmax⟩ := force_cancel_spec h.hold
  refine ⟨hold, ?_, Nat.zero_le _, ?_, fun i _ => .inr hnone⟩
  · rw [hnone]; rfl
  · simp only [hmax]; exact h.limit

theorem RankInv.with_pool (h : RankInv cfg s) {pool : RankPool} (hpool : pool.Inv)
    (hun : ∀ r, pool.Unavailable r ↔ s.loop.rank_pool.Unavailable r) :
    RankInv cfg { s with loop := { s.loop with rank_pool := pool } } where
  hold := h.hold.with_pool hpool hun
  in_flight_eq := h.in_flight_eq
  cap := h.cap
  limit := h.limit
  calling := h.calling

end Steps

theorem orch_inv_step {o o' : OrchState cfg.num_tasks} {l : OrchLabel} (h : RankInv cfg o.run)
    (hstep : o.next l = some o') : RankInv cfg o'.run := by
  cases l with
  | loop l =>
    obtain ⟨run, hrun, rfl⟩ := Option.map_eq_some_iff.mp hstep
    exact rank_inv_step h (LoopState.next_effect hrun)
  | force_cancel => cases hstep; exact h.force_cancel
  | yield_ranks rank_set =>
    cases hstep
    unfold OrchState.yield_ranks
    split
    · exact h
    · exact h.with_pool (RankPool.add_ranks_inv h.hold.pool rank_set)
        (RankPool.add_ranks_unavailable _ rank_set)
  | reclaim_ranks rank_set =>
    cases hstep
    unfold OrchState.reclaim_ranks
    split
    · exact h
    · exact h.with_pool (RankPool.remove_available_inv h.hold.pool rank_set)
        (RankPool.remove_available_unavailable _ rank_set)
  | process_deferred_reclamation =>
    cases hstep
    unfold OrchState.process_deferred_reclamation
    split
    · exact h
    · exact h.with_pool (RankPool.remove_available_inv h.hold.pool _)
        (RankPool.remove_available_unavailable _ _)
  | shutdown =>
    simp only [OrchState.next] at hstep
    split at hstep
    · cases hstep; exact h
    · cases hstep

theorem orch_inv_reachable {ranks : OrdSet Int} {o : OrchState cfg.num_tasks}
    (hr : (orchestratorSystem cfg ranks).Reachable o) : RankInv cfg o.run := by
  refine hr.invariant (P := fun o => RankInv cfg o.run) (fun o h => ?_) fun o l o' _ h hstep => ?_
  · exact rank_inv_init (show OrchInit cfg ranks o from h).1
  · exact orch_inv_step h hstep

/-- **Conservation of ranks**, over every interleaving. The in-flight counter
    counts the running nodes and respects the cap; running nodes hold disjoint
    sets of exactly the ranks they require; these are exactly the ranks the
    pool marks unavailable; and the counters of the pool add up. -/
theorem ranks_conserved {ranks : OrdSet Int} {o : OrchState cfg.num_tasks}
    (hr : (orchestratorSystem cfg ranks).Reachable o) :
    (o.loop.in_flight = o.loop.running.card ∧ o.loop.in_flight ≤ cfg.max_concurrency) ∧
    (∀ u ∈ o.loop.running, ∀ v ∈ o.loop.running, u ≠ v →
      ∀ r ∈ o.loop.allocated_ranks u, r ∉ o.loop.allocated_ranks v) ∧
    (∀ v ∈ o.loop.running, (o.loop.allocated_ranks v).size = (o.loop.nodes v).required_ranks) ∧
    (∀ r, o.loop.rank_pool.Unavailable r ↔ ∃ v ∈ o.loop.running, r ∈ o.loop.allocated_ranks v) ∧
    (Word.add 32 o.loop.rank_pool.available_ranks o.loop.rank_pool.allocated_ranks =
        o.loop.rank_pool.total_ranks ∧
      (o.loop.rank_pool.slots.length < 2 ^ 32 →
        o.loop.rank_pool.available_ranks = o.loop.rank_pool.slots.countP (·.2) ∧
        o.loop.rank_pool.allocated_ranks = o.loop.rank_pool.slots.countP (!·.2) ∧
        o.loop.rank_pool.available_ranks + o.loop.rank_pool.allocated_ranks =
          o.loop.rank_pool.total_ranks)) := by
  have h := orch_inv_reachable hr
  refine ⟨⟨h.in_flight_eq, h.limit.1 ▸ h.cap⟩, fun u _ v _ huv r hu hv => ?_, fun v hv => ?_,
    fun r => ?_, h.hold.pool.available_add_allocated, h.hold.pool.counters_exact⟩
  · exact huv (h.hold.disjoint u v r hu hv)
  · exact h.hold.held v (EventLoop.mem_running.mp hv)
  · refine (h.hold.unavailable r).trans ⟨?_, ?_⟩
    · rintro ⟨v, hv⟩
      refine ⟨v, ?_, hv⟩
      by_contra hnot
      rw [h.hold.released v fun hrun => hnot (EventLoop.mem_running.mpr hrun)] at hv
      exact OrdSet.not_mem_empty r hv
    · rintro ⟨v, -, hv⟩
      exact ⟨v, hv⟩

theorem ranks_conserved_twoStage : ∃ o : OrchState twoStage.num_tasks,
    (orchestratorSystem twoStage ranks₂).Reachable o ∧ o.loop.status ⟨0, by decide⟩ = .failed ∧
    o.loop.in_flight = o.loop.running.card := by
  have hrun : ∃ o, System.exec OrchState.next
      ⟨⟨⟨4, twoStage.populate_nodes, .make ranks₂, [], 0, fun _ => .empty⟩, .idle, []⟩, .empty, false⟩
      [.loop .poll, .loop .dispatch, .yield_ranks (.insert 7 .empty), .reclaim_ranks ranks₂,
        .force_cancel, .process_deferred_reclamation, .loop (.returned .refused)] = some o ∧
      o.loop.status ⟨0, by decide⟩ = .failed := ⟨_, rfl, rfl⟩
  obtain ⟨o, ho, h0⟩ := hrun
  have hr : (orchestratorSystem twoStage ranks₂).Reachable o :=
    System.reachable_of_exec ⟨⟨rfl, rfl, rfl⟩, rfl, rfl⟩ ho
  exact ⟨o, hr, h0, (ranks_conserved hr).1.1⟩

end Dagr
