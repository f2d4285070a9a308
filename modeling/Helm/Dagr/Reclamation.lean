import Helm.Dagr.Shutdown

/-! # GraphOrchestrator: reclaiming ranks

  A rank that is reclaimed while a task holds it is remembered in
  `deferred_reclaim` and leaves the pool later. This module follows such
  requests over every interleaving of `yield_ranks`, `reclaim_ranks`,
  `process_deferred_reclamation` and cycles of the loop.

  The list remembers rank numbers, not requests. It takes in ranks that are
  not in the pool, and an entry survives a new `yield_ranks` of the same
  rank, so an old request can take away a rank that was given anew. Under
  the condition `Careful` on the single calls none of this happens, and
  every request is served exactly once.
-/

namespace Dagr

open LTS GraphOrchestrator

variable {n : Nat}

/-! ## Section 1: Model -/

/-- The calls that move ranks. A cycle occurs alone and, as in all callers of
    `cycle`, together with `process_deferred_reclamation`. -/
inductive RankCall (n : Nat)
  | cycle (cb : Callbacks n)
  | advance_step (cb : Callbacks n)
  | yield_ranks (rank_set : OrdSet Int)
  | reclaim_ranks (rank_set : OrdSet Int)
  | process_deferred_reclamation

/-- The state a call leaves. -/
def RankCall.apply (o : OrchState n) : RankCall n → OrchState n
  | .cycle cb => (o.cycle cb).1
  | .advance_step cb => (GraphOrchestrator.advance_step cb o).1
  | .yield_ranks rank_set => o.yield_ranks rank_set
  | .reclaim_ranks rank_set => o.reclaim_ranks rank_set
  | .process_deferred_reclamation => o.process_deferred_reclamation

instance (p : RankPool) (r : Int) : Decidable (p.Manages r) :=
  inferInstanceAs (Decidable (r ∈ p.slots.map Prod.fst))

/-- An orchestrator and the history of every rank. -/
structure RankLedger (n : Nat) where
  orch : OrchState n
  /-- A `reclaim_ranks` since the last `yield_ranks` of this rank has named it. -/
  asked : Int → Bool
  /-- How often the rank was reclaimed, repetitions not counted. -/
  requests : Int → Nat
  /-- How often the rank has left the pool. -/
  left : Int → Nat

namespace RankLedger

/-- The pool. -/
def pool (s : RankLedger n) : RankPool := s.orch.loop.rank_pool

/-- A call and what it adds to the history. -/
def next (s : RankLedger n) (c : RankCall n) : Option (RankLedger n) :=
  let o := c.apply s.orch
  some
    { orch := o
      asked := fun r =>
        match c with
        | .yield_ranks rank_set => if r ∈ rank_set then false else s.asked r
        | .reclaim_ranks rank_set => if r ∈ rank_set then true else s.asked r
        | _ => s.asked r
      requests := fun r =>
        match c with
        | .reclaim_ranks rank_set =>
          if r ∈ rank_set ∧ s.pool.Manages r ∧ s.asked r = false then s.requests r + 1
          else s.requests r
        | _ => s.requests r
      left := fun r =>
        if s.pool.Manages r ∧ ¬ o.loop.rank_pool.Manages r then s.left r + 1 else s.left r }

end RankLedger

/-- The ledger of a fresh orchestrator is empty. -/
def LedgerInit (cfg : PipelineConfig) (ranks : OrdSet Int) (s : RankLedger cfg.num_tasks) : Prop :=
  OrchInit cfg ranks s.orch ∧ s.asked = (fun _ => false) ∧ s.requests = (fun _ => 0) ∧
    s.left = fun _ => 0

/-- The orchestrator of a pipeline, under every interleaving of the calls that
    move ranks. -/
def rankSystem (cfg : PipelineConfig) (ranks : OrdSet Int) :
    System (RankLedger cfg.num_tasks) (RankCall cfg.num_tasks) :=
  .ofNext (LedgerInit cfg ranks) RankLedger.next

/-- The condition on a call: only ranks of the pool are reclaimed, no rank is
    yielded while its reclamation is deferred, and a cycle that no
    `process_deferred_reclamation` follows gets no report of a task that holds
    such a rank. -/
def Careful (s : RankLedger n) : RankCall n → Prop
  | .cycle cb => ∀ report ∈ cb.completions, ∀ h : report.1 < n,
      ∀ r ∈ s.orch.deferred_reclaim.toList, r ∉ s.orch.loop.allocated_ranks ⟨report.1, h⟩
  | .advance_step _ => True
  | .yield_ranks rank_set => ∀ r ∈ rank_set.toList, r ∉ s.orch.deferred_reclaim
  | .reclaim_ranks rank_set => ∀ r ∈ rank_set.toList, s.pool.Manages r
  | .process_deferred_reclamation => True

instance (s : RankLedger n) (c : RankCall n) : Decidable (Careful s c) := by
  cases c <;> unfold Careful <;> infer_instance

/-! ## Section 2: What a cycle does to the ranks -/

namespace EventLoop

/-- The pool manages the same ranks and every task needs the same number. -/
def SameRanks (s s' : EventLoop n) : Prop :=
  (∀ r, s'.rank_pool.Manages r ↔ s.rank_pool.Manages r) ∧
    ∀ v, (s'.nodes v).required_ranks = (s.nodes v).required_ranks

theorem SameRanks.refl (s : EventLoop n) : SameRanks s s := ⟨fun _ => Iff.rfl, fun _ => rfl⟩

theorem SameRanks.trans {s s' s'' : EventLoop n} (h : SameRanks s s') (h' : SameRanks s' s'') :
    SameRanks s s'' :=
  ⟨fun r => (h'.1 r).trans (h.1 r), fun v => (h'.2 v).trans (h.2 v)⟩

theorem release_allocated_manages (s : EventLoop n) (i : Fin n) (r : Int) :
    (s.release_allocated i).rank_pool.Manages r ↔ s.rank_pool.Manages r := by
  unfold release_allocated
  split
  · rfl
  · exact RankPool.release_manages _ _ r

theorem set_status_required_ranks (s : EventLoop n) (i : Fin n) (st : TaskStatus) (v : Fin n) :
    ((s.set_status i st).nodes v).required_ranks = (s.nodes v).required_ranks :=
  congrArg (·.2.2.1) (set_status_shape s i st v)

theorem propagate_failure_same_ranks (s : EventLoop n) (i : Fin n) :
    SameRanks s (s.propagate_failure i) := by
  refine ⟨fun r => release_allocated_manages (s.set_status i .failed) i r, fun v => ?_⟩
  have hshape := (s.propagate_failure_nodes i).shape v
  exact (congrArg (·.2.2.1) hshape).trans (s.set_status_required_ranks i .failed v)

theorem complete_node_same_ranks (s : EventLoop n) (i : Fin n) :
    SameRanks s (s.complete_node i) := by
  refine ⟨fun r => release_allocated_manages (s.set_status i .completed) i r, fun v => ?_⟩
  rw [complete_node_nodes]

theorem poll_ready_nodes_same_ranks (s : EventLoop n) : SameRanks s s.poll_ready_nodes := by
  obtain ⟨q, hq⟩ := s.poll_ready_nodes_eq
  refine ⟨fun r => by rw [hq], fun v => ?_⟩
  rw [poll_ready_nodes_nodes]
  exact congrArg (·.2.2.1) (polled_shape (s.nodes v))

theorem process_completions_same_ranks (cs : List (Nat × Bool)) (s : EventLoop n) :
    SameRanks s (s.process_completions cs) := by
  induction cs generalizing s with
  | nil => exact .refl s
  | cons c cs ih =>
    refine SameRanks.trans ?_ (ih (s.process_completion c))
    unfold process_completion
    split
    · split
      · exact .refl s
      · split
        · exact s.complete_node_same_ranks _
        · exact s.propagate_failure_same_ranks _
    · exact .refl s

theorem dispatch_loop_same_ranks (cb : Fin n → OrdSet Int → DispatchResult) (fuel : Nat)
    {s : EventLoop n} (hneed : ∀ v, 0 < (s.nodes v).required_ranks) :
    SameRanks s (s.dispatch_loop cb fuel).1 ∧ (s.dispatch_loop cb fuel).2 = none := by
  induction fuel generalizing s with
  | zero => exact ⟨.refl s, rfl⟩
  | succ fuel ih =>
    have hspec := s.dispatch_front_spec
    rw [dispatch_loop]
    cases hfront : s.dispatch_front with
    | stop s' =>
      rw [hfront] at hspec
      rcases hspec with rfl | ⟨i, pool, ranks, -, halloc, rfl⟩
      · exact ⟨.refl _, rfl⟩
      · exact ⟨⟨RankPool.try_allocate_manages halloc, fun v => rfl⟩, rfl⟩
    | skipped s' =>
      rw [hfront] at hspec
      obtain ⟨rest, rfl⟩ := hspec
      exact ih (s := { s with ready_queue := rest }) hneed
    | called i s' =>
      rw [hfront] at hspec
      obtain ⟨-, rest, pool, ranks, -, halloc, hs'⟩ := hspec
      have hcall : SameRanks s s' := by
        rw [hs']
        exact ⟨RankPool.try_allocate_manages halloc, s.set_status_required_ranks i .running⟩
      have hreturn : SameRanks s
          (s'.dispatch_returned i (cb i (s'.allocated_ranks i))) := by
        refine hcall.trans ?_
        cases cb i (s'.allocated_ranks i) with
        | succeeded => exact .refl s'
        | refused => exact s'.propagate_failure_same_ranks i
        | threw => exact s'.propagate_failure_same_ranks i
      obtain ⟨hsame, hnone⟩ := ih fun v => by rw [hreturn.2]; exact hneed v
      exact ⟨hreturn.trans hsame, hnone⟩
    | threw msg =>
      rw [hfront] at hspec
      obtain ⟨i, -, herror⟩ := hspec
      exact absurd herror (RankPool.try_allocate_ok (hneed i) msg)

/-- **`cycle`** leaves the managed ranks alone, and does not throw. -/
theorem cycle_same_ranks (cb : Fin n → OrdSet Int → DispatchResult) (cs : List (Nat × Bool))
    {s : EventLoop n} (hneed : ∀ v, 0 < (s.nodes v).required_ranks) :
    SameRanks s (s.cycle cb cs).1 ∧ ∃ all_done, (s.cycle cb cs).2 = .ok all_done := by
  have hpoll := s.poll_ready_nodes_same_ranks
  obtain ⟨hdispatch, hnone⟩ := dispatch_loop_same_ranks cb
    (s.poll_ready_nodes.ready_queue.length + 1) fun v => by rw [hpoll.2]; exact hneed v
  unfold cycle dispatch_ready_nodes
  revert hdispatch hnone
  rcases s.poll_ready_nodes.dispatch_loop cb (s.poll_ready_nodes.ready_queue.length + 1)
    with ⟨s', msg⟩
  intro hdispatch hnone
  simp only at hnone
  subst hnone
  exact ⟨(hpoll.trans hdispatch).trans (process_completions_same_ranks cs s'), _, rfl⟩

/-- Node `v` goes on running, on the ranks it has. -/
def Continues (v : Fin n) (s s' : EventLoop n) : Prop :=
  s.status v = .running → s'.status v = .running ∧ s'.allocated_ranks v = s.allocated_ranks v

theorem Continues.trans {v : Fin n} {s s' s'' : EventLoop n} (h : Continues v s s')
    (h' : Continues v s' s'') : Continues v s s'' := by
  intro hrun
  obtain ⟨hrun', halloc⟩ := h hrun
  obtain ⟨hrun'', halloc'⟩ := h' hrun'
  exact ⟨hrun'', halloc'.trans halloc⟩

theorem propagate_failure_continues (s : EventLoop n) {i v : Fin n} (hv : v ≠ i) :
    Continues v s (s.propagate_failure i) := by
  intro hrun
  refine ⟨?_, ?_⟩
  · rcases propagate_failure_status s i v with heq | ⟨-, hcan, -⟩
    · rw [heq, if_neg hv, hrun]
    · rw [cancellable_iff] at hcan
      rw [status] at hrun
      rw [hrun] at hcan
      simp at hcan
  · simp [propagate_failure, hv]

theorem process_completions_continues (cs : List (Nat × Bool)) {v : Fin n}
    (hv : ∀ c ∈ cs, c.1 ≠ v) (s : EventLoop n) : Continues v s (s.process_completions cs) := by
  induction cs generalizing s with
  | nil => exact fun hrun => ⟨hrun, rfl⟩
  | cons c cs ih =>
    refine Continues.trans ?_ (ih (fun c' hc' => hv c' (List.mem_cons_of_mem _ hc')) _)
    have hne := hv c List.mem_cons_self
    unfold process_completion
    split
    · next hlt =>
      have hvi : v ≠ ⟨c.1, hlt⟩ := fun heq => hne (congrArg Fin.val heq.symm)
      split
      · exact fun hrun => ⟨hrun, rfl⟩
      · split
        · intro hrun
          rw [complete_node_status, if_neg hvi]
          refine ⟨hrun, ?_⟩
          simp [complete_node, hvi]
        · exact s.propagate_failure_continues hvi
    · exact fun hrun => ⟨hrun, rfl⟩

theorem dispatch_loop_continues (cb : Fin n → OrdSet Int → DispatchResult) (fuel : Nat)
    (v : Fin n) (s : EventLoop n) : Continues v s (s.dispatch_loop cb fuel).1 := by
  induction fuel generalizing s with
  | zero => exact fun hrun => ⟨hrun, rfl⟩
  | succ fuel ih =>
    have hspec := s.dispatch_front_spec
    rw [dispatch_loop]
    cases hfront : s.dispatch_front with
    | stop s' =>
      rw [hfront] at hspec
      rcases hspec with rfl | ⟨i, pool, ranks, -, -, rfl⟩
      · exact fun hrun => ⟨hrun, rfl⟩
      · exact fun hrun => ⟨hrun, rfl⟩
    | skipped s' =>
      rw [hfront] at hspec
      obtain ⟨rest, rfl⟩ := hspec
      exact ih { s with ready_queue := rest }
    | called i s' =>
      rw [hfront] at hspec
      obtain ⟨hready, rest, pool, ranks, -, -, hs'⟩ := hspec
      intro hrun
      -- the node dispatched was ready, so it is another one
      have hvi : v ≠ i := by
        intro heq
        rw [heq, hready] at hrun
        cases hrun
      have hcall : Continues v s s' := by
        intro hrun
        rw [hs']
        refine ⟨?_, Function.update_of_ne hvi _ _⟩
        show (s.set_status i .running).status v = .running
        rw [set_status_status, if_neg hvi, hrun]
      have hreturn : Continues v s' (s'.dispatch_returned i (cb i (s'.allocated_ranks i))) := by
        cases cb i (s'.allocated_ranks i) with
        | succeeded => exact fun hrun => ⟨hrun, rfl⟩
        | refused => exact s'.propagate_failure_continues hvi
        | threw => exact s'.propagate_failure_continues hvi
      exact ((hcall.trans hreturn).trans (ih _)) hrun
    | threw msg => exact fun hrun => ⟨hrun, rfl⟩

/-- **`cycle`** ends no task that is not reported. -/
theorem cycle_continues (cb : Fin n → OrdSet Int → DispatchResult) {cs : List (Nat × Bool)}
    {v : Fin n} (hv : ∀ c ∈ cs, c.1 ≠ v) (s : EventLoop n) :
    Continues v s (s.cycle cb cs).1 := by
  have hpoll : Continues v s s.poll_ready_nodes := by
    intro hrun
    obtain ⟨q, hq⟩ := s.poll_ready_nodes_eq
    refine ⟨?_, by rw [hq]⟩
    rw [status, poll_ready_nodes_nodes, polled_of_not, ← status, hrun]
    intro hp
    rw [← status, hrun] at hp
    cases hp.1
  have hdispatch := dispatch_loop_continues cb (s.poll_ready_nodes.ready_queue.length + 1) v
    s.poll_ready_nodes
  unfold cycle dispatch_ready_nodes
  revert hdispatch
  rcases s.poll_ready_nodes.dispatch_loop cb (s.poll_ready_nodes.ready_queue.length + 1)
    with ⟨s', _ | msg⟩
  · intro hdispatch
    exact (hpoll.trans hdispatch).trans (process_completions_continues cs hv s')
  · intro hdispatch
    exact hpoll.trans hdispatch

end EventLoop

/-! ## Section 3: The operations on the list -/

section Operations

variable {o : OrchState n}

/-- Rank `r` is in the pool and available. -/
def Free (o : OrchState n) (r : Int) : Prop := (r, true) ∈ o.loop.rank_pool.slots

/-- **`process_deferred_reclamation`** removes the deferred ranks that are
    available, from the pool and from the list. -/
theorem process_deferred_reclamation_spec (hp : o.loop.rank_pool.Inv) (r : Int) :
    (r ∈ o.process_deferred_reclamation.deferred_reclaim ↔
      r ∈ o.deferred_reclaim ∧ ¬ Free o r) ∧
    (o.process_deferred_reclamation.loop.rank_pool.Manages r ↔
      o.loop.rank_pool.Manages r ∧ ¬ (r ∈ o.deferred_reclaim ∧ Free o r)) := by
  unfold OrchState.process_deferred_reclamation
  split
  · next hempty =>
    have hnot : r ∉ o.deferred_reclaim := by
      rw [OrdSet.eq_empty_of_size_eq_zero hempty]
      exact OrdSet.not_mem_empty r
    simp [hnot]
  · have hremoved := (RankPool.remove_available_removed hp o.deferred_reclaim).1 r
    constructor
    · show r ∈ List.foldl _ _ _ ↔ _
      rw [OrdSet.mem_foldl_erase, ← OrdSet.mem_def, hremoved]
      constructor
      · rintro ⟨hr, hnot⟩
        exact ⟨hr, fun hfree => hnot ⟨hr, hfree⟩⟩
      · rintro ⟨hr, hnot⟩
        exact ⟨hr, fun h => hnot h.2⟩
    · exact RankPool.remove_available_manages hp o.deferred_reclaim r

/-- **`reclaim_ranks`** removes the given ranks that are available and defers
    the others. -/
theorem reclaim_ranks_spec (hp : o.loop.rank_pool.Inv) (hup : o.shut_down = false)
    (rank_set : OrdSet Int) (r : Int) :
    (r ∈ (o.reclaim_ranks rank_set).deferred_reclaim ↔
      r ∈ o.deferred_reclaim ∨ r ∈ rank_set ∧ ¬ Free o r) ∧
    ((o.reclaim_ranks rank_set).loop.rank_pool.Manages r ↔
      o.loop.rank_pool.Manages r ∧ ¬ (r ∈ rank_set ∧ Free o r)) := by
  unfold OrchState.reclaim_ranks
  rw [if_neg (by rw [hup]; decide)]
  have hremoved := (RankPool.remove_available_removed hp rank_set).1
  constructor
  · show r ∈ List.foldl _ _ _ ↔ _
    rw [OrdSet.mem_foldl_insert_unless, ← OrdSet.mem_def, hremoved]
    constructor
    · rintro (hr | ⟨hr, hnot⟩)
      · exact .inl hr
      · exact .inr ⟨hr, fun hfree => hnot ⟨hr, hfree⟩⟩
    · rintro (hr | ⟨hr, hnot⟩)
      · exact .inl hr
      · exact .inr ⟨hr, fun h => hnot h.2⟩
  · exact RankPool.remove_available_manages hp rank_set r

/-- **`yield_ranks`** adds the given ranks and leaves the list alone. -/
theorem yield_ranks_spec (hup : o.shut_down = false) (rank_set : OrdSet Int) (r : Int) :
    (o.yield_ranks rank_set).deferred_reclaim = o.deferred_reclaim ∧
    ((o.yield_ranks rank_set).loop.rank_pool.Manages r ↔
      o.loop.rank_pool.Manages r ∨ r ∈ rank_set) := by
  unfold OrchState.yield_ranks
  rw [if_neg (by rw [hup]; decide)]
  exact ⟨rfl, RankPool.add_ranks_manages _ _ r⟩

theorem free_or_unavailable {r : Int} (h : o.loop.rank_pool.Manages r) :
    Free o r ∨ o.loop.rank_pool.Unavailable r :=
  (o.loop.rank_pool.manages_iff r).mp h

theorem not_free_of_unavailable {r : Int} (hp : o.loop.rank_pool.Inv)
    (h : o.loop.rank_pool.Unavailable r) : ¬ Free o r := by
  intro hfree
  have hflag := hp.flag_unique hfree h
  cases hflag

end Operations

/-! ## Section 4: The ledger -/

variable {cfg : PipelineConfig} {ranks : OrdSet Int}

/-- The invariant of careful runs: what is deferred is held by a running node,
    is what was asked for, and is what is missing in the balance. -/
structure LedgerInv (cfg : PipelineConfig) (s : RankLedger cfg.num_tasks) : Prop where
  rank_inv : RankInv cfg s.orch.run
  idle : s.orch.run.phase = .idle
  up : s.orch.shut_down = false
  busy : ∀ r ∈ s.orch.deferred_reclaim, s.pool.Unavailable r
  asked : ∀ r, s.pool.Manages r → (s.asked r = true ↔ r ∈ s.orch.deferred_reclaim)
  balance : ∀ r, s.requests r = s.left r + if r ∈ s.orch.deferred_reclaim then 1 else 0

section Steps

variable {s : RankLedger cfg.num_tasks}

theorem LedgerInv.pool_inv (h : LedgerInv cfg s) : s.orch.loop.rank_pool.Inv :=
  h.rank_inv.hold.pool

theorem LedgerInv.need (h : LedgerInv cfg s) (v : Fin cfg.num_tasks) :
    0 < (s.orch.loop.nodes v).required_ranks :=
  h.rank_inv.hold.need v

theorem LedgerInv.deferred_not_free (h : LedgerInv cfg s) {r : Int}
    (hr : r ∈ s.orch.deferred_reclaim) : ¬ Free s.orch r :=
  not_free_of_unavailable h.pool_inv (h.busy r hr)

/-- Every call is a run of the orchestrator and keeps its invariant. -/
theorem LedgerInv.call (h : LedgerInv cfg s) (c : RankCall cfg.num_tasks) :
    RankInv cfg (c.apply s.orch).run ∧ (c.apply s.orch).run.phase = .idle ∧
      (c.apply s.orch).shut_down = false := by
  have hrun : Run (fun _ => True) s.orch (c.apply s.orch) ∧
      (c.apply s.orch).shut_down = s.orch.shut_down := by
    cases c with
    | cycle cb =>
      refine ⟨⟨cycle_run _ cb h.idle, ?_⟩, cycle_shut_down cb s.orch⟩
      show (s.orch.cycle cb).1.run.phase = .idle
      rw [cycle_phase, h.idle]
    | advance_step cb =>
      refine ⟨next_run _ h.idle (c := .advance_step cb) rfl, ?_⟩
      show (advance_step cb s.orch).1.shut_down = _
      unfold advance_step
      rw [if_neg (by rw [h.up]; decide)]
      exact turn_shut_down cb s.orch
    | yield_ranks rank_set =>
      refine ⟨next_run _ h.idle (c := .yield_ranks rank_set) rfl, ?_⟩
      show (s.orch.yield_ranks rank_set).shut_down = _
      unfold OrchState.yield_ranks
      split
      · rfl
      · rfl
    | reclaim_ranks rank_set =>
      refine ⟨next_run _ h.idle (c := .reclaim_ranks rank_set) rfl, ?_⟩
      show (s.orch.reclaim_ranks rank_set).shut_down = _
      unfold OrchState.reclaim_ranks
      split
      · rfl
      · rfl
    | process_deferred_reclamation =>
      obtain ⟨pool, d, hprocess⟩ := process_deferred_reclamation_eq s.orch
      refine ⟨Run.step _ (l := .process_deferred_reclamation) rfl ?_, ?_⟩
      · show s.orch.process_deferred_reclamation.run.phase = .idle
        rw [hprocess]
        exact h.idle
      · show s.orch.process_deferred_reclamation.shut_down = _
        rw [hprocess]
        rfl
  obtain ⟨⟨⟨ls, hs⟩, hidle⟩, hup⟩ := hrun
  refine ⟨?_, hidle, hup.trans h.up⟩
  refine hs.stable (P := fun o => RankInv cfg o.run) ?_ (.init trivial) h.rank_inv
  intro o l o' _ hinv hstep
  exact orch_inv_step hinv hstep

/-- What a call adds to the count of departures. -/
def departed (s : RankLedger n) (o : OrchState n) (r : Int) : Nat :=
  if s.pool.Manages r ∧ ¬ o.loop.rank_pool.Manages r then s.left r + 1 else s.left r

theorem departed_of_stays {o : OrchState n} {s : RankLedger n} {r : Int}
    (h : s.pool.Manages r → o.loop.rank_pool.Manages r) : departed s o r = s.left r := by
  rw [departed, if_neg]
  exact fun hleft => hleft.2 (h hleft.1)

theorem LedgerInv.serve (h : LedgerInv cfg s) {o : OrchState cfg.num_tasks} {F : Int → Prop}
    (hrank : RankInv cfg o.run ∧ o.run.phase = .idle ∧ o.shut_down = false)
    (hdef : ∀ r, r ∈ o.deferred_reclaim ↔ r ∈ s.orch.deferred_reclaim ∧ ¬ F r)
    (hman : ∀ r, o.loop.rank_pool.Manages r ↔
      s.pool.Manages r ∧ ¬ (r ∈ s.orch.deferred_reclaim ∧ F r))
    (hbusy : ∀ r ∈ o.deferred_reclaim, o.loop.rank_pool.Unavailable r) :
    LedgerInv cfg ⟨o, s.asked, s.requests, departed s o⟩ := by
  refine ⟨hrank.1, hrank.2.1, hrank.2.2, hbusy, fun r hr => ?_, fun r => ?_⟩
  · obtain ⟨hbefore, hnot⟩ := (hman r).mp hr
    refine (h.asked r hbefore).trans ?_
    show _ ↔ r ∈ o.deferred_reclaim
    rw [hdef]
    exact ⟨fun hr => ⟨hr, fun hF => hnot ⟨hr, hF⟩⟩, And.left⟩
  · show s.requests r = departed s o r + if r ∈ o.deferred_reclaim then 1 else 0
    rw [h.balance r]
    by_cases hr : r ∈ s.orch.deferred_reclaim
    · rw [if_pos hr]
      by_cases hF : F r
      · -- the request is served now
        have hgone : ¬ o.loop.rank_pool.Manages r := fun hm => ((hman r).mp hm).2 ⟨hr, hF⟩
        rw [departed, if_pos ⟨(h.busy r hr).manages, hgone⟩, if_neg fun hd => ((hdef r).mp hd).2 hF]
      · have hstays : s.pool.Manages r → o.loop.rank_pool.Manages r := fun hm =>
          (hman r).mpr ⟨hm, fun h => hF h.2⟩
        rw [departed_of_stays hstays, if_pos ((hdef r).mpr ⟨hr, hF⟩)]
    · have hstays : s.pool.Manages r → o.loop.rank_pool.Manages r := fun hm =>
        (hman r).mpr ⟨hm, fun h => hr h.1⟩
      rw [if_neg hr, departed_of_stays hstays, if_neg fun hd => hr ((hdef r).mp hd).1]

theorem LedgerInv.cycle (h : LedgerInv cfg s) (cb : Callbacks cfg.num_tasks)
    (hcareful : Careful s (.cycle cb)) :
    LedgerInv cfg ⟨(s.orch.cycle cb).1, s.asked, s.requests, departed s (s.orch.cycle cb).1⟩ := by
  have hrank := h.call (.cycle cb)
  obtain ⟨hsame, -⟩ := EventLoop.cycle_same_ranks cb.dispatch_cb cb.completions h.need
  refine h.serve (F := fun _ => False) hrank (fun r => ?_) (fun r => ?_) fun r hr => ?_
  · rw [not_false_eq_true, and_true]
    rfl
  · rw [and_false, not_false_eq_true, and_true]
    exact hsame.1 r
  · -- the holder of `r` is not among those reported
    obtain ⟨v, hv⟩ := (h.rank_inv.hold.unavailable r).mp (h.busy r hr)
    have hrun : s.orch.loop.status v = .running := by
      by_contra hnot
      have hempty := h.rank_inv.hold.released v hnot
      rw [hempty] at hv
      exact OrdSet.not_mem_empty r hv
    have hother : ∀ c ∈ cb.completions, c.1 ≠ v := by
      intro c hc heq
      have hlt : c.1 < cfg.num_tasks := heq ▸ v.isLt
      apply hcareful c hc hlt r hr
      rw [show (⟨c.1, hlt⟩ : Fin cfg.num_tasks) = v from Fin.ext heq]
      exact hv
    obtain ⟨-, halloc⟩ := EventLoop.cycle_continues cb.dispatch_cb hother s.orch.loop hrun
    refine (hrank.1.hold.unavailable r).mpr ⟨v, ?_⟩
    show r ∈ (s.orch.loop.cycle cb.dispatch_cb cb.completions).1.allocated_ranks v
    rw [halloc]
    exact hv

theorem LedgerInv.process (h : LedgerInv cfg s) :
    LedgerInv cfg ⟨s.orch.process_deferred_reclamation, s.asked, s.requests,
      departed s s.orch.process_deferred_reclamation⟩ := by
  have hspec := process_deferred_reclamation_spec h.pool_inv
  refine h.serve (h.call .process_deferred_reclamation) (fun r => (hspec r).1)
    (fun r => (hspec r).2) fun r hr => ?_
  obtain ⟨hdef, hnot⟩ := (hspec r).1.mp hr
  have hman := (hspec r).2.mpr ⟨(h.busy r hdef).manages, fun hfree => hnot hfree.2⟩
  rcases free_or_unavailable hman with hfree | hun
  · exfalso
    -- what is free now was free before
    unfold OrchState.process_deferred_reclamation at hfree
    split at hfree
    · exact hnot hfree
    · have hmem := ((RankPool.remove_available_slots _ _).mem_iff).mp hfree
      exact hnot (List.mem_filter.mp hmem).1
  · exact hun

theorem LedgerInv.advance (h : LedgerInv cfg s) (cb : Callbacks cfg.num_tasks) :
    LedgerInv cfg ⟨(advance_step cb s.orch).1, s.asked, s.requests,
      departed s (advance_step cb s.orch).1⟩ := by
  have hrank := h.call (.advance_step cb)
  have hmid := h.call (.cycle cb)
  obtain ⟨hsame, all_done, hok⟩ :=
    EventLoop.cycle_same_ranks cb.dispatch_cb cb.completions h.need
  have hadvance : (advance_step cb s.orch).1 =
      (s.orch.cycle cb).1.process_deferred_reclamation := by
    have hok' : (s.orch.cycle cb).2 = .ok all_done := hok
    unfold advance_step OrchState.turn
    rw [if_neg (by rw [h.up]; decide)]
    revert hok'
    rcases s.orch.cycle cb with ⟨o, msg | done⟩
    · intro hok'
      cases hok'
    · intro _
      rfl
  have hspec := process_deferred_reclamation_spec (o := (s.orch.cycle cb).1) hmid.1.hold.pool
  have hman : ∀ r, (s.orch.cycle cb).1.loop.rank_pool.Manages r ↔ s.pool.Manages r := hsame.1
  simp only [RankCall.apply, hadvance] at hrank
  rw [hadvance]
  refine h.serve (F := Free (s.orch.cycle cb).1) hrank (fun r => (hspec r).1) (fun r => ?_)
    fun r hr => ?_
  · rw [(hspec r).2, hman]
    rfl
  · obtain ⟨hdef, hnot⟩ := (hspec r).1.mp hr
    rcases free_or_unavailable ((hman r).mpr (h.busy r hdef).manages) with hfree | hun
    · exact absurd hfree hnot
    · unfold OrchState.process_deferred_reclamation
      split
      · exact hun
      · exact (RankPool.remove_available_unavailable _ _ r).mpr hun

theorem LedgerInv.yield (h : LedgerInv cfg s) {rank_set : OrdSet Int}
    (hcareful : Careful s (.yield_ranks rank_set)) :
    LedgerInv cfg ⟨s.orch.yield_ranks rank_set,
      fun r => if r ∈ rank_set then false else s.asked r, s.requests,
      departed s (s.orch.yield_ranks rank_set)⟩ := by
  have hrank := h.call (.yield_ranks rank_set)
  have hspec := yield_ranks_spec h.up rank_set
  have hsame : (s.orch.yield_ranks rank_set).deferred_reclaim = s.orch.deferred_reclaim :=
    (hspec 0).1
  refine ⟨hrank.1, hrank.2.1, hrank.2.2, fun r hr => ?_, fun r hr => ?_, fun r => ?_⟩
  · have hr' : r ∈ s.orch.deferred_reclaim := hsame ▸ hr
    show (s.orch.yield_ranks rank_set).loop.rank_pool.Unavailable r
    unfold OrchState.yield_ranks
    split
    · exact h.busy r hr'
    · exact (RankPool.add_ranks_unavailable _ _ r).mpr (h.busy r hr')
  · show (if r ∈ rank_set then false else s.asked r) = true ↔
      r ∈ (s.orch.yield_ranks rank_set).deferred_reclaim
    rw [hsame]
    by_cases hin : r ∈ rank_set
    · rw [if_pos hin]
      have hnot := hcareful r hin
      simp [hnot]
    · rw [if_neg hin]
      exact h.asked r (((hspec r).2.mp hr).resolve_right hin)
  · show s.requests r = departed s _ r +
      if r ∈ (s.orch.yield_ranks rank_set).deferred_reclaim then 1 else 0
    rw [departed_of_stays fun hman => (hspec r).2.mpr (.inl hman), hsame]
    exact h.balance r

theorem LedgerInv.reclaim (h : LedgerInv cfg s) {rank_set : OrdSet Int}
    (hcareful : Careful s (.reclaim_ranks rank_set)) :
    LedgerInv cfg ⟨s.orch.reclaim_ranks rank_set,
      fun r => if r ∈ rank_set then true else s.asked r,
      fun r => if r ∈ rank_set ∧ s.pool.Manages r ∧ s.asked r = false then s.requests r + 1
        else s.requests r,
      departed s (s.orch.reclaim_ranks rank_set)⟩ := by
  have hrank := h.call (.reclaim_ranks rank_set)
  have hspec := reclaim_ranks_spec h.pool_inv h.up rank_set
  have hun : ∀ r, (s.orch.reclaim_ranks rank_set).loop.rank_pool.Unavailable r ↔
      s.pool.Unavailable r := by
    intro r
    unfold OrchState.reclaim_ranks
    rw [if_neg (by rw [h.up]; decide)]
    exact RankPool.remove_available_unavailable _ _ r
  refine ⟨hrank.1, hrank.2.1, hrank.2.2, fun r hr => ?_, fun r hr => ?_, fun r => ?_⟩
  · -- what is deferred now is in the pool and not free
    refine (hun r).mpr ?_
    rcases (hspec r).1.mp hr with hdef | ⟨hin, hnot⟩
    · exact h.busy r hdef
    · exact (free_or_unavailable (hcareful r hin)).resolve_left hnot
  · show (if r ∈ rank_set then true else s.asked r) = true ↔
      r ∈ (s.orch.reclaim_ranks rank_set).deferred_reclaim
    obtain ⟨hbefore, hnot⟩ := (hspec r).2.mp hr
    rw [(hspec r).1]
    by_cases hin : r ∈ rank_set
    · rw [if_pos hin]
      have hbusy : ¬ Free s.orch r := fun hfree => hnot ⟨hin, hfree⟩
      simp [hin, hbusy]
    · rw [if_neg hin, h.asked r hbefore]
      simp [hin]
  · show (if r ∈ rank_set ∧ s.pool.Manages r ∧ s.asked r = false then s.requests r + 1
        else s.requests r) = departed s _ r +
      if r ∈ (s.orch.reclaim_ranks rank_set).deferred_reclaim then 1 else 0
    have hbal := h.balance r
    by_cases hin : r ∈ rank_set
    · have hman := hcareful r hin
      have hasked := h.asked r hman
      by_cases hdef : r ∈ s.orch.deferred_reclaim
      · -- a repetition of a request that is still open
        have hstays : s.pool.Manages r → (s.orch.reclaim_ranks rank_set).loop.rank_pool.Manages r :=
          fun hm => (hspec r).2.mpr ⟨hm, fun hfree => h.deferred_not_free hdef hfree.2⟩
        have hold : s.asked r = true := hasked.mpr hdef
        rw [if_neg (by simp [hold]), departed_of_stays hstays,
          if_pos ((hspec r).1.mpr (.inl hdef)), hbal, if_pos hdef]
      · have hnew : s.asked r = false := by
          rw [← Bool.not_eq_true, hasked]
          exact hdef
        rw [if_neg hdef, Nat.add_zero] at hbal
        rw [if_pos ⟨hin, hman, hnew⟩, hbal]
        by_cases hfree : Free s.orch r
        · -- served at once
          have hgone : ¬ (s.orch.reclaim_ranks rank_set).loop.rank_pool.Manages r := fun hm =>
            ((hspec r).2.mp hm).2 ⟨hin, hfree⟩
          have hout : r ∉ (s.orch.reclaim_ranks rank_set).deferred_reclaim := fun hd =>
            ((hspec r).1.mp hd).elim hdef fun hd => hd.2 hfree
          rw [departed, if_pos ⟨hman, hgone⟩, if_neg hout]
        · have hstays : s.pool.Manages r →
              (s.orch.reclaim_ranks rank_set).loop.rank_pool.Manages r := fun hm =>
            (hspec r).2.mpr ⟨hm, fun h => hfree h.2⟩
          rw [departed_of_stays hstays, if_pos ((hspec r).1.mpr (.inr ⟨hin, hfree⟩))]
    · have hstays : s.pool.Manages r → (s.orch.reclaim_ranks rank_set).loop.rank_pool.Manages r :=
        fun hm => (hspec r).2.mpr ⟨hm, fun h => hin h.1⟩
      have hsame : r ∈ (s.orch.reclaim_ranks rank_set).deferred_reclaim ↔
          r ∈ s.orch.deferred_reclaim := by
        rw [(hspec r).1]
        simp [hin]
      rw [if_neg fun hnew => hin hnew.1, departed_of_stays hstays, hbal]
      simp only [hsame]

theorem ledger_inv_step {s' : RankLedger cfg.num_tasks} {c : RankCall cfg.num_tasks}
    (h : LedgerInv cfg s) (hcareful : Careful s c) (hnext : s.next c = some s') :
    LedgerInv cfg s' := by
  cases c with
  | cycle cb => cases hnext; exact h.cycle cb hcareful
  | advance_step cb => cases hnext; exact h.advance cb
  | yield_ranks rank_set => cases hnext; exact h.yield hcareful
  | reclaim_ranks rank_set => cases hnext; exact h.reclaim hcareful
  | process_deferred_reclamation => cases hnext; exact h.process

end Steps

/-- The runs whose calls are all careful. -/
def carefulSystem (cfg : PipelineConfig) (ranks : OrdSet Int) :
    System (RankLedger cfg.num_tasks) (RankCall cfg.num_tasks) :=
  (rankSystem cfg ranks).restrict Careful

theorem ledger_inv_reachable {s : RankLedger cfg.num_tasks}
    (hr : (carefulSystem cfg ranks).Reachable s) : LedgerInv cfg s := by
  refine hr.invariant (P := LedgerInv cfg) (fun s h => ?_) fun s c s' _ h hstep => ?_
  · obtain ⟨hinit, hasked, hrequests, hleft⟩ : LedgerInit cfg ranks s := h
    refine ⟨rank_inv_init hinit.1, hinit.1.2.1, hinit.2.2, fun r hr => ?_, fun r hr => ?_,
      fun r => ?_⟩
    · rw [hinit.2.1] at hr
      exact absurd hr (OrdSet.not_mem_empty r)
    · rw [hasked, hinit.2.1]
      simp
    · rw [hrequests, hleft, hinit.2.1, if_neg (OrdSet.not_mem_empty r)]
  · exact ledger_inv_step h hstep.1 hstep.2

/-- A rank that was yielded and has not been reclaimed since. -/
def Lent (s : RankLedger n) (r : Int) : Prop := s.asked r = false ∧ s.pool.Manages r

/-- Only a reclamation that names it takes away a lent rank. -/
theorem lent_step {s s' : RankLedger cfg.num_tasks} {c : RankCall cfg.num_tasks} {r : Int}
    (h : LedgerInv cfg s) (hlent : Lent s r) (hnext : s.next c = some s')
    (hc : ∀ rank_set, c = .reclaim_ranks rank_set → r ∉ rank_set) : Lent s' r := by
  obtain ⟨hasked, hman⟩ := hlent
  have hnot : r ∉ s.orch.deferred_reclaim := by
    intro hdef
    rw [(h.asked r hman).mpr hdef] at hasked
    cases hasked
  cases c with
  | cycle cb =>
    cases hnext
    refine ⟨hasked, ?_⟩
    exact ((EventLoop.cycle_same_ranks cb.dispatch_cb cb.completions h.need).1.1 r).mpr hman
  | advance_step cb =>
    cases hnext
    refine ⟨hasked, ?_⟩
    have hcycle : (s.orch.cycle cb).1.loop.rank_pool.Manages r :=
      ((EventLoop.cycle_same_ranks cb.dispatch_cb cb.completions h.need).1.1 r).mpr hman
    show (advance_step cb s.orch).1.loop.rank_pool.Manages r
    unfold advance_step
    rw [if_neg (by rw [h.up]; decide)]
    rcases turn_fst cb s.orch with heq | heq
    · rw [heq]
      exact hcycle
    · rw [heq]
      have hspec := process_deferred_reclamation_spec (o := (s.orch.cycle cb).1)
        (h.call (.cycle cb)).1.hold.pool r
      exact hspec.2.mpr ⟨hcycle, fun hserved => hnot hserved.1⟩
  | yield_ranks rank_set =>
    cases hnext
    refine ⟨?_, ((yield_ranks_spec h.up rank_set r).2).mpr (.inl hman)⟩
    show (if r ∈ rank_set then false else s.asked r) = false
    split
    · rfl
    · exact hasked
  | reclaim_ranks rank_set =>
    cases hnext
    have hout := hc rank_set rfl
    refine ⟨?_, ?_⟩
    · show (if r ∈ rank_set then true else s.asked r) = false
      rw [if_neg hout]
      exact hasked
    · exact (reclaim_ranks_spec h.pool_inv h.up rank_set r).2.mpr ⟨hman, fun hin => hout hin.1⟩
  | process_deferred_reclamation =>
    cases hnext
    refine ⟨hasked, ?_⟩
    exact (process_deferred_reclamation_spec h.pool_inv r).2.mpr
      ⟨hman, fun hserved => hnot hserved.1⟩

theorem lent_steps {s s' : RankLedger cfg.num_tasks} {cs : List (RankCall cfg.num_tasks)} {r : Int}
    (hs : (carefulSystem cfg ranks).Steps s cs s') (h : LedgerInv cfg s) (hlent : Lent s r)
    (hcs : ∀ rank_set, .reclaim_ranks rank_set ∈ cs → r ∉ rank_set) : Lent s' r := by
  induction hs with
  | nil s => exact hlent
  | cons hstep _ ih =>
    have hmid := lent_step h hlent hstep.2 fun rank_set heq =>
      hcs rank_set (heq ▸ List.mem_cons_self)
    apply ih (ledger_inv_step h hstep.1 hstep.2) hmid
    intro rank_set hmem
    exact hcs rank_set (List.mem_cons_of_mem _ hmem)

/-- **Careful reclamation.** In every state that careful calls reach: a deferred
    rank is in the pool and held by a running node; every request for a rank
    has been served exactly once or is still deferred; and a rank that is
    yielded stays in the pool until a later `reclaim_ranks` names it. -/
theorem careful_reclamation {s : RankLedger cfg.num_tasks}
    (hr : (carefulSystem cfg ranks).Reachable s) :
    (∀ r ∈ s.orch.deferred_reclaim, s.pool.Manages r ∧
      ∃ v, s.orch.loop.status v = .running ∧ r ∈ s.orch.loop.allocated_ranks v) ∧
    (∀ r, s.requests r = s.left r + if r ∈ s.orch.deferred_reclaim then 1 else 0) ∧
    ∀ rank_set s₁ cs s', (carefulSystem cfg ranks).step s (.yield_ranks rank_set) s₁ →
      (carefulSystem cfg ranks).Steps s₁ cs s' → ∀ r ∈ rank_set,
      (∀ rank_set', .reclaim_ranks rank_set' ∈ cs → r ∉ rank_set') → s'.pool.Manages r := by
  have h := ledger_inv_reachable hr
  refine ⟨fun r hr => ?_, h.balance, fun rank_set s₁ cs s' hyield hs r hin hcs => ?_⟩
  · have hun := h.busy r hr
    obtain ⟨v, hv⟩ := (h.rank_inv.hold.unavailable r).mp hun
    refine ⟨hun.manages, v, ?_, hv⟩
    by_contra hnot
    have hempty := h.rank_inv.hold.released v hnot
    rw [hempty] at hv
    exact OrdSet.not_mem_empty r hv
  · have hmid := ledger_inv_step h hyield.1 hyield.2
    have hlent : Lent s₁ r := by
      obtain ⟨-, hnext⟩ := hyield
      cases hnext
      refine ⟨?_, ((yield_ranks_spec h.up rank_set r).2).mpr (.inr hin)⟩
      show (if r ∈ rank_set then false else s.asked r) = false
      rw [if_pos hin]
    exact (lent_steps hs hmid hlent hcs).2

/-- The ledger of a fresh orchestrator. -/
def freshLedger (cfg : PipelineConfig) : RankLedger cfg.num_tasks :=
  ⟨fresh cfg, fun _ => false, fun _ => 0, fun _ => 0⟩

theorem ledger_init_fresh {cfg : PipelineConfig} (h : EventLoop.make cfg.max_concurrency
    cfg.populate_nodes (RankPool.make ranks₂) = .ok (fresh cfg).loop) :
    LedgerInit cfg ranks₂ (freshLedger cfg) :=
  ⟨⟨⟨h, rfl, rfl⟩, rfl, rfl⟩, rfl, rfl, rfl⟩

theorem careful_reclamation_side_task : ∃ s : RankLedger sideTask.num_tasks,
    (carefulSystem sideTask ranks₂).Reachable s ∧ s.requests 0 = 1 ∧ ¬ s.pool.Manages 0 ∧
    s.requests 0 = s.left 0 + if (0 : Int) ∈ s.orch.deferred_reclaim then 1 else 0 := by
  have hrun : ∃ s, System.exec (System.guarded RankLedger.next Careful) (freshLedger sideTask)
      [.yield_ranks (.insert 7 .empty), .cycle (reporting []),
        .reclaim_ranks (.insert 0 .empty), .reclaim_ranks (.insert 0 .empty),
        .advance_step (reporting [(0, true)])] = some s ∧
      s.requests 0 = 1 ∧ ¬ s.pool.Manages 0 := ⟨_, rfl, rfl, by decide⟩
  obtain ⟨s, hs, hone, hgone⟩ := hrun
  have hr : (carefulSystem sideTask ranks₂).Reachable s :=
    System.restrict_reachable_of_exec (ledger_init_fresh rfl) hs
  exact ⟨s, hr, hone, hgone, (careful_reclamation hr).2.1 0⟩

theorem stale_reclamation : ∃ s s₁ s₂ : RankLedger sideTask.num_tasks,
    (rankSystem sideTask ranks₂).Reachable s ∧
    (9 : Int) ∈ s.orch.deferred_reclaim ∧ ¬ s.pool.Manages 9 ∧
    (rankSystem sideTask ranks₂).step s (.yield_ranks (.insert 9 .empty)) s₁ ∧
    (rankSystem sideTask ranks₂).step s₁ .process_deferred_reclamation s₂ ∧
    s₁.pool.Manages 9 ∧ ¬ s₂.pool.Manages 9 := by
  have hrun : ∃ s, System.exec RankLedger.next (freshLedger sideTask)
      [.reclaim_ranks (.insert 9 .empty)] = some s ∧
      (9 : Int) ∈ s.orch.deferred_reclaim ∧ ¬ s.pool.Manages 9 ∧
      ∃ s₁, s.next (.yield_ranks (.insert 9 .empty)) = some s₁ ∧ s₁.pool.Manages 9 ∧
      ∃ s₂, s₁.next .process_deferred_reclamation = some s₂ ∧ ¬ s₂.pool.Manages 9 :=
    ⟨_, rfl, by decide, by decide, _, rfl, by decide, _, rfl, by decide⟩
  obtain ⟨s, hs, hdef, hnot, s₁, hyield, hin, s₂, hprocess, hout⟩ := hrun
  have hr : (rankSystem sideTask ranks₂).Reachable s :=
    System.reachable_of_exec (ledger_init_fresh rfl) hs
  exact ⟨s, s₁, s₂, hr, hdef, hnot, hyield, hprocess, hin, hout⟩

end Dagr
