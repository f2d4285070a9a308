import Helm.Dagr.EventLoop

/-! # Dependency order

  The event loop releases a task when its counter of pending dependencies
  reaches zero. This module proves that the counter is exact in every
  reachable state, as long as the in-degrees fit the counter, and draws the
  consequences for the order of execution.

  The invariant `OrderInv` ties three things together: the counter of a
  node, the completed producers of that node, and its status. The counter
  part holds for every graph modulo `2 ^ 32`; the bound on the in-degrees
  enters only where a counter of zero is read as "no open edge".
-/

namespace Dagr

open LTS PipelineConfig

/-! ## Section 1: The life of a task -/

/-- The status changes a single step can make. -/
def TaskStatus.may_become : TaskStatus → TaskStatus → Bool
  | .pending, .ready => true
  | .ready, .running => true
  | .running, .completed => true
  | .running, .failed => true
  | .pending, .cancelled => true
  | .ready, .cancelled => true
  | a, b => a = b

theorem TaskStatus.may_become_refl (a : TaskStatus) : a.may_become a := by
  cases a <;> rfl

theorem TaskStatus.eq_of_terminal {a b : TaskStatus} (h : a.may_become b) (ha : is_terminal a) :
    b = a := by
  cases a <;> cases b <;> first | rfl | exact absurd h (by decide) | exact absurd ha (by decide)

theorem TaskStatus.ready_of_running {a : TaskStatus} (h : a.may_become .running)
    (ha : a ≠ .running) : a = .ready := by
  cases a <;> first | rfl | exact absurd h (by decide) | exact absurd rfl ha

variable {n : Nat}

theorem propagate_failure_status (s : EventLoop n) (i v : Fin n) :
    ((s.propagate_failure i).status v = if v = i then .failed else s.status v) ∨
    (v ≠ i ∧ EventLoop.cancellable (s.nodes v) ∧ (s.propagate_failure i).status v = .cancelled) := by
  rcases (s.propagate_failure_nodes i).status v with heq | ⟨hc, heq⟩
  · exact .inl (heq.trans (s.set_status_status i .failed v))
  · by_cases hv : v = i
    · subst hv
      simp [EventLoop.set_status, EventLoop.cancellable, is_terminal] at hc
    · rw [s.set_status_nodes_of_ne _ hv] at hc
      exact .inr ⟨hv, hc, heq⟩

theorem complete_node_status (s : EventLoop n) (i v : Fin n) :
    (s.complete_node i).status v = if v = i then .completed else s.status v := by
  rw [EventLoop.status, EventLoop.complete_node_nodes]

theorem cancellable_iff (t : TaskNode n) :
    EventLoop.cancellable t ↔ t.status = .pending ∨ t.status = .ready := by
  unfold EventLoop.cancellable
  cases t.status <;> decide

theorem polled_status (t : TaskNode n) :
    (EventLoop.polled t).status = t.status ∨
      (t.status = .pending ∧ t.pending_deps = 0 ∧ (EventLoop.polled t).status = .ready) := by
  unfold EventLoop.polled
  split
  · next h => exact .inr ⟨h.1, h.2, rfl⟩
  · exact .inl rfl

theorem poll_ready_nodes_nodes (s : EventLoop n) (v : Fin n) :
    s.poll_ready_nodes.nodes v = EventLoop.polled (s.nodes v) := by
  obtain ⟨q, hq⟩ := s.poll_ready_nodes_eq
  rw [hq]

/-- The node inside the dispatch callback is running. -/
def CallingRuns (s : LoopState n) : Prop := ∀ i, s.phase = .calling i → s.loop.status i = .running

theorem calling_runs_step {s s' : LoopState n} (h : s.Effect s') : CallingRuns s' := by
  intro j hj
  cases h with
  | start i => cases hj; simp [EventLoop.status, EventLoop.set_status]
  | control phase hphase => exact absurd hj (hphase j)
  | fail i phase hphase => exact absurd hj (hphase j)
  | complete i phase hphase => exact absurd hj (hphase j)
  | poll => cases hj
  | wait => cases hj
  | skip => cases hj

/-- **Lifecycle.** Every step moves every node along its life or leaves it
    alone. -/
theorem may_become_step {s s' : LoopState n} (hc : CallingRuns s) (h : s.Effect s') (v : Fin n) :
    (s.loop.status v).may_become (s'.loop.status v) := by
  cases h with
  | control => exact TaskStatus.may_become_refl _
  | wait => exact TaskStatus.may_become_refl _
  | skip => exact TaskStatus.may_become_refl _
  | poll =>
    simp only [EventLoop.status, poll_ready_nodes_nodes]
    rcases polled_status (s.loop.nodes v) with heq | ⟨hp, -, hr⟩
    · rw [heq]; exact TaskStatus.may_become_refl _
    · rw [hp, hr]; rfl
  | start i rest pool ranks hready =>
    change (s.loop.status v).may_become ((s.loop.set_status i .running).status v)
    rw [EventLoop.set_status_status]
    split
    · next hv => rw [hv, hready]; rfl
    · exact TaskStatus.may_become_refl _
  | fail i phase hphase hi =>
    have hrun : s.loop.status i = .running := hi.elim (hc i) id
    rcases propagate_failure_status s.loop i v with heq | ⟨-, hcan, heq⟩
    · rw [heq]
      split
      · next hv => rw [hv, hrun]; rfl
      · exact TaskStatus.may_become_refl _
    · rw [heq]
      rcases (cancellable_iff _).mp hcan with hst | hst <;> rw [EventLoop.status, hst] <;> rfl
  | complete i phase hphase hrun =>
    rw [complete_node_status]
    split
    · next hv => rw [hv, hrun]; rfl
    · exact TaskStatus.may_become_refl _

/-! ## Section 2: The invariant -/

variable {cfg : PipelineConfig}

/-- The counters and statuses agree with the graph. -/
structure OrderInv (cfg : PipelineConfig) (s : LoopState cfg.num_tasks) : Prop where
  shape : ∀ v, (s.loop.nodes v).shape = (cfg.populate_nodes v).shape
  deps : ∀ v, (s.loop.nodes v).pending_deps = cfg.open_edges s.loop.status v % 2 ^ 32
  started : ∀ v, s.loop.status v ≠ .pending → s.loop.status v ≠ .cancelled →
    cfg.open_edges s.loop.status v = 0
  calling : CallingRuns s

theorem OrderInv.dependents {s : LoopState cfg.num_tasks} (h : OrderInv cfg s)
    (v : Fin cfg.num_tasks) : (s.loop.nodes v).dependents = downstream cfg.edges v :=
  congrArg (·.2.2.2) (h.shape v)

theorem order_inv_init (hv : cfg.Valid) {ranks : OrdSet Int} {s : LoopState cfg.num_tasks}
    (h : LoopInit cfg ranks s) : OrderInv cfg s := by
  obtain ⟨-, -, hloop⟩ := h.loop_eq
  refine ⟨fun v => by rw [hloop], fun v => ?_, fun v hp => ?_, fun i hi => ?_⟩
  · -- no task has completed, so every edge is open
    rw [hloop]
    refine (in_degree_eq cfg.edges v).trans ?_
    congr 1
    refine List.countP_congr fun e he => ?_
    have hex : ∃ u : Fin cfg.num_tasks, (u : Nat) = e.producer_id ∧
        (cfg.populate_nodes u).status ≠ .completed :=
      ⟨⟨e.producer_id, hv.producer_lt e he⟩, rfl, by simp [populate_nodes]⟩
    simp only [decide_eq_true_eq, EventLoop.status, hex, and_true]
  · exact absurd (by rw [EventLoop.status, hloop]; rfl) hp
  · rw [h.2.1] at hi; cases hi

theorem deps_of_same {s s' : EventLoop cfg.num_tasks}
    (h : ∀ v, (s.nodes v).pending_deps = cfg.open_edges s.status v % 2 ^ 32)
    (hdeps : ∀ v, (s'.nodes v).pending_deps = (s.nodes v).pending_deps)
    (hcomp : ∀ u, s'.status u = .completed ↔ s.status u = .completed) (v : Fin cfg.num_tasks) :
    (s'.nodes v).pending_deps = cfg.open_edges s'.status v % 2 ^ 32 := by
  rw [hdeps, h, cfg.open_edges_congr hcomp]

theorem open_edges_complete_node (hv : cfg.Valid) {s : EventLoop cfg.num_tasks}
    {i : Fin cfg.num_tasks} (hi : s.status i ≠ .completed) (v : Fin cfg.num_tasks) :
    cfg.open_edges (s.complete_node i).status v + (downstream cfg.edges i).count (v : Nat) =
      cfg.open_edges s.status v := by
  apply open_edges_complete hv.producer_lt s.status (s.complete_node i).status hi
  intro u
  rw [complete_node_status]
  by_cases hu : u = i
  · simp [hu]
  · simp [hu]

theorem deps_complete (hv : cfg.Valid) {s : EventLoop cfg.num_tasks} {i : Fin cfg.num_tasks}
    (hi : s.status i ≠ .completed) (hdependents : (s.nodes i).dependents = downstream cfg.edges i)
    (h : ∀ v, (s.nodes v).pending_deps = cfg.open_edges s.status v % 2 ^ 32)
    (v : Fin cfg.num_tasks) :
    ((s.complete_node i).nodes v).pending_deps =
      cfg.open_edges (s.complete_node i).status v % 2 ^ 32 := by
  have hopen := open_edges_complete_node hv hi v
  have hle : (downstream cfg.edges i).count (v : Nat) ≤ cfg.open_edges s.status v := by omega
  rw [EventLoop.complete_node_nodes]
  simp only [h v, hdependents]
  rw [EventLoop.iterate_decrement hle, ← hopen, Nat.add_sub_cancel]

theorem polled_shape {n : Nat} (t : TaskNode n) : (EventLoop.polled t).shape = t.shape := by
  unfold EventLoop.polled; split <;> rfl

theorem polled_pending_deps {n : Nat} (t : TaskNode n) :
    (EventLoop.polled t).pending_deps = t.pending_deps := by
  unfold EventLoop.polled; split <;> rfl

theorem set_status_shape {n : Nat} (s : EventLoop n) (i : Fin n) (st : TaskStatus) (v : Fin n) :
    ((s.set_status i st).nodes v).shape = (s.nodes v).shape := by
  by_cases hv : v = i
  · subst hv; simp [EventLoop.set_status, TaskNode.shape]
  · rw [s.set_status_nodes_of_ne st hv]

theorem set_status_pending_deps {n : Nat} (s : EventLoop n) (i : Fin n) (st : TaskStatus)
    (v : Fin n) : ((s.set_status i st).nodes v).pending_deps = (s.nodes v).pending_deps := by
  by_cases hv : v = i
  · subst hv; simp [EventLoop.set_status]
  · rw [s.set_status_nodes_of_ne st hv]

section Steps

variable {s : LoopState cfg.num_tasks}

theorem OrderInv.poll (hin : ∀ v, cfg.incoming v < 2 ^ 32) (h : OrderInv cfg s) :
    OrderInv cfg { s with loop := s.loop.poll_ready_nodes, phase := .dispatching } := by
  have hcomp : ∀ u, s.loop.poll_ready_nodes.status u = .completed ↔
      s.loop.status u = .completed := fun u => by
    rw [EventLoop.status, poll_ready_nodes_nodes]
    rcases polled_status (s.loop.nodes u) with heq | ⟨hp, -, hr⟩
    · rw [heq]; rfl
    · rw [EventLoop.status, hp, hr]; simp
  refine ⟨fun v => ?_, deps_of_same h.deps (fun v => ?_) hcomp, fun v hp hc => ?_, fun i hi => ?_⟩
  · rw [← h.shape v]; simp only [poll_ready_nodes_nodes, polled_shape]
  · rw [poll_ready_nodes_nodes, polled_pending_deps]
  · rw [cfg.open_edges_congr hcomp]
    simp only [EventLoop.status, poll_ready_nodes_nodes] at hp hc
    rcases polled_status (s.loop.nodes v) with heq | ⟨hpend, hzero, hr⟩
    · rw [heq] at hp hc
      exact h.started v hp hc
    · -- the counter reads zero, and the in-degree fits the counter
      have hdeps := h.deps v
      have hle := cfg.open_edges_le s.loop.status v
      have hlt := hin v
      rw [hzero, Nat.mod_eq_of_lt (by omega)] at hdeps
      exact hdeps.symm
  · cases hi

theorem OrderInv.start {loop : EventLoop cfg.num_tasks} {i : Fin cfg.num_tasks}
    {dispatched : List (Fin cfg.num_tasks)}
    (hready : s.loop.status i = .ready) (hnodes : loop.nodes = (s.loop.set_status i .running).nodes)
    (h : OrderInv cfg s) : OrderInv cfg ⟨loop, .calling i, dispatched⟩ := by
  have hstatus : ∀ v, loop.status v = if v = i then .running else s.loop.status v := fun v => by
    rw [← s.loop.set_status_status i .running v, EventLoop.status, hnodes]; rfl
  have hcomp : ∀ u, loop.status u = .completed ↔ s.loop.status u = .completed := fun u => by
    rw [hstatus]
    split
    · next hu => rw [hu, hready]; simp
    · rfl
  refine ⟨fun v => ?_, deps_of_same h.deps (fun v => ?_) hcomp, fun v hp hc => ?_, fun j hj => ?_⟩
  · rw [← h.shape v, hnodes, set_status_shape]
  · rw [hnodes, set_status_pending_deps]
  · rw [cfg.open_edges_congr hcomp]
    simp only [hstatus] at hp hc
    split at hp
    · next hv => exact hv ▸ h.started i (by simp [hready]) (by simp [hready])
    · next hv => rw [if_neg hv] at hc; exact h.started v hp hc
  · cases hj; simp [hstatus]

theorem OrderInv.fail {i : Fin cfg.num_tasks} {phase : Phase cfg.num_tasks}
    (hphase : ∀ j, phase ≠ .calling j) (hrun : s.loop.status i = .running) (h : OrderInv cfg s) :
    OrderInv cfg { s with loop := s.loop.propagate_failure i, phase } := by
  have hnodes := s.loop.propagate_failure_nodes i
  have hcomp : ∀ u, (s.loop.propagate_failure i).status u = .completed ↔
      s.loop.status u = .completed := fun u => by
    rcases propagate_failure_status s.loop i u with heq | ⟨-, hcan, heq⟩
    · rw [heq]
      split
      · next hu => rw [hu, hrun]; simp
      · rfl
    · rw [heq, EventLoop.status]
      rcases (cancellable_iff _).mp hcan with hst | hst <;> simp [hst]
  refine ⟨fun v => ?_, deps_of_same h.deps (fun v => ?_) hcomp, fun v hp hc => ?_,
    fun j hj => absurd hj (hphase j)⟩
  · rw [hnodes.shape, set_status_shape, h.shape]
  · rw [hnodes.pending_deps, set_status_pending_deps]
  · rw [cfg.open_edges_congr hcomp]
    rcases propagate_failure_status s.loop i v with heq | ⟨-, -, heq⟩
    · rw [heq] at hp hc
      by_cases hv : v = i
      · exact hv ▸ h.started i (by simp [hrun]) (by simp [hrun])
      · rw [if_neg hv] at hp hc; exact h.started v hp hc
    · exact absurd heq hc

theorem OrderInv.count_le_open (hv : cfg.Valid) (h : OrderInv cfg s) {i : Fin cfg.num_tasks}
    (hi : s.loop.status i ≠ .completed) (v : Fin cfg.num_tasks) :
    (s.loop.nodes i).dependents.count (v : Nat) ≤ cfg.open_edges s.loop.status v := by
  have := open_edges_complete hv.producer_lt s.loop.status
    (Function.update s.loop.status i .completed) hi (fun u => by by_cases hu : u = i <;> simp [hu]) v
  rw [h.dependents]
  omega

theorem OrderInv.complete (hv : cfg.Valid) {i : Fin cfg.num_tasks} {phase : Phase cfg.num_tasks}
    (hphase : ∀ j, phase ≠ .calling j) (hrun : s.loop.status i = .running) (h : OrderInv cfg s) :
    OrderInv cfg { s with loop := s.loop.complete_node i, phase } := by
  have hnot : s.loop.status i ≠ .completed := by simp [hrun]
  refine ⟨fun v => ?_, deps_complete hv hnot (h.dependents i) h.deps, fun v hp hc => ?_,
    fun j hj => absurd hj (hphase j)⟩
  · rw [← h.shape v, EventLoop.complete_node_nodes]; rfl
  · have hzero : cfg.open_edges s.loop.status v = 0 := by
      simp only [complete_node_status] at hp hc
      by_cases hvi : v = i
      · exact hvi ▸ h.started i (by simp [hrun]) (by simp [hrun])
      · rw [if_neg hvi] at hp hc; exact h.started v hp hc
    have := open_edges_complete_node hv hnot v
    change cfg.open_edges (s.loop.complete_node i).status v = 0
    omega

theorem order_inv_step (hv : cfg.Valid) (hin : ∀ v, cfg.incoming v < 2 ^ 32)
    {s' : LoopState cfg.num_tasks} (h : OrderInv cfg s) (he : s.Effect s') : OrderInv cfg s' := by
  cases he with
  | control phase hphase =>
    exact ⟨h.shape, h.deps, h.started, fun i hi => absurd hi (hphase i)⟩
  | poll => exact h.poll hin
  | wait => exact ⟨h.shape, h.deps, h.started, fun i hi => by cases hi⟩
  | skip => exact ⟨h.shape, h.deps, h.started, fun i hi => by cases hi⟩
  | start i rest pool ranks hready => exact h.start hready rfl
  | fail i phase hphase hi => exact h.fail hphase (hi.elim (h.calling i) id)
  | complete i phase hphase hrun => exact h.complete hv hphase hrun

end Steps

theorem order_inv_reachable (hv : cfg.Valid) (hin : ∀ v, cfg.incoming v < 2 ^ 32)
    {ranks : OrdSet Int} {s : LoopState cfg.num_tasks}
    (hr : (loopSystem cfg ranks).Reachable s) : OrderInv cfg s :=
  hr.invariant (fun _ h => order_inv_init hv h)
    fun _ _ _ _ h hstep => order_inv_step hv hin h (loopSystem_effect hstep)

/-! ## Section 3: The dispatch log -/

/-- The log lists, once each, the nodes that have left the ready state by
    being dispatched. -/
structure DispatchInv {n : Nat} (s : LoopState n) : Prop where
  nodup : s.dispatched.Nodup
  mem_iff : ∀ v, v ∈ s.dispatched ↔
    s.loop.status v = .running ∨ s.loop.status v = .completed ∨ s.loop.status v = .failed
  calling : CallingRuns s

theorem dispatch_inv_init {ranks : OrdSet Int} {s : LoopState cfg.num_tasks}
    (h : LoopInit cfg ranks s) : DispatchInv s := by
  obtain ⟨-, -, hloop⟩ := h.loop_eq
  refine ⟨by rw [h.2.2]; exact List.nodup_nil, fun v => ?_, fun i hi => ?_⟩
  · rw [h.2.2, EventLoop.status, hloop]; simp [populate_nodes]
  · rw [h.2.1] at hi; cases hi

theorem dispatch_inv_step {n : Nat} {s s' : LoopState n} (h : DispatchInv s) (he : s.Effect s') :
    DispatchInv s' := by
  have hcalling := calling_runs_step he
  cases he with
  | control phase hphase => exact ⟨h.nodup, h.mem_iff, hcalling⟩
  | wait => exact ⟨h.nodup, h.mem_iff, hcalling⟩
  | skip => exact ⟨h.nodup, h.mem_iff, hcalling⟩
  | poll =>
    refine ⟨h.nodup, fun v => (h.mem_iff v).trans ?_, hcalling⟩
    simp only [EventLoop.status, poll_ready_nodes_nodes]
    rcases polled_status (s.loop.nodes v) with heq | ⟨hp, -, hr⟩
    · rw [heq]
    · rw [hp, hr]; simp
  | start i rest pool ranks hready =>
    have hnew : i ∉ s.dispatched := fun hmem => by
      have := (h.mem_iff i).mp hmem
      rw [hready] at this
      simp at this
    refine ⟨List.nodup_append.mpr ⟨h.nodup, List.nodup_singleton i, ?_⟩, fun v => ?_, hcalling⟩
    · intro a ha b hb hab
      rw [List.mem_singleton] at hb
      exact hnew (hb ▸ hab ▸ ha)
    · change v ∈ s.dispatched ++ [i] ↔ (s.loop.set_status i .running).status v = _ ∨ _
      rw [List.mem_append, List.mem_singleton, h.mem_iff v]
      simp only [EventLoop.status, EventLoop.set_status]
      by_cases hv : v = i
      · simp [hv]
      · simp [hv]
  | fail i phase hphase hi =>
    have hrun : s.loop.status i = .running := hi.elim (h.calling i) id
    refine ⟨h.nodup, fun v => (h.mem_iff v).trans ?_, hcalling⟩
    rcases propagate_failure_status s.loop i v with heq | ⟨-, hcan, heq⟩
    · rw [heq]
      by_cases hv : v = i
      · rw [hv, hrun]; simp
      · rw [if_neg hv]
    · rw [heq, EventLoop.status]
      rcases (cancellable_iff _).mp hcan with hst | hst <;> simp [hst]
  | complete i phase hphase hrun =>
    refine ⟨h.nodup, fun v => (h.mem_iff v).trans ?_, hcalling⟩
    rw [complete_node_status]
    by_cases hv : v = i
    · rw [hv, hrun]; simp
    · rw [if_neg hv]

theorem dispatch_inv_reachable {ranks : OrdSet Int} {s : LoopState cfg.num_tasks}
    (hr : (loopSystem cfg ranks).Reachable s) : DispatchInv s :=
  hr.invariant (fun _ h => dispatch_inv_init h)
    fun _ _ _ _ h hstep => dispatch_inv_step h (loopSystem_effect hstep)

/-- **Terminal states are final**, along every run. -/
theorem terminal_stable {ranks : OrdSet Int} {s s' : LoopState cfg.num_tasks}
    {ls : List LoopLabel} (hr : (loopSystem cfg ranks).Reachable s)
    (hs : (loopSystem cfg ranks).Steps s ls s') {v : Fin cfg.num_tasks}
    (ht : is_terminal (s.loop.status v)) : s'.loop.status v = s.loop.status v := by
  refine hs.stable (P := fun t => t.loop.status v = s.loop.status v) ?_ hr rfl
  intro t l t' hr' heq hstep
  have hmay := may_become_step (dispatch_inv_reachable hr').calling (loopSystem_effect hstep) v
  rw [← heq] at ht ⊢
  exact TaskStatus.eq_of_terminal hmay ht

/-! ## Section 4: Order of execution -/

/-- **Dependency order.** In every reachable state of the loop over a valid
    graph whose in-degrees fit 32 bits: the counters are exact and no
    decrement wraps; a node enters running only when all its producers have
    completed; no node is dispatched twice; and a terminal status is final. -/
theorem dependency_order (hv : cfg.Valid) (hin : ∀ v, cfg.incoming v < 2 ^ 32)
    {ranks : OrdSet Int} {s : LoopState cfg.num_tasks}
    (hr : (loopSystem cfg ranks).Reachable s) :
    (∀ v, (s.loop.nodes v).pending_deps = cfg.open_edges s.loop.status v) ∧
    (∀ i v : Fin cfg.num_tasks, s.loop.status i = .running →
      (s.loop.nodes i).dependents.count (v : Nat) ≤ (s.loop.nodes v).pending_deps) ∧
    (∀ l s' v, (loopSystem cfg ranks).step s l s' → s.loop.status v ≠ .running →
      s'.loop.status v = .running → ∀ u, cfg.Edge u v → s.loop.status u = .completed) ∧
    (s.dispatched.Nodup ∧ ∀ v, s.loop.status v = .running → v ∈ s.dispatched) ∧
    (∀ ls s' v, (loopSystem cfg ranks).Steps s ls s' → is_terminal (s.loop.status v) →
      s'.loop.status v = s.loop.status v) := by
  have hinv := order_inv_reachable hv hin hr
  have hdisp := dispatch_inv_reachable hr
  have hexact : ∀ v, (s.loop.nodes v).pending_deps = cfg.open_edges s.loop.status v := fun v => by
    have hle := cfg.open_edges_le s.loop.status v
    rw [hinv.deps, Nat.mod_eq_of_lt (Nat.lt_of_le_of_lt hle (hin v))]
  refine ⟨hexact, fun i v hrun => ?_, fun l s' v hstep hnot hrun u he => ?_,
    ⟨hdisp.nodup, fun v hrun => (hdisp.mem_iff v).mpr (.inl hrun)⟩,
    fun ls s' v hs ht => terminal_stable hr hs ht⟩
  · rw [hexact]
    exact hinv.count_le_open hv (by simp [hrun]) v
  · have hmay := may_become_step hinv.calling (loopSystem_effect hstep) v
    rw [hrun] at hmay
    have hready := TaskStatus.ready_of_running hmay hnot
    exact completed_of_open_edges_eq_zero
      (hinv.started v (by simp [hready]) (by simp [hready])) he

/-- Two tasks, the second fed twice by the first. -/
def twoStage : PipelineConfig := ⟨["produce", "consume"], [⟨0, 1⟩, ⟨0, 1⟩], 4⟩

/-- The first task completes and the second one is dispatched. -/
def twoStageRun : List LoopLabel :=
  [.poll, .dispatch, .returned .succeeded, .dispatch, .report [(0, true), (0, true), (7, true)],
    .complete, .complete, .complete, .finish, .poll, .dispatch]

def ranks₂ : OrdSet Int := .insert 0 (.insert 1 .empty)

theorem dependency_order_twoStage : ∃ s : LoopState twoStage.num_tasks,
    (loopSystem twoStage ranks₂).Reachable s ∧ s.loop.status ⟨1, by decide⟩ = .running ∧
    s.loop.status ⟨0, by decide⟩ = .completed ∧
    ∀ v, (s.loop.nodes v).pending_deps = twoStage.open_edges s.loop.status v := by
  have hrun : ∃ s, System.exec LoopState.next
      ⟨⟨4, twoStage.populate_nodes, .make ranks₂, [], 0, fun _ => .empty⟩, .idle, []⟩
      twoStageRun = some s ∧ s.loop.status ⟨1, by decide⟩ = .running ∧
      s.loop.status ⟨0, by decide⟩ = .completed :=
    ⟨_, rfl, rfl, rfl⟩
  obtain ⟨s, hs, h1, h0⟩ := hrun
  have hr : (loopSystem twoStage ranks₂).Reachable s :=
    System.reachable_of_exec ⟨rfl, rfl, rfl⟩ hs
  exact ⟨s, hr, h1, h0, (dependency_order (valid_of_increasing (by decide)) (by decide) hr).1⟩

/-- The second task is fed by the first through `k` edges. -/
def flooded (k : Nat) : PipelineConfig := ⟨["produce", "consume"], List.replicate k ⟨0, 1⟩, 4⟩

theorem flooded_valid (k : Nat) : (flooded k).Valid :=
  valid_of_increasing fun e he => by
    obtain rfl := List.eq_of_mem_replicate he
    exact ⟨Nat.zero_lt_one, Nat.one_lt_two⟩

theorem flooded_populate_nodes (k : Nat) (v : Fin 2) :
    (flooded k).populate_nodes v = ⟨v, ["produce", "consume"].get v, (if v = 1 then k else 0) % 2 ^ 32,
      .pending, 1, downstream (List.replicate k ⟨0, 1⟩) v⟩ := by
  have hdeg : in_degree (List.replicate k ⟨0, 1⟩) v = (if v = 1 then k else 0) % 2 ^ 32 := by
    rw [in_degree_eq, List.countP_replicate]
    congr 1
    fin_cases v <;> rfl
  rw [← hdeg]
  rfl

/-- The nodes of the graph with `2 ^ 32` edges, one more than the counter can
    hold: both counters start at zero. -/
def wrappedNodes (v : Fin 2) : TaskNode 2 :=
  ⟨v, ["produce", "consume"].get v, 0, .pending, 1, downstream (List.replicate (2 ^ 32) ⟨0, 1⟩) v⟩

theorem flooded_wrapped {k : Nat} (hk : k = 2 ^ 32) :
    (flooded k).populate_nodes = fun v : Fin 2 => ⟨v, ["produce", "consume"].get v, 0, .pending, 1,
      downstream (List.replicate k ⟨0, 1⟩) v⟩ :=
  funext fun v : Fin 2 => by
    have hzero : (if v = 1 then k else 0) % 2 ^ 32 = 0 := by
      split <;> omega
    rw [flooded_populate_nodes k v, hzero]

theorem dependency_order_flooded : (flooded (2 ^ 32)).Valid ∧
    ∃ s : LoopState 2, (loopSystem (flooded (2 ^ 32)) ranks₂).Reachable s ∧
      (flooded (2 ^ 32)).Edge (0 : Fin 2) (1 : Fin 2) ∧
      s.loop.status 0 ≠ .completed ∧ s.loop.status 1 = .running ∧
      (s.loop.nodes 1).pending_deps ≠ (flooded (2 ^ 32)).open_edges s.loop.status (1 : Fin 2) := by
  have hrun : ∃ s, System.exec LoopState.next
      ⟨⟨4, wrappedNodes, .make ranks₂, [], 0, fun _ => .empty⟩, .idle, []⟩
      [.poll, .dispatch, .returned .succeeded, .dispatch] = some s ∧
      s.loop.status 0 = .running ∧ s.loop.status 1 = .running ∧
      (s.loop.nodes 1).pending_deps = 0 := ⟨_, rfl, rfl, rfl, rfl⟩
  obtain ⟨s, hs, h0, h1, hdeps⟩ := hrun
  have hr : (loopSystem (flooded (2 ^ 32)) ranks₂).Reachable s :=
    System.reachable_of_exec ⟨by rw [flooded_wrapped rfl]; rfl, rfl, rfl⟩ hs
  have hedge : (flooded (2 ^ 32)).Edge (0 : Fin 2) (1 : Fin 2) :=
    List.mem_replicate.mpr ⟨by norm_num, rfl⟩
  have hne : s.loop.status 0 ≠ .completed := by rw [h0]; decide
  refine ⟨flooded_valid _, s, hr, hedge, hne, h1, fun heq => ?_⟩
  rw [hdeps] at heq
  exact hne (completed_of_open_edges_eq_zero heq.symm hedge)

end Dagr
