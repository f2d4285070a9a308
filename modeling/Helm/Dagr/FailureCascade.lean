import Helm.Dagr.DependencyOrder

/-! # Failure cascade

  When a node fails, the loop cancels what depends on it with a
  breadth-first search that does not descend through nodes that are
  terminal or running. This module proves that the pruning loses nothing:
  below a node that has not completed, every node is pending or already
  cancelled, so the search stops only where an earlier one has been.

  `CascadeInv` says that cancellation is closed under dependents and always
  has a failure above it. The step for a failing node rests on the
  dependency order, which is why the invariants are carried together.
-/

namespace Dagr

open LTS PipelineConfig

variable {cfg : PipelineConfig}

/-! ## Section 1: The invariant -/

/-- Failures and cancellations, against the graph. -/
structure CascadeInv (cfg : PipelineConfig) (s : LoopState cfg.num_tasks) : Prop where
  below : ∀ u v, cfg.Edge u v → s.loop.status u = .failed ∨ s.loop.status u = .cancelled →
    s.loop.status v = .cancelled
  origin : ∀ v, s.loop.status v = .cancelled →
    ∃ u, s.loop.status u = .failed ∧ cfg.Downstream u v

theorem CascadeInv.of_same {s s' : LoopState cfg.num_tasks} (h : CascadeInv cfg s)
    (hf : ∀ v, s'.loop.status v = .failed ↔ s.loop.status v = .failed)
    (hc : ∀ v, s'.loop.status v = .cancelled ↔ s.loop.status v = .cancelled) :
    CascadeInv cfg s' where
  below := fun u v he hu => (hc v).mpr (h.below u v he (hu.imp (hf u).mp (hc u).mp))
  origin := fun v hv => by
    obtain ⟨u, hu, hd⟩ := h.origin v ((hc v).mp hv)
    exact ⟨u, (hf u).mpr hu, hd⟩

theorem cascade_inv_init {ranks : OrdSet Int} {s : LoopState cfg.num_tasks}
    (h : LoopInit cfg ranks s) : CascadeInv cfg s := by
  obtain ⟨-, -, hloop⟩ := h.loop_eq
  have hpend : ∀ v, s.loop.status v = .pending := fun v => by
    rw [EventLoop.status, hloop]; rfl
  exact ⟨fun u v _ hu => by simp [hpend] at hu, fun v hv => by simp [hpend] at hv⟩

/-! ## Section 2: A node fails -/

section Fail

variable {s : LoopState cfg.num_tasks}

theorem OrderInv.waiting (h : OrderInv cfg s) {u v : Fin cfg.num_tasks} (he : cfg.Edge u v)
    (hu : s.loop.status u ≠ .completed) :
    s.loop.status v = .pending ∨ s.loop.status v = .cancelled := by
  by_contra hnot
  rw [not_or] at hnot
  exact hu (completed_of_open_edges_eq_zero (h.started v hnot.1 hnot.2) he)

theorem OrderInv.dependent_iff (h : OrderInv cfg s) {i : Fin cfg.num_tasks} {st : TaskStatus}
    (u v : Fin cfg.num_tasks) :
    EventLoop.Dependent (s.loop.set_status i st).nodes u v ↔ cfg.Edge u v := by
  have hdeps : ((s.loop.set_status i st).nodes u).dependents = downstream cfg.edges u :=
    (congrArg (·.2.2.2) (set_status_shape s.loop i st u)).trans (h.dependents u)
  rw [EventLoop.Dependent, hdeps, mem_downstream, Edge]

theorem OrderInv.downstream_of_changed (h : OrderInv cfg s) {i v : Fin cfg.num_tasks}
    (hv : (s.loop.propagate_failure i).nodes v ≠ (s.loop.set_status i .failed).nodes v) :
    cfg.Downstream i v := by
  obtain ⟨r, hr, hpath⟩ := (s.loop.propagate_failure_nodes i).origin v hv
  rw [h.dependents, mem_downstream] at hr
  exact Relation.TransGen.head' hr
    (Relation.ReflTransGen.mono (fun a b => (h.dependent_iff a b).mp) r v hpath)

theorem cancelled_of_not_cancellable {i v : Fin cfg.num_tasks} (hvi : v ≠ i)
    (hv : s.loop.status v = .pending)
    (hn : ¬ EventLoop.cancellable ((s.loop.propagate_failure i).nodes v)) :
    (s.loop.propagate_failure i).status v = .cancelled := by
  rcases propagate_failure_status s.loop i v with heq | ⟨-, -, heq⟩
  · rw [if_neg hvi, hv] at heq
    exact absurd ((cancellable_iff _).mpr (.inl heq)) hn
  · exact heq

theorem CascadeInv.fail {i : Fin cfg.num_tasks} {phase : Phase cfg.num_tasks}
    (ho : OrderInv cfg s) (hrun : s.loop.status i = .running) (h : CascadeInv cfg s) :
    CascadeInv cfg { s with loop := s.loop.propagate_failure i, phase } := by
  have hnodes := s.loop.propagate_failure_nodes i
  have hkeep : ∀ v, s.loop.status v = .failed ∨ s.loop.status v = .cancelled →
      (s.loop.propagate_failure i).status v = s.loop.status v := fun v hv => by
    rcases propagate_failure_status s.loop i v with heq | ⟨-, hcan, -⟩
    · have hvi : v ≠ i := by rintro rfl; simp [hrun] at hv
      rw [heq, if_neg hvi]
    · have := (cancellable_iff _).mp hcan
      simp only [EventLoop.status] at hv
      rcases hv with hv | hv <;> simp [hv] at this
  refine ⟨fun u v he hu => ?_, fun v hv => ?_⟩
  · -- the producer has not completed, so the consumer is pending or cancelled
    have hopen : s.loop.status u ≠ .completed := fun hcomp => by
      rcases propagate_failure_status s.loop i u with heq | ⟨-, hcan, -⟩
      · have hui : u ≠ i := by rintro rfl; simp [hrun] at hcomp
        change (s.loop.propagate_failure i).status u = _ ∨
          (s.loop.propagate_failure i).status u = _ at hu
        rw [heq, if_neg hui, hcomp] at hu
        simp at hu
      · have := (cancellable_iff _).mp hcan
        simp only [EventLoop.status] at hcomp
        simp [hcomp] at this
    rcases ho.waiting he hopen with hpend | hcanc
    · have hvi : v ≠ i := by rintro rfl; simp [hrun] at hpend
      apply cancelled_of_not_cancellable hvi hpend
      by_cases hui : u = i
      · subst hui
        exact hnodes.roots_closed v (by rw [ho.dependents, mem_downstream]; exact he)
      · -- `u` was cancelled by this cascade, or `v` would be cancelled already
        refine hnodes.closed u v (fun hsame => ?_) ((ho.dependent_iff u v).mpr he)
        have hstatus : (s.loop.propagate_failure i).status u = s.loop.status u := by
          rw [EventLoop.status, hsame, s.loop.set_status_nodes_of_ne _ hui]; rfl
        change (s.loop.propagate_failure i).status u = _ ∨
          (s.loop.propagate_failure i).status u = _ at hu
        rw [hstatus] at hu
        rw [h.below u v he hu] at hpend
        cases hpend
    · exact (hkeep v (.inr hcanc)).trans hcanc
  · by_cases hold : s.loop.status v = .cancelled
    · obtain ⟨u, hu, hd⟩ := h.origin v hold
      exact ⟨u, (hkeep u (.inl hu)).trans hu, hd⟩
    · refine ⟨i, ?_, ho.downstream_of_changed fun hsame => ?_⟩
      · rcases propagate_failure_status s.loop i i with heq | ⟨hne, -⟩
        · rwa [if_pos rfl] at heq
        · exact absurd rfl hne
      · change (s.loop.propagate_failure i).status v = .cancelled at hv
        have hst := s.loop.set_status_status i .failed v
        rw [EventLoop.status, hsame] at hv
        rw [EventLoop.status, hv] at hst
        by_cases hvi : v = i
        · simp [hvi] at hst
        · rw [if_neg hvi] at hst
          exact hold hst.symm

end Fail

theorem cascade_inv_step {s s' : LoopState cfg.num_tasks} (ho : OrderInv cfg s)
    (h : CascadeInv cfg s) (he : s.Effect s') : CascadeInv cfg s' := by
  cases he with
  | control => exact h.of_same (fun _ => Iff.rfl) fun _ => Iff.rfl
  | wait => exact h.of_same (fun _ => Iff.rfl) fun _ => Iff.rfl
  | skip => exact h.of_same (fun _ => Iff.rfl) fun _ => Iff.rfl
  | poll =>
    have hsame : ∀ st v, st ≠ .pending → st ≠ .ready →
        (s.loop.poll_ready_nodes.status v = st ↔ s.loop.status v = st) := fun st v hp hr => by
      simp only [EventLoop.status, poll_ready_nodes_nodes]
      rcases polled_status (s.loop.nodes v) with heq | ⟨hpend, -, hready⟩
      · rw [heq]
      · rw [hpend, hready]
        exact ⟨fun h => absurd h.symm hr, fun h => absurd h.symm hp⟩
    exact h.of_same (fun v => hsame _ v (by decide) (by decide))
      fun v => hsame _ v (by decide) (by decide)
  | start i rest pool ranks hready =>
    have hsame : ∀ st v, st ≠ .running → st ≠ .ready →
        ((s.loop.set_status i .running).status v = st ↔ s.loop.status v = st) := fun st v hn hr => by
      rw [EventLoop.set_status_status]
      split
      · next hv => rw [hv, hready]; exact ⟨fun h => absurd h.symm hn, fun h => absurd h.symm hr⟩
      · rfl
    exact h.of_same (fun v => hsame _ v (by decide) (by decide))
      fun v => hsame _ v (by decide) (by decide)
  | fail i phase hphase hi => exact h.fail ho (hi.elim (ho.calling i) id)
  | complete i phase hphase hrun =>
    have hsame : ∀ st v, st ≠ .completed → st ≠ .running →
        ((s.loop.complete_node i).status v = st ↔ s.loop.status v = st) := fun st v hn hr => by
      rw [complete_node_status]
      split
      · next hv => rw [hv, hrun]; exact ⟨fun h => absurd h.symm hn, fun h => absurd h.symm hr⟩
      · rfl
    exact h.of_same (fun v => hsame _ v (by decide) (by decide))
      fun v => hsame _ v (by decide) (by decide)

theorem cascade_inv_reachable (hv : cfg.Valid) (hin : ∀ v, cfg.incoming v < 2 ^ 32)
    {ranks : OrdSet Int} {s : LoopState cfg.num_tasks}
    (hr : (loopSystem cfg ranks).Reachable s) : CascadeInv cfg s :=
  hr.invariant (fun _ h => cascade_inv_init h)
    fun _ _ _ hr' h hstep =>
      cascade_inv_step (order_inv_reachable hv hin hr') h (loopSystem_effect hstep)

/-! ## Section 3: What a failure does -/

theorem CascadeInv.downstream_cancelled {s : LoopState cfg.num_tasks} (h : CascadeInv cfg s)
    {u v : Fin cfg.num_tasks} (hu : s.loop.status u = .failed) (hd : cfg.Downstream u v) :
    s.loop.status v = .cancelled := by
  induction hd with
  | single he => exact h.below _ _ he (.inl hu)
  | tail _ he ih => exact h.below _ _ he (.inr ih)

theorem DispatchInv.not_dispatched {n : Nat} {s : LoopState n} (h : DispatchInv s) {v : Fin n}
    (hv : s.loop.status v = .cancelled) : v ∉ s.dispatched := by
  rw [h.mem_iff, hv]
  simp

theorem failed_step {n : Nat} {s s' : LoopState n} (he : s.Effect s') {u : Fin n}
    (hu : s.loop.status u ≠ .failed) (hu' : s'.loop.status u = .failed) :
    s'.loop = s.loop.propagate_failure u := by
  cases he with
  | control => exact absurd hu' hu
  | wait => exact absurd hu' hu
  | skip => exact absurd hu' hu
  | poll =>
    simp only [EventLoop.status, poll_ready_nodes_nodes] at hu hu'
    rcases polled_status (s.loop.nodes u) with heq | ⟨-, -, hready⟩
    · exact absurd (heq ▸ hu') hu
    · rw [hready] at hu'; cases hu'
  | start i =>
    change (s.loop.set_status i .running).status u = .failed at hu'
    rw [EventLoop.set_status_status] at hu'
    split at hu'
    · cases hu'
    · exact absurd hu' hu
  | fail i =>
    rcases propagate_failure_status s.loop i u with heq | ⟨-, -, heq⟩
    · by_cases hui : u = i
      · rw [hui]
      · rw [if_neg hui] at heq
        exact absurd (heq.symm.trans hu') hu
    · rw [heq] at hu'; cases hu'
  | complete i =>
    rw [complete_node_status] at hu'
    split at hu'
    · cases hu'
    · exact absurd hu' hu

theorem propagate_failure_allocated_ranks {n : Nat} (s : EventLoop n) (i : Fin n) :
    (s.propagate_failure i).allocated_ranks = Function.update s.allocated_ranks i .empty := by
  simp [EventLoop.propagate_failure]

/-- **Failure cascade.** In every reachable state of the loop over a valid
    graph whose in-degrees fit 32 bits: everything downstream of a failed node
    is cancelled, has not been dispatched and will not be; every cancelled
    node is downstream of a failed one; and the step in which a node fails
    leaves the nodes that are not downstream of it alone. -/
theorem failure_cascade (hv : cfg.Valid) (hin : ∀ v, cfg.incoming v < 2 ^ 32)
    {ranks : OrdSet Int} {s : LoopState cfg.num_tasks}
    (hr : (loopSystem cfg ranks).Reachable s) :
    (∀ u v, s.loop.status u = .failed → cfg.Downstream u v →
      s.loop.status v = .cancelled ∧ v ∉ s.dispatched ∧
      ∀ ls s', (loopSystem cfg ranks).Steps s ls s' →
        s'.loop.status v = .cancelled ∧ v ∉ s'.dispatched) ∧
    (∀ v, s.loop.status v = .cancelled → ∃ u, s.loop.status u = .failed ∧ cfg.Downstream u v) ∧
    (∀ l s' u, (loopSystem cfg ranks).step s l s' → s.loop.status u ≠ .failed →
      s'.loop.status u = .failed → ∀ w, w ≠ u → ¬ cfg.Downstream u w →
        s'.loop.status w = s.loop.status w ∧
        s'.loop.allocated_ranks w = s.loop.allocated_ranks w) := by
  have hinv := cascade_inv_reachable hv hin hr
  refine ⟨fun u v hu hd => ?_, hinv.origin, fun l s' u hstep hu hu' w hw hd => ?_⟩
  · have hcanc := hinv.downstream_cancelled hu hd
    refine ⟨hcanc, (dispatch_inv_reachable hr).not_dispatched hcanc, fun ls s' hs => ?_⟩
    have hlater : s'.loop.status v = .cancelled :=
      (terminal_stable hr hs (by rw [hcanc]; rfl)).trans hcanc
    exact ⟨hlater, (dispatch_inv_reachable (hs.reachable hr)).not_dispatched hlater⟩
  · rw [failed_step (loopSystem_effect hstep) hu hu']
    constructor
    · by_contra hne
      refine hd ((order_inv_reachable hv hin hr).downstream_of_changed fun hsame => hne ?_)
      rw [EventLoop.status, hsame, s.loop.set_status_nodes_of_ne _ hw]
      rfl
    · rw [propagate_failure_allocated_ranks, Function.update_of_ne hw]

theorem failure_cascade_twoStage : ∃ s : LoopState twoStage.num_tasks,
    (loopSystem twoStage ranks₂).Reachable s ∧ s.phase = .idle ∧
    s.loop.status ⟨0, by decide⟩ = .failed ∧ s.loop.status ⟨1, by decide⟩ = .cancelled := by
  have hrun : ∃ s, System.exec LoopState.next
      ⟨⟨4, twoStage.populate_nodes, .make ranks₂, [], 0, fun _ => .empty⟩, .idle, []⟩
      [.poll, .dispatch, .returned .threw, .dispatch, .report [], .finish] = some s ∧
      s.phase = .idle ∧ s.loop.status ⟨0, by decide⟩ = .failed :=
    ⟨_, rfl, rfl, rfl⟩
  obtain ⟨s, hs, hidle, h0⟩ := hrun
  have hr : (loopSystem twoStage ranks₂).Reachable s :=
    System.reachable_of_exec ⟨rfl, rfl, rfl⟩ hs
  have hedge : twoStage.Edge ⟨0, by decide⟩ ⟨1, by decide⟩ := List.mem_cons_self
  have hcanc := (failure_cascade (valid_of_increasing (by decide)) (by decide) hr).1 _ _ h0
    (.single hedge)
  exact ⟨s, hr, hidle, h0, hcanc.1⟩

theorem failure_cascade_flooded : (flooded (2 ^ 32)).Valid ∧
    ∃ s : LoopState 2, (loopSystem (flooded (2 ^ 32)) ranks₂).Reachable s ∧ s.phase = .idle ∧
      s.loop.status 0 = .failed ∧ (flooded (2 ^ 32)).Downstream (0 : Fin 2) (1 : Fin 2) ∧
      s.loop.status 1 = .running := by
  have hrun : ∃ s, System.exec LoopState.next
      ⟨⟨4, wrappedNodes, .make ranks₂, [], 0, fun _ => .empty⟩, .idle, []⟩
      [.poll, .dispatch, .returned .succeeded, .dispatch, .returned .succeeded, .dispatch,
        .report [(0, false)]] = some s ∧ s.phase = .completing [(0, false)] ∧
      s.loop.status 0 = .running ∧ s.loop.status 1 = .running := ⟨_, rfl, rfl, rfl, rfl⟩
  obtain ⟨s, hs, hphase, h0, h1⟩ := hrun
  have hr : (loopSystem (flooded (2 ^ 32)) ranks₂).Reachable s :=
    System.reachable_of_exec ⟨by rw [flooded_wrapped rfl]; rfl, rfl, rfl⟩ hs
  have hfail : s.loop.process_completion (0, false) = s.loop.propagate_failure 0 := by
    simp [EventLoop.process_completion, h0]
  -- the cascade is not evaluated: its specification says what it leaves alone
  have hfailed : (s.loop.propagate_failure 0).status 0 = .failed := by
    rcases propagate_failure_status s.loop 0 0 with heq | ⟨hne, -⟩
    · exact heq
    · exact absurd rfl hne
  have hrunning : (s.loop.propagate_failure 0).status 1 = .running := by
    rcases propagate_failure_status s.loop 0 1 with heq | ⟨-, hcan, -⟩
    · exact heq.trans h1
    · rw [cancellable_iff] at hcan
      simp only [EventLoop.status] at h1
      simp [h1] at hcan
  have hstep : (loopSystem (flooded (2 ^ 32)) ranks₂).step s .complete
      { s with loop := s.loop.propagate_failure 0, phase := .completing [] } := by
    change s.next .complete = _
    simp only [LoopState.next, hphase, hfail]
    rfl
  have hlast : (loopSystem (flooded (2 ^ 32)) ranks₂).step
      { s with loop := s.loop.propagate_failure 0, phase := .completing [] } .finish
      { s with loop := s.loop.propagate_failure 0, phase := .idle } := rfl
  have hedge : (flooded (2 ^ 32)).Edge (0 : Fin 2) (1 : Fin 2) :=
    List.mem_replicate.mpr ⟨by norm_num, rfl⟩
  exact ⟨flooded_valid _, _, (hr.step hstep).step hlast, rfl, hfailed, .single hedge, hrunning⟩

end Dagr
