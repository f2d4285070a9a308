import Helm.Dagr.GraphOrchestrator

/-! # GraphOrchestrator: shutdown

  `shutdown` drains the tasks in flight by calling `cycle` until none is
  left, and cancels the remaining ones by force when the timeout expires.

  Whenever it returns, nothing is in flight and every rank is available
  again. The rest depends on where it starts. The drain uses the ordinary
  `cycle`, which polls and dispatches too, and the forced cancellation does
  not cascade. So a node that is pending or ready at the start may still be
  dispatched, and may be left as it is. `shutdown_iff` says exactly from
  which states no callback and no timeout can bring this about.
-/

namespace Dagr

open LTS

/-! ## Section 1: The states an owner can reach -/

/-- The calls of the owner. `run` is one that has come to an end. -/
inductive OrchCall (n : Nat)
  | run (fuel : Nat)
  | advance_step (cb : Callbacks n)
  | yield_ranks (rank_set : OrdSet Int)
  | reclaim_ranks (rank_set : OrdSet Int)
  | shutdown (cbs : List (Callbacks n))

namespace GraphOrchestrator

variable {n : Nat}

/-- The state a call leaves. -/
def next (o : OrchState n) : OrchCall n → Option (OrchState n)
  | .run fuel => (run fuel o).map Prod.fst
  | .advance_step cb => some (advance_step cb o).1
  | .yield_ranks rank_set => some (o.yield_ranks rank_set)
  | .reclaim_ranks rank_set => some (o.reclaim_ranks rank_set)
  | .shutdown cbs => some (shutdown cbs o).1

end GraphOrchestrator

/-- The orchestrator of a pipeline, under the calls of its owner. -/
def ownerSystem (cfg : PipelineConfig) (ranks : OrdSet Int) :
    System (OrchState cfg.num_tasks) (OrchCall cfg.num_tasks) :=
  .ofNext (OrchInit cfg ranks) GraphOrchestrator.next

namespace GraphOrchestrator

section Runs

variable {n : Nat} (init : OrchState n → Prop)

/-- A run of the orchestrator that ends between two cycles. -/
def Run (o o' : OrchState n) : Prop :=
  (∃ ls, (System.ofNext init OrchState.next).Steps o ls o') ∧ o'.run.phase = .idle

theorem Run.refl {o : OrchState n} (hidle : o.run.phase = .idle) : Run init o o :=
  ⟨⟨[], .nil o⟩, hidle⟩

theorem Run.turn (cb : Callbacks n) {o : OrchState n} (hidle : o.run.phase = .idle) :
    Run init o (o.turn cb).1 :=
  ⟨turn_run init cb hidle, by rw [turn_phase, hidle]⟩

theorem Run.step {o o' : OrchState n} {l : OrchLabel} (h : o.next l = some o')
    (hphase : o'.run.phase = .idle) : Run init o o' :=
  ⟨⟨[l], .cons h (.nil _)⟩, hphase⟩

variable {init}

theorem Run.trans {o o' o'' : OrchState n} (h : Run init o o') (h' : Run init o' o'') :
    Run init o o'' := by
  obtain ⟨⟨ls, hs⟩, -⟩ := h
  obtain ⟨⟨ls', hs'⟩, hidle⟩ := h'
  exact ⟨⟨_, hs.append hs'⟩, hidle⟩

theorem Run.reachable {o o' : OrchState n} (h : Run init o o')
    (hr : (System.ofNext init OrchState.next).Reachable o) :
    (System.ofNext init OrchState.next).Reachable o' := by
  obtain ⟨⟨ls, hs⟩, -⟩ := h
  exact hs.reachable hr

variable (init)

theorem run_loop_run (fuel : Nat) {o o' : OrchState n} {msg : Option String}
    (hidle : o.run.phase = .idle) (h : run_loop fuel o = some (o', msg)) : Run init o o' := by
  induction fuel generalizing o with
  | zero =>
    rw [run_loop] at h
    split at h
    · cases h; exact .refl init hidle
    · cases h
  | succ fuel ih =>
    rw [run_loop] at h
    split at h
    · cases h; exact .refl init hidle
    · have hturn := Run.turn init run_callbacks hidle
      revert h hturn
      rcases o.turn run_callbacks with ⟨o₁, msg' | all_done⟩
      · intro h hturn
        cases h
        exact hturn
      · intro h hturn
        exact hturn.trans (ih hturn.2 h)

theorem run_run (fuel : Nat) {o o' : OrchState n} {res : Except String Unit}
    (hidle : o.run.phase = .idle) (h : run fuel o = some (o', res)) : Run init o o' := by
  unfold run at h
  split at h
  · cases h; exact .refl init hidle
  · cases hloop : run_loop fuel o with
    | none => rw [hloop] at h; cases h
    | some r =>
      obtain ⟨o₁, msg⟩ := r
      have hrun := run_loop_run init fuel hidle hloop
      rw [hloop] at h
      cases msg with
      | some msg => cases h; exact hrun
      | none =>
        simp only at h
        split at h
        · cases h; exact hrun
        · cases h; exact hrun

theorem drain_run (cbs : List (Callbacks n)) {o : OrchState n} (hidle : o.run.phase = .idle) :
    Run init o (drain cbs o).1 ∧ ((drain cbs o).2 = none → (drain cbs o).1.loop.in_flight = 0) := by
  induction cbs generalizing o with
  | nil =>
    rw [drain]
    split
    · exact ⟨.step init (l := .force_cancel) rfl hidle, fun _ => rfl⟩
    · next hnot => exact ⟨.refl init hidle, fun _ => Nat.eq_zero_of_not_pos hnot⟩
  | cons cb cbs ih =>
    rw [drain]
    split
    · have hturn := Run.turn init cb hidle
      revert hturn
      rcases o.turn cb with ⟨o₁, msg | all_done⟩
      · intro hturn
        exact ⟨hturn, fun hnone => by cases hnone⟩
      · intro hturn
        obtain ⟨hrun, hzero⟩ := ih hturn.2
        exact ⟨hturn.trans hrun, hzero⟩
    · next hnot => exact ⟨.refl init hidle, fun _ => Nat.eq_zero_of_not_pos hnot⟩

theorem shutdown_run (cbs : List (Callbacks n)) {o : OrchState n} (hidle : o.run.phase = .idle) :
    Run init o (shutdown cbs o).1 := by
  unfold shutdown
  split
  · exact .refl init hidle
  · have hdrain := drain_run init cbs hidle
    revert hdrain
    rcases drain cbs o with ⟨o₁, _ | msg⟩
    · intro hdrain
      obtain ⟨hrun, hzero⟩ := hdrain
      have hstep : o₁.next .shutdown = some { o₁ with shut_down := true } := if_pos (hzero rfl)
      exact hrun.trans (Run.step init hstep hrun.2)
    · intro hdrain
      exact hdrain.1

/-- **Every call is a run** of the orchestrator. -/
theorem next_run {o o' : OrchState n} {c : OrchCall n} (hidle : o.run.phase = .idle)
    (h : next o c = some o') : Run init o o' := by
  cases c with
  | run fuel =>
    obtain ⟨⟨o₁, res⟩, hrun, rfl⟩ := Option.map_eq_some_iff.mp h
    exact run_run init fuel hidle hrun
  | advance_step cb =>
    cases h
    unfold advance_step
    split
    · exact .refl init hidle
    · exact .turn init cb hidle
  | yield_ranks rank_set =>
    cases h
    apply Run.step init (l := .yield_ranks rank_set) rfl
    unfold OrchState.yield_ranks
    split
    · exact hidle
    · exact hidle
  | reclaim_ranks rank_set =>
    cases h
    apply Run.step init (l := .reclaim_ranks rank_set) rfl
    unfold OrchState.reclaim_ranks
    split
    · exact hidle
    · exact hidle
  | shutdown cbs =>
    cases h
    exact shutdown_run init cbs hidle

end Runs

/-! ## Section 2: What holds between the calls -/

variable {cfg : PipelineConfig} {ranks : OrdSet Int}

/-- The log holds every running node. -/
def Logged {n : Nat} (s : LoopState n) : Prop := ∀ v, s.loop.status v = .running → v ∈ s.dispatched

theorem logged_effect {n : Nat} {s s' : LoopState n} (h : Logged s) (he : s.Effect s') :
    Logged s' := by
  intro v hv
  cases he with
  | control => exact h v hv
  | wait => exact h v hv
  | skip => exact h v hv
  | poll =>
    apply h v
    rw [EventLoop.status, poll_ready_nodes_nodes] at hv
    rcases polled_status (s.loop.nodes v) with heq | ⟨-, -, hready⟩
    · rwa [heq] at hv
    · rw [hready] at hv; cases hv
  | start i rest pool ranks hready =>
    change (s.loop.set_status i .running).status v = .running at hv
    rw [EventLoop.set_status_status] at hv
    by_cases hvi : v = i
    · exact List.mem_append_right _ (hvi ▸ List.mem_singleton_self v)
    · rw [if_neg hvi] at hv
      exact List.mem_append_left _ (h v hv)
  | fail i phase hphase hi =>
    have hmem : v ∈ s.loop.running.erase i := by
      rw [← propagate_failure_running]
      exact EventLoop.mem_running.mpr hv
    exact h v (EventLoop.mem_running.mp (Finset.mem_of_mem_erase hmem))
  | complete i phase hphase hrun =>
    have hmem : v ∈ s.loop.running.erase i := by
      rw [← complete_node_running]
      exact EventLoop.mem_running.mpr hv
    exact h v (EventLoop.mem_running.mp (Finset.mem_of_mem_erase hmem))

theorem force_cancel_status {n : Nat} (s : EventLoop n) (v : Fin n) :
    s.force_cancel_in_flight.status v =
      if s.status v = .running then .cancelled else s.status v := by
  have hnode : ∀ (s : EventLoop n) (i v : Fin n), (s.force_cancel_node i).status v =
      if v = i ∧ s.status v = .running then .cancelled else s.status v := by
    intro s i v
    unfold EventLoop.force_cancel_node
    by_cases hi : s.status i = .running
    · rw [if_pos hi, EventLoop.set_status_status, EventLoop.release_allocated_status]
      by_cases hvi : v = i
      · rw [if_pos hvi, if_pos ⟨hvi, hvi ▸ hi⟩]
      · rw [if_neg hvi, if_neg fun h => hvi h.1]
    · have hnot : ¬ (v = i ∧ s.status v = .running) := fun h => hi (h.1 ▸ h.2)
      rw [if_neg hi, if_neg hnot]
  have key : ∀ (l : List (Fin n)) (s : EventLoop n), (l.foldl EventLoop.force_cancel_node s).status v =
      if v ∈ l ∧ s.status v = .running then .cancelled else s.status v := by
    intro l
    induction l with
    | nil =>
      intro s
      rw [if_neg fun h => List.not_mem_nil h.1]
      rfl
    | cons i l ih =>
      intro s
      rw [List.foldl_cons, ih, hnode]
      by_cases hrun : s.status v = .running
      · by_cases hvi : v = i
        · subst hvi
          simp [hrun]
        · simp [hrun, hvi]
      · simp [hrun]
  show ((List.finRange n).foldl EventLoop.force_cancel_node s).status v = _
  rw [key]
  simp [List.mem_finRange]

theorem logged_step {n : Nat} {o o' : OrchState n} {l : OrchLabel} (h : Logged o.run)
    (hstep : o.next l = some o') : Logged o'.run := by
  cases l with
  | loop l =>
    obtain ⟨run, hrun, rfl⟩ := Option.map_eq_some_iff.mp hstep
    exact logged_effect h (LoopState.next_effect hrun)
  | force_cancel =>
    cases hstep
    intro v hv
    apply h v
    have hstatus := force_cancel_status o.run.loop v
    by_contra hnot
    rw [if_neg hnot] at hstatus
    exact hnot (hstatus ▸ hv)
  | yield_ranks rank_set =>
    cases hstep
    unfold OrchState.yield_ranks
    split
    · exact h
    · exact h
  | reclaim_ranks rank_set =>
    cases hstep
    unfold OrchState.reclaim_ranks
    split
    · exact h
    · exact h
  | process_deferred_reclamation =>
    cases hstep
    obtain ⟨pool, d, hprocess⟩ := process_deferred_reclamation_eq o
    rw [hprocess]
    exact h
  | shutdown =>
    simp only [OrchState.next] at hstep
    split at hstep
    · cases hstep; exact h
    · cases hstep

/-- The invariant between two calls. -/
structure OwnerInv (cfg : PipelineConfig) (ranks : OrdSet Int) (o : OrchState cfg.num_tasks) :
    Prop where
  reachable : (orchestratorSystem cfg ranks).Reachable o
  idle : o.run.phase = .idle
  logged : Logged o.run
  down : o.shut_down = true → o.loop.in_flight = 0

theorem OwnerInv.rank_inv {o : OrchState cfg.num_tasks} (h : OwnerInv cfg ranks o) :
    RankInv cfg o.run :=
  orch_inv_reachable h.reachable

theorem OwnerInv.not_running {o : OrchState cfg.num_tasks} (h : OwnerInv cfg ranks o)
    (hzero : o.loop.in_flight = 0) (v : Fin cfg.num_tasks) : o.loop.status v ≠ .running := by
  intro hv
  have hcard := h.rank_inv.in_flight_eq
  rw [show o.run.loop.in_flight = 0 from hzero] at hcard
  have hmem : v ∈ o.run.loop.running := EventLoop.mem_running.mpr hv
  rw [Finset.card_eq_zero.mp hcard.symm] at hmem
  exact Finset.notMem_empty v hmem

theorem OwnerInv.in_flight_pos {o : OrchState cfg.num_tasks} (h : OwnerInv cfg ranks o)
    {v : Fin cfg.num_tasks} (hv : o.loop.status v = .running) : 0 < o.loop.in_flight := by
  by_contra hnot
  exact h.not_running (Nat.eq_zero_of_not_pos hnot) v hv

theorem OwnerInv.run {o o' : OrchState cfg.num_tasks} (h : OwnerInv cfg ranks o)
    (hrun : Run (OrchInit cfg ranks) o o')
    (hdown : o'.shut_down = true → o'.loop.in_flight = 0) : OwnerInv cfg ranks o' := by
  refine ⟨hrun.reachable h.reachable, hrun.2, ?_, hdown⟩
  obtain ⟨⟨ls, hs⟩, -⟩ := hrun
  refine hs.stable (P := fun o => Logged o.run) ?_ h.reachable h.logged
  intro o l o' _ hlog hstep
  exact logged_step hlog hstep

theorem run_shut_down (fuel : Nat) {o o' : OrchState cfg.num_tasks} {res : Except String Unit}
    (h : run fuel o = some (o', res)) : o'.shut_down = o.shut_down := by
  have hloop : ∀ (fuel : Nat) (o o' : OrchState cfg.num_tasks) (msg : Option String),
      run_loop fuel o = some (o', msg) → o'.shut_down = o.shut_down := by
    intro fuel
    induction fuel with
    | zero =>
      intro o o' msg h
      rw [run_loop] at h
      split at h
      · cases h; rfl
      · cases h
    | succ fuel ih =>
      intro o o' msg h
      have hturn := turn_shut_down run_callbacks o
      rw [run_loop] at h
      split at h
      · cases h; rfl
      · revert h hturn
        rcases o.turn run_callbacks with ⟨o₁, msg' | all_done⟩
        · intro hturn h
          cases h
          exact hturn
        · intro hturn h
          exact (ih _ _ _ h).trans hturn
  unfold run at h
  split at h
  · cases h; rfl
  · cases hres : run_loop fuel o with
    | none => rw [hres] at h; cases h
    | some r =>
      obtain ⟨o₁, msg⟩ := r
      have heq := hloop fuel o o₁ msg hres
      rw [hres] at h
      cases msg with
      | some msg => cases h; exact heq
      | none =>
        simp only at h
        split at h
        · cases h; exact heq
        · cases h; exact heq

theorem drain_shut_down {n : Nat} (cbs : List (Callbacks n)) (o : OrchState n) :
    (drain cbs o).1.shut_down = o.shut_down := by
  induction cbs generalizing o with
  | nil =>
    rw [drain]
    split
    · rfl
    · rfl
  | cons cb cbs ih =>
    have hturn := turn_shut_down cb o
    rw [drain]
    split
    · revert hturn
      rcases o.turn cb with ⟨o₁, msg | all_done⟩
      · exact id
      · intro hturn
        exact (ih o₁).trans hturn
    · rfl

/-- A shut down orchestrator has nothing in flight, and stays so. -/
theorem next_down {o o' : OrchState cfg.num_tasks} {c : OrchCall cfg.num_tasks}
    (h : OwnerInv cfg ranks o) (hnext : next o c = some o') (hdown : o'.shut_down = true) :
    o'.loop.in_flight = 0 := by
  cases c with
  | run fuel =>
    obtain ⟨⟨o₁, res⟩, hrun, rfl⟩ := Option.map_eq_some_iff.mp hnext
    have hsame : o.shut_down = true := (run_shut_down fuel hrun).symm.trans hdown
    unfold run at hrun
    rw [if_pos hsame] at hrun
    cases hrun
    exact h.down hsame
  | advance_step cb =>
    cases hnext
    unfold advance_step at hdown ⊢
    by_cases hsame : o.shut_down = true
    · rw [if_pos hsame]; exact h.down hsame
    · rw [if_neg hsame, turn_shut_down] at hdown
      exact absurd hdown hsame
  | yield_ranks rank_set =>
    cases hnext
    unfold OrchState.yield_ranks at hdown ⊢
    by_cases hsame : o.shut_down = true
    · rw [if_pos hsame]; exact h.down hsame
    · rw [if_neg hsame] at hdown
      exact absurd hdown hsame
  | reclaim_ranks rank_set =>
    cases hnext
    unfold OrchState.reclaim_ranks at hdown ⊢
    by_cases hsame : o.shut_down = true
    · rw [if_pos hsame]; exact h.down hsame
    · rw [if_neg hsame] at hdown
      exact absurd hdown hsame
  | shutdown cbs =>
    cases hnext
    unfold shutdown at hdown ⊢
    by_cases hsame : o.shut_down = true
    · rw [if_pos hsame]; exact h.down hsame
    · rw [if_neg hsame] at hdown ⊢
      have hdrain := (drain_run (OrchInit cfg ranks) cbs h.idle).2
      have hflag := drain_shut_down cbs o
      revert hdrain hflag hdown
      rcases drain cbs o with ⟨o₁, _ | msg⟩
      · intro _ hdrain _
        exact hdrain rfl
      · intro hdown _ hflag
        exact absurd (hflag.symm.trans hdown) hsame

theorem owner_inv_reachable {o : OrchState cfg.num_tasks}
    (hr : (ownerSystem cfg ranks).Reachable o) : OwnerInv cfg ranks o := by
  refine hr.invariant (P := OwnerInv cfg ranks) (fun o h => ?_) fun o c o' _ h hnext => ?_
  · have hinit : OrchInit cfg ranks o := h
    refine ⟨.init hinit, hinit.1.2.1, fun v hv => ?_, fun hdown => ?_⟩
    · rw [show o.run.loop.status v = .pending from fresh_status hinit v] at hv
      cases hv
    · rw [hinit.2.2] at hdown
      cases hdown
  · exact h.run (next_run _ h.idle hnext) (next_down h hnext)

/-! ## Section 3: States without waiting nodes -/

/-- No node is pending or ready: the loop has nothing to start. -/
def Quiet {n : Nat} (s : EventLoop n) : Prop := ∀ v, s.status v ≠ .pending ∧ s.status v ≠ .ready

theorem quiet_status {n : Nat} {s : EventLoop n} (h : Quiet s) (v : Fin n) :
    s.status v = .running ∨ is_terminal (s.status v) := by
  have hv := h v
  cases hst : s.status v with
  | pending => exact absurd hst hv.1
  | ready => exact absurd hst hv.2
  | running => exact .inl rfl
  | completed => exact .inr rfl
  | failed => exact .inr rfl
  | cancelled => exact .inr rfl

/-- A cycle that finds no waiting node dispatches none and does not throw: it
    only processes the completions. -/
theorem quiet_cycle {n : Nat} {s : EventLoop n} (h : Quiet s) (cb : Callbacks n) :
    ∃ s' : EventLoop n, s'.nodes = s.nodes ∧ s.cycle_trace cb.dispatch_cb = [] ∧
      s.cycle cb.dispatch_cb cb.completions = (s'.process_completions cb.completions,
        .ok (s'.process_completions cb.completions).all_complete) := by
  have hloop : ∀ (fuel : Nat) (s : EventLoop n), Quiet s →
      ∃ s' : EventLoop n, s'.nodes = s.nodes ∧ s.dispatch_trace cb.dispatch_cb fuel = [] ∧
        s.dispatch_loop cb.dispatch_cb fuel = (s', none) := by
    intro fuel
    induction fuel with
    | zero => exact fun s _ => ⟨s, rfl, rfl, rfl⟩
    | succ fuel ih =>
      intro s h
      have hspec := s.dispatch_front_spec
      rw [EventLoop.dispatch_trace, EventLoop.dispatch_loop]
      cases hfront : s.dispatch_front with
      | stop s' =>
        rw [hfront] at hspec
        rcases hspec with rfl | ⟨i, pool, ranks, -, -, rfl⟩
        · exact ⟨_, rfl, rfl, rfl⟩
        · exact ⟨{ s with rank_pool := pool }, rfl, rfl, rfl⟩
      | skipped s' =>
        rw [hfront] at hspec
        obtain ⟨rest, rfl⟩ := hspec
        exact ih { s with ready_queue := rest } h
      | called i s' =>
        rw [hfront] at hspec
        exact absurd hspec.1 (h i).2
      | threw msg =>
        rw [hfront] at hspec
        obtain ⟨i, hready, -⟩ := hspec
        exact absurd hready (h i).2
  have hpoll : s.poll_ready_nodes.nodes = s.nodes := by
    funext v
    rw [poll_ready_nodes_nodes]
    exact EventLoop.polled_of_not fun hp => (h v).1 hp.1
  have hquiet : Quiet s.poll_ready_nodes := by
    intro v
    rw [EventLoop.status, hpoll]
    exact h v
  obtain ⟨s', hnodes, htrace, heq⟩ := hloop (s.poll_ready_nodes.ready_queue.length + 1) _ hquiet
  refine ⟨s', hnodes.trans hpoll, htrace, ?_⟩
  unfold EventLoop.cycle EventLoop.dispatch_ready_nodes
  rw [heq]

/-- Completions only move running nodes to a terminal status. -/
theorem quiet_completions {n : Nat} (cs : List (Nat × Bool)) {s : EventLoop n} (h : Quiet s) :
    Quiet (s.process_completions cs) ∧
      ∀ v, s.status v ≠ .running → (s.process_completions cs).status v = s.status v := by
  induction cs generalizing s with
  | nil => exact ⟨h, fun v _ => rfl⟩
  | cons c cs ih =>
    have hstep : Quiet (s.process_completion c) ∧
        ∀ v, s.status v ≠ .running → (s.process_completion c).status v = s.status v := by
      unfold EventLoop.process_completion
      split
      · next hlt =>
        split
        · exact ⟨h, fun v _ => rfl⟩
        · next hrun =>
          rw [not_not] at hrun
          split
          · -- a node other than the one reported keeps its status
            refine ⟨fun v => ?_, fun v hv => ?_⟩
            · rw [complete_node_status]
              split
              · exact ⟨by decide, by decide⟩
              · exact h v
            · rw [complete_node_status, if_neg]
              exact fun heq => hv (heq ▸ hrun)
          · refine ⟨fun v => ?_, fun v hv => ?_⟩
            · rcases propagate_failure_status s ⟨c.1, hlt⟩ v with heq | ⟨-, -, heq⟩
              · rw [heq]
                split
                · exact ⟨by decide, by decide⟩
                · exact h v
              · rw [heq]
                exact ⟨by decide, by decide⟩
            · rcases propagate_failure_status s ⟨c.1, hlt⟩ v with heq | ⟨-, hcan, -⟩
              · rw [heq, if_neg]
                exact fun heq => hv (heq ▸ hrun)
              · rcases (cancellable_iff _).mp hcan with hst | hst
                · exact absurd hst (h v).1
                · exact absurd hst (h v).2
      · exact ⟨h, fun v _ => rfl⟩
    obtain ⟨hquiet, hkeep⟩ := hstep
    obtain ⟨hquiet', hkeep'⟩ := ih hquiet
    refine ⟨hquiet', fun v hv => ?_⟩
    have hsame := hkeep v hv
    exact (hkeep' v (hsame ▸ hv)).trans hsame

theorem quiet_turn {n : Nat} {o : OrchState n} (h : Quiet o.loop) (cb : Callbacks n) :
    ∃ all_done, (o.turn cb).2 = .ok all_done ∧ Quiet (o.turn cb).1.loop ∧
      (o.turn cb).1.run.dispatched = o.run.dispatched ∧
      ∃ s : EventLoop n, s.nodes = o.loop.nodes ∧
        (o.turn cb).1.loop.nodes = (s.process_completions cb.completions).nodes := by
  obtain ⟨s, hnodes, htrace, heq⟩ := quiet_cycle h cb
  have hs : Quiet s := by
    intro v
    rw [EventLoop.status, hnodes]
    exact h v
  have hcycle : o.cycle cb = ({ o with run :=
      { o.run with
        loop := s.process_completions cb.completions
        dispatched := o.run.dispatched ++ [] } },
      .ok (s.process_completions cb.completions).all_complete) := by
    unfold OrchState.cycle
    rw [heq, htrace]
  obtain ⟨pool, d, hprocess⟩ := process_deferred_reclamation_eq (o.cycle cb).1
  have hturn : o.turn cb = ((o.cycle cb).1.process_deferred_reclamation,
      .ok (s.process_completions cb.completions).all_complete) := by
    unfold OrchState.turn
    rw [hcycle]
  have hquiet := (quiet_completions cb.completions hs).1
  rw [hturn, hprocess, hcycle]
  refine ⟨_, rfl, hquiet, ?_, s, hnodes, rfl⟩
  exact List.append_nil _

/-- **Draining from a quiet state.** No exception, no dispatch; a node that was
    not running keeps its status. -/
theorem quiet_drain {n : Nat} (cbs : List (Callbacks n)) {o : OrchState n} (h : Quiet o.loop) :
    (drain cbs o).2 = none ∧ (drain cbs o).1.run.dispatched = o.run.dispatched ∧
      Quiet (drain cbs o).1.loop ∧
      ∀ v, o.loop.status v ≠ .running → (drain cbs o).1.loop.status v = o.loop.status v := by
  induction cbs generalizing o with
  | nil =>
    rw [drain]
    split
    · have hstatus : ∀ v, o.force_cancel.loop.status v =
          if o.loop.status v = .running then .cancelled else o.loop.status v :=
        force_cancel_status o.loop
      refine ⟨rfl, rfl, fun v => ?_, fun v hv => ?_⟩
      · rw [hstatus]
        split
        · exact ⟨by decide, by decide⟩
        · exact h v
      · rw [hstatus, if_neg hv]
    · exact ⟨rfl, rfl, h, fun v _ => rfl⟩
  | cons cb cbs ih =>
    rw [drain]
    split
    · obtain ⟨all_done, hok, hquiet, hlog, s, hnodes, hresult⟩ := quiet_turn h cb
      have hs : Quiet s := by
        intro v
        rw [EventLoop.status, hnodes]
        exact h v
      have hkeep : ∀ v, o.loop.status v ≠ .running →
          (o.turn cb).1.loop.status v = o.loop.status v := by
        intro v hv
        have hsv : s.status v = o.loop.status v := by rw [EventLoop.status, hnodes]; rfl
        have hcomp := (quiet_completions cb.completions hs).2 v (hsv ▸ hv)
        rw [EventLoop.status, hresult]
        exact hcomp.trans hsv
      revert hok hquiet hlog hkeep
      rcases o.turn cb with ⟨o₁, msg | done⟩
      · intro hok
        cases hok
      · intro _ hquiet hlog hkeep
        obtain ⟨hnone, hlog', hquiet', hkeep'⟩ := ih hquiet
        refine ⟨hnone, hlog'.trans hlog, hquiet', fun v hv => ?_⟩
        have hsame := hkeep v hv
        exact (hkeep' v (hsame ▸ hv)).trans hsame
    · exact ⟨rfl, rfl, h, fun v _ => rfl⟩

/-! ## Section 4: What shutdown achieves -/

/-- The forced cancellation has cancelled `u` between `o` and `o'`. A cascade
    only cancels nodes that were never dispatched. -/
def ForceCancelled {n : Nat} (o o' : OrchState n) (u : Fin n) : Prop :=
  u ∈ o'.run.dispatched ∧ o.loop.status u ≠ .cancelled ∧ o'.loop.status u = .cancelled

/-- An orderly shutdown: it starts no node, and afterwards nothing is in
    flight, every rank is available and every node has ended, where the
    transitive dependents of the nodes it cancelled by force are cancelled. -/
structure ShutsDown (o : OrchState cfg.num_tasks) (cbs : List (Callbacks cfg.num_tasks)) :
    Prop where
  no_start : (shutdown cbs o).1.run.dispatched = o.run.dispatched
  in_flight : (shutdown cbs o).1.loop.in_flight = 0
  available : ∀ r, ¬ (shutdown cbs o).1.loop.rank_pool.Unavailable r
  counters : (shutdown cbs o).1.loop.rank_pool.available_ranks =
    (shutdown cbs o).1.loop.rank_pool.total_ranks
  terminal : ∀ v, is_terminal ((shutdown cbs o).1.loop.status v)
  dependents : ∀ u v, ForceCancelled o (shutdown cbs o).1 u → cfg.Downstream u v →
    (shutdown cbs o).1.loop.status v = .cancelled

theorem OwnerInv.pool_whole {o : OrchState cfg.num_tasks} (h : OwnerInv cfg ranks o)
    (hzero : o.loop.in_flight = 0) : (∀ r, ¬ o.loop.rank_pool.Unavailable r) ∧
      o.loop.rank_pool.available_ranks = o.loop.rank_pool.total_ranks := by
  have hhold := h.rank_inv.hold
  have hnone : ∀ r, ¬ o.loop.rank_pool.Unavailable r := by
    intro r hr
    obtain ⟨v, hv⟩ := (hhold.unavailable r).mp hr
    rw [hhold.released v (h.not_running hzero v)] at hv
    exact OrdSet.not_mem_empty r hv
  refine ⟨hnone, ?_⟩
  have hall : o.loop.rank_pool.slots.countP (·.2) = o.loop.rank_pool.slots.length := by
    rw [List.countP_eq_length]
    intro slot hslot
    by_contra hfree
    obtain ⟨r, free⟩ := slot
    rw [Bool.not_eq_true] at hfree
    simp only at hfree
    subst hfree
    exact hnone r hslot
  have htotal : o.loop.rank_pool.total = o.loop.rank_pool.slots.length % 2 ^ 32 := hhold.pool.total_eq
  have havail : o.loop.rank_pool.available = o.loop.rank_pool.slots.countP (·.2) % 2 ^ 32 :=
    hhold.pool.available_eq
  rw [RankPool.available_ranks, RankPool.total_ranks, havail, htotal, hall]

/-- The states from which every shutdown is orderly. -/
def Orderly (o : OrchState cfg.num_tasks) : Prop :=
  Quiet o.loop ∧ ∀ u v, o.loop.status u = .running → cfg.Downstream u v →
    o.loop.status v = .cancelled

section Exact

variable {o : OrchState cfg.num_tasks}

theorem shutdown_of_quiet (h : OwnerInv cfg ranks o) (hq : Quiet o.loop)
    (cbs : List (Callbacks cfg.num_tasks)) :
    (shutdown cbs o).1.loop = (drain cbs o).1.loop ∧ (shutdown cbs o).1.run = (drain cbs o).1.run ∧
      (shutdown cbs o).1.loop.in_flight = 0 := by
  have hdrain := quiet_drain cbs hq
  have hzero := (drain_run (OrchInit cfg ranks) cbs h.idle).2
  by_cases hdown : o.shut_down = true
  · -- the first shutdown has left nothing in flight
    have hidle := h.down hdown
    have hsame : drain cbs o = (o, none) := by
      cases cbs with
      | nil => rw [drain, if_neg (by omega)]
      | cons cb cbs => rw [drain, if_neg (by omega)]
    unfold shutdown
    rw [if_pos hdown, hsame]
    exact ⟨rfl, rfl, hidle⟩
  · unfold shutdown
    rw [if_neg hdown]
    revert hdrain hzero
    rcases drain cbs o with ⟨o₁, _ | msg⟩
    · intro _ hzero
      exact ⟨rfl, rfl, hzero rfl⟩
    · intro hdrain
      cases hdrain.1

theorem shuts_down_of_orderly (h : OwnerInv cfg ranks o) (hord : Orderly o)
    (cbs : List (Callbacks cfg.num_tasks)) : ShutsDown o cbs := by
  obtain ⟨hq, hdep⟩ := hord
  obtain ⟨hloop, hrun, hzero⟩ := shutdown_of_quiet h hq cbs
  obtain ⟨-, hlog, hquiet, hkeep⟩ := quiet_drain cbs hq
  have hinv : OwnerInv cfg ranks (shutdown cbs o).1 :=
    h.run (shutdown_run _ cbs h.idle) fun _ => hzero
  rw [← hloop] at hquiet hkeep
  obtain ⟨hnone, hcount⟩ := hinv.pool_whole hzero
  refine ⟨by rw [hrun, hlog], hzero, hnone, hcount, fun v => ?_, fun u v hu huv => ?_⟩
  · rcases quiet_status hquiet v with hv | hv
    · exact absurd hv (hinv.not_running hzero v)
    · exact hv
  · -- a node that is cancelled only now was running before
    obtain ⟨-, hbefore, hafter⟩ := hu
    have hrunning : o.loop.status u = .running := by
      by_contra hnot
      exact hbefore ((hkeep u hnot).symm.trans hafter)
    have hcancelled := hdep u v hrunning huv
    rw [hkeep v (by rw [hcancelled]; decide), hcancelled]

theorem shutdown_nil_status (h : OwnerInv cfg ranks o) (v : Fin cfg.num_tasks) :
    (shutdown [] o).1.loop.status v =
      if o.loop.status v = .running then .cancelled else o.loop.status v := by
  unfold shutdown
  split
  · next hdown => rw [if_neg (h.not_running (h.down hdown) v)]
  · by_cases hpos : 0 < o.loop.in_flight
    · rw [drain, if_pos hpos]
      exact force_cancel_status o.loop v
    · rw [drain, if_neg hpos, if_neg (h.not_running (Nat.eq_zero_of_not_pos hpos) v)]
      rfl

/-- A shutdown in which one running node completes and the timeout expires
    while another one is still running. -/
theorem shutdown_one_completes (h : OwnerInv cfg ranks o) (hq : Quiet o.loop)
    {u v : Fin cfg.num_tasks} (huv : u ≠ v) (hu : o.loop.status u = .running)
    (hv : o.loop.status v = .running) :
    let cb : Callbacks cfg.num_tasks := ⟨fun _ _ => .succeeded, [((v : Nat), true)]⟩
    (shutdown [cb] o).1.loop.status u = .cancelled ∧ (shutdown [cb] o).1.loop.status v = .completed ∧
      (shutdown [cb] o).1.run.dispatched = o.run.dispatched := by
  intro cb
  obtain ⟨all_done, hok, -, hlog, s, hnodes, hresult⟩ := quiet_turn hq cb
  have hstatus : ∀ w, (o.turn cb).1.loop.status w =
      if w = v then .completed else o.loop.status w := by
    intro w
    have hsv : s.status v = .running := by rw [EventLoop.status, hnodes]; exact hv
    have hcomp : s.process_completions cb.completions = s.complete_node v := by
      show s.process_completion ((v : Nat), true) = s.complete_node v
      unfold EventLoop.process_completion
      rw [dif_pos v.isLt, if_neg (not_not.mpr hsv), if_pos rfl]
    rw [EventLoop.status, hresult, hcomp]
    show (s.complete_node v).status w = _
    rw [complete_node_status]
    split
    · rfl
    · rw [EventLoop.status, hnodes]; rfl
  have hidle : (o.turn cb).1.run.phase = .idle := by rw [turn_phase, h.idle]
  have hnot : o.shut_down = false := by
    by_contra hdown
    exact h.not_running (h.down (Bool.not_eq_false _ ▸ hdown)) u hu
  have hinv : OwnerInv cfg ranks (o.turn cb).1 :=
    h.run (Run.turn _ cb h.idle) fun hdown => by
      rw [turn_shut_down, hnot] at hdown
      cases hdown
  have hu' : (o.turn cb).1.loop.status u = .running := by rw [hstatus, if_neg huv, hu]
  have hfinal : (shutdown [cb] o).1 = { (o.turn cb).1.force_cancel with shut_down := true } := by
    have hpos := hinv.in_flight_pos hu'
    unfold shutdown
    rw [if_neg (by rw [hnot]; decide), drain, if_pos (h.in_flight_pos hu)]
    revert hpos hok
    rcases o.turn cb with ⟨o₁, msg | done⟩
    · intro hok
      cases hok
    · intro _ hpos
      simp only [drain, if_pos hpos]
  have hcancel := force_cancel_status (o.turn cb).1.loop
  rw [hfinal]
  refine ⟨?_, ?_, hlog⟩
  · refine (hcancel u).trans ?_
    rw [if_pos hu']
  · refine (hcancel v).trans ?_
    rw [hstatus, if_pos rfl]
    rfl

theorem orderly_of_shuts_down (hvalid : cfg.Valid) (h : OwnerInv cfg ranks o)
    (hall : ∀ cbs, ShutsDown o cbs) : Orderly o := by
  have hnow := hall []
  have hstatus := shutdown_nil_status h
  have hq : Quiet o.loop := by
    intro v
    have hterm := hnow.terminal v
    rw [hstatus] at hterm
    constructor
    · intro hv
      rw [hv] at hterm
      exact absurd hterm (by decide)
    · intro hv
      rw [hv] at hterm
      exact absurd hterm (by decide)
  refine ⟨hq, fun u v hu huv => ?_⟩
  have hforced : ForceCancelled o (shutdown [] o).1 u := by
    refine ⟨?_, by rw [hu]; decide, by rw [hstatus, if_pos hu]⟩
    rw [hnow.no_start]
    exact h.logged u hu
  have hcancelled := hnow.dependents u v hforced huv
  rw [hstatus] at hcancelled
  by_cases hv : o.loop.status v = .running
  · -- both run: let `v` complete before the timeout
    have hne : u ≠ v := by
      intro heq
      exact hvalid.acyclic u (heq ▸ huv)
    obtain ⟨hu', hv', hlog⟩ := shutdown_one_completes h hq hne hu hv
    have hone := hall [⟨fun _ _ => .succeeded, [((v : Nat), true)]⟩]
    have hdep := hone.dependents u v ⟨hlog ▸ h.logged u hu, by rw [hu]; decide, hu'⟩ huv
    rw [hv'] at hdep
    cases hdep
  · rwa [if_neg hv] at hcancelled

end Exact

/-- **When a shutdown is orderly.** For every orchestrator its owner can reach:
    every shutdown from there, whatever the callbacks report and whenever the
    timeout expires, is orderly if and only if at its start no node is pending
    or ready and every transitive dependent of a running node is cancelled. -/
theorem shutdown_iff (hvalid : cfg.Valid) {o : OrchState cfg.num_tasks}
    (hr : (ownerSystem cfg ranks).Reachable o) :
    (∀ cbs, ShutsDown o cbs) ↔
      (∀ v, o.loop.status v ≠ .pending ∧ o.loop.status v ≠ .ready) ∧
      ∀ u v, o.loop.status u = .running → cfg.Downstream u v → o.loop.status v = .cancelled := by
  have h := owner_inv_reachable hr
  constructor
  · intro hall
    exact orderly_of_shuts_down hvalid h hall
  · intro hord
    exact shuts_down_of_orderly h hord

/-- Callbacks that accept every dispatch. -/
def reporting {n : Nat} (completions : List (Nat × Bool)) : Callbacks n :=
  ⟨fun _ _ => .succeeded, completions⟩

theorem shutdown_last_stage : ∃ o : OrchState twoStage.num_tasks,
    (ownerSystem twoStage ranks₂).Reachable o ∧ o.loop.status ⟨1, by decide⟩ = .running ∧
    ∀ cbs, ShutsDown o cbs := by
  have hrun : ∃ o, System.exec next (fresh twoStage)
      [.advance_step (reporting [(0, true)]), .advance_step (reporting [])] = some o ∧
      o.loop.status ⟨0, by decide⟩ = .completed ∧ o.loop.status ⟨1, by decide⟩ = .running :=
    ⟨_, rfl, rfl, rfl⟩
  obtain ⟨o, ho, h0, h1⟩ := hrun
  have hinit : OrchInit twoStage ranks₂ (fresh twoStage) := ⟨⟨rfl, rfl, rfl⟩, rfl, rfl⟩
  have hr : (ownerSystem twoStage ranks₂).Reachable o := System.reachable_of_exec hinit ho
  have hvalid : twoStage.Valid := PipelineConfig.valid_of_increasing (by decide)
  have hcases : ∀ v : Fin twoStage.num_tasks, v = ⟨0, by decide⟩ ∨ v = ⟨1, by decide⟩ := by decide
  have hlast : ∀ v, ¬ twoStage.Downstream ⟨1, by decide⟩ v := by
    intro v hv
    obtain ⟨w, hw, -⟩ := Relation.TransGen.head'_iff.mp hv
    have hnone : ∀ w : Fin twoStage.num_tasks,
        (⟨1, (w : Nat)⟩ : DependencyEdge) ∉ twoStage.edges := by decide
    exact hnone w hw
  refine ⟨o, hr, h1, (shutdown_iff hvalid hr).mpr ⟨fun v => ?_, fun u v hu huv => ?_⟩⟩
  · rcases hcases v with rfl | rfl
    · rw [h0]; decide
    · rw [h1]; decide
  · rcases hcases u with rfl | rfl
    · rw [h0] at hu; cases hu
    · exact absurd huv (hlast v)

/-- Two independent tasks and one that depends on the first of them. -/
def sideTask : PipelineConfig := ⟨["produce", "archive", "consume"], [⟨0, 2⟩], 4⟩

theorem shutdown_side_task : sideTask.Valid ∧ ∃ o : OrchState sideTask.num_tasks,
    (ownerSystem sideTask ranks₂).Reachable o ∧
    (shutdown [] o).1.loop.status ⟨0, by decide⟩ = .cancelled ∧
    (shutdown [] o).1.loop.status ⟨2, by decide⟩ = .pending ∧
    (shutdown [reporting [(0, true)], reporting []] o).1.run.dispatched =
      o.run.dispatched ++ [⟨2, by decide⟩] ∧
    ¬ ∀ cbs, ShutsDown o cbs := by
  have hrun : ∃ o, System.exec next (fresh sideTask) [.advance_step (reporting [])] = some o ∧
      (shutdown [] o).1.loop.status ⟨0, by decide⟩ = .cancelled ∧
      (shutdown [] o).1.loop.status ⟨2, by decide⟩ = .pending ∧
      (shutdown [reporting [(0, true)], reporting []] o).1.run.dispatched =
        o.run.dispatched ++ [⟨2, by decide⟩] := ⟨_, rfl, rfl, rfl, rfl⟩
  obtain ⟨o, ho, h0, h2, hlog⟩ := hrun
  have hinit : OrchInit sideTask ranks₂ (fresh sideTask) := ⟨⟨rfl, rfl, rfl⟩, rfl, rfl⟩
  have hr : (ownerSystem sideTask ranks₂).Reachable o := System.reachable_of_exec hinit ho
  refine ⟨PipelineConfig.valid_of_increasing (by decide), o, hr, h0, h2, hlog, fun hall => ?_⟩
  have hterm := (hall []).terminal ⟨2, by decide⟩
  rw [h2] at hterm
  exact absurd hterm (by decide)

end GraphOrchestrator

end Dagr
