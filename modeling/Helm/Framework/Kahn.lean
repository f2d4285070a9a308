import Helm.Framework.History
import Helm.Framework.System

/-! # Kahn's algorithm

  The topological sort that counts incoming edges: nodes without an open
  incoming edge wait in a queue, and a node that is visited closes its
  outgoing edges one after the other. The graph may have parallel edges
  and loops. One step visits the node at the front of the queue or closes
  one edge.

  Main results:
  - `Inv`: the invariant of the loop over the queue, the counters and the
    nodes visited so far
  - `Inv.in_degree_pos`: no counter is decremented at zero
  - `work_next`: every step takes one unit of the work that is left
  - `Inv.all_sorted_iff`: the loop ends with all nodes visited iff the
    graph has no cycle
-/

namespace Kahn

open LTS History

variable {α : Type*} [DecidableEq α]

/-! ## Section 1: Graphs -/

/-- A finite multigraph by its lists of successors. -/
structure Graph (α : Type*) where
  nodes : List α
  downstream : α → List α
  nodup : nodes.Nodup
  closed : ∀ u ∈ nodes, ∀ v ∈ downstream u, v ∈ nodes

namespace Graph

variable (G : Graph α)

def Edge (u v : α) : Prop := u ∈ G.nodes ∧ v ∈ G.downstream u

def Acyclic : Prop := ∀ v, ¬ Relation.TransGen G.Edge v v

/-- The number of edges into `v`, with multiplicity. -/
def incoming (v : α) : Nat := ∑ u ∈ G.nodes.toFinset, (G.downstream u).count v

/-- The edges into `v` from the nodes of a list. -/
def closed_edges (done : List α) (v : α) : Nat := ∑ u ∈ done.toFinset, (G.downstream u).count v

variable {G}

theorem closed_edges_le {done : List α} (h : ∀ u ∈ done, u ∈ G.nodes) (v : α) :
    G.closed_edges done v ≤ G.incoming v := by
  apply Finset.sum_le_sum_of_subset
  intro u hu
  exact List.mem_toFinset.mpr (h u (List.mem_toFinset.mp hu))

theorem closed_edges_snoc {done : List α} {u : α} (hu : u ∉ done) (v : α) :
    G.closed_edges (done ++ [u]) v = G.closed_edges done v + (G.downstream u).count v := by
  have hset : (done ++ [u]).toFinset = insert u done.toFinset := by
    ext x
    simp
  rw [closed_edges, hset, Finset.sum_insert (by simpa using hu), Nat.add_comm]
  rfl

theorem mem_of_closed {done : List α} (h : ∀ u ∈ done, u ∈ G.nodes) {u v : α}
    (hall : G.closed_edges done v = G.incoming v) (hedge : G.Edge u v) : u ∈ done := by
  by_contra hu
  have hle : G.closed_edges (done ++ [u]) v ≤ G.incoming v := by
    apply closed_edges_le
    intro x hx
    rcases List.mem_append.mp hx with hx | hx
    · exact h x hx
    · obtain rfl := List.mem_singleton.mp hx
      exact hedge.1
  have hpos : 0 < (G.downstream u).count v := List.count_pos_iff.mpr hedge.2
  rw [closed_edges_snoc hu] at hle
  omega

theorem exists_open {done : List α} {v : α} (hlt : G.closed_edges done v < G.incoming v) :
    ∃ u, u ∉ done ∧ G.Edge u v := by
  by_contra hnone
  apply absurd hlt
  apply Nat.not_lt.mpr
  apply Finset.sum_le_sum_of_ne_zero
  intro u hu hcount
  by_contra hdone
  have hv : v ∈ G.downstream u := List.count_pos_iff.mp (Nat.pos_of_ne_zero hcount)
  exact hnone ⟨u, fun h => hdone (List.mem_toFinset.mpr h), List.mem_toFinset.mp hu, hv⟩

end Graph

/-! ## Section 2: The loop -/

structure State (α : Type*) where
  queue : List α
  in_degree : α → Nat
  /-- The nodes visited so far. -/
  sorted : List α
  /-- The rest of the successors of the node that is visited. -/
  deps : List α

inductive Label (α : Type*)
  | visit (v : α)
  | relax (v : α)

def next (G : Graph α) (s : State α) : Option (Label α × State α) :=
  match s.deps, s.queue with
  | v :: deps, queue =>
    let d := s.in_degree v - 1
    some (.relax v, { s with
      in_degree := Function.update s.in_degree v d
      queue := if d = 0 then queue ++ [v] else queue
      deps := deps })
  | [], v :: queue =>
    some (.visit v, { s with queue := queue, sorted := s.sorted ++ [v], deps := G.downstream v })
  | [], [] => none

/-- The nodes without incoming edges are the first in the queue. -/
def start (G : Graph α) : State α where
  queue := G.nodes.filter fun v => G.incoming v = 0
  in_degree := G.incoming
  sorted := []
  deps := []

/-- The step relation of the loop. -/
def system (G : Graph α) : System (State α) (Label α) where
  init := (· = start G)
  step := fun s l s' => next G s = some (l, s')

/-! ### Running a loop -/

section Finish

variable {σ τ Λ : Type*}

/-- A loop given by its step runs until it ends, for at most `fuel` steps. -/
def finish (step : σ → Option (Λ × σ)) : Nat → σ → Option σ
  | fuel, s =>
    match step s with
    | none => some s
    | some (_, s') =>
      match fuel with
      | 0 => none
      | fuel + 1 => finish step fuel s'

variable {step : σ → Option (Λ × σ)} {step' : τ → Option (Λ × τ)}

theorem finish_of_none {fuel : Nat} {s : σ} (h : step s = none) : finish step fuel s = some s := by
  cases fuel <;> rw [finish, h]

theorem finish_succ {fuel : Nat} {s s' : σ} {l : Λ} (h : step s = some (l, s')) :
    finish step (fuel + 1) s = finish step fuel s' := by
  rw [finish, h]

theorem finish_next {fuel : Nat} {s s' t : σ} {l : Λ} (h : step s = some (l, s'))
    (hfinish : finish step fuel s = some t) : ∃ fuel', finish step fuel' s' = some t := by
  cases fuel with
  | zero =>
    rw [finish, h] at hfinish
    cases hfinish
  | succ fuel =>
    rw [finish_succ h] at hfinish
    exact ⟨fuel, hfinish⟩

theorem finish_simulates {R : σ → τ → Prop}
    (hnone : ∀ s t, R s t → step' t = none → step s = none)
    (hsome : ∀ s t l t', R s t → step' t = some (l, t') → ∃ s', step s = some (l, s') ∧ R s' t')
    {fuel : Nat} {s : σ} {t t' : τ} (hst : R s t) (hfinish : finish step' fuel t = some t') :
    ∃ s', finish step fuel s = some s' ∧ R s' t' := by
  induction fuel generalizing s t with
  | zero =>
    cases hstep : step' t with
    | none =>
      rw [finish_of_none hstep] at hfinish
      obtain rfl := Option.some.inj hfinish
      exact ⟨s, finish_of_none (hnone s t hst hstep), hst⟩
    | some next =>
      rw [finish, hstep] at hfinish
      cases hfinish
  | succ fuel ih =>
    cases hstep : step' t with
    | none =>
      rw [finish_of_none hstep] at hfinish
      obtain rfl := Option.some.inj hfinish
      exact ⟨s, finish_of_none (hnone s t hst hstep), hst⟩
    | some next =>
      obtain ⟨s₁, hs₁, hrel⟩ := hsome s t next.1 next.2 hst hstep
      rw [finish_succ hstep] at hfinish
      rw [finish_succ hs₁]
      exact ih hrel hfinish

end Finish

/-! ## Section 3: The invariant -/

/-- The loop between two steps. -/
structure Inv (G : Graph α) (s : State α) : Prop where
  nodup : (s.sorted ++ s.queue).Nodup
  mem_nodes : ∀ v ∈ s.sorted ++ s.queue, v ∈ G.nodes
  deps_nodes : ∀ v ∈ s.deps, v ∈ G.nodes
  /-- A counter counts the edges that are not closed. -/
  balance : ∀ v, s.in_degree v + G.closed_edges s.sorted v = G.incoming v + s.deps.count v
  /-- A node is in the queue or visited as soon as its counter is zero. -/
  enqueued : ∀ v ∈ G.nodes, s.in_degree v = 0 ↔ v ∈ s.sorted ++ s.queue
  /-- Every node is visited after its predecessors. -/
  order : Sound (fun pre v => ∀ u, G.Edge u v → u ∈ pre) s.sorted

variable {G : Graph α} {s s' : State α} {l : Label α} {v : α}

theorem inv_start (G : Graph α) : Inv G (start G) where
  nodup := G.nodup.filter _
  mem_nodes := fun v hv => (List.mem_filter.mp hv).1
  deps_nodes := by simp [start]
  balance := by simp [start, Graph.closed_edges]
  enqueued := by
    intro v hv
    simp [start, hv]
  order := Sound.nil

theorem Inv.sorted_nodes (h : Inv G s) : ∀ v ∈ s.sorted, v ∈ G.nodes :=
  fun v hv => h.mem_nodes v (List.mem_append_left _ hv)

theorem Inv.count_deps_le (h : Inv G s) (v : α) : s.deps.count v ≤ s.in_degree v := by
  have hbalance := h.balance v
  have hle := Graph.closed_edges_le h.sorted_nodes v
  omega

/-- **No counter underflows.** -/
theorem Inv.in_degree_pos (h : Inv G s) (hv : v ∈ s.deps) : 0 < s.in_degree v :=
  (List.count_pos_iff.mpr hv).trans_le (h.count_deps_le v)

theorem Inv.not_enqueued (h : Inv G s) (hv : v ∈ s.deps) : v ∉ s.sorted ++ s.queue := by
  intro hmem
  have hzero := (h.enqueued v (h.deps_nodes v hv)).mpr hmem
  have hpos := h.in_degree_pos hv
  omega

theorem Inv.relax (h : Inv G s) {deps : List α} (hdeps : s.deps = v :: deps) :
    Inv G { s with
      in_degree := Function.update s.in_degree v (s.in_degree v - 1)
      queue := if s.in_degree v - 1 = 0 then s.queue ++ [v] else s.queue
      deps := deps } := by
  have hmem : v ∈ s.deps := hdeps ▸ List.mem_cons_self
  have hpos := h.in_degree_pos hmem
  have hnew := h.not_enqueued hmem
  have hqueue : s.sorted ++ (if s.in_degree v - 1 = 0 then s.queue ++ [v] else s.queue) =
      if s.in_degree v - 1 = 0 then (s.sorted ++ s.queue) ++ [v] else s.sorted ++ s.queue := by
    split <;> simp
  refine ⟨?_, ?_, ?_, ?_, ?_, h.order⟩
  · dsimp only
    rw [hqueue]
    split
    · rw [List.nodup_append]
      refine ⟨h.nodup, List.nodup_singleton v, ?_⟩
      rintro a ha b hb rfl
      exact hnew (List.mem_singleton.mp hb ▸ ha)
    · exact h.nodup
  · intro w hw
    rw [hqueue] at hw
    split at hw
    · rcases List.mem_append.mp hw with hold | hlast
      · exact h.mem_nodes w hold
      · exact List.mem_singleton.mp hlast ▸ h.deps_nodes v hmem
    · exact h.mem_nodes w hw
  · exact fun w hw => h.deps_nodes w (hdeps ▸ List.mem_cons_of_mem _ hw)
  · intro w
    have hbalance := h.balance w
    rw [hdeps, List.count_cons] at hbalance
    dsimp only
    by_cases hw : w = v
    · subst hw
      rw [Function.update_self]
      simp only [beq_self_eq_true, if_true] at hbalance
      omega
    · rw [Function.update_of_ne hw]
      simpa [Ne.symm hw] using hbalance
  · intro w hwnodes
    dsimp only
    rw [hqueue]
    by_cases hw : w = v
    · subst hw
      rw [Function.update_self]
      split
      · next hzero => simp [hzero]
      · next hzero => simp [hzero, hnew]
    · rw [Function.update_of_ne hw, h.enqueued w hwnodes]
      split
      · simp [hw]
      · rfl

theorem Inv.visit (h : Inv G s) {queue : List α} (hdeps : s.deps = []) (hqueue : s.queue = v :: queue) :
    Inv G { s with queue := queue, sorted := s.sorted ++ [v], deps := G.downstream v } := by
  have hsame : s.sorted ++ [v] ++ queue = s.sorted ++ s.queue := by simp [hqueue]
  have hmem : v ∈ s.sorted ++ s.queue := by simp [hqueue]
  have hnodes := h.mem_nodes v hmem
  have hnew : v ∉ s.sorted := by
    have hnodup := h.nodup
    rw [hqueue, List.nodup_append] at hnodup
    exact fun hv => hnodup.2.2 v hv v List.mem_cons_self rfl
  refine ⟨?_, ?_, ?_, ?_, ?_, ?_⟩
  · dsimp only
    rw [hsame]
    exact h.nodup
  · intro w hw
    dsimp only at hw
    rw [hsame] at hw
    exact h.mem_nodes w hw
  · exact fun w hw => G.closed v hnodes w hw
  · intro w
    have hbalance := h.balance w
    rw [hdeps, List.count_nil] at hbalance
    dsimp only
    rw [Graph.closed_edges_snoc hnew]
    omega
  · intro w hw
    dsimp only
    rw [hsame]
    exact h.enqueued w hw
  · -- its counter is zero, so the edges into it come from visited nodes
    have hzero := (h.enqueued v hnodes).mpr hmem
    have hbalance := h.balance v
    rw [hdeps, List.count_nil] at hbalance
    apply h.order.snoc
    intro u hedge
    exact Graph.mem_of_closed h.sorted_nodes (by omega) hedge

/-- **Step lemma.** -/
theorem Inv.next (h : Inv G s) (hstep : next G s = some (l, s')) : Inv G s' := by
  unfold Kahn.next at hstep
  split at hstep
  · next hdeps =>
    obtain ⟨-, rfl⟩ := Prod.mk.inj (Option.some.inj hstep)
    exact h.relax hdeps
  · next hdeps hqueue =>
    obtain ⟨-, rfl⟩ := Prod.mk.inj (Option.some.inj hstep)
    exact h.visit hdeps hqueue
  · cases hstep

theorem reachable_inv (hr : (system G).Reachable s) : Inv G s := by
  apply hr.invariant
  · rintro s rfl
    exact inv_start G
  · intro s l s' _ h hstep
    exact h.next hstep

/-! ## Section 4: The loop ends -/

/-- The visits and the edges that are left. -/
def work (G : Graph α) (s : State α) : Nat :=
  ∑ u ∈ G.nodes.toFinset \ s.sorted.toFinset, (1 + (G.downstream u).length) + s.deps.length

theorem work_next (h : Inv G s) (hstep : next G s = some (l, s')) :
    work G s' + 1 = work G s := by
  unfold next at hstep
  split at hstep
  · next hdeps =>
    obtain ⟨-, rfl⟩ := Prod.mk.inj (Option.some.inj hstep)
    simp only [work, hdeps, List.length_cons]
    omega
  · next v queue hdeps hqueue =>
    obtain ⟨-, rfl⟩ := Prod.mk.inj (Option.some.inj hstep)
    have hmem : v ∈ s.sorted ++ s.queue := by simp [hqueue]
    have hnew : v ∉ s.sorted := by
      have hnodup := h.nodup
      rw [hqueue, List.nodup_append] at hnodup
      exact fun hv => hnodup.2.2 v hv v List.mem_cons_self rfl
    have hleft : v ∈ G.nodes.toFinset \ s.sorted.toFinset := by
      simp [h.mem_nodes v hmem, hnew]
    have herase : G.nodes.toFinset \ (s.sorted ++ [v]).toFinset =
        (G.nodes.toFinset \ s.sorted.toFinset).erase v := by
      ext u
      simp only [List.toFinset_append, Finset.mem_sdiff, Finset.mem_union, List.mem_toFinset,
        List.mem_singleton, Finset.mem_erase, not_or]
      tauto
    have hsum := Finset.sum_erase_add _ (fun u => 1 + (G.downstream u).length) hleft
    simp only [work, herase, hdeps, List.length_nil]
    omega
  · cases hstep

theorem finish_returns (h : Inv G s) {fuel : Nat} (hfuel : work G s ≤ fuel) :
    ∃ t, finish (Kahn.next G) fuel s = some t ∧ Inv G t ∧ Kahn.next G t = none := by
  induction fuel generalizing s with
  | zero =>
    cases hstep : Kahn.next G s with
    | none => exact ⟨s, finish_of_none hstep, h, hstep⟩
    | some step =>
      have hwork := work_next h hstep
      omega
  | succ fuel ih =>
    cases hstep : Kahn.next G s with
    | none => exact ⟨s, finish_of_none hstep, h, hstep⟩
    | some step =>
      have hwork := work_next h hstep
      rw [finish_succ hstep]
      exact ih (h.next hstep) (by omega)

theorem work_start (G : Graph α) :
    work G (start G) = ∑ u ∈ G.nodes.toFinset, (1 + (G.downstream u).length) := by
  simp [work, start]

/-- The nodes that a run visits. -/
def visits (ls : List (Label α)) : List α :=
  ls.filterMap fun l => match l with
    | .visit v => some v
    | .relax _ => none

theorem sorted_steps {ls : List (Label α)} (hsteps : (system G).Steps s ls s') :
    s'.sorted = s.sorted ++ visits ls := by
  induction hsteps with
  | nil s => simp [visits]
  | cons hstep _ ih =>
    rw [ih]
    simp only [system, next] at hstep
    split at hstep
    · obtain ⟨rfl, rfl⟩ := Prod.mk.inj (Option.some.inj hstep)
      simp [visits]
    · obtain ⟨rfl, rfl⟩ := Prod.mk.inj (Option.some.inj hstep)
      simp [visits]
    · cases hstep

/-- **A run visits every node at most once.** -/
theorem visits_nodup {ls : List (Label α)} (hsteps : (system G).Steps (start G) ls s) :
    (visits ls).Nodup ∧ ∀ v ∈ visits ls, v ∈ G.nodes := by
  have h := reachable_inv (hsteps.reachable (.init rfl))
  have hsorted : s.sorted = visits ls := by simpa [start] using sorted_steps hsteps
  rw [← hsorted]
  exact ⟨(List.nodup_append.mp h.nodup).1, h.sorted_nodes⟩

/-! ## Section 5: What the end says -/

theorem next_eq_none : next G s = none ↔ s.queue = [] ∧ s.deps = [] := by
  unfold next
  split <;> simp_all

theorem Inv.length_sorted_le (h : Inv G s) : s.sorted.length ≤ G.nodes.length := by
  have hnodup : s.sorted.Nodup := (List.nodup_append.mp h.nodup).1
  exact (hnodup.subperm h.sorted_nodes).length_le

theorem Inv.all_sorted (h : Inv G s) (hlength : s.sorted.length = G.nodes.length) :
    ∀ v ∈ G.nodes, v ∈ s.sorted := by
  have hnodup : s.sorted.Nodup := (List.nodup_append.mp h.nodup).1
  have hperm := (hnodup.subperm h.sorted_nodes).perm_of_length_le hlength.ge
  exact fun v hv => hperm.mem_iff.mpr hv

theorem Inv.before (h : Inv G s) {u v : α} (huv : Relation.TransGen G.Edge u v) {pre post : List α}
    (hsplit : s.sorted = pre ++ v :: post) : u ∈ pre := by
  induction huv generalizing pre post with
  | single hedge => exact h.order pre _ post hsplit _ hedge
  | @tail w x _ hedge ih =>
    obtain ⟨pre', post', rfl⟩ := List.append_of_mem (h.order pre x post hsplit w hedge)
    have hearlier : s.sorted = pre' ++ w :: (post' ++ x :: post) := by
      rw [hsplit]
      simp
    exact List.mem_append_left _ (ih hearlier)

theorem Inv.acyclic_of_all (h : Inv G s) (hall : ∀ v ∈ G.nodes, v ∈ s.sorted) : G.Acyclic := by
  intro v hcycle
  have hv : v ∈ G.nodes := by
    obtain ⟨u, -, hedge⟩ := Relation.TransGen.tail'_iff.mp hcycle
    exact G.closed u hedge.1 v hedge.2
  obtain ⟨pre, post, hsplit⟩ := List.append_of_mem (hall v hv)
  have hbefore := h.before hcycle hsplit
  have hnodup := (List.nodup_append.mp h.nodup).1
  rw [hsplit, List.nodup_append] at hnodup
  exact hnodup.2.2 v hbefore v List.mem_cons_self rfl

theorem Inv.unsorted_predecessor (h : Inv G s) (hend : Kahn.next G s = none) (hv : v ∈ G.nodes)
    (hnot : v ∉ s.sorted) : ∃ u, u ∉ s.sorted ∧ G.Edge u v := by
  obtain ⟨hqueue, hdeps⟩ := next_eq_none.mp hend
  have hne : s.in_degree v ≠ 0 := by
    intro hzero
    have hmem := (h.enqueued v hv).mp hzero
    rw [hqueue, List.append_nil] at hmem
    exact hnot hmem
  have hbalance := h.balance v
  rw [hdeps, List.count_nil] at hbalance
  exact Graph.exists_open (by omega)

theorem Inv.all_of_acyclic (h : Inv G s) (hend : Kahn.next G s = none) (hacyclic : G.Acyclic) :
    ∀ v ∈ G.nodes, v ∈ s.sorted := by
  by_contra hnot
  push Not at hnot
  -- dependency is well-founded, so there would be a first unvisited node
  let Below (a b : {v // v ∈ G.nodes}) : Prop := Relation.TransGen G.Edge a.1 b.1
  have htrans : IsTrans {v // v ∈ G.nodes} Below := ⟨fun _ _ _ hab hbc => hab.trans hbc⟩
  have hirrefl : Std.Irrefl Below := ⟨fun a haa => hacyclic a.1 haa⟩
  have hfinite : Finite {v // v ∈ G.nodes} := (List.finite_toSet G.nodes).to_subtype
  have hwf : WellFounded Below := Finite.wellFounded_of_trans_of_irrefl _
  obtain ⟨v, hv, hunsorted⟩ := hnot
  obtain ⟨first, hfirst, hmin⟩ :=
    hwf.has_min {a | a.1 ∉ s.sorted} ⟨⟨v, hv⟩, hunsorted⟩
  obtain ⟨u, hu, hedge⟩ := h.unsorted_predecessor hend first.2 hfirst
  exact hmin ⟨u, hedge.1⟩ hu (.single hedge)

/-- **The loop visits all nodes iff the graph has no cycle.** -/
theorem Inv.all_sorted_iff (h : Inv G s) (hend : Kahn.next G s = none) :
    s.sorted.length = G.nodes.length ↔ G.Acyclic := by
  constructor
  · intro hlength
    exact h.acyclic_of_all (h.all_sorted hlength)
  · intro hacyclic
    have hall := h.all_of_acyclic hend hacyclic
    apply le_antisymm h.length_sorted_le
    exact (G.nodup.subperm hall).length_le

end Kahn
