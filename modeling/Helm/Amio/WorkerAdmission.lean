import Helm.Amio.WorkerPool

/-! # Worker_Pool: the length of the write queue

  `submit_write` limits the write queue. Without backpressure it refuses a
  write when the queue is full. With backpressure it makes the client wait
  once the high watermark is reached, until the queue has fallen below the
  low watermark, but for one second at most: when the time is up the client
  goes on as if it had been woken, and queues its write whatever the length.

  Both checks and the insertion happen under one lock, so the bound of the
  queue is a matter of single steps. `write_queue_bounded` says which steps
  keep it and which ones break it.
-/

namespace Amio

namespace WorkerPool

open LTS

variable {Cb : Type} {n : Nat} {s s' : WorkerPool Cb n} {l : WorkerLabel Cb n}

/-- The bound on the length of the write queue. -/
def Bounded (s : WorkerPool Cb n) : Prop :=
  s.write_queue.length ≤
    if s.backpressure.enabled then s.backpressure.high_watermark else s.backpressure.queue_capacity

/-- A client that stops waiting finds the queue below the high watermark, and
    one that does not wait because the queue is below the low watermark finds it
    below the high one as well. -/
def room (s : WorkerPool Cb n) : WorkerLabel Cb n → Bool
  | .enter c =>
    match s.clients c with
    | .checked (.submit_write _ _ _) =>
      !(s.write_queue.length < s.backpressure.low_watermark) ||
        s.write_queue.length < s.backpressure.high_watermark
    | _ => true
  | .resume c =>
    match s.clients c with
    | .waiting _ _ _ => s.write_queue.length < s.backpressure.high_watermark
    | _ => true
  | _ => true

/-- The condition on a step. Without backpressure, and after shutdown, there is
    none. -/
def Timely (s : WorkerPool Cb n) (l : WorkerLabel Cb n) : Prop :=
  s.backpressure.enabled = true → s.shutdown = false → s.room l = true

instance (s : WorkerPool Cb n) (l : WorkerLabel Cb n) : Decidable (s.Timely l) :=
  inferInstanceAs (Decidable (_ → _ → _))

/-! ### Steps that queue nothing -/

theorem backpressure_step (h : s.next l = some s') : s'.backpressure = s.backpressure := by
  have heff := next_effect h
  cases heff with
  | _ => rfl

theorem length_step (h : s.Effect l s') : s'.write_queue.length ≤ s.write_queue.length ∨
    ∃ c, client_of l = some c := by
  cases h with
  | accept c dv_key handle_id callback hl => exact .inr ⟨c, hl⟩
  | start w pick task rest hidle hqueue =>
    left
    show rest.length ≤ s.write_queue.length
    rw [hqueue, List.length_cons]
    exact Nat.le_succ _
  | pass =>
    left
    show (s.write_queue.rotate 1).length ≤ _
    rw [List.length_rotate]
  | fetch =>
    left
    show (s.write_queue.rotate 1).length ≤ _
    rw [List.length_rotate]
  | _ => exact .inl le_rfl

theorem length_enqueue_write (c : Nat) (dv_key : DatasetVariableKey) (handle_id : Nat)
    (callback : Cb) : (s.enqueue_write c dv_key handle_id callback).write_queue.length =
      s.write_queue.length + 1 := by
  simp [enqueue_write]

theorem Bounded.of_length_le (h : s.Bounded) (hbp : s'.backpressure = s.backpressure)
    (hlen : s'.write_queue.length ≤ s.write_queue.length) : s'.Bounded := by
  unfold Bounded at h ⊢
  rw [hbp]
  exact hlen.trans h

/-! ### Steps that may queue a write -/

theorem bounded_enqueue_write (c : Nat) (dv_key : DatasetVariableKey) (handle_id : Nat)
    (callback : Cb) : (s.enqueue_write c dv_key handle_id callback).Bounded ↔
      s.write_queue.length < if s.backpressure.enabled then s.backpressure.high_watermark
        else s.backpressure.queue_capacity := by
  unfold Bounded
  rw [length_enqueue_write]
  exact Nat.succ_le_iff

theorem bounded_admit_write (h : s.Bounded) (henabled : s.backpressure.enabled = true) (c : Nat)
    (dv_key : DatasetVariableKey) (handle_id : Nat) (callback : Cb) :
    (s.admit_write c dv_key handle_id callback).Bounded ↔
      (s.shutdown = false → s.write_queue.length < s.backpressure.high_watermark) := by
  unfold admit_write
  by_cases hdown : s.shutdown = true
  · rw [if_pos hdown]
    constructor
    · intro _ hup
      rw [hdown] at hup
      cases hup
    · intro _
      exact h
  · rw [if_neg hdown, bounded_enqueue_write, if_pos henabled]
    have hup : s.shutdown = false := by simpa using hdown
    exact ⟨fun hlt _ => hlt, fun himp => himp hup⟩

/-- **`submit_write`** keeps the bound without backpressure. With backpressure it
    does unless a low watermark above the high one lets it skip the wait. -/
theorem bounded_submit_write (h : s.Bounded) (c : Nat) (dv_key : DatasetVariableKey)
    (handle_id : Nat) (callback : Cb) :
    (s.submit_write c dv_key handle_id callback).Bounded ↔
      (s.backpressure.enabled = true → s.shutdown = false →
        s.write_queue.length < s.backpressure.low_watermark →
        s.write_queue.length < s.backpressure.high_watermark) := by
  unfold submit_write
  by_cases henabled : s.backpressure.enabled = true
  · rw [if_pos henabled]
    split
    · next hwait =>
      -- the client waits, so the queue is not below the low watermark
      have hlow : ¬ s.write_queue.length < s.backpressure.low_watermark :=
        fun hlt => hwait.2 (.inl hlt)
      exact ⟨fun _ _ _ hlt => absurd hlt hlow, fun _ => h⟩
    · next hgo =>
      rw [bounded_admit_write h henabled]
      constructor
      · intro himp _ hup _
        exact himp hup
      · intro himp hup
        by_contra hnot
        apply hgo
        refine ⟨not_lt.mp hnot, ?_⟩
        rintro (hlt | hdown)
        · exact hnot (himp henabled hup hlt)
        · rw [hup] at hdown
          cases hdown
  · rw [if_neg henabled]
    have hvoid : s.backpressure.enabled = true → s.shutdown = false →
        s.write_queue.length < s.backpressure.low_watermark →
        s.write_queue.length < s.backpressure.high_watermark :=
      fun hen => absurd hen henabled
    split
    · exact ⟨fun _ => hvoid, fun _ => h⟩
    · next hroom =>
      rw [bounded_enqueue_write, if_neg henabled]
      exact ⟨fun _ => hvoid, fun _ => not_le.mp hroom⟩

/-- Clients wait only with backpressure. -/
def WaitsEnabled (s : WorkerPool Cb n) : Prop := ∀ c dv_key handle_id callback,
  s.clients c = .waiting dv_key handle_id callback → s.backpressure.enabled = true

theorem WaitsEnabled.set_client (h : s.WaitsEnabled) (c : Nat) {phase : ClientPhase Cb}
    (hphase : ∀ dv_key handle_id callback,
      phase = .waiting dv_key handle_id callback → s.backpressure.enabled = true) :
    (s.set_client c phase).WaitsEnabled := by
  intro d dv_key handle_id callback hd
  show s.backpressure.enabled = true
  change Function.update s.clients c phase d = _ at hd
  by_cases hdc : d = c
  · rw [hdc, Function.update_self] at hd
    exact hphase dv_key handle_id callback hd
  · rw [Function.update_of_ne hdc] at hd
    exact h d dv_key handle_id callback hd

theorem clients_step (h : s.Effect l s') (hl : client_of l = none) : s'.clients = s.clients := by
  cases h with
  | client c phase hc => rw [hl] at hc; cases hc
  | accept c _ _ _ hc => rw [hl] at hc; cases hc
  | schedule c _ hc => rw [hl] at hc; cases hc
  | _ => rfl

theorem waits_enabled_step (h : s.WaitsEnabled) (hstep : s.next l = some s') :
    s'.WaitsEnabled := by
  have hbp := backpressure_step hstep
  -- a client that does not start to wait
  have hmove : ∀ (c : Nat) (phase : ClientPhase Cb),
      (∀ dv_key handle_id callback, phase ≠ .waiting dv_key handle_id callback) →
      (s.set_client c phase).WaitsEnabled := by
    intro c phase hphase
    exact h.set_client c fun dv_key handle_id callback heq =>
      absurd heq (hphase dv_key handle_id callback)
  have hqueue : ∀ (c : Nat) (dv_key : DatasetVariableKey) (handle_id : Nat) (callback : Cb),
      (s.enqueue_write c dv_key handle_id callback).WaitsEnabled := fun c _ _ _ =>
    hmove c (.ready _) (by simp)
  have hadmit : ∀ (c : Nat) (dv_key : DatasetVariableKey) (handle_id : Nat) (callback : Cb),
      (s.admit_write c dv_key handle_id callback).WaitsEnabled := by
    intro c dv_key handle_id callback
    unfold admit_write
    split
    · exact hmove c _ (by simp)
    · exact hqueue c dv_key handle_id callback
  cases l with
  | check c call =>
    simp only [next] at hstep
    split at hstep
    · split at hstep
      · cases hstep
        exact hmove c _ (by simp)
      · cases hstep
        exact hmove c _ (by simp)
    · cases hstep
  | enter c =>
    simp only [next] at hstep
    split at hstep
    · next dv_key handle_id callback hcall =>
      cases hstep
      unfold submit_write
      split
      · next henabled =>
        split
        · exact h.set_client c fun _ _ _ _ => henabled
        · exact hadmit c dv_key handle_id callback
      · split
        · exact hmove c _ (by simp)
        · exact hqueue c dv_key handle_id callback
    · cases hstep
      exact hmove c (.ready none) (by simp)
    · cases hstep
  | resume c =>
    simp only [next] at hstep
    split at hstep
    · next dv_key handle_id callback hcall =>
      cases hstep
      exact hadmit c dv_key handle_id callback
    · cases hstep
  | wake | finish | shutdown | join =>
    have hsame := clients_step (next_effect hstep) rfl
    intro c dv_key handle_id callback hc
    rw [hbp]
    rw [hsame] at hc
    exact h c dv_key handle_id callback hc

/-- **Step lemma.** A step keeps the bound if and only if it is timely. -/
theorem bounded_step_iff (h : s.Bounded) (hwait : s.WaitsEnabled)
    (hstep : s.next l = some s') : s'.Bounded ↔ s.Timely l := by
  have hbp := backpressure_step hstep
  -- a step that queues nothing is timely, and keeps the bound
  have hquiet : s'.write_queue.length ≤ s.write_queue.length → s.Timely l →
      (s'.Bounded ↔ s.Timely l) := by
    intro hlen htimely
    exact ⟨fun _ => htimely, fun _ => h.of_length_le hbp hlen⟩
  cases l with
  | enter c =>
    simp only [next] at hstep
    split at hstep
    · next dv_key handle_id callback hcall =>
      cases hstep
      rw [bounded_submit_write h]
      simp only [Timely, room, hcall, Bool.or_eq_true, Bool.not_eq_true', decide_eq_false_iff_not,
        decide_eq_true_eq, imp_iff_not_or]
    · next task hcall =>
      cases hstep
      apply hquiet le_rfl
      simp [Timely, room, hcall]
    · cases hstep
  | resume c =>
    simp only [next] at hstep
    split at hstep
    · next dv_key handle_id callback hcall =>
      cases hstep
      have henabled := hwait c dv_key handle_id callback hcall
      rw [bounded_admit_write h henabled]
      simp only [Timely, room, hcall, decide_eq_true_eq]
      exact ⟨fun himp _ => himp, fun himp => himp henabled⟩
    · cases hstep
  | check c call =>
    simp only [next] at hstep
    refine hquiet ?_ fun _ _ => rfl
    split at hstep
    · split at hstep
      · cases hstep
        exact le_rfl
      · cases hstep
        exact le_rfl
    · cases hstep
  | wake | finish | shutdown | join =>
    refine hquiet ?_ fun _ _ => rfl
    rcases length_step (next_effect hstep) with hlen | ⟨c, hl⟩
    · exact hlen
    · cases hl

/-- The pool under timely steps. -/
def timelySystem (Cb : Type) (n : Nat) : System (WorkerPool Cb n) (WorkerLabel Cb n) :=
  (system Cb n).restrict Timely

theorem bounded_of_reachable (hr : (timelySystem Cb n).Reachable s) :
    s.Bounded ∧ s.WaitsEnabled := by
  refine hr.invariant (P := fun s => s.Bounded ∧ s.WaitsEnabled) (fun t ht => ?_)
    fun t l t' _ h hstep => ?_
  · obtain ⟨backpressure, rfl⟩ := ht
    refine ⟨Nat.zero_le _, fun c dv_key handle_id callback hc => ?_⟩
    cases hc
  · obtain ⟨htimely, hnext⟩ := hstep
    obtain ⟨hbound, hwaits⟩ := h
    exact ⟨(bounded_step_iff hbound hwaits hnext).mpr htimely, waits_enabled_step hwaits hnext⟩

/-- **The bound of the write queue.** In every state that timely steps reach, for
    any number of clients and workers, the queue holds at most `high_watermark`
    writes with backpressure and at most `queue_capacity` without; and the next
    step keeps this bound if and only if it is timely. -/
theorem write_queue_bounded (hr : (timelySystem Cb n).Reachable s) :
    ((s.backpressure.enabled = true → s.write_queue.length ≤ s.backpressure.high_watermark) ∧
      (s.backpressure.enabled = false → s.write_queue.length ≤ s.backpressure.queue_capacity)) ∧
    ∀ l s', s.next l = some s' → (s'.Bounded ↔ s.Timely l) := by
  obtain ⟨hbound, hwaits⟩ := bounded_of_reachable hr
  refine ⟨⟨fun henabled => ?_, fun hdisabled => ?_⟩, fun l s' hstep => ?_⟩
  · rwa [Bounded, if_pos henabled] at hbound
  · rwa [Bounded, if_neg (by rw [hdisabled]; decide)] at hbound
  · exact bounded_step_iff hbound hwaits hstep

/-- Waiting starts at two queued writes and ends when the queue is empty. -/
def narrow : BackpressureConfig := ⟨true, 1, 2, 8⟩

/-- The third write comes when the queue is at its high watermark, and its client
    waits. -/
def thirdWaits : List (WorkerLabel Nat 1) :=
  [.check 0 (.submit_write ⟨1, 2⟩ 0 10), .enter 0, .check 0 (.submit_write ⟨1, 2⟩ 0 20), .enter 0,
    .check 1 (.submit_write ⟨1, 2⟩ 0 30), .enter 1]

theorem write_queue_bounded_woken : ∃ s : WorkerPool Nat 1, (timelySystem Nat 1).Reachable s ∧
    s.backpressure.enabled = true ∧ s.submitted.length = 3 ∧
    s.write_queue.length ≤ s.backpressure.high_watermark := by
  have hrun : ∃ s, System.exec (System.guarded next Timely) (make narrow)
      (thirdWaits ++ [.wake 0 0, .finish 0 none, .wake 0 0, .resume 1]) = some s ∧
      s.backpressure.enabled = true ∧ s.submitted.length = 3 := ⟨_, rfl, rfl, rfl⟩
  obtain ⟨s, hexec, henabled, hlen⟩ := hrun
  have hr : (timelySystem Nat 1).Reachable s :=
    System.restrict_reachable_of_exec ⟨narrow, rfl⟩ hexec
  exact ⟨s, hr, henabled, hlen, (write_queue_bounded hr).1.1 henabled⟩

theorem write_queue_overrun : ∃ s : WorkerPool Nat 1, (system Nat 1).Reachable s ∧
    s.backpressure = narrow ∧ ¬ s.write_queue.length ≤ s.backpressure.high_watermark := by
  have hrun : ∃ s, System.exec next (make narrow) (thirdWaits ++ [.resume 1]) = some s ∧
      s.backpressure = narrow ∧ s.write_queue.length = 3 := ⟨_, rfl, rfl, rfl⟩
  obtain ⟨s, hexec, hbp, hlen⟩ := hrun
  refine ⟨s, System.reachable_of_exec ⟨narrow, rfl⟩ hexec, hbp, ?_⟩
  rw [hbp, hlen]
  decide

end WorkerPool

end Amio
