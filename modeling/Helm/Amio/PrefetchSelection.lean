import Helm.Amio.PrefetchOwnership

/-! # Prefetch_Queue: the right buffer

  A reader must get the timestep and the selection it asked for. The tables
  are indexed by timestep only, so the selection has to be compared whenever
  a buffer is taken from `completed`. `get_buffer` does so in two of the
  three places where it returns a buffer. In the third, the last look at the
  tables after the wait has timed out, it does not.
-/

namespace Amio

namespace PrefetchQueue

variable {n : Nat} {s s' : PrefetchQueue n} {i : Fin n} {l : QueueLabel n}

theorem selection_eq_of_bbox_same {a b : Option AmioBbox} (h : bbox_same a b = true) :
    selection a = selection b := by
  cases a with
  | none =>
    cases b with
    | none => rfl
    | some y => cases h
  | some x =>
    cases b with
    | none => cases h
    | some y =>
      simp only [bbox_same, decide_eq_true_eq] at h
      obtain ⟨hrank, hdims⟩ := h
      simp only [selection, Option.map_some, Option.some.injEq, AmioBbox.to_bounding_box,
        BoundingBox.mk.injEq, ← hrank, true_and]
      refine ⟨funext fun d => ?_, funext fun d => ?_, funext fun d => ?_⟩
      all_goals
        split
        · next hd => simp [hdims d hd]
        · rfl

/-- Every buffer that was returned holds what was asked for. -/
def Exact (s : PrefetchQueue n) : Prop :=
  ∀ d ∈ s.deliveries, d.contents = some (d.timestep, selection d.bbox)

/-- Unless a wait times out when the buffer that has arrived in the meantime was
    fetched with another selection. -/
def matching (s : PrefetchQueue n) : QueueLabel n → Bool
  | .wake i true =>
    match (s.threads i).caller with
    | .waiting timestep bbox =>
      (s.completed.lookup timestep).isNone || bbox_same (s.fetched_bbox.lookup timestep) bbox
    | _ => true
  | _ => true

/-- The runs in which every step is `matching`. -/
def matchingSystem (n : Nat) : LTS.System (PrefetchQueue n) (QueueLabel n) :=
  (system n).restrict fun s l => s.matching l = true

/-! ## Section 1: Methods -/

namespace Exact

theorem of_deliveries_eq (h : s.Exact) (heq : s'.deliveries = s.deliveries) : s'.Exact :=
  fun d hd => h d (heq ▸ hd)

theorem of_deliver (h : s.Exact) (hinv : s.Inv) {timestep : Int} {bbox : Option AmioBbox} {b : Nat}
    (hb : s.completed.lookup timestep = some b)
    (hsame : bbox_same (s.fetched_bbox.lookup timestep) bbox = true)
    (heq : s'.deliveries = s.deliveries ++ [⟨timestep, bbox, s.contents b⟩]) : s'.Exact := by
  intro d hd
  rw [heq, List.mem_append, List.mem_singleton] at hd
  rcases hd with hd | rfl
  · exact h d hd
  · simp only [hinv.provenance.stored timestep b hb, selection_eq_of_bbox_same hsame]

theorem get_rest (h : s.Exact) (i : Fin n) (timestep : Int) (bbox : Option AmioBbox) :
    (s.get_rest i timestep bbox).Exact := by
  unfold PrefetchQueue.get_rest
  split
  · exact h.of_deliveries_eq rfl
  · split
    · exact h.of_deliveries_eq rfl
    · exact h.of_deliveries_eq rfl

theorem get_loop (h : s.Exact) (hinv : s.Inv) (i : Fin n) (timestep : Int)
    (bbox : Option AmioBbox) : (s.get_loop i timestep bbox).Exact := by
  unfold PrefetchQueue.get_loop
  split
  · next b hb =>
    split
    · next hsame => exact h.of_deliver hinv hb hsame rfl
    · exact h.of_deliveries_eq rfl
  · exact h.get_rest i timestep bbox

theorem get_wait (h : s.Exact) (hinv : s.Inv) (i : Fin n) (timestep : Int)
    (bbox : Option AmioBbox) : (s.get_wait i timestep bbox).Exact := by
  unfold PrefetchQueue.get_wait
  split
  · exact h.of_deliveries_eq rfl
  · exact h.get_loop hinv i timestep bbox

theorem get_check (h : s.Exact) (hinv : s.Inv) (i : Fin n) (timestep : Int)
    (bbox : Option AmioBbox) : (s.get_check i timestep bbox).Exact := by
  unfold PrefetchQueue.get_check
  split
  · exact h.of_deliveries_eq rfl
  · split
    · next b hb =>
      split
      · next hsame => exact h.of_deliver hinv hb hsame rfl
      · have hdrop : (s.drop_stale timestep b).Exact := h.of_deliveries_eq rfl
        exact hdrop.get_wait (hinv.drop_stale hb) i timestep bbox
    · exact h.get_wait hinv i timestep bbox

theorem get_buffer (h : s.Exact) (hinv : s.Inv) (i : Fin n) (timestep : Int)
    (bbox : Option AmioBbox) : (s.get_buffer i timestep bbox).Exact := by
  unfold PrefetchQueue.get_buffer
  have hlatch : Exact { s with latched_bbox := bbox } := h.of_deliveries_eq rfl
  simp only
  split
  · exact hlatch.get_check (hinv.set_flags bbox s.kicked_off) i timestep bbox
  · exact h.of_deliveries_eq rfl

theorem get_timeout (h : s.Exact) (hinv : s.Inv) (i : Fin n) (timestep : Int)
    (bbox : Option AmioBbox)
    (hmatch : ((s.completed.lookup timestep).isNone ||
      bbox_same (s.fetched_bbox.lookup timestep) bbox) = true) :
    (s.get_timeout i timestep bbox).Exact := by
  unfold PrefetchQueue.get_timeout
  split
  · next b hb =>
    rw [hb, Option.isNone_some, Bool.false_or] at hmatch
    exact h.of_deliver hinv hb hmatch rfl
  · split
    · exact h.of_deliveries_eq rfl
    · exact h.of_deliveries_eq rfl

/-! ## Section 2: Steps -/

theorem cancel_pending (h : s.Exact) (i : Fin n) : (s.cancel_pending i).Exact := by
  have hfold : ∀ (l : List Nat) (t : PrefetchQueue n),
      (l.foldl release t).deliveries = t.deliveries := by
    intro l
    induction l with
    | nil => exact fun t => rfl
    | cons b l ih => exact fun t => ih (t.release b)
  exact h.of_deliveries_eq (hfold _ _)

theorem schedule_next (h : s.Exact) (i : Fin n) (current_timestep : Int) :
    (s.schedule_next i current_timestep).Exact := by
  unfold PrefetchQueue.schedule_next
  split
  · exact h.of_deliveries_eq rfl
  · exact h.of_deliveries_eq rfl

theorem schedule_fetch (h : s.Exact) (i : Fin n) (timestep : Int) (dropped : Bool) :
    (s.schedule_fetch i timestep dropped).Exact := by
  unfold PrefetchQueue.schedule_fetch
  split
  · exact h
  · simp only
    split
    · split
      · exact h.of_deliveries_eq rfl
      · exact h.of_deliveries_eq rfl
    · exact h.of_deliveries_eq rfl

theorem caller_step (h : s.Exact) (hinv : s.Inv) (hok : s.matching l = true)
    (hl : thread_of l = some i)
    (hstep : s.caller_step i (s.threads i).caller l = some s') : s'.Exact := by
  unfold PrefetchQueue.caller_step at hstep
  split at hstep
  -- call
  · split at hstep
    · split at hstep <;> cases hstep
      · exact h.of_deliveries_eq rfl
      · exact h.get_buffer hinv i _ _
      · exact h.schedule_next i _
      · exact h.cancel_pending i
    · cases hstep
  -- schedule
  · split at hstep
    · cases hstep
      refine Exact.schedule_fetch (h.of_deliveries_eq ?_) i _ _
      rfl
    · cases hstep
  -- resume
  · split at hstep <;> cases hstep
    · exact h.of_deliveries_eq rfl
    · exact h.get_check hinv i _ _
    · exact h.get_loop hinv i _ _
    · exact h.get_rest i _ _
  -- wake
  · cases hl
    split at hstep
    · next hwait =>
      split at hstep
      · next htimeout =>
        cases hstep
        rw [htimeout, matching, hwait] at hok
        exact h.get_timeout hinv i _ _ hok
      · cases hstep
        exact h.get_loop hinv i _ _
    · cases hstep
  -- run
  · split at hstep
    · cases hstep
      exact h.of_deliveries_eq rfl
    · cases hstep
  · cases hstep

/-- **Step lemma.** -/
theorem step (h : s.Exact) (hinv : s.Inv) (hok : s.matching l = true) (hstep : s.next l = some s') :
    s'.Exact := by
  rcases next_cases hstep with ⟨i, f, hf, hfetch⟩ | ⟨i, hi, hf, hcaller⟩ | huser
  · exact h.of_deliveries_eq (hinv.fetch_step hf hfetch).2
  · exact h.caller_step hinv hok hi hcaller
  · exact h.of_deliveries_eq (hinv.user_step huser hstep).2

end Exact

/-- The first two values. -/
def firstHalf : AmioBbox := ⟨1, fun _ => 0, fun d => if d = 0 then 2 else 0, fun _ => 1⟩

section
local instance two_clients : NeZero 2 := ⟨two_ne_zero⟩

/-- Worker 1 fetches. -/
def fetchLabels : List (QueueLabel 2) :=
  [.run 1 0, .enter 1, .acquire 1, .read 1 (some 16), .finish 1]

/-- The reader gets timestep 0 and asks for timestep 1. -/
def readingLabels (bbox : Option AmioBbox) : List (QueueLabel 2) :=
  [.call 0 (.get_buffer 0 none), .schedule 0 false, .schedule 0 false, .resume 0] ++ fetchLabels ++
    [.wake 0 false, .call 0 (.get_buffer 1 bbox)] ++ fetchLabels

end

end PrefetchQueue

end Amio
