import Helm.Amio.WriteCompletion

/-! # Waiting for a write

  A thread waits for a write with `amio_wait`, on the handle that the write
  has returned. It polls the request record of the write, which the closure
  of the write sets, until the deadline.

  * **What is set**: the closure sets `completed` when the driver returns.
    When the driver throws it sets `failed` and the failure code, and leaves
    `completed` as it is.
  * **What is reported**: a wait for a write whose driver has returned ends
    at its next look, with success. One for a write whose driver has thrown
    goes on to its deadline.

  No other write touches the record, so both hold whatever else is written.
-/

namespace Amio

open scoped List
open Holders (held)
open WritePath (byteArgs singleStaging singlePool)

/-! ## Section 1: Model -/

/-- Where a thread that waits stands. -/
inductive WaitPhase
  | idle
  /-- In the loop, with the request record of the write. -/
  | waiting (io : Nat)
  | returned (result : Except AmioStatus Unit)

/-- The write path and `k` threads that wait. -/
structure WaitPath (m n k : Nat) where
  path : WritePath m n
  waiters : Fin k → WaitPhase
  /-- The writes whose driver call has ended, and whether it has thrown. -/
  outcomes : List (Nat × Bool)

/-- The steps of the threads. -/
inductive WaitLabel (m n k : Nat)
  | path (l : WriteLabel m n)
  /-- Thread `f` calls `amio_wait`. -/
  | wait (f : Fin k) (token : Token)
  /-- Read `completed`. -/
  | look (f : Fin k)
  /-- The deadline has been reached. -/
  | timeout (f : Fin k)

namespace WritePath

variable {m n : Nat}

/-- The driver call that ends with the step. -/
def ended_by (s : WritePath m n) : WriteLabel m n → Option (Nat × Bool)
  | .driver w throws =>
    match s.pool.workers w with
    | .writing task => some (task.callback.io_rec, throws)
    | _ => none
  | _ => none

end WritePath

namespace WaitPath

variable {m n k : Nat}

def make (staging : StagingPool) (backpressure : BackpressureConfig) : WaitPath m n k where
  path := .make staging backpressure
  waiters := fun _ => .idle
  outcomes := []

/-- Thread `f` moves. -/
def set_waiter (s : WaitPath m n k) (f : Fin k) (phase : WaitPhase) : WaitPath m n k :=
  { s with waiters := Function.update s.waiters f phase }

/-- The status of a completed write. -/
def wait_status (io_rec : IoRecord) : Except AmioStatus Unit :=
  if io_rec.failed then
    match io_rec.failure_code with
    | some e => .error e
    | none => .ok ()
  else .ok ()

/-- `completed`, as the loop reads it. -/
def is_completed (s : WaitPath m n k) (io : Nat) : Bool :=
  (s.path.io_records[io]?.map (·.completed)).getD false

/-- One step of a thread; `none` when the thread is not there. -/
def next (s : WaitPath m n k) : WaitLabel m n k → Option (WaitPath m n k)
  | .path l =>
    (s.path.next l).map fun path =>
      { s with path, outcomes := s.outcomes ++ (s.path.ended_by l).toList }
  | .wait f token =>
    match s.waiters f with
    | .waiting _ => none
    | _ =>
      match s.path.handles.lookup token .Io with
      | .ok (some io) => some (s.set_waiter f (.waiting io))
      | .ok none => none
      | .error e => some (s.set_waiter f (.returned (.error e)))
  | .look f =>
    match s.waiters f with
    | .waiting io =>
      match s.path.io_records[io]? with
      | some io_rec =>
        -- otherwise the thread sleeps and looks again
        if io_rec.completed then some (s.set_waiter f (.returned (wait_status io_rec))) else some s
      | none => none
    | _ => none
  | .timeout f =>
    match s.waiters f with
    | .waiting io =>
      if s.is_completed io then none
      else some (s.set_waiter f (.returned (.error .ERR_TIMEOUT)))
    | _ => none

/-- The write path with `m` clients that write, `k` threads that wait and `n`
    workers, in any configuration. -/
def system (m n k : Nat) : LTS.System (WaitPath m n k) (WaitLabel m n k) :=
  .ofNext (fun s => ∃ cfg staging backpressure,
    PoolInit cfg staging ∧ s = make staging backpressure) next

/-- What a wait owes the host after the driver call. -/
def outcome_status (threw : Bool) : Except AmioStatus Unit :=
  if threw then .error .ERR_BACKEND_FAILURE else .ok ()

/-- The wait of thread `f` does not time out, and its next look returns what
    it owes. -/
def Reports (s : WaitPath m n k) (f : Fin k) (threw : Bool) : Prop :=
  s.next (.timeout f) = none ∧
    ∃ s', s.next (.look f) = some s' ∧ s'.waiters f = .returned (outcome_status threw)

end WaitPath

/-! ## Section 2: What a step does to the records -/

namespace WritePath

variable {m n : Nat} {s s' : WritePath m n} {l : WriteLabel m n}

/-- The flags and the handle of a record. -/
def flags (io_rec : IoRecord) : Bool × Bool × Token :=
  (io_rec.completed, io_rec.failed, io_rec.token)

/-- Neither the records, nor the handles, nor the driver calls change. -/
def SameRecords (s s' : WritePath m n) : Prop :=
  s'.io_records.map flags = s.io_records.map flags ∧ s'.handles = s.handles ∧
    s'.driver_writes = s.driver_writes

/-- The flags that the closure sets at the end of the driver call. -/
def set_flags (threw : Bool) (io_rec : IoRecord) : IoRecord :=
  if threw then { io_rec with failed := true, failure_code := some .ERR_BACKEND_FAILURE }
  else { io_rec with completed := true }

theorem map_modify_of_eq {α β : Type} {f : α → α} {g : α → β} (h : ∀ a, g (f a) = g a)
    (l : List α) (i : Nat) : (l.modify i f).map g = l.map g := by
  apply List.ext_getElem?
  intro j
  rw [List.getElem?_map, List.getElem?_map, List.getElem?_modify]
  cases l[j]? with
  | none => rfl
  | some a =>
    show some (g (if i = j then f a else a)) = some (g a)
    split
    · rw [h]
    · rfl

theorem records_of_submit_step {c : Fin m} {token : Token} {cl : WriteClosure}
    {pl : WorkerLabel WriteClosure n} (h : s.submit_step c token cl pl = some s') :
    SameRecords s s' := by
  obtain ⟨pool, -, heq⟩ := Option.map_eq_some_iff.mp h
  rw [← heq]
  split
  · exact ⟨rfl, rfl, rfl⟩
  · exact ⟨rfl, rfl, rfl⟩

theorem records_of_driver_returned (w : Fin n) (cl : WriteClosure) (throws : Bool) :
    (s.driver_returned w cl throws).io_records = s.io_records.modify cl.io_rec (set_flags throws) ∧
      (s.driver_returned w cl throws).handles = s.handles ∧
      (s.driver_returned w cl throws).driver_writes.map (·.io_rec) =
        s.driver_writes.map (·.io_rec) ++ [cl.io_rec] := by
  cases throws with
  | false => exact ⟨rfl, rfl, List.map_append⟩
  | true => exact ⟨rfl, rfl, List.map_append⟩

/-- **Step lemma.** A step makes a record, ends a driver call, or leaves the
    records alone. -/
theorem records_step (hn : 0 < n) (h : s.next l = some s') :
    SameRecords s s' ∧ s.ended_by l = none ∨
    (∃ io_rec, s'.io_records = s.io_records ++ [io_rec] ∧ io_rec.completed = false ∧
      io_rec.failed = false ∧
      (s'.handles, io_rec.token) = s.handles.insert .Io (some s.io_records.length) ∧
      s'.driver_writes = s.driver_writes ∧ s.ended_by l = none) ∨
    ∃ io threw, s.ended_by l = some (io, threw) ∧
      s'.io_records = s.io_records.modify io (set_flags threw) ∧ s'.handles = s.handles ∧
      s'.driver_writes.map (·.io_rec) = s.driver_writes.map (·.io_rec) ++ [io] := by
  cases l with
  | call c args | acquire c | acquire_timeout c =>
    refine .inl ⟨?_, rfl⟩
    simp only [next, client_of, client_step] at h
    split at h
    · split at h
      · cases h <;> exact ⟨rfl, rfl, rfl⟩
      · cases h <;> exact ⟨rfl, rfl, rfl⟩
    · cases h
  | acquire_throw c =>
    refine .inl ⟨?_, rfl⟩
    simp only [next, client_of, client_step] at h
    split at h
    · cases h
      exact ⟨rfl, rfl, rfl⟩
    · cases h
  | stage c =>
    simp only [next, client_of, client_step] at h
    split at h
    · cases h
      exact .inr (.inl ⟨_, rfl, rfl, rfl, rfl, rfl, rfl⟩)
    · cases h
  | submit c =>
    refine .inl ⟨?_, rfl⟩
    simp only [next, client_of, client_step] at h
    split at h
    · rw [if_pos hn] at h
      exact records_of_submit_step h
    · cases h
  | enter c | resume c =>
    refine .inl ⟨?_, rfl⟩
    simp only [next, client_of, client_step] at h
    split at h
    · exact records_of_submit_step h
    · cases h
  | count c =>
    refine .inl ⟨?_, rfl⟩
    simp only [next, client_of, client_step] at h
    split at h
    · next token cl seq hc =>
      cases h
      refine ⟨?_, rfl, rfl⟩
      -- only the sequence number is set
      show (s.io_records.modify cl.io_rec fun io => { io with dv_seq := seq }).map flags = _
      apply map_modify_of_eq
      exact fun _ => rfl
    · cases h
  | complete c =>
    -- there is a worker pool
    simp only [next, client_of, client_step] at h
    split at h
    · rw [if_pos hn] at h
      cases h
    · cases h
  | wake w pick =>
    refine .inl ⟨?_, rfl⟩
    obtain ⟨pool, -, heq⟩ := Option.map_eq_some_iff.mp h
    rw [← heq]
    split
    · exact ⟨rfl, rfl, rfl⟩
    · exact ⟨rfl, rfl, rfl⟩
  | driver w throws =>
    simp only [next, client_of, worker_of, closure_step] at h
    split at h
    · next task hw =>
      split at h
      · cases h
        obtain ⟨hrecords, hhandles, hwrites⟩ :=
          records_of_driver_returned (s := s) w task.callback throws
        exact .inr (.inr ⟨task.callback.io_rec, throws, by simp only [ended_by, hw], hrecords,
          hhandles, hwrites⟩)
      · cases h
    · cases h
  | release w | decrement w =>
    refine .inl ⟨?_, rfl⟩
    simp only [next, client_of, worker_of, closure_step] at h
    split at h
    · split at h
      · cases h
        exact ⟨rfl, rfl, rfl⟩
      · cases h
    · cases h
  | finish w =>
    refine .inl ⟨?_, rfl⟩
    simp only [next, client_of, worker_of, closure_step] at h
    split at h
    · split at h
      · obtain ⟨pool, -, rfl⟩ := Option.map_eq_some_iff.mp h
        exact ⟨rfl, rfl, rfl⟩
      · cases h
    · cases h
  | shutdown | join =>
    refine .inl ⟨?_, rfl⟩
    obtain ⟨pool, -, rfl⟩ := Option.map_eq_some_iff.mp h
    exact ⟨rfl, rfl, rfl⟩

end WritePath

/-! ## Section 3: The records show the outcomes -/

namespace WaitPath

variable {m n k : Nat} {s s' : WaitPath m n k} {l : WaitLabel m n k}

/-- The flags of a request record say how the driver call has ended, if it
    has: `completed` for a return, `failed` for an exception. -/
def Shows (s : WaitPath m n k) (io : Nat) (io_rec : IoRecord) : Prop :=
  (io_rec.completed = true ↔ (io, false) ∈ s.outcomes) ∧
    (io_rec.failed = true ↔ (io, true) ∈ s.outcomes)

/-- **The invariant.** -/
structure Inv (s : WaitPath m n k) : Prop where
  path : s.path.Inv
  /-- The driver calls are those that the write path counts. -/
  calls : s.outcomes.map (·.1) = s.path.driver_writes.map (·.io_rec)
  shows : ∀ io io_rec, s.path.io_records[io]? = some io_rec → s.Shows io io_rec
  /-- The handle of a write leads to its record. -/
  handles : ∃ table : TableState Nat, table.table = s.path.handles ∧ TableInv table ∧
    ∀ io io_rec, s.path.io_records[io]? = some io_rec → io_rec.token ≠ 0 →
      (io_rec.token, .Io, some io) ∈ table.handles

namespace Inv

theorem nodup (h : s.Inv) : (s.outcomes.map (·.1)).Nodup := by
  rw [h.calls, List.nodup_iff_count_le_one]
  exact fun io => (h.path.balanced.at_most_once io).1

theorem lt_of_mem (h : s.Inv) {io : Nat} (hio : io ∈ s.path.driver_writes.map (·.io_rec)) :
    io < s.path.io_records.length := by
  by_contra hlarge
  have hzero := h.path.balanced.fresh io (not_lt.mp hlarge)
  have hcount : 0 < (s.path.driver_writes.map (·.io_rec)).count io := List.count_pos_iff.mpr hio
  have hdriver := h.path.balanced.driver io
  have hle := Ledger.Balanced.hands_le s.path.ledger.hands Stage.wrote io
  rw [Ledger.places, Ledger.handed] at hzero
  have hcount' : 0 < s.path.ledger.driver_writes.count io := hcount
  omega

theorem unique (h : s.Inv) {io : Nat} {threw threw' : Bool} (hmem : (io, threw) ∈ s.outcomes)
    (hmem' : (io, threw') ∈ s.outcomes) : threw = threw' :=
  congrArg Prod.snd (List.inj_on_of_nodup_map h.nodup hmem hmem' rfl)

theorem same_records (h : s.Inv) {path : WritePath m n} (hpath : path.Inv)
    (hsame : s.path.SameRecords path) : Inv { s with path } := by
  obtain ⟨hrecords, hhandles, hwrites⟩ := hsame
  have hold : ∀ (io : Nat) io_rec, path.io_records[io]? = some io_rec → ∃ old,
      s.path.io_records[io]? = some old ∧ WritePath.flags old = WritePath.flags io_rec := by
    intro io io_rec hio
    have hmap := congrArg (·[io]?) hrecords
    simp only [List.getElem?_map, hio, Option.map_some] at hmap
    exact Option.map_eq_some_iff.mp hmap.symm
  obtain ⟨table, htable, hinv, hlive⟩ := h.handles
  constructor
  · exact hpath
  · show s.outcomes.map (·.1) = path.driver_writes.map (·.io_rec)
    rw [hwrites]
    exact h.calls
  · intro io io_rec hio
    obtain ⟨old, hio', hflags⟩ := hold io io_rec hio
    have hshows := h.shows io old hio'
    simp only [WritePath.flags, Prod.mk.injEq] at hflags
    rw [Shows, hflags.1, hflags.2.1] at hshows
    exact hshows
  · refine ⟨table, htable.trans hhandles.symm, hinv, ?_⟩
    intro io io_rec hio hne
    obtain ⟨old, hio', hflags⟩ := hold io io_rec hio
    simp only [WritePath.flags, Prod.mk.injEq] at hflags
    rw [← hflags.2.2] at hne ⊢
    exact hlive io old hio' hne

/-- A new record. -/
theorem stage (h : s.Inv) {path : WritePath m n} (hpath : path.Inv) {new : IoRecord}
    (hrecords : path.io_records = s.path.io_records ++ [new]) (hcompleted : new.completed = false)
    (hfailed : new.failed = false)
    (hhandles : (path.handles, new.token) =
      s.path.handles.insert .Io (some s.path.io_records.length))
    (hwrites : path.driver_writes = s.path.driver_writes) : Inv { s with path } := by
  have hcases : ∀ (io : Nat) io_rec, path.io_records[io]? = some io_rec →
      s.path.io_records[io]? = some io_rec ∨ io = s.path.io_records.length ∧ io_rec = new := by
    intro io io_rec hio
    rw [hrecords] at hio
    rcases Nat.lt_or_ge io s.path.io_records.length with hlt | hge
    · rw [List.getElem?_append_left hlt] at hio
      exact .inl hio
    · rw [List.getElem?_append_right hge, List.getElem?_singleton] at hio
      obtain ⟨hzero, heq⟩ := Option.ite_none_right_eq_some.mp hio
      exact .inr ⟨by omega, (Option.some.inj heq).symm⟩
  obtain ⟨table, htable, hinv, hlive⟩ := h.handles
  constructor
  · exact hpath
  · show s.outcomes.map (·.1) = path.driver_writes.map (·.io_rec)
    rw [hwrites]
    exact h.calls
  · intro io io_rec hio
    rcases hcases io io_rec hio with hold | ⟨rfl, rfl⟩
    · exact h.shows io io_rec hold
    · -- the driver has not been called for it
      have hfresh : ∀ threw, (s.path.io_records.length, threw) ∉ s.outcomes := by
        intro threw hmem
        have hcall : s.path.io_records.length ∈ s.outcomes.map (·.1) :=
          List.mem_map_of_mem hmem
        rw [h.calls] at hcall
        exact lt_irrefl _ (h.lt_of_mem hcall)
      rw [Shows, hcompleted, hfailed]
      exact ⟨iff_of_false (by decide) (hfresh false), iff_of_false (by decide) (hfresh true)⟩
  · have htable' : (table.insert .Io s.path.io_records.length).1.table = path.handles ∧
        (table.insert .Io s.path.io_records.length).2 = new.token := by
      have hboth := congrArg (fun t : HandleTable Nat => t.insert .Io (some s.path.io_records.length))
        htable
      exact ⟨congrArg Prod.fst (hboth.trans hhandles.symm),
        congrArg Prod.snd (hboth.trans hhandles.symm)⟩
    refine ⟨(table.insert .Io s.path.io_records.length).1, htable'.1, hinv.insert _ _, ?_⟩
    intro io io_rec hio hne
    rw [TableState.mem_insert, htable'.2]
    rcases hcases io io_rec hio with hold | ⟨rfl, rfl⟩
    · exact .inl (hlive io io_rec hold hne)
    · exact .inr ⟨hne, rfl, rfl, rfl⟩

/-- The end of a driver call. -/
theorem driver (h : s.Inv) {path : WritePath m n} (hpath : path.Inv) {io : Nat} {threw : Bool}
    (hrecords : path.io_records = s.path.io_records.modify io (WritePath.set_flags threw))
    (hhandles : path.handles = s.path.handles)
    (hwrites : path.driver_writes.map (·.io_rec) = s.path.driver_writes.map (·.io_rec) ++ [io]) :
    Inv { s with path, outcomes := s.outcomes ++ [(io, threw)] } := by
  -- it is the first one for this write
  have hfirst : io ∉ s.outcomes.map (·.1) := by
    have honce := (hpath.balanced.at_most_once io).1
    have hcount : path.ledger.driver_writes.count io =
        (s.path.driver_writes.map (·.io_rec)).count io + 1 := by
      show (path.driver_writes.map (·.io_rec)).count io = _
      rw [hwrites, List.count_append, List.count_singleton_self]
    rw [h.calls, ← List.count_eq_zero]
    omega
  have hcases : ∀ (j : Nat) io_rec, path.io_records[j]? = some io_rec →
      ∃ old, s.path.io_records[j]? = some old ∧
        io_rec = if io = j then WritePath.set_flags threw old else old := by
    intro j io_rec hj
    rw [hrecords, List.getElem?_modify] at hj
    obtain ⟨old, hold, heq⟩ := Option.map_eq_some_iff.mp hj
    exact ⟨old, hold, heq.symm⟩
  have htoken : ∀ io_rec, (WritePath.set_flags threw io_rec).token = io_rec.token := by
    intro io_rec
    cases threw <;> rfl
  obtain ⟨table, htable, hinv, hlive⟩ := h.handles
  constructor
  · exact hpath
  · show (s.outcomes ++ [(io, threw)]).map (·.1) = path.driver_writes.map (·.io_rec)
    rw [List.map_append, h.calls, hwrites]
    rfl
  · intro j io_rec hj
    obtain ⟨old, hold, rfl⟩ := hcases j io_rec hj
    have hshows := h.shows j old hold
    show (_ ↔ (j, false) ∈ s.outcomes ++ [(io, threw)]) ∧ (_ ↔ (j, true) ∈ s.outcomes ++ [(io, threw)])
    simp only [List.mem_append, List.mem_singleton, Prod.mk.injEq]
    by_cases hio : io = j
    · subst hio
      have hnone : ∀ b, (io, b) ∉ s.outcomes := fun b hb => hfirst (List.mem_map_of_mem hb)
      have hfalse : old.completed = false ∧ old.failed = false :=
        ⟨Bool.eq_false_iff.mpr fun hc => hnone _ (hshows.1.mp hc),
          Bool.eq_false_iff.mpr fun hc => hnone _ (hshows.2.mp hc)⟩
      rw [if_pos rfl]
      cases threw with
      | false => simp [WritePath.set_flags, hnone, hfalse]
      | true => simp [WritePath.set_flags, hnone, hfalse]
    · rw [if_neg hio]
      simp only [Ne.symm hio, false_and, or_false]
      exact hshows
  · refine ⟨table, htable.trans hhandles.symm, hinv, ?_⟩
    intro j io_rec hj hne
    obtain ⟨old, hold, rfl⟩ := hcases j io_rec hj
    have hsame : (if io = j then WritePath.set_flags threw old else old).token = old.token := by
      split
      · exact htoken old
      · rfl
    rw [hsame] at hne ⊢
    exact hlive j old hold hne

theorem path_step (hn : 0 < n) (h : s.Inv) {pl : WriteLabel m n} {path : WritePath m n}
    (hstep : s.path.next pl = some path) :
    Inv { s with path, outcomes := s.outcomes ++ (s.path.ended_by pl).toList } := by
  have hpath : path.Inv := h.path.step hn hstep
  rcases WritePath.records_step hn hstep with ⟨hsame, hended⟩ |
    ⟨new, hrecords, hcompleted, hfailed, hhandles, hwrites, hended⟩ |
    ⟨io, threw, hended, hrecords, hhandles, hwrites⟩
  · rw [hended, Option.toList_none, List.append_nil]
    exact h.same_records hpath hsame
  · rw [hended, Option.toList_none, List.append_nil]
    exact h.stage hpath hrecords hcompleted hfailed hhandles hwrites
  · rw [hended, Option.toList_some]
    exact h.driver hpath hrecords hhandles hwrites

theorem set_waiter (h : s.Inv) (f : Fin k) (phase : WaitPhase) : (s.set_waiter f phase).Inv :=
  ⟨h.path, h.calls, h.shows, h.handles⟩

/-- **Step lemma.** -/
theorem step (hn : 0 < n) (h : s.Inv) (hstep : s.next l = some s') : s'.Inv := by
  cases l with
  | path pl =>
    obtain ⟨path, hpath, rfl⟩ := Option.map_eq_some_iff.mp hstep
    exact h.path_step hn hpath
  | wait f token =>
    simp only [next] at hstep
    split at hstep
    · cases hstep
    · split at hstep
      · cases hstep
        exact h.set_waiter f _
      · cases hstep
      · cases hstep
        exact h.set_waiter f _
  | look f =>
    simp only [next] at hstep
    split at hstep
    · split at hstep
      · split at hstep
        · cases hstep
          exact h.set_waiter f _
        · cases hstep
          exact h
      · cases hstep
    · cases hstep
  | timeout f =>
    simp only [next] at hstep
    split at hstep
    · split at hstep
      · cases hstep
      · cases hstep
        exact h.set_waiter f _
    · cases hstep

end Inv

/-- **Run lemma.** -/
theorem inv_of_reachable (hn : 0 < n) (hr : (system m n k).Reachable s) : s.Inv := by
  refine hr.invariant (P := Inv) (fun t ht => ?_) fun t l t' _ h hstep => h.step hn hstep
  obtain ⟨cfg, staging, backpressure, hinit, rfl⟩ := ht
  constructor
  · exact WritePath.inv_make hinit backpressure
  · rfl
  · intro io io_rec hio
    cases hio
  · exact ⟨.empty, rfl, table_inv_empty, fun io io_rec hio => nomatch hio⟩

/-! ## Section 4: What a wait reports -/

namespace Inv

theorem wait_step (h : s.Inv) {io : Nat} {io_rec : IoRecord}
    (hio : s.path.io_records[io]? = some io_rec) (htoken : io_rec.token ≠ 0) {f : Fin k}
    (hf : ∀ io', s.waiters f ≠ .waiting io') :
    s.next (.wait f io_rec.token) = some (s.set_waiter f (.waiting io)) := by
  obtain ⟨table, htable, hinv, hlive⟩ := h.handles
  have hlookup : s.path.handles.lookup io_rec.token .Io = .ok (some io) := by
    rw [← htable]
    exact (hinv.lookup_iff _ _ _).mpr (hlive io io_rec hio htoken)
  cases hphase : s.waiters f with
  | waiting io' => exact absurd hphase (hf io')
  | idle => simp only [next, hphase, hlookup]
  | returned result => simp only [next, hphase, hlookup]

theorem exists_record (h : s.Inv) {io : Nat} {threw : Bool} (hmem : (io, threw) ∈ s.outcomes) :
    ∃ io_rec, s.path.io_records[io]? = some io_rec := by
  have hcall : io ∈ s.outcomes.map (·.1) := List.mem_map_of_mem hmem
  rw [h.calls] at hcall
  exact ⟨_, List.getElem?_eq_getElem (h.lt_of_mem hcall)⟩

theorem reports_of_returned (h : s.Inv) {io : Nat} (hmem : (io, false) ∈ s.outcomes) {f : Fin k}
    (hf : s.waiters f = .waiting io) : s.Reports f false := by
  obtain ⟨io_rec, hio⟩ := h.exists_record hmem
  have hcompleted : io_rec.completed = true := (h.shows io io_rec hio).1.mpr hmem
  have hfailed : io_rec.failed = false := by
    rw [← Bool.not_eq_true, (h.shows io io_rec hio).2]
    exact fun hc => absurd (h.unique hmem hc) (by decide)
  constructor
  · simp only [next, hf, is_completed, hio, Option.map_some, Option.getD_some, hcompleted, if_true]
  · refine ⟨s.set_waiter f (.returned (wait_status io_rec)), ?_, ?_⟩
    · simp only [next, hf, hio, hcompleted, if_true]
    · show Function.update s.waiters f _ f = _
      rw [Function.update_self, wait_status, hfailed]
      rfl

theorem times_out_of_thrown (h : s.Inv) {io : Nat} (hmem : (io, true) ∈ s.outcomes) {f : Fin k}
    (hf : s.waiters f = .waiting io) :
    s.next (.look f) = some s ∧
      s.next (.timeout f) = some (s.set_waiter f (.returned (.error .ERR_TIMEOUT))) := by
  obtain ⟨io_rec, hio⟩ := h.exists_record hmem
  have hcompleted : io_rec.completed = false := by
    rw [← Bool.not_eq_true, (h.shows io io_rec hio).1]
    exact fun hc => absurd (h.unique hmem hc) (by decide)
  constructor
  · simp only [next, hf, hio, hcompleted, Bool.false_eq_true, if_false]
  · simp only [next, hf, is_completed, hio, Option.map_some, Option.getD_some, hcompleted,
      Bool.false_eq_true, if_false]

end Inv

/-- **What a wait reports**, in any state after the driver call of a write:

    - a wait on the handle of the write waits for its record;
    - a wait for it reports what it owes exactly when the driver has not
      thrown. -/
theorem wait_reports_iff (hn : 0 < n) :
    ∀ s : WaitPath m n k, (system m n k).Reachable s → ∀ io threw, (io, threw) ∈ s.outcomes →
      (∀ f io_rec, s.path.io_records[io]? = some io_rec → io_rec.token ≠ 0 →
        (∀ io', s.waiters f ≠ .waiting io') →
        s.next (.wait f io_rec.token) = some (s.set_waiter f (.waiting io))) ∧
      ∀ f, s.waiters f = .waiting io → (s.Reports f threw ↔ threw = false) := by
  intro s hr io threw hmem
  have h := inv_of_reachable hn hr
  constructor
  · intro f io_rec hio htoken hf
    exact h.wait_step hio htoken hf
  · intro f hf
    cases threw with
    | false => exact iff_of_true (h.reports_of_returned hmem hf) rfl
    | true =>
      refine iff_of_false ?_ (by decide)
      intro hreports
      rw [Reports, (h.times_out_of_thrown hmem hf).2] at hreports
      cases hreports.1

/-! ### Runs

  A write of one byte, with a driver that returns and with one that
  throws. -/

section
local instance sole_waiter : NeZero 1 := ⟨Nat.one_ne_zero⟩

/-- The write, its closure, and a wait on its handle. -/
def waited (throws : Bool) : List (WaitLabel 1 1 1) :=
  [.path (.call 0 byteArgs), .path (.acquire 0), .path (.stage 0), .path (.submit 0),
    .path (.enter 0), .path (.count 0), .path (.wake 0 0), .path (.driver 0 throws),
    .path (.release 0), .path (.decrement 0), .path (.finish 0), .wait 0 1]

end

theorem single_init : (system 1 1 1).init (make singlePool {}) :=
  ⟨singleStaging, singlePool, {}, ⟨rfl, .refl _, rfl, rfl, rfl⟩, rfl⟩

theorem wait_reports_single : 0 < 1 ∧ ∃ s : WaitPath 1 1 1, (system 1 1 1).Reachable s ∧
    (0, false) ∈ s.outcomes ∧ s.waiters 0 = .waiting 0 ∧ s.Reports 0 false := by
  have hrun : ∃ s, LTS.System.exec next (make singlePool {} : WaitPath 1 1 1) (waited false) =
      some s ∧ (0, false) ∈ s.outcomes ∧ s.waiters 0 = .waiting 0 :=
    ⟨_, rfl, List.mem_singleton.mpr rfl, rfl⟩
  obtain ⟨s, hexec, hmem, hf⟩ := hrun
  have hr : (system 1 1 1).Reachable s := LTS.System.reachable_of_exec single_init hexec
  obtain ⟨-, hreports⟩ := wait_reports_iff Nat.one_pos s hr 0 false hmem
  exact ⟨Nat.one_pos, s, hr, hmem, hf, (hreports 0 hf).mpr rfl⟩

theorem wait_times_out : ∃ s s' : WaitPath 1 1 1, (system 1 1 1).Reachable s ∧
    (0, true) ∈ s.outcomes ∧ s.path.pool.executed.length = 1 ∧ s.waiters 0 = .waiting 0 ∧
    ¬ s.Reports 0 true ∧ s.next (.timeout 0) = some s' ∧
    s'.waiters 0 = .returned (.error .ERR_TIMEOUT) := by
  have hrun : ∃ s s', LTS.System.exec next (make singlePool {} : WaitPath 1 1 1) (waited true) =
      some s ∧ (0, true) ∈ s.outcomes ∧ s.path.pool.executed.length = 1 ∧
      s.waiters 0 = .waiting 0 ∧ s.next (.timeout 0) = some s' ∧
      s'.waiters 0 = .returned (.error .ERR_TIMEOUT) :=
    ⟨_, _, rfl, List.mem_singleton.mpr rfl, rfl, rfl, rfl, rfl⟩
  obtain ⟨s, s', hexec, hmem, hlen, hf, htimeout, hret⟩ := hrun
  refine ⟨s, s', LTS.System.reachable_of_exec single_init hexec, hmem, hlen, hf, ?_, htimeout, hret⟩
  intro hreports
  rw [Reports, htimeout] at hreports
  cases hreports.1

end WaitPath

end Amio
