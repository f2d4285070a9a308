import Helm.Amio.PrefetchQueue

/-! # Prefetch_Queue: tables and buffers

  The invariant of the queue has three parts.

  - `Tables`: a timestep has at most one fetch under way, and is in at most
    one of the tables. What carries the argument over cancellation, which
    empties the tables under the feet of the running fetches, is that a
    fetch under way keeps its timestep out of `completed` and `failed`, and
    that a cancelled queue schedules nothing.
  - `Ownership`: the references of the staging pool are those of the running
    fetches, the completed table, the readers and the other users, and no
    buffer is listed twice.
  - `Provenance`: a stored buffer holds what its record says.
-/

namespace Amio

namespace PrefetchQueue

open scoped List
open Holders (held)

variable {n : Nat} {s s' : PrefetchQueue n} {i : Fin n} {l : QueueLabel n}

/-! ## Section 1: Fetches under way -/

/-- The fetch of each thread. -/
def fetch_of (s : PrefetchQueue n) : Fin n → Option Fetch := fun i => (s.threads i).fetch

@[simp] theorem fetch_of_set_caller (s : PrefetchQueue n) (i : Fin n) (caller : Caller) :
    (s.set_caller i caller).fetch_of = s.fetch_of := by
  funext j
  by_cases hj : j = i
  · subst hj
    simp [fetch_of, set_caller]
  · simp [fetch_of, set_caller, Function.update_of_ne hj]

@[simp] theorem fetch_of_set_fetch (s : PrefetchQueue n) (i : Fin n) (fetch : Option Fetch) :
    (s.set_fetch i fetch).fetch_of = Function.update s.fetch_of i fetch := by
  funext j
  by_cases hj : j = i
  · subst hj
    simp [fetch_of, set_fetch]
  · simp [fetch_of, set_fetch, Function.update_of_ne hj]

/-- The timestep that each thread fetches. -/
def times (g : Fin n → Option Fetch) : Fin n → Option Int :=
  fun i => (g i).map Fetch.timestep

/-- The buffer in the hands of each thread's fetch. -/
def buffers (g : Fin n → Option Fetch) : Fin n → Option Nat := fun i => (g i).bind Fetch.buffer

theorem times_update (g : Fin n → Option Fetch) (i : Fin n) (f : Option Fetch) :
    times (Function.update g i f) = Function.update (times g) i (f.map Fetch.timestep) :=
  funext fun j => Function.apply_update (fun _ => Option.map Fetch.timestep) g i f j

theorem buffers_update (g : Fin n → Option Fetch) (i : Fin n) (f : Option Fetch) :
    buffers (Function.update g i f) = Function.update (buffers g) i (f.bind Fetch.buffer) :=
  funext fun j => Function.apply_update (fun _ (f : Option Fetch) => f.bind Fetch.buffer) g i f j

/-- The timesteps of the fetches under way, submitted or running. -/
def tokens (s : PrefetchQueue n) : List Int :=
  s.tasks.map (·.timestep) ++ held (times s.fetch_of)

theorem tokens_congr (htasks : s'.tasks = s.tasks) (hfetch : s'.fetch_of = s.fetch_of) :
    s'.tokens = s.tokens := by
  rw [tokens, tokens, htasks, hfetch]

/-- Everybody who holds a staging buffer. -/
def owners (s : PrefetchQueue n) : List Nat :=
  held (buffers s.fetch_of) ++ (s.completed.values ++ (s.handed ++ s.others))

/-! ### Moving a fetch -/

section Moves

variable {g : Fin n → Option Fetch} {f : Fetch} {b : Nat}

theorem held_times_same (hf : g i = some f) (f' : Fetch) (htask : f'.task = f.task) :
    held (times (Function.update g i (some f'))) = held (times g) := by
  have hsame : (some f').map Fetch.timestep = times g i := by
    simp [times, hf, Fetch.timestep, htask]
  rw [times_update, hsame, Function.update_eq_self]

theorem held_times_begin (hf : g i = none) (f : Fetch) :
    held (times (Function.update g i (some f))) ~ f.timestep :: held (times g) := by
  rw [times_update]
  exact Holders.held_take (by simp [times, hf]) _

theorem held_times_end (hf : g i = some f) :
    held (times g) ~ f.timestep :: held (times (Function.update g i none)) := by
  rw [times_update]
  exact Holders.held_drop (by simp [times, hf])

theorem held_buffers_same {f' : Option Fetch} (h : f'.bind Fetch.buffer = (g i).bind Fetch.buffer) :
    held (buffers (Function.update g i f')) = held (buffers g) := by
  rw [buffers_update, show f'.bind Fetch.buffer = buffers g i from h, Function.update_eq_self]

theorem held_buffers_take (h : (g i).bind Fetch.buffer = none) (hb : f.buffer = some b) :
    held (buffers (Function.update g i (some f))) ~ b :: held (buffers g) := by
  rw [buffers_update, show (some f).bind Fetch.buffer = some b from hb]
  exact Holders.held_take h b

theorem held_buffers_drop (h : (g i).bind Fetch.buffer = some b) (f' : Option Fetch)
    (hf' : f'.bind Fetch.buffer = none) :
    held (buffers g) ~ b :: held (buffers (Function.update g i f')) := by
  rw [buffers_update, hf']
  exact Holders.held_drop h

end Moves

/-! ## Section 2: The invariant -/

/-- The tables of timesteps. -/
structure Tables (s : PrefetchQueue n) : Prop where
  tokens_nodup : s.tokens.Nodup
  token_fresh : ∀ t ∈ s.tokens, s.completed.lookup t = none ∧ s.failed.lookup t = none
  token_pending : s.cancelled = false → ∀ t ∈ s.tokens, t ∈ s.pending
  pending_fresh : ∀ t ∈ s.pending, s.completed.lookup t = none ∧ s.failed.lookup t = none
  completed_fresh : ∀ t b, s.completed.lookup t = some b → s.failed.lookup t = none
  cancelled_empty : s.cancelled = true → ∀ t, t ∉ s.pending

/-- The staging buffers. -/
structure Ownership (s : PrefetchQueue n) : Prop where
  owned : s.pool.Owned s.owners
  nodup : s.owners.Nodup
  once : s.released_twice = false

/-- What the driver is asked for on behalf of a selection. -/
abbrev selection (sel : Option AmioBbox) : Option BoundingBox := sel.map AmioBbox.to_bounding_box

/-- The contents of the buffers. -/
structure Provenance (s : PrefetchQueue n) : Prop where
  stored : ∀ t b, s.completed.lookup t = some b →
    s.contents b = some (t, selection (s.fetched_bbox.lookup t))
  filled : ∀ i task b, s.fetch_of i = some (.filled task b) →
    s.contents b = some (task.timestep, selection task.sel)

/-- **The invariant of the queue.** -/
structure Inv (s : PrefetchQueue n) : Prop where
  tables : s.Tables
  ownership : s.Ownership
  provenance : s.Provenance

/-! ### Closure rules -/

theorem Tables.shrink (h : s.Tables) (htok : s'.tokens.Nodup) (hsub : s'.tokens ⊆ s.tokens)
    (hp : ∀ t, t ∈ s'.pending → t ∈ s.pending)
    (hc : ∀ t b, s'.completed.lookup t = some b → s.completed.lookup t = some b)
    (hf : ∀ t e, s'.failed.lookup t = some e → s.failed.lookup t = some e)
    (hcancel : s'.cancelled = s.cancelled)
    (htp : s.cancelled = false → ∀ t ∈ s'.tokens, t ∈ s'.pending) : s'.Tables where
  tokens_nodup := htok
  token_fresh := fun t ht => by
    obtain ⟨hc₀, hf₀⟩ := h.token_fresh t (hsub ht)
    exact ⟨Option.eq_none_iff_forall_ne_some.mpr fun b hb => by simp [hc t b hb] at hc₀,
      Option.eq_none_iff_forall_ne_some.mpr fun e he => by simp [hf t e he] at hf₀⟩
  token_pending := fun hn => htp (hcancel ▸ hn)
  pending_fresh := fun t ht => by
    obtain ⟨hc₀, hf₀⟩ := h.pending_fresh t (hp t ht)
    exact ⟨Option.eq_none_iff_forall_ne_some.mpr fun b hb => by simp [hc t b hb] at hc₀,
      Option.eq_none_iff_forall_ne_some.mpr fun e he => by simp [hf t e he] at hf₀⟩
  completed_fresh := fun t b hb => by
    have hf₀ := h.completed_fresh t b (hc t b hb)
    exact Option.eq_none_iff_forall_ne_some.mpr fun e he => by simp [hf t e he] at hf₀
  cancelled_empty := fun hn t ht => h.cancelled_empty (hcancel ▸ hn) t (hp t ht)

theorem Ownership.perm (h : s.Ownership) (hpool : s'.pool = s.pool) (hp : s.owners ~ s'.owners)
    (honce : s'.released_twice = s.released_twice) : s'.Ownership where
  owned := hpool ▸ h.owned.perm hp
  nodup := hp.nodup_iff.mp h.nodup
  once := honce.trans h.once

theorem Ownership.release (h : s.Ownership) {b : Nat} (hpool : s'.pool = s.pool.release b)
    (hp : s.owners ~ b :: s'.owners)
    (honce : s'.released_twice = (s.released_twice || (s.pool.buf b).ref_count == 0)) :
    s'.Ownership where
  owned := hpool ▸ h.owned.release hp
  nodup := (List.nodup_cons.mp (hp.nodup_iff.mp h.nodup)).2
  once := by
    have hpos := h.owned.pos (hp.mem_iff.mpr List.mem_cons_self)
    simp [honce, h.once, Nat.pos_iff_ne_zero.mp hpos]

theorem Ownership.acquire (h : s.Ownership) {b required : Nat}
    (hacq : s.pool.acquire required = (s'.pool, some b)) (hp : s'.owners ~ b :: s.owners)
    (honce : s'.released_twice = s.released_twice) : s'.Ownership := by
  obtain ⟨howned, hnew⟩ := h.owned.acquire hacq
  exact ⟨howned.perm hp.symm, hp.nodup_iff.mpr (List.nodup_cons.mpr ⟨hnew, h.nodup⟩),
    honce.trans h.once⟩

theorem Provenance.mono (h : s.Provenance) (hcont : s'.contents = s.contents)
    (hc : ∀ t b, s'.completed.lookup t = some b → s.completed.lookup t = some b ∧
      s'.fetched_bbox.lookup t = s.fetched_bbox.lookup t)
    (hf : ∀ i task b, s'.fetch_of i = some (.filled task b) → s.fetch_of i = some (.filled task b)) :
    s'.Provenance where
  stored := fun t b hb => by
    obtain ⟨hb₀, hfb⟩ := hc t b hb
    rw [hcont, hfb, h.stored t b hb₀]
  filled := fun i task b hi => by rw [hcont, h.filled i task b (hf i task b hi)]

theorem Tables.frame (h : s.Tables) (htok : s'.tokens ~ s.tokens) (hp : s'.pending = s.pending)
    (hc : s'.completed = s.completed) (hf : s'.failed = s.failed)
    (hcancel : s'.cancelled = s.cancelled) : s'.Tables := by
  refine h.shrink (htok.nodup_iff.mpr h.tokens_nodup) (fun t ht => htok.mem_iff.mp ht)
    (fun t ht => hp ▸ ht) (fun t b hb => hc ▸ hb) (fun t e he => hf ▸ he) hcancel fun hn t ht => ?_
  rw [hp]
  exact h.token_pending hn t (htok.mem_iff.mp ht)

/-! ## Section 3: Methods -/

theorem foldl_release {l owners rest : List Nat} (h : s.pool.Owned owners)
    (hp : owners ~ l ++ rest) (honce : s.released_twice = false) :
    l.foldl PrefetchQueue.release s = { s with pool := s.pool.release_all l } := by
  induction l generalizing s owners with
  | nil => rfl
  | cons b l ih =>
    have hpos := h.pos (hp.mem_iff.mpr List.mem_cons_self)
    have hstep : s.release b = { s with pool := s.pool.release b } := by
      simp [PrefetchQueue.release, honce, Nat.pos_iff_ne_zero.mp hpos]
    rw [List.foldl_cons, hstep]
    exact ih (h.release hp) (.refl _) honce

namespace Inv

theorem set_caller (h : s.Inv) (i : Fin n) (caller : Caller) : (s.set_caller i caller).Inv where
  tables := h.tables.frame (.of_eq (tokens_congr rfl (fetch_of_set_caller ..))) rfl rfl rfl rfl
  ownership := h.ownership.perm rfl
    (.of_eq (by rw [owners, owners, fetch_of_set_caller]; rfl)) rfl
  provenance := h.provenance.mono rfl (fun t b hb => ⟨hb, rfl⟩) fun j task b hj => by simpa using hj

theorem deliver (h : s.Inv) {timestep : Int} {b : Nat} (hb : s.completed.lookup timestep = some b)
    (i : Fin n) (bbox : Option AmioBbox) (fetched : OrdMap Int AmioBbox)
    (hfetched : ∀ t, t ≠ timestep → fetched.lookup t = s.fetched_bbox.lookup t) :
    Inv { s.deliver i timestep bbox b with fetched_bbox := fetched } := by
  have hfetch : ({ s.deliver i timestep bbox b with fetched_bbox := fetched }).fetch_of =
      s.fetch_of := fetch_of_set_caller ..
  have htok : ({ s.deliver i timestep bbox b with fetched_bbox := fetched }).tokens = s.tokens :=
    tokens_congr rfl hfetch
  constructor
  case tables =>
    refine h.tables.shrink (htok ▸ h.tables.tokens_nodup) (htok ▸ List.Subset.refl _)
      (fun t ht => ht) (fun t b' ht => (OrdMap.lookup_erase_eq_some.mp ht).2) (fun t e he => he) rfl ?_
    rw [htok]
    exact h.tables.token_pending
  case ownership =>
    refine h.ownership.perm rfl ?_ rfl
    rw [owners, owners, hfetch]
    refine List.Perm.append_left _ ?_
    refine ((OrdMap.values_erase hb).append_right _).trans ?_
    exact List.perm_middle.symm
  case provenance =>
    refine h.provenance.mono rfl (fun t b' ht => ?_) fun j task b' hj => hfetch ▸ hj
    obtain ⟨hne, ht₀⟩ := OrdMap.lookup_erase_eq_some.mp ht
    exact ⟨ht₀, hfetched t hne⟩

theorem deliver_failure (h : s.Inv) (i : Fin n) (timestep : Int) (error : AmioStatus) :
    (s.deliver_failure i timestep error).Inv := by
  have hcaller := h.set_caller i (.idle (some (.error error)))
  exact { hcaller with
    tables := hcaller.tables.shrink hcaller.tables.tokens_nodup (List.Subset.refl _) (fun t ht => ht)
      (fun t b hb => hb) (fun t e he => (OrdMap.lookup_erase_eq_some.mp he).2) rfl
      hcaller.tables.token_pending
    ownership := { hcaller.ownership with }
    provenance := { hcaller.provenance with } }

theorem drop_stale (h : s.Inv) {timestep : Int} {b : Nat}
    (hb : s.completed.lookup timestep = some b) : (s.drop_stale timestep b).Inv := by
  constructor
  case tables =>
    exact h.tables.shrink h.tables.tokens_nodup (List.Subset.refl _) (fun t ht => ht)
      (fun t b' ht => (OrdMap.lookup_erase_eq_some.mp ht).2) (fun t e he => he) rfl h.tables.token_pending
  case ownership =>
    refine h.ownership.release (b := b) rfl ?_ rfl
    change held (buffers s.fetch_of) ++ (s.completed.values ++ (s.handed ++ s.others)) ~
      b :: (held (buffers s.fetch_of) ++
        ((s.completed.erase timestep).values ++ (s.handed ++ s.others)))
    refine List.Perm.trans ?_ List.perm_middle
    exact List.Perm.append_left _ ((OrdMap.values_erase hb).append_right _)
  case provenance =>
    refine h.provenance.mono rfl (fun t b' ht => ?_) fun j task b' hj => hj
    obtain ⟨hne, ht₀⟩ := OrdMap.lookup_erase_eq_some.mp ht
    refine ⟨ht₀, ?_⟩
    change (s.fetched_bbox.erase timestep).lookup t = _
    rw [OrdMap.lookup_erase, if_neg hne]

/-! ### `get_buffer` -/

theorem get_rest (h : s.Inv) (i : Fin n) (timestep : Int) (bbox : Option AmioBbox) :
    (s.get_rest i timestep bbox).Inv := by
  unfold PrefetchQueue.get_rest
  split
  · exact h.deliver_failure i timestep _
  · split
    · exact h.set_caller i _
    · exact h.set_caller i _

theorem deliver_matching (h : s.Inv) {timestep : Int} {b : Nat}
    (hb : s.completed.lookup timestep = some b) (i : Fin n) (bbox : Option AmioBbox) :
    Inv { s.deliver i timestep bbox b with fetched_bbox := s.fetched_bbox.erase timestep } :=
  h.deliver hb i bbox _ fun t ht => by rw [OrdMap.lookup_erase, if_neg ht]

theorem get_loop (h : s.Inv) (i : Fin n) (timestep : Int) (bbox : Option AmioBbox) :
    (s.get_loop i timestep bbox).Inv := by
  unfold PrefetchQueue.get_loop
  split
  · next b hb =>
    split
    · exact h.deliver_matching hb i bbox
    · exact (h.drop_stale hb).set_caller i _
  · exact h.get_rest i timestep bbox

theorem get_wait (h : s.Inv) (i : Fin n) (timestep : Int) (bbox : Option AmioBbox) :
    (s.get_wait i timestep bbox).Inv := by
  unfold PrefetchQueue.get_wait
  split
  · exact h.set_caller i _
  · exact h.get_loop i timestep bbox

theorem get_check (h : s.Inv) (i : Fin n) (timestep : Int) (bbox : Option AmioBbox) :
    (s.get_check i timestep bbox).Inv := by
  unfold PrefetchQueue.get_check
  split
  · exact h.deliver_failure i timestep _
  · split
    · next b hb =>
      split
      · exact h.deliver_matching hb i bbox
      · exact (h.drop_stale hb).get_wait i timestep bbox
    · exact h.get_wait i timestep bbox

theorem get_timeout (h : s.Inv) (i : Fin n) (timestep : Int) (bbox : Option AmioBbox) :
    (s.get_timeout i timestep bbox).Inv := by
  unfold PrefetchQueue.get_timeout
  split
  · next b hb => exact h.deliver hb i bbox s.fetched_bbox fun t _ => rfl
  · split
    · exact h.deliver_failure i timestep _
    · exact h.set_caller i _

theorem set_flags (h : s.Inv) (latched_bbox : Option AmioBbox) (kicked_off : Bool) :
    Inv { s with latched_bbox, kicked_off } where
  tables := { h.tables with }
  ownership := { h.ownership with }
  provenance := { h.provenance with }

theorem get_buffer (h : s.Inv) (i : Fin n) (timestep : Int) (bbox : Option AmioBbox) :
    (s.get_buffer i timestep bbox).Inv := by
  unfold PrefetchQueue.get_buffer
  have hlatch : Inv { s with latched_bbox := bbox } := h.set_flags bbox s.kicked_off
  simp only
  split
  · exact hlatch.get_check i timestep bbox
  · exact (hlatch.set_flags bbox true).set_caller i _

/-! ### The other methods -/

theorem schedule_next (h : s.Inv) (i : Fin n) (current_timestep : Int) :
    (s.schedule_next i current_timestep).Inv := by
  unfold PrefetchQueue.schedule_next
  split
  · exact h.set_caller i _
  · exact h.set_caller i _

theorem cancel_pending (h : s.Inv) (i : Fin n) : (s.cancel_pending i).Inv := by
  have hcaller := h.set_caller i (.idle none)
  -- the completed buffers first
  have hperm : (s.set_caller i (.idle none)).owners ~
      s.completed.values ++ (held (buffers s.fetch_of) ++ (s.handed ++ s.others)) := by
    rw [owners, fetch_of_set_caller]
    change held (buffers s.fetch_of) ++ (s.completed.values ++ (s.handed ++ s.others)) ~ _
    rw [← List.append_assoc, ← List.append_assoc s.completed.values]
    exact List.perm_append_comm.append_right _
  have hfold := foldl_release hcaller.ownership.owned hperm hcaller.ownership.once
  have hfetch : (s.cancel_pending i).fetch_of = s.fetch_of := by
    rw [PrefetchQueue.cancel_pending, hfold]
    exact fetch_of_set_caller ..
  have htasks : (s.cancel_pending i).tasks = s.tasks := by
    rw [PrefetchQueue.cancel_pending, hfold]
    rfl
  have htok := tokens_congr htasks hfetch
  constructor
  case tables =>
    exact
      { tokens_nodup := htok ▸ h.tables.tokens_nodup
        token_fresh := fun _ _ => ⟨rfl, rfl⟩
        token_pending := fun hn => by cases hn
        pending_fresh := fun _ _ => ⟨rfl, rfl⟩
        completed_fresh := fun _ _ _ => rfl
        cancelled_empty := fun _ t => OrdSet.not_mem_empty t }
  case ownership =>
    have howners : (s.cancel_pending i).owners =
        held (buffers s.fetch_of) ++ (s.handed ++ s.others) := by
      rw [owners, hfetch, PrefetchQueue.cancel_pending, hfold]
      rfl
    have hnodup := hperm.nodup_iff.mp hcaller.ownership.nodup
    refine ⟨?_, howners ▸ (List.nodup_append.mp hnodup).2.1, ?_⟩
    · rw [howners, PrefetchQueue.cancel_pending, hfold]
      exact hcaller.ownership.owned.release_all hperm
    · rw [PrefetchQueue.cancel_pending, hfold]
      exact hcaller.ownership.once
  case provenance =>
    refine h.provenance.mono ?_ (fun t b hb => by cases hb) fun j task b hj => hfetch ▸ hj
    rw [PrefetchQueue.cancel_pending, hfold]
    rfl

end Inv

/-! ## Section 4: Fetches -/

theorem Tables.schedule (h : s.Tables) {timestep : Int} (hn : s.cancelled = false)
    (hfree : s.tracked timestep = false)
    (htok : s'.tokens ~ timestep :: s.tokens ∨ s'.tokens = s.tokens)
    (hp : s'.pending = s.pending.insert timestep) (hc : s'.completed = s.completed)
    (hf : s'.failed = s.failed) (hcancel : s'.cancelled = s.cancelled) : s'.Tables := by
  simp only [tracked, decide_eq_false_iff_not, not_or, Bool.not_eq_true, Option.isSome_eq_false_iff,
    Option.isNone_iff_eq_none] at hfree
  obtain ⟨hpend, hcomp, hfail⟩ := hfree
  have hnew : timestep ∉ s.tokens := fun ht => hpend (h.token_pending hn _ ht)
  have hmem : ∀ t ∈ s'.tokens, t = timestep ∨ t ∈ s.tokens := fun t ht => by
    rcases htok with hperm | heq
    · exact List.mem_cons.mp (hperm.mem_iff.mp ht)
    · exact .inr (heq ▸ ht)
  constructor
  case tokens_nodup =>
    rcases htok with hperm | heq
    · exact hperm.nodup_iff.mpr (List.nodup_cons.mpr ⟨hnew, h.tokens_nodup⟩)
    · exact heq ▸ h.tokens_nodup
  case token_fresh =>
    intro t ht
    rw [hc, hf]
    rcases hmem t ht with rfl | ht
    · exact ⟨hcomp, hfail⟩
    · exact h.token_fresh t ht
  case token_pending =>
    intro _ t ht
    rw [hp, OrdSet.mem_insert]
    exact (hmem t ht).imp id (h.token_pending hn t)
  case pending_fresh =>
    intro t ht
    rw [hp, OrdSet.mem_insert] at ht
    rw [hc, hf]
    rcases ht with rfl | ht
    · exact ⟨hcomp, hfail⟩
    · exact h.pending_fresh t ht
  case completed_fresh => exact hc ▸ hf ▸ h.completed_fresh
  case cancelled_empty => exact fun hx => absurd (hcancel ▸ hx) (by simp [hn])

theorem Tables.report (h : s.Tables) {timestep : Int} (htok : s.tokens ~ timestep :: s'.tokens)
    (hp : s'.pending = s.pending.erase timestep)
    (hc : ∀ t, t ≠ timestep → s'.completed.lookup t = s.completed.lookup t)
    (hf : ∀ t, t ≠ timestep → s'.failed.lookup t = s.failed.lookup t)
    (hone : s'.completed.lookup timestep = none ∨ s'.failed.lookup timestep = none)
    (hcancel : s'.cancelled = s.cancelled) : s'.Tables := by
  have hnodup := List.nodup_cons.mp (htok.nodup_iff.mp h.tokens_nodup)
  have hne : ∀ t ∈ s'.tokens, t ≠ timestep := fun t ht heq => hnodup.1 (heq ▸ ht)
  have hmem : ∀ t ∈ s'.tokens, t ∈ s.tokens := fun t ht =>
    htok.mem_iff.mpr (List.mem_cons_of_mem _ ht)
  constructor
  case tokens_nodup => exact hnodup.2
  case token_fresh =>
    intro t ht
    rw [hc t (hne t ht), hf t (hne t ht)]
    exact h.token_fresh t (hmem t ht)
  case token_pending =>
    intro hn t ht
    rw [hp, OrdSet.mem_erase]
    exact ⟨h.token_pending (hcancel ▸ hn) t (hmem t ht), hne t ht⟩
  case pending_fresh =>
    intro t ht
    rw [hp, OrdSet.mem_erase] at ht
    rw [hc t ht.2, hf t ht.2]
    exact h.pending_fresh t ht.1
  case completed_fresh =>
    intro t b hb
    by_cases ht : t = timestep
    · subst ht
      exact hone.resolve_left fun hnone => by simp [hnone] at hb
    · rw [hf t ht]
      exact h.completed_fresh t b (hc t ht ▸ hb)
  case cancelled_empty =>
    intro hx t ht
    rw [hp, OrdSet.mem_erase] at ht
    exact h.cancelled_empty (hcancel ▸ hx) t ht.1

theorem filled_update {g : Fin n → Option Fetch} {f : Option Fetch}
    (hf : ∀ task b, f ≠ some (.filled task b)) (j : Fin n) (task : FetchTask) (b : Nat)
    (hj : Function.update g i f j = some (.filled task b)) : g j = some (.filled task b) := by
  by_cases hji : j = i
  · subst hji
    rw [Function.update_self] at hj
    exact absurd hj (hf task b)
  · rwa [Function.update_of_ne hji] at hj

namespace Inv

theorem schedule_fetch (h : s.Inv) (hidle : s.fetch_of i = none) (timestep : Int) (dropped : Bool) :
    (s.schedule_fetch i timestep dropped).Inv := by
  unfold PrefetchQueue.schedule_fetch
  split
  · exact h
  next hcond =>
  simp only [not_or, Bool.not_eq_true] at hcond
  obtain ⟨hn, hfree⟩ := hcond
  simp only
  split
  · split
    · exact
        { tables := h.tables.schedule hn hfree (.inr rfl) rfl rfl rfl rfl
          ownership := { h.ownership with }
          provenance := { h.provenance with } }
    · refine
        { tables := h.tables.schedule hn hfree (.inl ?_) rfl rfl rfl rfl
          ownership := { h.ownership with }
          provenance := { h.provenance with } }
      rw [tokens, List.map_append, List.append_assoc]
      exact List.perm_middle
  · have hfetch : ∀ task, (({ s with pending := s.pending.insert timestep }).set_fetch i
        (some (.entering task))).fetch_of = Function.update s.fetch_of i (some (.entering task)) :=
      fun task => fetch_of_set_fetch ..
    constructor
    case tables =>
      refine h.tables.schedule hn hfree (.inl ?_) rfl rfl rfl rfl
      rw [tokens, hfetch]
      exact ((held_times_begin hidle _).append_left _).trans List.perm_middle
    case ownership =>
      refine h.ownership.perm rfl (.of_eq ?_) rfl
      rw [owners, owners, hfetch, held_buffers_same (by rw [hidle]; rfl)]
      rfl
    case provenance =>
      refine h.provenance.mono rfl (fun t b hb => ⟨hb, rfl⟩) ?_
      rw [hfetch]
      exact filled_update (by simp)

theorem set_fetch (h : s.Inv) {f f' : Fetch} (hf : s.fetch_of i = some f)
    (htask : f'.task = f.task) (hbuf : f'.buffer = f.buffer)
    (hfilled : ∀ task b, f' ≠ .filled task b) : (s.set_fetch i (some f')).Inv where
  tables := h.tables.frame
    (.of_eq (by rw [tokens, tokens, fetch_of_set_fetch, held_times_same hf _ htask]; rfl))
    rfl rfl rfl rfl
  ownership := by
    refine h.ownership.perm rfl (.of_eq ?_) rfl
    rw [owners, owners, fetch_of_set_fetch, held_buffers_same (by rw [hf]; exact hbuf)]
    rfl
  provenance := by
    refine h.provenance.mono rfl (fun t b hb => ⟨hb, rfl⟩) ?_
    rw [fetch_of_set_fetch]
    exact filled_update (by simpa using hfilled)

theorem end_fetch (h : s.Inv) {f : Fetch} (hf : s.fetch_of i = some f) (hbuf : f.buffer = none)
    {pending : OrdSet Int} (hsub : ∀ t, t ∈ pending → t ∈ s.pending)
    (hkeep : s.cancelled = false → pending = s.pending) :
    Inv { s.set_fetch i none with pending } := by
  have hfetch : ({ s.set_fetch i none with pending } : PrefetchQueue n).fetch_of =
      Function.update s.fetch_of i none := fetch_of_set_fetch ..
  have htok : s.tokens ~ f.timestep :: ({ s.set_fetch i none with pending }).tokens := by
    rw [tokens, tokens, hfetch]
    exact ((held_times_end hf).append_left _).trans List.perm_middle
  have hmem : ∀ t ∈ ({ s.set_fetch i none with pending }).tokens, t ∈ s.tokens :=
    fun t ht => htok.mem_iff.mpr (List.mem_cons_of_mem _ ht)
  constructor
  case tables =>
    refine h.tables.shrink (List.nodup_cons.mp (htok.nodup_iff.mp h.tables.tokens_nodup)).2 hmem
      hsub (fun t b hb => hb) (fun t e he => he) rfl fun hn t ht => ?_
    change t ∈ pending
    rw [hkeep hn]
    exact h.tables.token_pending hn t (hmem t ht)
  case ownership =>
    refine h.ownership.perm rfl (.of_eq ?_) rfl
    rw [owners, owners, hfetch, held_buffers_same (by rw [hf]; exact hbuf.symm)]
    rfl
  case provenance =>
    refine h.provenance.mono rfl (fun t b hb => ⟨hb, rfl⟩) ?_
    rw [hfetch]
    exact filled_update (by simp)

theorem set_pool (h : s.Inv) {pool : StagingPool} (howned : pool.Owned s.owners) :
    Inv { s with pool } where
  tables := { h.tables with }
  ownership := { h.ownership with owned := howned }
  provenance := { h.provenance with }

theorem acquire (h : s.Inv) {task : FetchTask} {pool : StagingPool} {b required : Nat}
    (hf : s.fetch_of i = some (.acquiring task)) (hacq : s.pool.acquire required = (pool, some b)) :
    Inv { s.set_fetch i (some (.reading task b)) with pool } := by
  have hfetch : ({ s.set_fetch i (some (.reading task b)) with pool } : PrefetchQueue n).fetch_of =
      Function.update s.fetch_of i (some (.reading task b)) := fetch_of_set_fetch ..
  constructor
  case tables =>
    refine h.tables.frame (.of_eq ?_) rfl rfl rfl rfl
    rw [tokens, tokens, hfetch, held_times_same hf (.reading task b) rfl]
    rfl
  case ownership =>
    refine h.ownership.acquire hacq ?_ rfl
    rw [owners, owners, hfetch]
    exact (held_buffers_take (by rw [hf]; rfl) rfl).append_right _
  case provenance =>
    refine h.provenance.mono rfl (fun t b hb => ⟨hb, rfl⟩) ?_
    rw [hfetch]
    exact filled_update (by simp)

theorem not_stored (h : s.Inv) {f : Fetch} {b : Nat} (hf : s.fetch_of i = some f)
    (hbuf : f.buffer = some b) {t : Int} {b' : Nat} (hb' : s.completed.lookup t = some b') :
    b' ≠ b := by
  rintro rfl
  have hperm := h.ownership.nodup
  rw [owners, List.nodup_append] at hperm
  have hheld : b' ∈ held (buffers s.fetch_of) :=
    Holders.mem_held.mpr ⟨i, by rw [buffers, hf]; exact hbuf⟩
  have hvalue : b' ∈ s.completed.values :=
    List.mem_map.mpr ⟨_, OrdMap.lookup_eq_some.mp hb', rfl⟩
  exact hperm.2.2 b' hheld b' (List.mem_append_left _ hvalue) rfl

theorem eq_of_buffer (h : s.Inv) {j : Fin n} {f f' : Fetch} {b : Nat} (hf : s.fetch_of i = some f)
    (hf' : s.fetch_of j = some f') (hbuf : f.buffer = some b) (hbuf' : f'.buffer = some b) :
    i = j := by
  have hnodup := (List.nodup_append.mp h.ownership.nodup).1
  refine Holders.eq_of_held (a := b) hnodup ?_ ?_
  · rw [buffers, hf]
    exact hbuf
  · rw [buffers, hf']
    exact hbuf'

/-- The driver fills the buffer. -/
theorem read_returned (h : s.Inv) {task : FetchTask} {b : Nat}
    (hf : s.fetch_of i = some (.reading task b)) (used_bytes : Nat) :
    (s.read_returned i task b used_bytes).Inv := by
  have hmem : b ∈ s.owners := List.mem_append_left _
    (Holders.mem_held.mpr ⟨i, by rw [buffers, hf]; rfl⟩)
  have hpool := h.set_pool (h.ownership.owned.set_used_bytes hmem used_bytes)
  -- whatever the fetch does next, its buffer holds what it has read
  have key : ∀ f' : Fetch, f'.task = task → f'.buffer = some b →
      Inv (({ s with
        pool := s.pool.set_used_bytes b used_bytes
        contents := Function.update s.contents b
          (some (task.timestep, selection task.sel)) } : PrefetchQueue n).set_fetch i (some f')) := by
    intro f' htask hbuf
    have hfetch : (({ s with
        pool := s.pool.set_used_bytes b used_bytes
        contents := Function.update s.contents b
          (some (task.timestep, selection task.sel)) } : PrefetchQueue n).set_fetch i
            (some f')).fetch_of = Function.update s.fetch_of i (some f') := fetch_of_set_fetch ..
    constructor
    case tables =>
      refine h.tables.frame (.of_eq ?_) rfl rfl rfl rfl
      rw [tokens, tokens, hfetch, held_times_same hf _ htask]
      rfl
    case ownership =>
      refine hpool.ownership.perm rfl (.of_eq ?_) rfl
      rw [owners, owners, hfetch, held_buffers_same (by rw [hf]; exact hbuf)]
      rfl
    case provenance =>
      constructor
      case stored =>
        intro t b' hb'
        change Function.update s.contents b _ b' = _
        rw [Function.update_of_ne (h.not_stored hf rfl hb')]
        exact h.provenance.stored t b' hb'
      case filled =>
        intro j task' b' hj
        rw [hfetch] at hj
        change Function.update s.contents b _ b' = _
        by_cases hji : j = i
        · subst hji
          rw [Function.update_self, Option.some.injEq] at hj
          subst hj
          cases hbuf
          rw [Function.update_self, ← htask]
          rfl
        · rw [Function.update_of_ne hji] at hj
          have hne : b' ≠ b := fun heq => hji (h.eq_of_buffer hj hf rfl (by rw [heq]; rfl))
          rw [Function.update_of_ne hne]
          exact h.provenance.filled j task' b' hj
  unfold PrefetchQueue.read_returned
  simp only
  split
  · exact key (.discarding task b) rfl rfl
  · exact key (.filled task b) rfl rfl

theorem discard (h : s.Inv) {task : FetchTask} {b : Nat} (error : AmioStatus)
    (hf : s.fetch_of i = some (.discarding task b)) :
    ((s.release b).set_fetch i (some (.failing task error))).Inv := by
  have hfetch : ((s.release b).set_fetch i (some (.failing task error))).fetch_of =
      Function.update s.fetch_of i (some (.failing task error)) := fetch_of_set_fetch ..
  constructor
  case tables =>
    refine h.tables.frame (.of_eq ?_) rfl rfl rfl rfl
    rw [tokens, tokens, hfetch, held_times_same hf (.failing task error) rfl]
    rfl
  case ownership =>
    refine h.ownership.release (b := b) rfl ?_ rfl
    rw [owners, owners, hfetch]
    exact (held_buffers_drop (by rw [hf]; rfl) _ rfl).append_right _
  case provenance =>
    refine h.provenance.mono rfl (fun t b hb => ⟨hb, rfl⟩) ?_
    rw [hfetch]
    exact filled_update (by simp)

theorem mark_failed (h : s.Inv) {task : FetchTask} {error : AmioStatus}
    (hf : s.fetch_of i = some (.failing task error)) : (s.mark_failed i task error).Inv := by
  have hfetch : (s.mark_failed i task error).fetch_of = Function.update s.fetch_of i none :=
    fetch_of_set_fetch ..
  have htok : s.tokens ~ task.timestep :: (s.mark_failed i task error).tokens := by
    rw [tokens, tokens, hfetch]
    exact ((held_times_end hf).append_left _).trans List.perm_middle
  have hfresh := h.tables.token_fresh _ (htok.mem_iff.mpr List.mem_cons_self)
  constructor
  case tables =>
    refine h.tables.report htok rfl (fun t _ => rfl) (fun t ht => ?_) (.inl hfresh.1) rfl
    change (s.failed.insert task.timestep error).lookup t = _
    rw [OrdMap.lookup_insert, if_neg ht]
  case ownership =>
    refine h.ownership.perm rfl (.of_eq ?_) rfl
    rw [owners, owners, hfetch, held_buffers_same (by rw [hf]; rfl)]
    rfl
  case provenance =>
    refine h.provenance.mono rfl (fun t b hb => ⟨hb, rfl⟩) ?_
    rw [hfetch]
    exact filled_update (by simp)

theorem mark_complete (h : s.Inv) {task : FetchTask} {b : Nat}
    (hf : s.fetch_of i = some (.filled task b)) : (s.mark_complete i task b).Inv := by
  have hfetch : (s.mark_complete i task b).fetch_of = Function.update s.fetch_of i none :=
    fetch_of_set_fetch ..
  have htok : s.tokens ~ task.timestep :: (s.mark_complete i task b).tokens := by
    rw [tokens, tokens, hfetch]
    exact ((held_times_end hf).append_left _).trans List.perm_middle
  have hfresh := h.tables.token_fresh _ (htok.mem_iff.mpr List.mem_cons_self)
  have hcompleted : ∀ t, (s.mark_complete i task b).completed.lookup t =
      if t = task.timestep then some b else s.completed.lookup t := fun t => OrdMap.lookup_insert
  have hrecord : ∀ t, (s.mark_complete i task b).fetched_bbox.lookup t =
      if t = task.timestep then task.sel else s.fetched_bbox.lookup t := fun t => by
    unfold PrefetchQueue.mark_complete
    cases task.sel with
    | none => exact OrdMap.lookup_erase
    | some bbox => exact OrdMap.lookup_insert
  constructor
  case tables =>
    refine h.tables.report htok rfl (fun t ht => ?_) (fun t _ => rfl) (.inr hfresh.2) rfl
    rw [hcompleted, if_neg ht]
  case ownership =>
    refine h.ownership.perm rfl ?_ rfl
    rw [owners, owners, hfetch]
    have hvalues : (s.mark_complete i task b).completed.values ~ b :: s.completed.values :=
      OrdMap.values_insert hfresh.1
    refine ((held_buffers_drop (by rw [hf]; rfl) none rfl).append_right _).trans ?_
    refine List.Perm.trans ?_ ((hvalues.append_right _).symm.append_left _)
    exact List.perm_middle.symm
  case provenance =>
    constructor
    case stored =>
      intro t b' hb'
      rw [hrecord]
      rw [hcompleted] at hb'
      change s.contents b' = _
      split at hb'
      · next ht =>
        cases hb'
        rw [if_pos ht, ht]
        exact h.provenance.filled i task b hf
      · next ht =>
        rw [if_neg ht]
        exact h.provenance.stored t b' hb'
    case filled =>
      intro j task' b' hj
      rw [hfetch] at hj
      exact h.provenance.filled j task' b' (filled_update (by simp) j task' b' hj)

theorem run (h : s.Inv) {task : FetchTask} {k : Nat} (hidle : s.fetch_of i = none)
    (hk : s.tasks[k]? = some task) :
    Inv { s.set_fetch i (some (.entering task)) with tasks := s.tasks.eraseIdx k } := by
  have hfetch : ({ s.set_fetch i (some (.entering task)) with
      tasks := s.tasks.eraseIdx k } : PrefetchQueue n).fetch_of =
        Function.update s.fetch_of i (some (.entering task)) := fetch_of_set_fetch ..
  constructor
  case tables =>
    refine h.tables.frame ?_ rfl rfl rfl rfl
    rw [tokens, tokens, hfetch]
    have htasks : s.tasks ~ task :: s.tasks.eraseIdx k := by
      obtain ⟨hlt, rfl⟩ := List.getElem?_eq_some_iff.mp hk
      exact (List.getElem_cons_eraseIdx_perm hlt).symm
    refine ((held_times_begin hidle _).append_left _).trans ?_
    refine List.perm_middle.trans ?_
    exact (htasks.map (·.timestep)).symm.append_right _
  case ownership =>
    refine h.ownership.perm rfl (.of_eq ?_) rfl
    rw [owners, owners, hfetch, held_buffers_same (by rw [hidle]; rfl)]
    rfl
  case provenance =>
    refine h.provenance.mono rfl (fun t b hb => ⟨hb, rfl⟩) ?_
    rw [hfetch]
    exact filled_update (by simp)

theorem acquire_timeout (h : s.Inv) {task : FetchTask} {pool : StagingPool} {required : Nat}
    (error : AmioStatus) (hf : s.fetch_of i = some (.acquiring task))
    (hacq : s.pool.acquire required = (pool, none)) :
    Inv { s.set_fetch i (some (.failing task error)) with pool } := by
  obtain rfl := h.ownership.owned.acquire_none hacq
  have hset : (s.set_fetch i (some (.failing task error))).Inv := h.set_fetch hf rfl rfl (by simp)
  exact hset

theorem acquire_throw (h : s.Inv) {task : FetchTask} (hf : s.fetch_of i = some (.acquiring task))
    (required : Nat) (caller : Caller) :
    Inv { (s.set_fetch i none).set_caller i caller with
      pool := s.pool.acquire_failed required } := by
  have hend : Inv (s.set_fetch i none) := h.end_fetch hf rfl (fun t ht => ht) fun _ => rfl
  have hcaller := hend.set_caller i caller
  exact hcaller.set_pool (hcaller.ownership.owned.acquire_failed required)

/-- A step of a fetch. Nothing is returned to a reader. -/
theorem fetch_step (h : s.Inv) {f : Fetch} (hf : s.fetch_of i = some f)
    (hstep : s.fetch_step i f l = some s') : s'.Inv ∧ s'.deliveries = s.deliveries := by
  unfold PrefetchQueue.fetch_step at hstep
  split at hstep
  -- enter
  · split at hstep
    · split at hstep
      · next hn =>
        cases hstep
        refine ⟨h.end_fetch hf rfl (fun t ht => (OrdSet.mem_erase.mp ht).1) fun hc => ?_, rfl⟩
        simp [hn] at hc
      · cases hstep
        exact ⟨h.set_fetch hf rfl rfl (by simp), rfl⟩
    · cases hstep
  -- acquire
  · split at hstep
    · split at hstep
      · next hacq =>
        cases hstep
        exact ⟨h.acquire hf hacq, rfl⟩
      · cases hstep
    · cases hstep
  -- acquire_timeout
  · split at hstep
    · split at hstep
      · next hacq =>
        cases hstep
        exact ⟨h.acquire_timeout _ hf hacq, rfl⟩
      · cases hstep
    · cases hstep
  -- acquire_throw
  · split at hstep
    · cases hstep
      exact ⟨h.acquire_throw hf _ _, rfl⟩
    · cases hstep
  -- read
  · split at hstep
    · cases hstep
      refine ⟨h.read_returned hf _, ?_⟩
      unfold PrefetchQueue.read_returned
      simp only
      split <;> rfl
    · cases hstep
      exact ⟨h.set_fetch hf rfl rfl (by simp), rfl⟩
    · cases hstep
  -- discard
  · split at hstep
    · cases hstep
      exact ⟨h.discard _ hf, rfl⟩
    · cases hstep
  -- finish
  · split at hstep
    · cases hstep
      exact ⟨h.mark_complete hf, rfl⟩
    · cases hstep
      exact ⟨h.mark_failed hf, rfl⟩
    · cases hstep
  · cases hstep

theorem caller_step (h : s.Inv) (hidle : s.fetch_of i = none) {caller : Caller}
    (hstep : s.caller_step i caller l = some s') : s'.Inv := by
  unfold PrefetchQueue.caller_step at hstep
  split at hstep
  -- call
  · split at hstep
    · split at hstep <;> cases hstep
      · exact (h.set_flags s.latched_bbox true).set_caller i _
      · exact h.get_buffer i _ _
      · exact h.schedule_next i _
      · exact h.cancel_pending i
    · cases hstep
  -- schedule
  · split at hstep
    · cases hstep
      exact (h.set_caller i _).schedule_fetch (by rwa [fetch_of_set_caller]) _ _
    · cases hstep
  -- resume
  · split at hstep <;> cases hstep
    · exact h.set_caller i _
    · exact h.get_check i _ _
    · exact h.get_loop i _ _
    · exact h.get_rest i _ _
  -- wake
  · split at hstep
    · split at hstep <;> cases hstep
      · exact h.get_timeout i _ _
      · exact h.get_loop i _ _
    · cases hstep
  -- run
  · split at hstep
    · next hk =>
      cases hstep
      exact h.run hidle hk
    · cases hstep
  · cases hstep

theorem reader_release (h : s.Inv) {b : Nat} (hb : b ∈ s.handed) :
    Inv { s.release b with handed := s.handed.erase b } where
  tables := { h.tables with }
  ownership := by
    refine h.ownership.release (b := b) rfl ?_ rfl
    change held (buffers s.fetch_of) ++ (s.completed.values ++ (s.handed ++ s.others)) ~
      b :: (held (buffers s.fetch_of) ++ (s.completed.values ++ (s.handed.erase b ++ s.others)))
    refine (((List.perm_cons_erase hb).append_right _).append_left _ |>.append_left _).trans ?_
    exact (List.perm_middle.append_left _).trans List.perm_middle
  provenance := { h.provenance with }

theorem other_release (h : s.Inv) {b : Nat} (hb : b ∈ s.others) :
    Inv { s.release b with others := s.others.erase b } where
  tables := { h.tables with }
  ownership := by
    refine h.ownership.release (b := b) rfl ?_ rfl
    change held (buffers s.fetch_of) ++ (s.completed.values ++ (s.handed ++ s.others)) ~
      b :: (held (buffers s.fetch_of) ++ (s.completed.values ++ (s.handed ++ s.others.erase b)))
    refine (((List.perm_cons_erase hb).append_left _).append_left _ |>.append_left _).trans ?_
    refine ((List.perm_middle.append_left _).append_left _).trans ?_
    exact (List.perm_middle.append_left _).trans List.perm_middle
  provenance := { h.provenance with }

theorem other_acquire (h : s.Inv) {pool : StagingPool} {b required : Nat}
    (hacq : s.pool.acquire required = (pool, some b)) :
    Inv { s with
      pool, others := b :: s.others, contents := Function.update s.contents b none } := by
  have hnew := (h.ownership.owned.acquire hacq).2
  constructor
  case tables => exact { h.tables with }
  case ownership =>
    refine h.ownership.acquire hacq ?_ rfl
    change held (buffers s.fetch_of) ++ (s.completed.values ++ (s.handed ++ b :: s.others)) ~ _
    refine ((List.perm_middle.append_left _).append_left _).trans ?_
    exact (List.perm_middle.append_left _).trans List.perm_middle
  case provenance =>
    -- the new buffer was nobody's
    constructor
    case stored =>
      intro t b' hb'
      have hne : b' ≠ b := fun heq => hnew (List.mem_append_right _ (List.mem_append_left _
        (List.mem_map.mpr ⟨_, OrdMap.lookup_eq_some.mp hb', heq⟩)))
      change Function.update s.contents b none b' = _
      rw [Function.update_of_ne hne]
      exact h.provenance.stored t b' hb'
    case filled =>
      intro j task b' hj
      have hne : b' ≠ b := fun heq => hnew (List.mem_append_left _
        (Holders.mem_held.mpr ⟨j, by rw [buffers, show s.fetch_of j = _ from hj, ← heq]; rfl⟩))
      change Function.update s.contents b none b' = _
      rw [Function.update_of_ne hne]
      exact h.provenance.filled j task b' hj

theorem user_step (h : s.Inv) (hl : thread_of l = none) (hstep : s.next l = some s') :
    s'.Inv ∧ s'.deliveries = s.deliveries := by
  unfold next at hstep
  rw [hl] at hstep
  simp only at hstep
  split at hstep
  -- release
  · split at hstep
    · next hb =>
      cases hstep
      exact ⟨h.reader_release hb, rfl⟩
    · cases hstep
  -- other_acquire
  · split at hstep
    · next hacq =>
      cases hstep
      exact ⟨h.other_acquire hacq, rfl⟩
    · cases hstep
  -- other_release
  · split at hstep
    · next hb =>
      cases hstep
      exact ⟨h.other_release hb, rfl⟩
    · cases hstep
  · cases hstep

end Inv

/-- **Whose step it is.** -/
theorem next_cases (hstep : s.next l = some s') :
    (∃ i f, s.fetch_of i = some f ∧ s.fetch_step i f l = some s') ∨
    (∃ i, thread_of l = some i ∧ s.fetch_of i = none ∧
      s.caller_step i (s.threads i).caller l = some s') ∨
    thread_of l = none := by
  unfold next at hstep
  split at hstep
  · next i hi =>
    split at hstep
    · next f hf => exact .inl ⟨i, f, hf, hstep⟩
    · next hf => exact .inr (.inl ⟨i, hi, hf, hstep⟩)
  · next hi => exact .inr (.inr hi)

/-- **Step lemma.** -/
theorem Inv.step (h : s.Inv) (hstep : s.next l = some s') : s'.Inv := by
  rcases next_cases hstep with ⟨i, f, hf, hfetch⟩ | ⟨i, -, hf, hcaller⟩ | huser
  · exact (h.fetch_step hf hfetch).1
  · exact h.caller_step hf hcaller
  · exact (h.user_step huser hstep).1

theorem inv_make (depth : Nat) (total_timesteps : Int) (info : VariableInfo) (has_workers : Bool)
    {cfg : StagingConfig} {pool : StagingPool} (hpool : PoolInit cfg pool) :
    (make depth total_timesteps info has_workers pool : PrefetchQueue n).Inv := by
  have hfetch : (make depth total_timesteps info has_workers pool : PrefetchQueue n).fetch_of =
      fun _ => none := rfl
  have htok : (make depth total_timesteps info has_workers pool : PrefetchQueue n).tokens = [] := by
    rw [tokens, hfetch]
    simp [make, held, times]
  have howners :
      (make depth total_timesteps info has_workers pool : PrefetchQueue n).owners = [] := by
    rw [owners, hfetch]
    simp [make, held, buffers, OrdMap.values, OrdMap.empty]
  constructor
  case tables =>
    constructor
    case tokens_nodup => rw [htok]; exact List.nodup_nil
    case token_fresh => exact fun _ _ => ⟨rfl, rfl⟩
    case token_pending => rw [htok]; exact fun _ t ht => absurd ht List.not_mem_nil
    case pending_fresh => exact fun _ _ => ⟨rfl, rfl⟩
    case completed_fresh => exact fun _ _ _ => rfl
    case cancelled_empty => exact fun _ t => OrdSet.not_mem_empty t
  case ownership =>
    rw [show pool = (make depth total_timesteps info has_workers pool : PrefetchQueue n).pool from rfl]
      at hpool
    exact ⟨howners ▸ .init hpool, howners ▸ List.nodup_nil, rfl⟩
  case provenance =>
    constructor
    case stored => exact fun t b hb => by cases hb
    case filled => exact fun i task b hi => by cases hi

/-- **Run lemma.** -/
theorem inv_of_reachable (hr : (system n).Reachable s) : s.Inv := by
  refine hr.invariant (P := Inv) (fun t ht => ?_) fun t l t' _ h hstep => h.step hstep
  obtain ⟨depth, total_timesteps, info, has_workers, cfg, pool, hpool, rfl⟩ := ht
  exact inv_make depth total_timesteps info has_workers hpool

/-! ## Section 5: One place for every buffer -/

/-- Where a staging buffer can be. -/
inductive Place (n : Nat)
  /-- In the hands of the fetch of a thread. -/
  | fetch (i : Fin n)
  /-- In the completed table. -/
  | stored (timestep : Int)
  /-- Handed to a reader. -/
  | reader
  /-- With another user of the staging pool. -/
  | other
  /-- On the free list of the staging pool. -/
  | free

/-- Buffer `b` is there. -/
def At (s : PrefetchQueue n) (b : Nat) : Place n → Prop
  | .fetch i => (s.fetch_of i).bind Fetch.buffer = some b
  | .stored timestep => s.completed.lookup timestep = some b
  | .reader => b ∈ s.handed
  | .other => b ∈ s.others
  | .free => b ∈ s.pool.free_list

namespace Inv

theorem mem_owners {b : Nat} {p : Place n} (hp : p ≠ .free) (h : s.At b p) : b ∈ s.owners := by
  simp only [owners, List.mem_append]
  cases p with
  | fetch i => exact .inl (Holders.mem_held.mpr ⟨i, h⟩)
  | stored t => exact .inr (.inl (List.mem_map.mpr ⟨_, OrdMap.lookup_eq_some.mp h, rfl⟩))
  | reader => exact .inr (.inr (.inl h))
  | other => exact .inr (.inr (.inr h))
  | free => exact absurd rfl hp

theorem not_free (h : s.Inv) {b : Nat} (hb : b ∈ s.owners) : b ∉ s.pool.free_list := fun hfree => by
  have hzero := ((h.ownership.owned.inv.free_iff b).mp hfree).2
  have := h.ownership.owned.pos hb
  omega

theorem exists_place (h : s.Inv) {b : Nat} (hb : b < s.pool.buffers.length) : ∃ p, s.At b p := by
  by_cases hown : b ∈ s.owners
  · simp only [owners, List.mem_append] at hown
    rcases hown with hheld | hstored | hreader | hother
    · obtain ⟨i, hi⟩ := Holders.mem_held.mp hheld
      exact ⟨.fetch i, hi⟩
    · obtain ⟨⟨t, b'⟩, he, rfl⟩ := List.mem_map.mp hstored
      exact ⟨.stored t, OrdMap.lookup_eq_some.mpr he⟩
    · exact ⟨.reader, hreader⟩
    · exact ⟨.other, hother⟩
  · refine ⟨.free, (h.ownership.owned.inv.free_iff b).mpr ⟨hb, ?_⟩⟩
    rw [h.ownership.owned.refs, List.count_eq_zero.mpr hown]

theorem place_unique (h : s.Inv) {b : Nat} {p q : Place n} (hp : s.At b p) (hq : s.At b q) :
    p = q := by
  -- the free list against the owners
  by_cases hpf : p = .free
  · by_cases hqf : q = .free
    · rw [hpf, hqf]
    · subst hpf
      exact absurd hp (h.not_free (mem_owners hqf hq))
  by_cases hqf : q = .free
  · subst hqf
    exact absurd hq (h.not_free (mem_owners hpf hp))
  -- the owners among themselves
  have hnd := h.ownership.nodup
  simp only [owners, List.nodup_append, List.mem_append] at hnd
  obtain ⟨hheld, ⟨hvalues, ⟨-, -, hro⟩, hsro⟩, hfetch⟩ := hnd
  have hheld_of : ∀ {i : Fin n}, s.At b (.fetch i) → b ∈ held (buffers s.fetch_of) :=
    fun {i} hi => Holders.mem_held.mpr ⟨i, hi⟩
  have hvalue_of : ∀ {t : Int}, s.At b (.stored t) → b ∈ s.completed.values :=
    fun ht => List.mem_map.mpr ⟨_, OrdMap.lookup_eq_some.mp ht, rfl⟩
  cases p with
  | free => exact absurd rfl hpf
  | fetch i =>
    cases q with
    | free => exact absurd rfl hqf
    | fetch j =>
      have hij : i = j := Holders.eq_of_held (f := buffers s.fetch_of) hheld hp hq
      exact congrArg _ hij
    | stored t => exact absurd rfl (hfetch b (hheld_of hp) b (.inl (hvalue_of hq)))
    | reader => exact absurd rfl (hfetch b (hheld_of hp) b (.inr (.inl hq)))
    | other => exact absurd rfl (hfetch b (hheld_of hp) b (.inr (.inr hq)))
  | stored t =>
    cases q with
    | free => exact absurd rfl hqf
    | fetch j => exact absurd rfl (hfetch b (hheld_of hq) b (.inl (hvalue_of hp)))
    | stored t' =>
      have := List.inj_on_of_nodup_map hvalues (OrdMap.lookup_eq_some.mp hp)
        (OrdMap.lookup_eq_some.mp hq) rfl
      exact congrArg (fun e : Int × Nat => Place.stored e.1) this
    | reader => exact absurd rfl (hsro b (hvalue_of hp) b (.inl hq))
    | other => exact absurd rfl (hsro b (hvalue_of hp) b (.inr hq))
  | reader =>
    cases q with
    | free => exact absurd rfl hqf
    | fetch j => exact absurd rfl (hfetch b (hheld_of hq) b (.inr (.inl hp)))
    | stored t => exact absurd rfl (hsro b (hvalue_of hq) b (.inl hp))
    | reader => rfl
    | other => exact absurd rfl (hro b hp b hq)
  | other =>
    cases q with
    | free => exact absurd rfl hqf
    | fetch j => exact absurd rfl (hfetch b (hheld_of hq) b (.inr (.inr hp)))
    | stored t => exact absurd rfl (hsro b (hvalue_of hq) b (.inr hp))
    | reader => exact absurd rfl (hro b hq b hp)
    | other => rfl

theorem eq_of_timestep (h : s.Inv) {j : Fin n} {f g : Fetch} (hf : s.fetch_of i = some f)
    (hg : s.fetch_of j = some g) (ht : f.timestep = g.timestep) : i = j := by
  have hnodup := (List.nodup_append.mp h.tables.tokens_nodup).2.1
  refine Holders.eq_of_held (a := f.timestep) hnodup ?_ ?_
  · rw [times, hf]
    rfl
  · rw [times, hg, ht]
    rfl

end Inv

/-- One reader, one worker; a variable of four 32-bit values per timestep; two
    timesteps ahead. -/
def smallQueue : PrefetchQueue 2 :=
  make 2 8 ⟨.F32, 1, fun _ => 4⟩ true ⟨List.replicate 2 {}, [0, 1], 3, 16, .Grow, 0⟩

theorem smallQueue_init : (system 2).init smallQueue :=
  ⟨2, 8, _, true, smallStaging, _, ⟨rfl, List.Perm.refl _, rfl, rfl, rfl⟩, rfl⟩

end PrefetchQueue

end Amio
