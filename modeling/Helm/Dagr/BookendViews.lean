import Helm.Amio.CoreTeardown
import Helm.Dagr.TemporalBookend

/-! # Views of bookends

  A bookend task returns neither the views that it fetches nor their handles.
  Whatever the host, the workers and other tasks do afterwards, a view of the
  task stays out, and a close of its dataset is refused: `bookend_blocks_close`.
-/

namespace Dagr

open LTS Amio Amio.Boundary Tick

section Views

variable {memory : StagingMemory} {w w' : World} {handle : Token}

/-- View `v` of dataset `d` is out, under its handle. -/
def ViewOut (handle : Token) (d v : Nat) (w : World) : Prop :=
  ∃ r : ViewRecord, w.views[v]? = some r ∧ r.dataset = d ∧ r.token = handle ∧
    r.destroyed = false

/-- Only a release with its handle takes a view back. -/
theorem ViewOut.step {d v : Nat} (h : ViewOut handle d v w) (hr : boundary.Reachable w) {e : Event}
    (hstep : w.next e = some w') (he : e ≠ .call (.view handle true .release)) :
    ViewOut handle d v w' := by
  have hh := handles_inv_reachable hr
  obtain ⟨r, hget, hd, htoken, hlive⟩ := h
  suffices hkept : w'.views[v]? = some r from ⟨r, hkept, hd, htoken, hlive⟩
  obtain heq | ⟨q, res, rfl, hcall⟩ := next_cases hstep
  · rw [heq]
    exact hget
  generalize w'.toHandles = h', call_change hh.table hcall = hc
  -- calls that make a record append it; those that delete one keep its place
  cases hc with
  | same => exact hget
  | new_core hq => exact hget
  | new_dataset hq hcore => exact hget
  | new_io hq hrecord hcore => exact hget
  | new_view hq hrecord hcore => exact getElem?_concat_of_some hget
  | close hopen hrecord hviews => exact hget
  | @release_view t v' view core hopen hview hcore =>
    -- the handle of the view is the token of its record
    have hne : v' ≠ v := by
      rintro rfl
      apply he
      rw [← htoken, hh.view_token hopen hget]
    exact (List.getElem?_set_ne hne).trans hget
  | @finalize t drained flush_throws c core hopen hcore =>
    obtain ⟨table, datasets, heq, -⟩ := hh.finalize_spec hcore flush_throws
    rw [heq]
    exact hget

theorem ViewOut.run {d v : Nat} {ls : List Event} (hsteps : boundary.Steps w ls w')
    (hr : boundary.Reachable w) (h : ViewOut handle d v w)
    (hls : ∀ e ∈ ls, e ≠ .call (.view handle true .release)) : ViewOut handle d v w' := by
  induction hsteps with
  | nil w => exact h
  | cons hstep _ ih =>
    apply ih (.step hr hstep) (h.step hr hstep (hls _ List.mem_cons_self))
    exact fun e he => hls e (List.mem_cons_of_mem _ he)

/-- A fetch is a run of calls, none of which is a release. -/
theorem fetch_steps {dataset : Token} {var_name : String} {timestep : Int} {answers : ReadAnswers}
    {res : Except String FetchedView}
    (h : amio_fetch_field memory w dataset var_name timestep answers = some (res, w')) :
    ∃ ls, boundary.Steps w ls w' ∧ ∀ handle, ∀ e ∈ ls, e ≠ .call (.view handle true .release) := by
  -- each call of the fetch is a step of the boundary
  have hcall {w w' : World} {q : Call} {res : Except AmioStatus Output}
      (h : w.call q = some (res, w')) : boundary.step w (.call q) w' := by
    show Option.map Prod.snd (w.call q) = some w'
    rw [h]
    rfl
  unfold amio_fetch_field at h
  split at h
  next hread =>
    cases h
    exact ⟨_, .cons (hcall hread) (.nil _), by simp⟩
  next hread =>
    split at h
    next hdata =>
      cases h
      exact ⟨_, .cons (hcall hread) (.cons (hcall hdata) (.nil _)), by simp⟩
    next hdata =>
      cases h
      exact ⟨_, .cons (hcall hread) (.cons (hcall hdata) (.nil _)), by simp⟩
    · cases h
  · cases h

/-- **Bookends block the close of their dataset.** A task that succeeds leaves a
    view out whose handle it does not return. In every run from there on in
    which nobody releases this handle, as long as a handle of the dataset is
    accepted, a close is refused with `AMIO_ERR_VIEWS_OUTSTANDING` and changes
    nothing. -/
theorem bookend_blocks_close {dispatch_blend : Blend.Dispatch} {stream : StreamDescriptor}
    {aliased : AliasedWindow} {dataset : Token} {var_name : String}
    {t_left_step t_right_step : Int} {left right : ReadAnswers} {output out : Nat → ℚ} {count : Nat}
    (hr : boundary.Reachable w)
    (hdispatch : dispatch_temporal_bookend dispatch_blend memory stream aliased w dataset
      var_name t_left_step t_right_step left right output count = some (.ok out, w')) :
    ∃ d handle, w.table.table.lookup dataset .Dataset = .ok (some (.dataset d)) ∧
      ∀ ls w₂, boundary.Steps w' ls w₂ →
        (∀ e ∈ ls, e ≠ .call (.view handle true .release)) → ∀ t flush_throws close_throws,
        w₂.table.table.lookup t .Dataset = .ok (some (.dataset d)) →
        w₂.call (.dataset t true (.close flush_throws close_throws)) =
          some (.error .ERR_VIEWS_OUTSTANDING, w₂) := by
  unfold dispatch_temporal_bookend at hdispatch
  -- a task that succeeds has gone through both fetches
  split at hdispatch
  · cases hdispatch
  · cases hdispatch
  next left_view w₁ hfetch =>
  split at hdispatch
  · cases hdispatch
  · cases hdispatch
  next right_view w₂ hfetch' =>
  simp only [Option.some.injEq, Prod.mk.injEq] at hdispatch
  obtain ⟨-, rfl⟩ := hdispatch
  obtain ⟨d, record, buf, hlookup, -, -, -, hhandle, hw₁⟩ :=
    amio_fetch_field_ok (handles_inv_reachable hr) hfetch
  -- the view of the left bookend, from the first fetch on
  have hout : ViewOut left_view.handle d w.views.length w₁ := by
    refine ⟨⟨d, record.core, left_view.handle, false⟩, ?_, rfl, rfl, rfl⟩
    rw [hw₁, hhandle]
    exact List.getElem?_concat_length
  obtain ⟨ls₁, hsteps₁, -⟩ := fetch_steps hfetch
  obtain ⟨ls', hsteps', hls'⟩ := fetch_steps hfetch'
  have hr₁ := hsteps₁.reachable hr
  refine ⟨d, left_view.handle, hlookup, ?_⟩
  intro ls w₂ hsteps hls t flush_throws close_throws hopen
  have hr₂ := hsteps.reachable (hsteps'.reachable hr₁)
  obtain ⟨r, hget, hd, -, hlive⟩ : ViewOut left_view.handle d w.views.length w₂ := by
    apply ViewOut.run hsteps (hsteps'.reachable hr₁) _ hls
    exact ViewOut.run hsteps' hr₁ hout (hls' _)
  exact close_refused_with_views hr₂ hopen ⟨r, List.mem_of_getElem? hget, hd, hlive⟩ _ _

theorem bookend_blocks_close_noon : ∃ w' : World,
    w'.call (.dataset (HandleTable.pack 1 1) true (.close false false)) =
      some (.error .ERR_VIEWS_OUTSTANDING, w') := by
  have hrun : ∃ w, System.exec World.next .empty
      [.call (.init true (.ok false)),
       .call (.core (HandleTable.pack 0 1) true (.open_dataset AMIO_MODE_READ (.ok ())))] = some w ∧
      w.table.table.lookup (HandleTable.pack 1 1) .Dataset = .ok (some (.dataset 0)) ∧
      ∃ left right w', dispatch_temporal_bookend serial_blend constants (daily_stream .linear)
        ⟨(AliasingEngine.daily_engine .Gregorian .NoLeap .clamp_to_edge).coverage, 0⟩ w
        (HandleTable.pack 1 1) "t" 0 1 (constant 0) (constant 1) (fun _ => 0) 1 =
          some (serial_blend left right (fun _ => 0) 1 0 0, w') ∧
        w'.table.table.lookup (HandleTable.pack 1 1) .Dataset = .ok (some (.dataset 0)) :=
    ⟨_, rfl, rfl, _, _, _, rfl, rfl⟩
  obtain ⟨w, hexec, hopen, left, right, w', hdispatch, hopen'⟩ := hrun
  obtain ⟨out, hout⟩ : ∃ out, serial_blend left right (fun _ => 0) 1 0 0 = .ok out := ⟨_, rfl⟩
  rw [hout] at hdispatch
  obtain ⟨d, handle, hlookup, hrefused⟩ :=
    bookend_blocks_close (System.reachable_of_exec rfl hexec) hdispatch
  rw [hopen] at hlookup
  cases hlookup
  exact ⟨w', hrefused [] w' (.nil _) (by simp) _ false false hopen'⟩

end Views

end Dagr
