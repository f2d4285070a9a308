import Mathlib

/-! # Histories

  A history is the list of the events of a run, oldest first. A component
  that keeps one can be specified without its state: every event is
  justified by the events before it.

  Main definitions:
  - `Sound`: every event of the history is justified
  - `last`: the value that the events of a history set last
-/

namespace History

variable {ε α : Type*}

/-- Every event of `log` is justified by those before it. -/
def Sound (justified : List ε → ε → Prop) (log : List ε) : Prop :=
  ∀ pre ev post, log = pre ++ ev :: post → justified pre ev

section Sound

variable {justified justified' : List ε → ε → Prop} {log : List ε} {ev : ε}

theorem Sound.nil : Sound justified [] := by
  intro pre ev post h
  have hlen := congrArg List.length h
  simp at hlen

theorem Sound.snoc (hlog : Sound justified log) (hev : justified log ev) :
    Sound justified (log ++ [ev]) := by
  intro pre ev' post h
  rcases List.eq_nil_or_concat post with rfl | ⟨post, last, rfl⟩
  · obtain ⟨rfl, hev'⟩ := List.append_inj' h rfl
    obtain rfl := List.singleton_inj.mp hev'
    exact hev
  · have h' : log ++ [ev] = (pre ++ ev' :: post) ++ [last] := by simpa using h
    obtain ⟨hlast, -⟩ := List.append_inj' h' rfl
    exact hlog pre ev' post hlast

theorem Sound.of_snoc (hlog : Sound justified (log ++ [ev])) :
    Sound justified log ∧ justified log ev := by
  constructor
  · intro pre ev' post h
    exact hlog pre ev' (post ++ [ev]) (by simp [h])
  · exact hlog log ev [] rfl

theorem Sound.mono (hlog : Sound justified log)
    (h : ∀ pre ev, justified pre ev → justified' pre ev) : Sound justified' log :=
  fun pre ev post hsplit => h pre ev (hlog pre ev post hsplit)

end Sound

section Last

variable (change : ε → Option α) (start : α)

/-- The value after the history, where `change ev = some a` says that the
    event sets it to `a`. -/
def last (log : List ε) : α := log.foldl (fun a ev => (change ev).getD a) start

@[simp] theorem last_nil : last change start [] = start := rfl

@[simp] theorem last_snoc (log : List ε) (ev : ε) :
    last change start (log ++ [ev]) = (change ev).getD (last change start log) := by
  simp [last, List.foldl_append]

variable {change} {start}

theorem exists_change {pre mid : List ε}
    (h : last change start (pre ++ mid) ≠ last change start pre) :
    ∃ ev ∈ mid, change ev = some (last change start (pre ++ mid)) := by
  induction mid using List.reverseRecOn with
  | nil => simp at h
  | append_singleton mid ev ih =>
    rw [← List.append_assoc, last_snoc] at h ⊢
    cases hev : change ev with
    | some a => exact ⟨ev, by simp, by simp [hev]⟩
    | none =>
      rw [hev] at h
      obtain ⟨ev', hmem, hchange⟩ := ih h
      exact ⟨ev', List.mem_append_left _ hmem, hchange⟩

end Last

end History
