import Mathlib

/-! # Holders

  A fixed set of holders, each with at most one item in hand: threads with
  the task they are working on. `held` lists what is in hand altogether, up
  to order; taking and giving up an item change it by one element.

  The second part is about numbered sequences: the items of a list fall into
  classes by a key, and the items of each class carry the numbers
  `0, 1, 2, …` in order. Key and number then tell the items apart, and
  another list of such items that is numbered too has, class by class, the
  same items in the same order, up to some point.
-/

namespace Holders

open scoped List

variable {n : Nat} {α : Type*}

/-- The items in hand. -/
def held (f : Fin n → Option α) : List α := (List.finRange n).filterMap f

theorem mem_held {f : Fin n → Option α} {a : α} : a ∈ held f ↔ ∃ w, f w = some a := by
  simp [held]

theorem filterMap_erase_update (f : Fin n → Option α) (w : Fin n) (x : Option α) :
    ((List.finRange n).erase w).filterMap (Function.update f w x) =
      ((List.finRange n).erase w).filterMap f := by
  refine List.filterMap_congr fun v hv => ?_
  have hne : v ≠ w := ((List.nodup_finRange n).mem_erase_iff.mp hv).1
  rw [Function.update_of_ne hne]

theorem held_take {f : Fin n → Option α} {w : Fin n} (hw : f w = none) (a : α) :
    held (Function.update f w (some a)) ~ a :: held f := by
  have hperm : List.finRange n ~ w :: (List.finRange n).erase w :=
    List.perm_cons_erase (List.mem_finRange w)
  have hnew := hperm.filterMap (Function.update f w (some a))
  have hold := hperm.filterMap f
  rw [List.filterMap_cons, Function.update_self, filterMap_erase_update] at hnew
  rw [List.filterMap_cons, hw] at hold
  exact hnew.trans (List.Perm.cons a hold.symm)

theorem held_drop {f : Fin n → Option α} {w : Fin n} {a : α} (hw : f w = some a) :
    held f ~ a :: held (Function.update f w none) := by
  have h := held_take (f := Function.update f w none) (w := w) (Function.update_self ..) a
  rwa [Function.update_idem, ← hw, Function.update_eq_self] at h

theorem held_exchange {f : Fin n → Option α} {w : Fin n} {a : α} (hw : f w = some a) :
    ∃ others, held f ~ a :: others ∧ held (Function.update f w none) = others ∧
      ∀ b, held (Function.update f w (some b)) ~ b :: others := by
  refine ⟨_, held_drop hw, rfl, fun b => ?_⟩
  have h := held_take (f := Function.update f w none) (w := w) (Function.update_self ..) b
  rwa [Function.update_idem] at h

theorem eq_of_held_nodup {β : Type*} {f : Fin n → Option α} {key : α → β}
    (h : ((held f).map key).Nodup) {v w : Fin n} {a b : α} (hv : f v = some a) (hw : f w = some b)
    (hkey : key a = key b) : v = w := by
  by_contra hne
  have hperm := held_drop hv
  have hmem : b ∈ held (Function.update f v none) :=
    mem_held.mpr ⟨w, by rw [Function.update_of_ne (Ne.symm hne), hw]⟩
  have hnd := (hperm.map key).nodup_iff.mp h
  rw [List.map_cons, List.nodup_cons] at hnd
  exact hnd.1 (hkey ▸ List.mem_map.mpr ⟨b, hmem, rfl⟩)

theorem eq_of_held {f : Fin n → Option α} (h : (held f).Nodup) {v w : Fin n} {a : α}
    (hv : f v = some a) (hw : f w = some a) : v = w :=
  eq_of_held_nodup (h.map Function.injective_id) hv hw rfl

/-! ### Numbered sequences -/

theorem eq_take_of_numbered {number : α → Nat} {l l' : List α} {m k : Nat}
    (hl : l.map number = List.range m) (hl' : l'.map number = List.range k)
    (hsub : ∀ a ∈ l', a ∈ l) : l' = l.take k := by
  have hlen : l.length = m := by simpa using congrArg List.length hl
  have hlen' : l'.length = k := by simpa using congrArg List.length hl'
  have hnum : ∀ i (hi : i < l.length), number l[i] = i := fun i hi => by
    have := List.getElem_of_eq hl (i := i) (by simpa using hi)
    simpa using this
  have hnum' : ∀ i (hi : i < l'.length), number l'[i] = i := fun i hi => by
    have := List.getElem_of_eq hl' (i := i) (by simpa using hi)
    simpa using this
  -- the item with number `i` is the one at position `i`
  have hitem : ∀ i (hi : i < l'.length), ∃ h : i < l.length, l[i] = l'[i] := fun i hi => by
    obtain ⟨j, hj, hji⟩ := List.getElem_of_mem (hsub l'[i] (List.getElem_mem hi))
    have hij : j = i := by
      have := hnum j hj
      rw [hji, hnum' i hi] at this
      exact this.symm
    subst hij
    exact ⟨hj, hji⟩
  have hle : l'.length ≤ l.length := by
    by_contra hgt
    obtain ⟨h, -⟩ := hitem l.length (by omega)
    omega
  refine List.ext_getElem (by simp; omega) fun i h₁ h₂ => ?_
  obtain ⟨h, heq⟩ := hitem i h₁
  rw [List.getElem_take, heq]

section Numbered

variable {κ : Type*} [DecidableEq κ] {key : α → κ} {number : α → ℕ}

/-- For each key, the items of `l` with that key carry the numbers below `m`
    of the key, in order. -/
def Numbered (key : α → κ) (number : α → ℕ) (l : List α) (m : κ → ℕ) : Prop :=
  ∀ k, (l.filter (key · = k)).map number = List.range (m k)

namespace Numbered

variable {l l' : List α} {m m' : κ → ℕ}

theorem nil : Numbered key number [] fun _ => 0 := fun _ => rfl

theorem congr (h : Numbered key number l m) (hm : ∀ k, m k = m' k) : Numbered key number l m' :=
  fun k => hm k ▸ h k

theorem append (h : Numbered key number l m) {a : α} (ha : number a = m (key a)) :
    Numbered key number (l ++ [a]) (Function.update m (key a) (m (key a) + 1)) := by
  intro k
  rw [List.filter_append, List.map_append, h k]
  by_cases hk : key a = k
  · subst hk
    simp [ha, List.range_succ]
  · simp [hk, Function.update_of_ne (Ne.symm hk)]

theorem lt (h : Numbered key number l m) {a : α} (ha : a ∈ l) : number a < m (key a) := by
  have hmem : number a ∈ (l.filter (key · = key a)).map number :=
    List.mem_map.mpr ⟨a, by simpa using ha, rfl⟩
  rw [h (key a)] at hmem
  exact List.mem_range.mp hmem

theorem exists_of_lt (h : Numbered key number l m) {k : κ} {i : ℕ} (hi : i < m k) :
    ∃ a ∈ l, key a = k ∧ number a = i := by
  have hmem : i ∈ (l.filter (key · = k)).map number := by
    rw [h k]
    exact List.mem_range.mpr hi
  obtain ⟨a, ha, hnum⟩ := List.mem_map.mp hmem
  obtain ⟨hal, hkey⟩ := List.mem_filter.mp ha
  exact ⟨a, hal, by simpa using hkey, hnum⟩

theorem nodup (h : Numbered key number l m) : (l.map fun a => (key a, number a)).Nodup := by
  have hclass : ∀ k, ((l.filter (key · = k)).map number).Nodup := fun k => by
    rw [h k]
    exact List.nodup_range
  clear h
  induction l with
  | nil => exact List.nodup_nil
  | cons a l ih =>
    rw [List.map_cons, List.nodup_cons]
    constructor
    · intro hmem
      obtain ⟨b, hb, heq⟩ := List.mem_map.mp hmem
      have hkey : key b = key a := congrArg Prod.fst heq
      have hnum : number b = number a := congrArg Prod.snd heq
      have hnd := hclass (key a)
      rw [List.filter_cons_of_pos (by simp), List.map_cons, List.nodup_cons] at hnd
      exact hnd.1 (List.mem_map.mpr ⟨b, by simpa [hkey] using hb, hnum⟩)
    · refine ih fun k => List.Nodup.sublist ?_ (hclass k)
      exact ((List.sublist_cons_self a l).filter _).map _

theorem eq_of_number (h : Numbered key number l m) {a b : α} (ha : a ∈ l) (hb : b ∈ l)
    (hkey : key a = key b) (hnum : number a = number b) : a = b :=
  List.inj_on_of_nodup_map h.nodup ha hb (Prod.ext hkey hnum)

theorem ordered_of_subset (h : Numbered key number l m) (h' : Numbered key number l' m')
    (hsub : l' ⊆ l) (k : κ) : l'.filter (key · = k) <+: l.filter (key · = k) := by
  rw [eq_take_of_numbered (h k) (h' k)]
  · exact List.take_prefix _ _
  · intro a ha
    obtain ⟨hmem, hkey⟩ := List.mem_filter.mp ha
    exact List.mem_filter.mpr ⟨hsub hmem, hkey⟩

end Numbered

end Numbered

end Holders
