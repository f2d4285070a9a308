import Mathlib

/-! # Ordered maps

  `OrdMap κ ν` is the finite map that iterates in ascending order of its
  keys: a list of entries with strictly increasing keys. It stands for
  `std::map`.

  Besides what `lookup` returns after an update, the lemmas say how the
  entries change as a whole, up to order, which is what counting arguments
  over all entries need.
-/

/-- A finite map, kept as its entries in strictly increasing order of keys. -/
structure OrdMap (κ ν : Type*) [LinearOrder κ] where
  entries : List (κ × ν)
  sorted : entries.Pairwise fun a b => a.1 < b.1

namespace OrdMap

open scoped List

variable {κ ν : Type*} [LinearOrder κ] {m : OrdMap κ ν} {k k' : κ} {v v' : ν}

/-- The empty map. -/
def empty : OrdMap κ ν := ⟨[], .nil⟩

/-- The value at a key. -/
def lookup (m : OrdMap κ ν) (k : κ) : Option ν := (m.entries.find? (·.1 = k)).map (·.2)

/-- All values, in the order of their keys. -/
def values (m : OrdMap κ ν) : List ν := m.entries.map (·.2)

/-- Remove a key. -/
def erase (m : OrdMap κ ν) (k : κ) : OrdMap κ ν :=
  ⟨m.entries.filter (·.1 ≠ k), m.sorted.filter _⟩

/-- Insert into a list of entries, or overwrite. -/
def insertEntry (k : κ) (v : ν) : List (κ × ν) → List (κ × ν)
  | [] => [(k, v)]
  | e :: l =>
    if k < e.1 then (k, v) :: e :: l
    else if k = e.1 then (k, v) :: l
    else e :: insertEntry k v l

theorem insertEntry_perm {l : List (κ × ν)} (h : l.Pairwise fun a b => a.1 < b.1) :
    insertEntry k v l ~ (k, v) :: l.filter (·.1 ≠ k) := by
  induction l with
  | nil => exact .refl _
  | cons e l ih =>
    obtain ⟨he, hl⟩ := List.pairwise_cons.mp h
    -- keys above `k` survive the filter
    have hkeep : ∀ {l' : List (κ × ν)}, (∀ x ∈ l', k < x.1) → l'.filter (·.1 ≠ k) = l' :=
      fun h' => List.filter_eq_self.mpr fun x hx => by simpa using (h' x hx).ne'
    unfold insertEntry
    split
    · next hlt =>
      rw [hkeep fun x hx => ?_]
      rcases List.mem_cons.mp hx with rfl | hx
      · exact hlt
      · exact hlt.trans (he x hx)
    · split
      · next heq =>
        rw [List.filter_cons_of_neg (by simp [heq]), hkeep fun x hx => heq ▸ he x hx]
      · next hne =>
        rw [List.filter_cons_of_pos (by simpa using Ne.symm hne)]
        exact ((ih hl).cons e).trans (List.Perm.swap ..)

theorem insertEntry_sorted {l : List (κ × ν)} (h : l.Pairwise fun a b => a.1 < b.1) :
    (insertEntry k v l).Pairwise fun a b => a.1 < b.1 := by
  induction l with
  | nil => exact List.pairwise_singleton _ _
  | cons e l ih =>
    obtain ⟨he, hl⟩ := List.pairwise_cons.mp h
    unfold insertEntry
    split
    · next hlt =>
      refine List.pairwise_cons.mpr ⟨fun x hx => ?_, h⟩
      rcases List.mem_cons.mp hx with rfl | hx
      · exact hlt
      · exact hlt.trans (he x hx)
    · next hnlt =>
      split
      · next heq => exact List.pairwise_cons.mpr ⟨fun x hx => heq ▸ he x hx, hl⟩
      · next hne =>
        refine List.pairwise_cons.mpr ⟨fun x hx => ?_, ih hl⟩
        rcases List.mem_cons.mp ((insertEntry_perm hl).mem_iff.mp hx) with rfl | hx
        · exact lt_of_le_of_ne (not_lt.mp hnlt) (Ne.symm hne)
        · exact he x (List.mem_filter.mp hx).1

/-- Insert a key, or overwrite its value. -/
def insert (m : OrdMap κ ν) (k : κ) (v : ν) : OrdMap κ ν :=
  ⟨insertEntry k v m.entries, insertEntry_sorted m.sorted⟩

/-! ### Lookup -/

theorem nodup_keys (m : OrdMap κ ν) : (m.entries.map (·.1)).Nodup :=
  List.pairwise_map.mpr (m.sorted.imp fun h => h.ne)

theorem lookup_eq_some : m.lookup k = some v ↔ (k, v) ∈ m.entries := by
  constructor
  · intro h
    obtain ⟨e, he, rfl⟩ := Option.map_eq_some_iff.mp h
    have hkey : e.1 = k := by simpa using List.find?_some he
    exact hkey ▸ List.mem_of_find?_eq_some he
  · intro h
    cases hfind : m.entries.find? (·.1 = k) with
    | none => exact absurd (List.find?_eq_none.mp hfind _ h) (by simp)
    | some e =>
      have hkey : e.1 = k := by simpa using List.find?_some hfind
      have heq : e = (k, v) :=
        List.inj_on_of_nodup_map m.nodup_keys (List.mem_of_find?_eq_some hfind) h hkey
      rw [lookup, hfind, heq, Option.map_some]

theorem lookup_eq_none : m.lookup k = none ↔ ∀ v, (k, v) ∉ m.entries := by
  rw [Option.eq_none_iff_forall_ne_some]
  exact forall_congr' fun v => not_congr lookup_eq_some

@[simp] theorem lookup_empty : (empty : OrdMap κ ν).lookup k = none := rfl

theorem lookup_erase : (m.erase k).lookup k' = if k' = k then none else m.lookup k' := by
  refine Option.ext fun v => ?_
  rw [lookup_eq_some]
  split
  · next h => simp [erase, h]
  · next h => simp [erase, h, lookup_eq_some]

theorem lookup_erase_eq_some :
    (m.erase k).lookup k' = some v ↔ k' ≠ k ∧ m.lookup k' = some v := by
  rw [lookup_erase]
  split
  · next h => simp [h]
  · next h => simp [h]

theorem lookup_insert : (m.insert k v).lookup k' = if k' = k then some v else m.lookup k' := by
  refine Option.ext fun v' => ?_
  rw [lookup_eq_some, insert, (insertEntry_perm m.sorted).mem_iff, List.mem_cons]
  split
  · next h => simp [h, eq_comm]
  · next h => simp [h, lookup_eq_some]

/-! ### All entries -/

theorem filter_of_lookup_none (h : m.lookup k = none) :
    m.entries.filter (·.1 ≠ k) = m.entries := by
  refine List.filter_eq_self.mpr fun e he => ?_
  have hne : e.1 ≠ k := fun hk => lookup_eq_none.mp h e.2 (hk ▸ he)
  simpa using hne

theorem entries_insert (h : m.lookup k = none) : (m.insert k v).entries ~ (k, v) :: m.entries := by
  have hperm := insertEntry_perm (k := k) (v := v) m.sorted
  rwa [filter_of_lookup_none h] at hperm

theorem entries_erase (h : m.lookup k = some v) : m.entries ~ (k, v) :: (m.erase k).entries := by
  have hnodup : m.entries.Nodup := m.nodup_keys.of_map _
  have hmem := lookup_eq_some.mp h
  have hrest : ((k, v) :: m.entries.filter (·.1 ≠ k)).Nodup :=
    List.nodup_cons.mpr ⟨by simp, hnodup.filter _⟩
  refine (List.perm_ext_iff_of_nodup hnodup hrest).mpr fun e => ?_
  rw [List.mem_cons, List.mem_filter, decide_eq_true_eq]
  constructor
  · intro he
    by_cases hk : e.1 = k
    · exact .inl (List.inj_on_of_nodup_map m.nodup_keys he hmem hk)
    · exact .inr ⟨he, hk⟩
  · rintro (rfl | ⟨he, -⟩)
    · exact hmem
    · exact he

theorem values_insert (h : m.lookup k = none) : (m.insert k v).values ~ v :: m.values :=
  (entries_insert h).map _

theorem values_erase (h : m.lookup k = some v) : m.values ~ v :: (m.erase k).values :=
  (entries_erase h).map _

/-! ### Collecting a list under keys -/

section Collect
variable {α : Type*} (key : α → κ) (first : α → ν) (next : ν → α → ν)

/-- Add an element to what is stored under its key. -/
def collect (m : OrdMap κ ν) (a : α) : OrdMap κ ν :=
  m.insert (key a) (match m.lookup (key a) with
    | none => first a
    | some v => next v a)

theorem lookup_foldl_collect (l : List α) (m : OrdMap κ ν) :
    (l.foldl (collect key first next) m).lookup k =
      match m.lookup k, l.filter (key · = k) with
      | some v, l' => some (l'.foldl next v)
      | none, [] => none
      | none, a :: l' => some (l'.foldl next (first a)) := by
  induction l generalizing m with
  | nil =>
    cases hm : m.lookup k with
    | none => simp [hm]
    | some v => simp [hm]
  | cons a l ih =>
    rw [List.foldl_cons, ih, collect, lookup_insert]
    by_cases hkey : key a = k
    · subst hkey
      rw [if_pos rfl, List.filter_cons_of_pos (by simp)]
      cases hm : m.lookup (key a) with
      | none => rfl
      | some v => rfl
    · rw [if_neg (Ne.symm hkey), List.filter_cons_of_neg (by simpa using hkey)]

end Collect

end OrdMap
