import Helm.Amio.CoreHandles

/-! # The invariant of the records behind the handles

  In every run of calls, the records and the handle table agree: a handle is
  that of a record which is there; the registry of a core lists its datasets
  once each until the core deletes them; a back pointer leads to a record;
  and the view counter of a dataset is the number of its views that have not
  been returned.

  Each change of the handles has one lemma. The loop of `finalize` has a
  specification of its own, `finalize_datasets_spec`, from which the facts
  about a teardown are read off.
-/

namespace Amio.Boundary

open LTS

/-! ## Section 1: The invariant -/

/-- The record that a handle stands for is there and carries the token. -/
def Handles.Backed (h : Handles) (t : Token) : HandleKind → Option Payload → Prop
  | .Core, some (.core c) =>
    ∃ r, h.cores[c]? = some r ∧ r.core_token = t ∧ r.destroyed = false
  | .Dataset, some (.dataset d) =>
    ∃ r, h.datasets[d]? = some r ∧ r.token = t ∧ r.destroyed = false
  | .Io, some (.io i) => ∃ r, h.ios[i]? = some r ∧ r.token = t
  | .View, some (.view v) =>
    ∃ r, h.views[v]? = some r ∧ r.token = t ∧ r.destroyed = false
  | _, _ => False

/-- Is the view one of dataset `d` that has not been returned? -/
def ViewRecord.outstanding (d : Nat) (r : ViewRecord) : Bool := r.dataset = d ∧ r.destroyed = false

/-- The records and the handle table agree. -/
structure HandlesInv (h : Handles) : Prop where
  table : TableInv h.table
  backed : ∀ t kind p, (t, kind, p) ∈ h.table.handles → h.Backed t kind p
  registry_nodup : ∀ (c : Nat) (r : CoreRecord), h.cores[c]? = some r → r.datasets.Nodup
  /-- The registry of a core lists its datasets, until they are deleted. -/
  registry : ∀ (c : Nat) (r : CoreRecord), h.cores[c]? = some r → ∀ d, d ∈ r.datasets ↔
    ∃ rd : DatasetRecord, h.datasets[d]? = some rd ∧ rd.core = c ∧ rd.destroyed = false
  /-- A core and its datasets are deleted together. -/
  dataset_core : ∀ (d : Nat) (r : DatasetRecord), h.datasets[d]? = some r →
    ∃ core : CoreRecord, h.cores[r.core]? = some core ∧ core.destroyed = r.destroyed
  io_core : ∀ (i : Nat) (r : IoRecord), h.ios[i]? = some r → r.core < h.cores.length
  view_dataset : ∀ (v : Nat) (r : ViewRecord), h.views[v]? = some r →
    ∃ rd : DatasetRecord, h.datasets[r.dataset]? = some rd ∧ rd.core = r.core
  counted : ∀ (d : Nat) (r : DatasetRecord), h.datasets[d]? = some r →
    r.outstanding_views = h.views.countP (ViewRecord.outstanding d)

theorem handles_inv_empty : HandlesInv .empty where
  table := table_inv_empty
  backed := by simp [Handles.empty, TableState.empty]
  registry_nodup := by simp [Handles.empty]
  registry := by simp [Handles.empty]
  dataset_core := by simp [Handles.empty]
  io_core := by simp [Handles.empty]
  view_dataset := by simp [Handles.empty]
  counted := by simp [Handles.empty]

/-! ## Section 2: Changes -/

section Steps

variable {h h' : Handles}

theorem Handles.Backed.mono {t : Token} {kind : HandleKind} {p : Option Payload}
    (hb : h.Backed t kind p)
    (hcores : ∀ c (r : CoreRecord), kind = .Core → p = some (.core c) → h.cores[c]? = some r →
      ∃ r', h'.cores[c]? = some r' ∧ r'.core_token = r.core_token ∧ r'.destroyed = r.destroyed)
    (hdatasets : ∀ d (r : DatasetRecord), kind = .Dataset → p = some (.dataset d) → h.datasets[d]? = some r →
      r.token = t → ∃ r', h'.datasets[d]? = some r' ∧ r'.token = r.token ∧
        r'.destroyed = r.destroyed)
    (hios : ∀ (i : Nat) (r : IoRecord), h.ios[i]? = some r → h'.ios[i]? = some r)
    (hviews : ∀ v (r : ViewRecord), kind = .View → p = some (.view v) → h.views[v]? = some r →
      ∃ r', h'.views[v]? = some r' ∧ r'.token = r.token ∧ r'.destroyed = r.destroyed) :
    h'.Backed t kind p := by
  unfold Handles.Backed at hb
  split at hb
  · obtain ⟨r, hr, ht, hd⟩ := hb
    obtain ⟨r', hr', ht', hd'⟩ := hcores _ r rfl rfl hr
    exact ⟨r', hr', ht'.trans ht, hd'.trans hd⟩
  · obtain ⟨r, hr, ht, hd⟩ := hb
    obtain ⟨r', hr', ht', hd'⟩ := hdatasets _ r rfl rfl hr ht
    exact ⟨r', hr', ht'.trans ht, hd'.trans hd⟩
  · obtain ⟨r, hr, ht⟩ := hb
    exact ⟨r, hios _ r hr, ht⟩
  · obtain ⟨r, hr, ht, hd⟩ := hb
    obtain ⟨r', hr', ht', hd'⟩ := hviews _ r rfl rfl hr
    exact ⟨r', hr', ht'.trans ht, hd'.trans hd⟩
  · exact hb.elim

theorem getElem?_concat_some {α : Type*} {l : List α} {a b : α} {i : Nat} :
    (l ++ [a])[i]? = some b ↔ l[i]? = some b ∨ (i = l.length ∧ b = a) := by
  rw [List.getElem?_append]
  split
  · next hi => simp [Nat.ne_of_lt hi]
  · next hi =>
    rw [List.getElem?_eq_none (Nat.le_of_not_lt hi)]
    by_cases heq : i = l.length
    · simp [heq, eq_comm]
    · have : i - l.length ≠ 0 := by omega
      simp [heq, this]

theorem getElem?_concat_of_some {α : Type*} {l : List α} {a b : α} {i : Nat}
    (hi : l[i]? = some b) : (l ++ [a])[i]? = some b :=
  getElem?_concat_some.mpr (.inl hi)

theorem getElem?_modify_some {α : Type*} {l : List α} {f : α → α} {i j : Nat} {b : α} :
    (l.modify i f)[j]? = some b ↔ ∃ a, l[j]? = some a ∧ b = if i = j then f a else a := by
  rw [List.getElem?_modify]
  simp [eq_comm]

/-- What the counters of a dataset record leave out. -/
def DatasetRecord.key (r : DatasetRecord) : Token × Nat × Bool := (r.token, r.core, r.destroyed)

theorem exists_of_map_key {l l' : List DatasetRecord}
    (heq : l'.map DatasetRecord.key = l.map DatasetRecord.key) {d : Nat} {r : DatasetRecord}
    (hr : l[d]? = some r) : ∃ r', l'[d]? = some r' ∧ r'.token = r.token ∧ r'.core = r.core ∧
      r'.destroyed = r.destroyed := by
  have hget : (l'.map DatasetRecord.key)[d]? = some r.key := by
    rw [heq, List.getElem?_map, hr]
    rfl
  rw [List.getElem?_map, Option.map_eq_some_iff] at hget
  obtain ⟨r', hr', hkey⟩ := hget
  simp only [DatasetRecord.key, Prod.mk.injEq] at hkey
  exact ⟨r', hr', hkey.1, hkey.2.1, hkey.2.2⟩

theorem map_key_modify {l : List DatasetRecord} {d : Nat} {f : DatasetRecord → DatasetRecord}
    (hf : ∀ r, (f r).key = r.key) : (l.modify d f).map DatasetRecord.key = l.map DatasetRecord.key := by
  apply List.ext_getElem?
  intro i
  simp only [List.getElem?_map, List.getElem?_modify]
  cases l[i]? with
  | none => rfl
  | some r =>
    simp only [Option.map_some, Option.some.injEq, Option.map_eq_map]
    split
    · exact hf r
    · rfl

theorem map_key_set {l : List DatasetRecord} {d : Nat} {r r' : DatasetRecord}
    (hr : l[d]? = some r) (hkey : r'.key = r.key) :
    (l.set d r').map DatasetRecord.key = l.map DatasetRecord.key := by
  have hmap : (l.map DatasetRecord.key)[d]? = some r'.key := by
    rw [List.getElem?_map, hr, hkey]
    rfl
  obtain ⟨hlt, hget⟩ := List.getElem?_eq_some_iff.mp hmap
  rw [List.map_set, ← hget, List.set_getElem_self]

theorem HandlesInv.of_map_key (hi : HandlesInv h) {datasets : List DatasetRecord}
    {views : List ViewRecord}
    (heq : datasets.map DatasetRecord.key = h.datasets.map DatasetRecord.key)
    (hviews : ∀ (v : Nat) (r : ViewRecord), views[v]? = some r →
      ∃ rd : DatasetRecord, h.datasets[r.dataset]? = some rd ∧ rd.core = r.core)
    (hcounted : ∀ (d : Nat) (r : DatasetRecord), datasets[d]? = some r →
      r.outstanding_views = views.countP (ViewRecord.outstanding d))
    {table : TableState Payload} (htable : TableInv table)
    (hbacked : ∀ t kind p, (t, kind, p) ∈ table.handles →
      Handles.Backed { h with table, datasets, views } t kind p) :
    HandlesInv { h with table, datasets, views } := by
  constructor
  case table => exact htable
  case backed => exact hbacked
  case registry_nodup => exact hi.registry_nodup
  case registry =>
    intro c r hr d
    rw [hi.registry c r hr d]
    constructor
    · rintro ⟨rd, hrd, hc, hd⟩
      obtain ⟨rd', hrd', -, hc', hd'⟩ := exists_of_map_key heq hrd
      exact ⟨rd', hrd', hc'.trans hc, hd'.trans hd⟩
    · rintro ⟨rd, hrd, hc, hd⟩
      obtain ⟨rd', hrd', -, hc', hd'⟩ := exists_of_map_key heq.symm hrd
      exact ⟨rd', hrd', hc'.trans hc, hd'.trans hd⟩
  case dataset_core =>
    intro d r hr
    obtain ⟨r₀, hr₀, -, hc, hd⟩ := exists_of_map_key heq.symm hr
    obtain ⟨core, hcore, hdead⟩ := hi.dataset_core d r₀ hr₀
    exact ⟨core, hc ▸ hcore, hdead.trans hd⟩
  case io_core => exact hi.io_core
  case view_dataset =>
    intro v r hr
    obtain ⟨rd, hrd, hc⟩ := hviews v r hr
    obtain ⟨rd', hrd', -, hc', -⟩ := exists_of_map_key heq hrd
    exact ⟨rd', hrd', hc'.trans hc⟩
  case counted => exact hcounted

/-! ### Creation -/

theorem HandlesInv.new_core (hi : HandlesInv h) (has_workers : Bool) :
    HandlesInv (h.new_core has_workers).1 := by
  constructor
  case table => exact hi.table.insert _ _
  case backed =>
    intro t kind p hm
    obtain hold | ⟨-, rfl, rfl, rfl⟩ := TableState.mem_insert.mp hm
    · apply Handles.Backed.mono (hi.backed t kind p hold)
      · intro c r _ _ hr
        exact ⟨r, getElem?_concat_of_some hr, rfl, rfl⟩
      · exact fun d r _ _ hr _ => ⟨r, hr, rfl, rfl⟩
      · exact fun i r hr => hr
      · exact fun v r _ _ hr => ⟨r, hr, rfl, rfl⟩
    · exact ⟨_, getElem?_concat_some.mpr (.inr ⟨rfl, rfl⟩), rfl, rfl⟩
  case registry_nodup =>
    intro c r hr
    obtain hr | ⟨-, rfl⟩ := getElem?_concat_some.mp hr
    · exact hi.registry_nodup c r hr
    · exact List.nodup_nil
  case registry =>
    intro c r hr d
    obtain hr | ⟨rfl, rfl⟩ := getElem?_concat_some.mp hr
    · exact hi.registry c r hr d
    · constructor
      · intro hd
        cases hd
      · -- no dataset points beyond the cores
        rintro ⟨rd, hrd, hcore, -⟩
        obtain ⟨core, hlt, -⟩ := hi.dataset_core d rd hrd
        have := (List.getElem?_eq_some_iff.mp hlt).1
        omega
  case dataset_core =>
    intro d r hr
    obtain ⟨core, hcore, hd⟩ := hi.dataset_core d r hr
    exact ⟨core, getElem?_concat_of_some hcore, hd⟩
  case io_core =>
    intro i r hr
    have := hi.io_core i r hr
    simp only [Handles.new_core, List.length_append]
    omega
  case view_dataset => exact hi.view_dataset
  case counted => exact hi.counted

theorem HandlesInv.new_dataset (hi : HandlesInv h) {c : Nat} {core : CoreRecord}
    (hcore : h.core? c = some core) : HandlesInv (h.new_dataset c).1 := by
  obtain ⟨hget, hlive⟩ := core?_iff.mp hcore
  constructor
  case table => exact hi.table.insert _ _
  case backed =>
    intro t kind p hm
    obtain hold | ⟨-, rfl, rfl, rfl⟩ := TableState.mem_insert.mp hm
    · apply Handles.Backed.mono (hi.backed t kind p hold)
      · intro c' r _ _ hr
        refine ⟨_, getElem?_modify_some.mpr ⟨r, hr, rfl⟩, ?_, ?_⟩
        · split <;> rfl
        · split <;> rfl
      · exact fun d r _ _ hr _ => ⟨r, getElem?_concat_of_some hr, rfl, rfl⟩
      · exact fun i r hr => hr
      · exact fun v r _ _ hr => ⟨r, hr, rfl, rfl⟩
    · exact ⟨_, getElem?_concat_some.mpr (.inr ⟨rfl, rfl⟩), rfl, rfl⟩
  case registry_nodup =>
    intro c' r hr
    obtain ⟨r₀, hr₀, rfl⟩ := getElem?_modify_some.mp hr
    have hnd := hi.registry_nodup c' r₀ hr₀
    split
    · -- the new index is beyond those in the registry
      refine List.nodup_append.mpr ⟨hnd, List.nodup_singleton _, ?_⟩
      intro d hd d' hd'
      obtain ⟨rd, hrd, -⟩ := (hi.registry c' r₀ hr₀ d).mp hd
      have := (List.getElem?_eq_some_iff.mp hrd).1
      rw [List.mem_singleton] at hd'
      omega
    · exact hnd
  case registry =>
    intro c' r hr d
    obtain ⟨r₀, hr₀, rfl⟩ := getElem?_modify_some.mp hr
    have hreg := hi.registry c' r₀ hr₀ d
    have hnew : (∃ rd : DatasetRecord, (h.new_dataset c).1.datasets[d]? = some rd ∧
        rd.core = c' ∧ rd.destroyed = false) ↔ d ∈ r₀.datasets ∨ (d = h.datasets.length ∧ c = c') := by
      rw [hreg]
      constructor
      · rintro ⟨rd, hrd, hc, hd⟩
        obtain hrd | ⟨rfl, rfl⟩ := getElem?_concat_some.mp hrd
        · exact .inl ⟨rd, hrd, hc, hd⟩
        · exact .inr ⟨rfl, hc⟩
      · rintro (⟨rd, hrd, hc, hd⟩ | ⟨rfl, rfl⟩)
        · exact ⟨rd, getElem?_concat_of_some hrd, hc, hd⟩
        · exact ⟨_, getElem?_concat_some.mpr (.inr ⟨rfl, rfl⟩), rfl, rfl⟩
    rw [hnew]
    split
    · next heq => simp [heq]
    · next hne => simp [hne]
  case dataset_core =>
    intro d r hr
    obtain hr | ⟨rfl, rfl⟩ := getElem?_concat_some.mp hr
    · obtain ⟨core', hcore', hd⟩ := hi.dataset_core d r hr
      refine ⟨_, getElem?_modify_some.mpr ⟨core', hcore', rfl⟩, ?_⟩
      split
      · exact hd
      · exact hd
    · refine ⟨_, getElem?_modify_some.mpr ⟨core, hget, rfl⟩, ?_⟩
      rw [if_pos rfl]
      exact hlive
  case io_core =>
    intro i r hr
    have := hi.io_core i r hr
    simpa [Handles.new_dataset] using this
  case view_dataset =>
    intro v r hr
    obtain ⟨rd, hrd, heq⟩ := hi.view_dataset v r hr
    exact ⟨rd, getElem?_concat_of_some hrd, heq⟩
  case counted =>
    intro d r hr
    obtain hr | ⟨rfl, rfl⟩ := getElem?_concat_some.mp hr
    · exact hi.counted d r hr
    · -- no view of a dataset that did not exist
      symm
      apply List.countP_eq_zero.mpr
      intro view hview
      obtain ⟨v, hv⟩ := List.mem_iff_getElem?.mp hview
      obtain ⟨rd, hrd, -⟩ := hi.view_dataset v view hv
      have := (List.getElem?_eq_some_iff.mp hrd).1
      simp only [ViewRecord.outstanding, decide_eq_true_eq, not_and]
      omega

theorem HandlesInv.new_io (hi : HandlesInv h) (d : Nat) {c : Nat} {core : CoreRecord}
    (hcore : h.core? c = some core) : HandlesInv (h.new_io d c).1 := by
  constructor
  case table => exact hi.table.insert _ _
  case backed =>
    intro t kind p hm
    obtain hold | ⟨-, rfl, rfl, rfl⟩ := TableState.mem_insert.mp hm
    · apply Handles.Backed.mono (hi.backed t kind p hold)
      · exact fun c r _ _ hr => ⟨r, hr, rfl, rfl⟩
      · exact fun d r _ _ hr _ => ⟨r, hr, rfl, rfl⟩
      · exact fun i r hr => getElem?_concat_of_some hr
      · exact fun v r _ _ hr => ⟨r, hr, rfl, rfl⟩
    · exact ⟨_, getElem?_concat_some.mpr (.inr ⟨rfl, rfl⟩), rfl⟩
  case registry_nodup => exact hi.registry_nodup
  case registry => exact hi.registry
  case dataset_core => exact hi.dataset_core
  case io_core =>
    intro i r hr
    obtain hr | ⟨-, rfl⟩ := getElem?_concat_some.mp hr
    · exact hi.io_core i r hr
    · exact (List.getElem?_eq_some_iff.mp (core?_iff.mp hcore).1).1
  case view_dataset => exact hi.view_dataset
  case counted => exact hi.counted

theorem HandlesInv.new_view (hi : HandlesInv h) {d : Nat} {record : DatasetRecord}
    (hrecord : h.dataset? d = some record) : HandlesInv (h.new_view d record.core).1 := by
  have hget := (dataset?_iff.mp hrecord).1
  have hkey : ((h.new_view d record.core).1.datasets).map DatasetRecord.key =
      h.datasets.map DatasetRecord.key := map_key_modify fun r => rfl
  apply hi.of_map_key hkey
  · intro v r hr
    obtain hr | ⟨rfl, rfl⟩ := getElem?_concat_some.mp hr
    · exact hi.view_dataset v r hr
    · exact ⟨record, hget, rfl⟩
  · -- the new view is the one that is added
    intro d' r hr
    obtain ⟨r₀, hr₀, rfl⟩ := getElem?_modify_some.mp hr
    have hcount := hi.counted d' r₀ hr₀
    simp only [List.countP_append, List.countP_singleton, ← hcount]
    by_cases heq : d = d'
    · simp [heq, ViewRecord.outstanding]
    · simp [heq, ViewRecord.outstanding]
  · exact hi.table.insert _ _
  · intro t kind p hm
    obtain hold | ⟨-, rfl, rfl, rfl⟩ := TableState.mem_insert.mp hm
    · apply Handles.Backed.mono (hi.backed t kind p hold)
      · exact fun c r _ _ hr => ⟨r, hr, rfl, rfl⟩
      · intro d' r _ _ hr _
        obtain ⟨r', hr', ht, -, hd⟩ := exists_of_map_key hkey hr
        exact ⟨r', hr', ht, hd⟩
      · exact fun i r hr => hr
      · exact fun v r _ _ hr => ⟨r, getElem?_concat_of_some hr, rfl, rfl⟩
    · exact ⟨_, getElem?_concat_some.mpr (.inr ⟨rfl, rfl⟩), rfl, rfl⟩

/-! ### Deletion -/

theorem HandlesInv.dataset_token (hi : HandlesInv h) {t : Token} {d : Nat} {r : DatasetRecord}
    (hm : (t, .Dataset, some (.dataset d)) ∈ h.table.handles) (hr : h.datasets[d]? = some r) :
    r.token = t := by
  obtain ⟨r', hr', ht, -⟩ := hi.backed _ _ _ hm
  rw [hr] at hr'
  cases hr'
  exact ht

theorem HandlesInv.view_token (hi : HandlesInv h) {t : Token} {v : Nat} {r : ViewRecord}
    (hm : (t, .View, some (.view v)) ∈ h.table.handles) (hr : h.views[v]? = some r) :
    r.token = t := by
  obtain ⟨r', hr', ht, -⟩ := hi.backed _ _ _ hm
  rw [hr] at hr'
  cases hr'
  exact ht

theorem HandlesInv.core_token (hi : HandlesInv h) {t : Token} {c : Nat} {r : CoreRecord}
    (hm : (t, .Core, some (.core c)) ∈ h.table.handles) (hr : h.cores[c]? = some r) :
    r.core_token = t := by
  obtain ⟨r', hr', ht, -⟩ := hi.backed _ _ _ hm
  rw [hr] at hr'
  cases hr'
  exact ht

theorem HandlesInv.close_dataset (hi : HandlesInv h) {d : Nat} {record : DatasetRecord}
    (hrecord : h.dataset? d = some record) : HandlesInv (h.close_dataset d record) := by
  have hget := (dataset?_iff.mp hrecord).1
  have hkey : ((h.close_dataset d record).datasets).map DatasetRecord.key =
      h.datasets.map DatasetRecord.key := map_key_set hget rfl
  apply hi.of_map_key hkey
  · exact hi.view_dataset
  · intro d' r hr
    simp only [Handles.close_dataset, List.getElem?_set] at hr
    split at hr
    · next heq =>
      subst heq
      split at hr
      · cases hr
        exact hi.counted d record hget
      · cases hr
    · exact hi.counted d' r hr
  · exact hi.table.release _ _
  · intro t kind p hm
    obtain ⟨hold, -⟩ := hi.table.mem_release hm
    apply Handles.Backed.mono (hi.backed t kind p hold)
    · exact fun c r _ _ hr => ⟨r, hr, rfl, rfl⟩
    · intro d' r _ _ hr _
      obtain ⟨r', hr', ht, -, hd⟩ := exists_of_map_key hkey hr
      exact ⟨r', hr', ht, hd⟩
    · exact fun i r hr => hr
    · exact fun v r _ _ hr => ⟨r, hr, rfl, rfl⟩

theorem HandlesInv.release_view (hi : HandlesInv h) {v : Nat} {view : ViewRecord}
    {core : CoreRecord} (hview : h.view? v = some view) (hcore : h.core? view.core = some core) :
    HandlesInv (h.release_view v view core) := by
  obtain ⟨hget, hopen⟩ := view?_iff.mp hview
  obtain ⟨rd, hrd, hrdcore⟩ := hi.view_dataset v view hget
  have hin : view.dataset ∈ core.datasets := by
    obtain ⟨hcget, hcopen⟩ := core?_iff.mp hcore
    obtain ⟨core', hcore', hdead⟩ := hi.dataset_core _ _ hrd
    rw [hrdcore, hcget] at hcore'
    cases hcore'
    exact (hi.registry _ _ hcget _).mpr ⟨rd, hrd, hrdcore, hdead.symm.trans hcopen⟩
  have heq : h.release_view v view core = { h with
      table := h.table.release view.token .View
      datasets := h.datasets.modify view.dataset fun r =>
        { r with outstanding_views := r.outstanding_views - 1 }
      views := h.views.set v { view with destroyed := true } } := by
    simp only [Handles.release_view, if_pos hin]
  rw [heq]
  have hkey : (h.datasets.modify view.dataset fun r : DatasetRecord =>
      { r with outstanding_views := r.outstanding_views - 1 }).map DatasetRecord.key =
      h.datasets.map DatasetRecord.key := map_key_modify fun r => rfl
  apply hi.of_map_key hkey
  · intro v' r hr
    rw [List.getElem?_set] at hr
    split at hr
    · split at hr
      · cases hr
        exact ⟨rd, hrd, hrdcore⟩
      · cases hr
    · exact hi.view_dataset v' r hr
  · -- the view that is returned is the one that is taken off
    intro d r hr
    obtain ⟨r₀, hr₀, rfl⟩ := getElem?_modify_some.mp hr
    have hcount := hi.counted d r₀ hr₀
    obtain ⟨hlt, hgetv⟩ := List.getElem?_eq_some_iff.mp hget
    rw [List.countP_set hlt, hgetv]
    by_cases heq : view.dataset = d
    · simp [heq, ViewRecord.outstanding, hopen, hcount]
    · simp [heq, ViewRecord.outstanding, hcount]
  · exact hi.table.release _ _
  · intro t' kind p hm
    obtain ⟨hold, hne⟩ := hi.table.mem_release hm
    apply Handles.Backed.mono (hi.backed t' kind p hold)
    · exact fun c r _ _ hr => ⟨r, hr, rfl, rfl⟩
    · intro d' r _ _ hr _
      obtain ⟨r', hr', ht, -, hd⟩ := exists_of_map_key hkey hr
      exact ⟨r', hr', ht, hd⟩
    · exact fun i r hr => hr
    · rintro v' r rfl rfl hr
      -- the handle of this view is gone
      have hv : v ≠ v' := by
        rintro rfl
        have hsame := hi.view_token hold hget
        exact hne ⟨hsame.symm, rfl⟩
      exact ⟨r, by rw [List.getElem?_set_ne hv, hr], rfl, rfl⟩

/-! ### Finalize -/

/-- A record of the registry when `finalize` has gone over it. -/
def DatasetRecord.finalized (flush_throws : Bool) (r : DatasetRecord) : DatasetRecord :=
  { r with closes := if flush_throws then r.closes else r.closes + 1
           destroyed := true }

section Registry

variable (flush_throws : Nat → Bool)

theorem finalize_dataset_eq {d : Nat} {record : DatasetRecord} (hr : h.datasets[d]? = some record) :
    h.finalize_dataset flush_throws d = { h with
      table := h.table.release record.token .Dataset
      datasets := h.datasets.set d (record.finalized (flush_throws d)) } := by
  have hzero : record.token = 0 → h.table.release record.token .Dataset = h.table := by
    intro heq
    simp [heq, TableState.release, HandleTable.release]
  by_cases hz : record.token = 0
  · simp only [Handles.finalize_dataset, hr, hz, ne_eq, not_true_eq_false, if_false]
    rw [← hz, hzero hz]
    rfl
  · simp only [Handles.finalize_dataset, hr, ne_eq, hz, not_false_eq_true, if_true]
    rfl

/-- The loop over the registry: the records it has gone over are finalized
    and none of their handles is left. -/
theorem finalize_datasets_spec (ds : List Nat) (hnd : ds.Nodup) (htable : TableInv h.table)
    (hin : ∀ d ∈ ds, ∃ r, h.datasets[d]? = some r) :
    ∃ table datasets, ds.foldl (Handles.finalize_dataset flush_throws) h =
        { h with table, datasets } ∧
      TableInv table ∧ h.table.Later table ∧
      (∀ d, datasets[d]? = (h.datasets[d]?).map fun r =>
        if d ∈ ds then r.finalized (flush_throws d) else r) ∧
      ∀ t kind p, (t, kind, p) ∈ table.handles → (t, kind, p) ∈ h.table.handles ∧
        ∀ d ∈ ds, ∀ r, h.datasets[d]? = some r → ¬ (t = r.token ∧ kind = .Dataset) := by
  induction ds generalizing h with
  | nil => exact ⟨h.table, h.datasets, rfl, htable, .refl _, by simp, by simp⟩
  | cons d ds ih =>
    obtain ⟨hd, hnd⟩ := List.nodup_cons.mp hnd
    obtain ⟨record, hr⟩ := hin d List.mem_cons_self
    obtain ⟨hlt, -⟩ := List.getElem?_eq_some_iff.mp hr
    rw [List.foldl_cons, finalize_dataset_eq flush_throws hr]
    have hother : ∀ d' ∈ ds, (h.datasets.set d (record.finalized (flush_throws d)))[d']? =
        h.datasets[d']? := by
      intro d' hd'
      rw [List.getElem?_set_ne]
      rintro rfl
      exact hd hd'
    obtain ⟨table, datasets, hfold, hinv, hlater, hget, hhandles⟩ :=
      @ih { h with table := h.table.release record.token .Dataset
                   datasets := h.datasets.set d (record.finalized (flush_throws d)) }
        hnd (htable.release _ _) (by
          intro d' hd'
          obtain ⟨r, hr'⟩ := hin d' (List.mem_cons_of_mem _ hd')
          exact ⟨r, (hother d' hd').trans hr'⟩)
    refine ⟨table, datasets, hfold, hinv, (htable.later_release _ _).trans hlater, ?_, ?_⟩
    · intro d'
      rw [hget d']
      by_cases heq : d' = d
      · subst heq
        show Option.map _ (h.datasets.set d' _)[d']? = _
        rw [List.getElem?_set_self hlt, hr]
        simp [hd]
      · rw [List.getElem?_set_ne (Ne.symm heq)]
        simp [heq]
    · intro t kind p hm
      obtain ⟨hm, hnot⟩ := hhandles t kind p hm
      obtain ⟨hm, hne⟩ := htable.mem_release hm
      refine ⟨hm, ?_⟩
      intro d' hd' r hr'
      obtain rfl | hd' := List.mem_cons.mp hd'
      · rw [hr] at hr'
        cases hr'
        exact hne
      · exact hnot d' hd' r ((hother d' hd').trans hr')

end Registry

/-- What `finalize` leaves: the core and its datasets are deleted. -/
theorem HandlesInv.finalize_spec (hi : HandlesInv h) {c : Nat} {core : CoreRecord}
    (hcore : h.core? c = some core) (flush_throws : Nat → Bool) :
    ∃ table datasets, h.finalize c core flush_throws = { h with
        table := table.release core.core_token .Core
        datasets
        cores := h.cores.set c { core with datasets := [], destroyed := true } } ∧
      TableInv table ∧ h.table.Later table ∧
      (∀ d : Nat, datasets[d]? = (h.datasets[d]?).map fun r : DatasetRecord =>
        if r.core = c then r.finalized (flush_throws d) else r) ∧
      ∀ t kind p, (t, kind, p) ∈ table.handles → (t, kind, p) ∈ h.table.handles ∧
        ∀ (d : Nat) (r : DatasetRecord), h.datasets[d]? = some r → r.core = c →
          ¬ (t = r.token ∧ kind = .Dataset) := by
  obtain ⟨hget, hlive⟩ := core?_iff.mp hcore
  have hreg := hi.registry c core hget
  -- every dataset of the core is still in the registry
  have hmem : ∀ (d : Nat) (r : DatasetRecord), h.datasets[d]? = some r →
      (d ∈ core.datasets ↔ r.core = c) := by
    intro d r hr
    rw [hreg d]
    constructor
    · rintro ⟨r', hr', hc, -⟩
      rw [hr] at hr'
      cases hr'
      exact hc
    · intro hc
      obtain ⟨core', hcore', hd⟩ := hi.dataset_core d r hr
      rw [hc, hget] at hcore'
      cases hcore'
      exact ⟨r, hr, hc, hd.symm.trans hlive⟩
  obtain ⟨table, datasets, hfold, hinv, hlater, hdatasets, hhandles⟩ :=
    finalize_datasets_spec flush_throws core.datasets (hi.registry_nodup c core hget) hi.table
      fun d hd => by
        obtain ⟨r, hr, -⟩ := (hreg d).mp hd
        exact ⟨r, hr⟩
  refine ⟨table, datasets, ?_, hinv, hlater, ?_, ?_⟩
  · simp only [Handles.finalize, hfold]
  · intro d
    rw [hdatasets d]
    cases hr : h.datasets[d]? with
    | none => rfl
    | some r => simp only [Option.map_some, hmem d r hr]
  · intro t kind p hm
    obtain ⟨hm, hnot⟩ := hhandles t kind p hm
    exact ⟨hm, fun d r hr hc => hnot d ((hmem d r hr).mpr hc) r hr⟩

theorem HandlesInv.finalize (hi : HandlesInv h) {c : Nat} {core : CoreRecord}
    (hcore : h.core? c = some core) (flush_throws : Nat → Bool) :
    HandlesInv (h.finalize c core flush_throws) := by
  obtain ⟨hget, hlive⟩ := core?_iff.mp hcore
  obtain ⟨hlt, -⟩ := List.getElem?_eq_some_iff.mp hget
  obtain ⟨table, datasets, heq, htable, -, hdatasets, hhandles⟩ :=
    hi.finalize_spec hcore flush_throws
  rw [heq]
  have hcores : ∀ c', (h.cores.set c { core with datasets := [], destroyed := true })[c']? =
      if c = c' then some { core with datasets := [], destroyed := true } else h.cores[c']? := by
    intro c'
    rw [List.getElem?_set]
    simp [hlt]
  have hold : ∀ (d : Nat) (r : DatasetRecord), datasets[d]? = some r → ∃ r₀ : DatasetRecord,
      h.datasets[d]? = some r₀ ∧ r = if r₀.core = c then r₀.finalized (flush_throws d) else r₀ := by
    intro d r hr
    rw [hdatasets d, Option.map_eq_some_iff] at hr
    obtain ⟨r₀, hr₀, hr⟩ := hr
    exact ⟨r₀, hr₀, hr.symm⟩
  constructor
  case table => exact htable.release _ _
  case backed =>
    intro t kind p hm
    obtain ⟨hm, hcoretok⟩ := htable.mem_release hm
    obtain ⟨hm, hgone⟩ := hhandles t kind p hm
    apply Handles.Backed.mono (hi.backed t kind p hm)
    · rintro c' r rfl rfl hr
      -- the handle of this core is gone
      have hc : c ≠ c' := by
        rintro rfl
        exact hcoretok ⟨(hi.core_token hm hget).symm, rfl⟩
      exact ⟨r, by rw [hcores, if_neg hc, hr], rfl, rfl⟩
    · intro d r hkind _ hr ht
      have hc : r.core ≠ c := fun hc => hgone d r hr hc ⟨ht.symm, hkind⟩
      exact ⟨r, by rw [hdatasets d, hr, Option.map_some, if_neg hc], rfl, rfl⟩
    · exact fun i r hr => hr
    · exact fun v r _ _ hr => ⟨r, hr, rfl, rfl⟩
  case registry_nodup =>
    intro c' r hr
    rw [hcores] at hr
    split at hr
    · cases hr
      exact List.nodup_nil
    · exact hi.registry_nodup c' r hr
  case registry =>
    intro c' r hr d
    rw [hcores] at hr
    split at hr
    · next hc =>
      subst hc
      cases hr
      constructor
      · intro hd
        cases hd
      · rintro ⟨rd, hrd, hc, hd⟩
        obtain ⟨r₀, hr₀, rfl⟩ := hold d rd hrd
        by_cases hc₀ : r₀.core = c
        · rw [if_pos hc₀] at hd
          cases hd
        · rw [if_neg hc₀] at hc
          exact absurd hc hc₀
    · next hc =>
      rw [hi.registry c' r hr d]
      constructor
      · rintro ⟨rd, hrd, rfl, hd⟩
        exact ⟨rd, by rw [hdatasets d, hrd, Option.map_some, if_neg (Ne.symm hc)], rfl, hd⟩
      · rintro ⟨rd, hrd, hcd, hd⟩
        obtain ⟨r₀, hr₀, rfl⟩ := hold d rd hrd
        by_cases hc₀ : r₀.core = c
        · rw [if_pos hc₀] at hd
          cases hd
        · rw [if_neg hc₀] at hcd hd
          exact ⟨r₀, hr₀, hcd, hd⟩
  case dataset_core =>
    intro d r hr
    obtain ⟨r₀, hr₀, rfl⟩ := hold d r hr
    by_cases hc : r₀.core = c
    · rw [if_pos hc]
      exact ⟨{ core with datasets := [], destroyed := true },
        (hcores _).trans (if_pos hc.symm), rfl⟩
    · rw [if_neg hc]
      obtain ⟨core', hcore', hd⟩ := hi.dataset_core d r₀ hr₀
      exact ⟨core', by rw [hcores, if_neg (Ne.symm hc), hcore'], hd⟩
  case io_core =>
    intro i r hr
    have := hi.io_core i r hr
    simpa using this
  case view_dataset =>
    intro v r hr
    obtain ⟨rd, hrd, hc⟩ := hi.view_dataset v r hr
    refine ⟨_, by rw [hdatasets, hrd, Option.map_some], ?_⟩
    split
    · exact hc
    · exact hc
  case counted =>
    intro d r hr
    obtain ⟨r₀, hr₀, rfl⟩ := hold d r hr
    have hcount := hi.counted d r₀ hr₀
    split
    · exact hcount
    · exact hcount

end Steps

/-! ## Section 3: Runs -/

section Runs

variable {w w' : World}

theorem HandlesInv.change (hi : HandlesInv w.toHandles) {q : Call} {h' : Handles}
    (hc : Change w q h') : HandlesInv h' := by
  cases hc with
  | same => exact hi
  | new_core hq => exact hi.new_core _
  | new_dataset hq hcore => exact hi.new_dataset hcore
  | new_io hq hrecord hcore => exact hi.new_io _ hcore
  | new_view hq hrecord hcore => exact hi.new_view hrecord
  | close hlive hrecord hviews => exact hi.close_dataset hrecord
  | release_view hlive hview hcore => exact hi.release_view hview hcore
  | finalize hlive hcore => exact hi.finalize hcore _

theorem next_cases {e : Event} (h : w.next e = some w') :
    w'.toHandles = w.toHandles ∨ ∃ q res, e = .call q ∧ w.call q = some (res, w') := by
  cases e with
  | call q =>
    simp only [World.next, Option.map_eq_some_iff] at h
    obtain ⟨⟨res, w''⟩, hcall, rfl⟩ := h
    exact .inr ⟨q, res, rfl, hcall⟩
  | execute x throws =>
    simp only [World.next] at h
    split at h
    · cases h
      exact .inl rfl
    · cases h
  | prefetch d var_name queue =>
    simp only [World.next] at h
    split at h
    · cases h
    · cases h
      exact .inl rfl

theorem handles_inv_reachable (hr : boundary.Reachable w) : HandlesInv w.toHandles := by
  refine hr.invariant (P := fun w => HandlesInv w.toHandles) ?_ ?_
  · rintro _ rfl
    exact handles_inv_empty
  · intro w e w' _ hi hstep
    obtain heq | ⟨q, res, rfl, hcall⟩ := next_cases hstep
    · rw [heq]
      exact hi
    · exact hi.change (call_change hi.table hcall)

end Runs

end Amio.Boundary
