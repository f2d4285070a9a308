import Helm.Amio.CoreInvariant

/-! # Teardown of a core

  `finalize` and `close_dataset` take apart what the other calls have built:
  both close drivers, and both release handles. Two properties of a whole
  run follow from the invariant of the records and their handles.

  - After `finalize`, no handle made under the core is accepted. Requests are
    never released and views are not looked for, so this needs that the core
    has neither when it is finalized: `finalized_handles_rejected`.
  - The driver of a dataset is closed once. A closed dataset stays in the
    registry, where `finalize` closes it again, and a driver whose `flush`
    throws is not closed at all: `drivers_closed_once`.
-/

namespace Amio.Boundary

open LTS

/-! ## Section 1: Handles of a finalized core -/

section Teardown

variable {w w' : World} {h : Handles}

/-- The core that a step finalizes, and whether `flush` throws for each of its
    datasets. -/
def World.finalizes (w : World) : Event → Option (Nat × (Nat → Bool))
  | .call (.core t true (.finalize _ flush_throws)) =>
    match w.table.table.lookup t .Core with
    | .ok (some (.core c)) => some (c, flush_throws)
    | _ => none
  | _ => none

/-- The core has no request, and no view that has not been returned. Handles
    that could not be made, because the table was full, do not count. -/
def Handles.Vacated (h : Handles) (c : Nat) : Prop :=
  (∀ r ∈ h.ios, r.core = c → r.token = 0) ∧
    ∀ r ∈ h.views, r.core = c → r.destroyed = false → r.token = 0

instance (h : Handles) (c : Nat) : Decidable (h.Vacated c) :=
  inferInstanceAs (Decidable ((∀ r ∈ h.ios, r.core = c → r.token = 0) ∧
    ∀ r ∈ h.views, r.core = c → r.destroyed = false → r.token = 0))

/-- Does the step make a record when it succeeds? -/
def Event.mints : Event → Bool
  | .call q => q.mints
  | _ => false

/-- No token is made twice, and a core is finalized when it is vacated. -/
def OrderlyTeardown (w : World) (e : Event) : Prop :=
  (e.mints = true → w.table.FreshSlot) ∧ ∀ x ∈ w.finalizes e, w.Vacated x.1

instance (w : World) (e : Event) : Decidable (OrderlyTeardown w e) :=
  inferInstanceAs (Decidable ((e.mints = true → w.table.FreshSlot) ∧
    ∀ x ∈ w.finalizes e, w.Vacated x.1))

/-- Every record has its handle, or its token is spent. -/
structure TokensInv (h : Handles) : Prop where
  first_turn : h.table.FirstTurn
  datasets : ∀ (d : Nat) (r : DatasetRecord), h.datasets[d]? = some r → h.table.Spent r.token ∨
    (r.destroyed = false ∧ (r.token, .Dataset, some (.dataset d)) ∈ h.table.handles)
  ios : ∀ (i : Nat) (r : IoRecord), h.ios[i]? = some r → h.table.Spent r.token ∨
    ∃ core, h.core? r.core = some core
  views : ∀ (v : Nat) (r : ViewRecord), h.views[v]? = some r → h.table.Spent r.token ∨
    (r.destroyed = false ∧ ∃ core, h.core? r.core = some core)

theorem tokens_inv_empty : TokensInv .empty where
  first_turn := by simp [TableState.FirstTurn, Handles.empty, TableState.empty]
  datasets := by simp [Handles.empty]
  ios := by simp [Handles.empty]
  views := by simp [Handles.empty]

/-- The step rule: what the new records, the lost cores and the datasets have
    to satisfy when the table has moved on. -/
theorem TokensInv.later (hi : TokensInv h) {h' : Handles} (hlater : h.table.Later h'.table)
    (hcores : ∀ c core, h.core? c = some core →
      (∃ core', h'.core? c = some core') ∨ h.Vacated c)
    (hdatasets : ∀ (d : Nat) (r : DatasetRecord), h'.datasets[d]? = some r →
      (∃ r₀ : DatasetRecord, h.datasets[d]? = some r₀ ∧ r.token = r₀.token ∧
        r.destroyed = r₀.destroyed) ∨
      h'.table.Spent r.token ∨
      (r.destroyed = false ∧ (r.token, .Dataset, some (.dataset d)) ∈ h'.table.handles))
    (hios : ∀ (i : Nat) (r : IoRecord), h'.ios[i]? = some r →
      h.ios[i]? = some r ∨ ∃ core, h'.core? r.core = some core)
    (hviews : ∀ (v : Nat) (r : ViewRecord), h'.views[v]? = some r → h.views[v]? = some r ∨
      h'.table.Spent r.token ∨ (r.destroyed = false ∧ ∃ core, h'.core? r.core = some core)) :
    TokensInv h' := by
  constructor
  case first_turn => exact hlater.first_turn hi.first_turn
  case datasets =>
    intro d r hr
    obtain ⟨r₀, hr₀, ht, hd⟩ | hnew := hdatasets d r hr
    · rw [ht, hd]
      obtain hspent | ⟨hlive, hm⟩ := hi.datasets d r₀ hr₀
      · exact .inl (hlater.spent hspent)
      · obtain hm | hspent := hlater.handles _ _ _ hm
        · exact .inr ⟨hlive, hm⟩
        · exact .inl hspent
    · exact hnew
  case ios =>
    intro i r hr
    obtain hr₀ | hnew := hios i r hr
    · obtain hspent | ⟨core, hcore⟩ := hi.ios i r hr₀
      · exact .inl (hlater.spent hspent)
      · obtain hcore' | hvacated := hcores _ _ hcore
        · exact .inr hcore'
        · exact .inl (.inl (hvacated.1 r (List.mem_of_getElem? hr₀) rfl))
    · exact .inr hnew
  case views =>
    intro v r hr
    obtain hr₀ | hnew := hviews v r hr
    · obtain hspent | ⟨hlive, core, hcore⟩ := hi.views v r hr₀
      · exact .inl (hlater.spent hspent)
      · obtain hcore' | hvacated := hcores _ _ hcore
        · exact .inr ⟨hlive, hcore'⟩
        · exact .inl (.inl (hvacated.2 r (List.mem_of_getElem? hr₀) rfl hlive))
    · exact hnew

theorem insert_settled {s : TableState Payload} (kind : HandleKind) (payload : Payload) :
    (s.insert kind payload).1.Spent (s.insert kind payload).2 ∨
      ((s.insert kind payload).2, kind, some payload) ∈ (s.insert kind payload).1.handles := by
  by_cases hz : (s.insert kind payload).2 = 0
  · exact .inl (.inl hz)
  · exact .inr (TableState.mem_insert.mpr (.inr ⟨hz, rfl, rfl, rfl⟩))

theorem TokensInv.new_core (hi : TokensInv h) (htable : TableInv h.table)
    (hfresh : h.table.FreshSlot) (has_workers : Bool) :
    TokensInv (h.new_core has_workers).1 := by
  apply hi.later (htable.later_insert hfresh _ _)
  · intro c core hcore
    obtain ⟨hget, hlive⟩ := core?_iff.mp hcore
    exact .inl ⟨core, core?_iff.mpr ⟨getElem?_concat_of_some hget, hlive⟩⟩
  · exact fun d r hr => .inl ⟨r, hr, rfl, rfl⟩
  · exact fun i r hr => .inl hr
  · exact fun v r hr => .inl hr

theorem TokensInv.new_dataset (hi : TokensInv h) (htable : TableInv h.table)
    (hfresh : h.table.FreshSlot) (c : Nat) : TokensInv (h.new_dataset c).1 := by
  apply hi.later (htable.later_insert hfresh _ _)
  · intro c' core hcore
    obtain ⟨hget, hlive⟩ := core?_iff.mp hcore
    refine .inl ⟨_, core?_iff.mpr ⟨getElem?_modify_some.mpr ⟨core, hget, rfl⟩, ?_⟩⟩
    split
    · exact hlive
    · exact hlive
  · intro d r hr
    obtain hr | ⟨rfl, rfl⟩ := getElem?_concat_some.mp hr
    · exact .inl ⟨r, hr, rfl, rfl⟩
    · exact .inr ((insert_settled _ _).imp_right fun hm => ⟨rfl, hm⟩)
  · exact fun i r hr => .inl hr
  · exact fun v r hr => .inl hr

theorem TokensInv.new_io (hi : TokensInv h) (htable : TableInv h.table)
    (hfresh : h.table.FreshSlot) (d : Nat) {c : Nat} {core : CoreRecord}
    (hcore : h.core? c = some core) : TokensInv (h.new_io d c).1 := by
  apply hi.later (htable.later_insert hfresh _ _)
  · exact fun c core hcore => .inl ⟨core, hcore⟩
  · exact fun d r hr => .inl ⟨r, hr, rfl, rfl⟩
  · intro i r hr
    obtain hr | ⟨-, rfl⟩ := getElem?_concat_some.mp hr
    · exact .inl hr
    · exact .inr ⟨core, hcore⟩
  · exact fun v r hr => .inl hr

theorem TokensInv.new_view (hi : TokensInv h) (htable : TableInv h.table)
    (hfresh : h.table.FreshSlot) (d : Nat) {c : Nat} {core : CoreRecord}
    (hcore : h.core? c = some core) : TokensInv (h.new_view d c).1 := by
  apply hi.later (htable.later_insert hfresh _ _)
  · exact fun c core hcore => .inl ⟨core, hcore⟩
  · intro d' r hr
    obtain ⟨r₀, hr₀, rfl⟩ := getElem?_modify_some.mp hr
    refine .inl ⟨r₀, hr₀, ?_, ?_⟩
    · split <;> rfl
    · split <;> rfl
  · exact fun i r hr => .inl hr
  · intro v r hr
    obtain hr | ⟨-, rfl⟩ := getElem?_concat_some.mp hr
    · exact .inl hr
    · exact .inr (.inr ⟨rfl, core, hcore⟩)

theorem TokensInv.close_dataset (hi : TokensInv h) (htable : TableInv h.table) {d : Nat}
    {record : DatasetRecord} (hrecord : h.dataset? d = some record) :
    TokensInv (h.close_dataset d record) := by
  have hget := (dataset?_iff.mp hrecord).1
  have hkey : ((h.close_dataset d record).datasets).map DatasetRecord.key =
      h.datasets.map DatasetRecord.key := map_key_set hget rfl
  apply hi.later (htable.later_release _ _)
  · exact fun c core hcore => .inl ⟨core, hcore⟩
  · intro d' r hr
    obtain ⟨r₀, hr₀, ht, -, hd⟩ := exists_of_map_key hkey.symm hr
    exact .inl ⟨r₀, hr₀, ht.symm, hd.symm⟩
  · exact fun i r hr => .inl hr
  · exact fun v r hr => .inl hr

theorem TokensInv.release_view (hi : TokensInv h) (hh : HandlesInv h) {t : Token} {v : Nat}
    {view : ViewRecord} {core : CoreRecord}
    (hlive : (t, .View, some (.view v)) ∈ h.table.handles) (hview : h.view? v = some view) :
    TokensInv (h.release_view v view core) := by
  have hget := (view?_iff.mp hview).1
  obtain rfl := hh.view_token hlive hget
  apply hi.later (hh.table.later_release _ _)
  · exact fun c core hcore => .inl ⟨core, hcore⟩
  · intro d r hr
    simp only [Handles.release_view] at hr
    split at hr
    · obtain ⟨r₀, hr₀, rfl⟩ := getElem?_modify_some.mp hr
      refine .inl ⟨r₀, hr₀, ?_, ?_⟩
      · split <;> rfl
      · split <;> rfl
    · exact .inl ⟨r, hr, rfl, rfl⟩
  · exact fun i r hr => .inl hr
  · intro v' r hr
    simp only [Handles.release_view, List.getElem?_set] at hr
    split at hr
    · split at hr
      · cases hr
        exact .inr (.inl (hh.table.release_spent hlive))
      · cases hr
    · exact .inl hr

theorem TokensInv.finalize (hi : TokensInv h) (hh : HandlesInv h) {c : Nat} {core : CoreRecord}
    (hcore : h.core? c = some core) (flush_throws : Nat → Bool) (hvacated : h.Vacated c) :
    TokensInv (h.finalize c core flush_throws) := by
  obtain ⟨table, datasets, heq, htable, hlater, hdatasets, hhandles⟩ :=
    hh.finalize_spec hcore flush_throws
  have hlater' := hlater.trans (htable.later_release core.core_token .Core)
  rw [heq]
  apply hi.later hlater'
  · intro c' core' hcore'
    by_cases hc : c = c'
    · subst hc
      exact .inr hvacated
    · obtain ⟨hget, hlive⟩ := core?_iff.mp hcore'
      refine .inl ⟨core', core?_iff.mpr ⟨?_, hlive⟩⟩
      rw [List.getElem?_set_ne hc, hget]
  · intro d r hr
    rw [hdatasets d, Option.map_eq_some_iff] at hr
    obtain ⟨r₀, hr₀, rfl⟩ := hr
    by_cases hc : r₀.core = c
    · -- its handle has been released
      rw [if_pos hc]
      refine .inr (.inl ?_)
      obtain hspent | ⟨-, hm⟩ := hi.datasets d r₀ hr₀
      · exact hlater'.spent hspent
      · obtain hm' | hspent := hlater.handles _ _ _ hm
        · exact absurd ⟨rfl, rfl⟩ ((hhandles _ _ _ hm').2 d r₀ hr₀ hc)
        · exact (htable.later_release _ _).spent hspent
    · rw [if_neg hc]
      exact .inl ⟨r₀, hr₀, rfl, rfl⟩
  · exact fun i r hr => .inl hr
  · exact fun v r hr => .inl hr

theorem TokensInv.change (hi : TokensInv w.toHandles) (hh : HandlesInv w.toHandles) {q : Call}
    {h' : Handles} (hok : OrderlyTeardown w (.call q)) (hc : Change w q h') : TokensInv h' := by
  cases hc with
  | same => exact hi
  | new_core hq => exact hi.new_core hh.table (hok.1 hq) _
  | new_dataset hq hcore => exact hi.new_dataset hh.table (hok.1 hq) _
  | new_io hq hrecord hcore => exact hi.new_io hh.table (hok.1 hq) _ hcore
  | new_view hq hrecord hcore => exact hi.new_view hh.table (hok.1 hq) _ hcore
  | close hlive hrecord hviews => exact hi.close_dataset hh.table hrecord
  | release_view hlive hview hcore => exact hi.release_view hh hlive hview
  | @finalize t drained flush_throws c core hlive hcore =>
    have hlookup := (hh.table.lookup_iff _ _ _).mpr hlive
    have hvacated := hok.2 (c, flush_throws) (by simp [World.finalizes, hlookup])
    exact hi.finalize hh hcore flush_throws hvacated

theorem tokens_inv_reachable (hr : (boundary.restrict OrderlyTeardown).Reachable w) :
    TokensInv w.toHandles := by
  refine hr.invariant (P := fun w => TokensInv w.toHandles) ?_ ?_
  · rintro _ rfl
    exact tokens_inv_empty
  · rintro w e w' hr hi ⟨hok, hstep⟩
    have hh := handles_inv_reachable hr.of_restrict
    obtain heq | ⟨q, res, rfl, hcall⟩ := next_cases hstep
    · rw [heq]
      exact hi
    · exact hi.change hh hok (call_change hh.table hcall)

/-- The tokens of the datasets, requests and views that were made under a
    core. -/
def Handles.MadeUnder (h : Handles) (c : Nat) (t : Token) : Prop :=
  (∃ r ∈ h.datasets, r.core = c ∧ r.token = t) ∨ (∃ r ∈ h.ios, r.core = c ∧ r.token = t) ∨
    ∃ r ∈ h.views, r.core = c ∧ r.token = t

theorem TokensInv.spent_of_destroyed (hi : TokensInv h) (hh : HandlesInv h) {c : Nat}
    {core : CoreRecord} (hcore : h.cores[c]? = some core) (hdead : core.destroyed = true)
    {t : Token} (hmade : h.MadeUnder c t) : h.table.Spent t := by
  have hgone : ∀ core', h.core? c ≠ some core' := by
    intro core' hlive
    obtain ⟨hget, halive⟩ := core?_iff.mp hlive
    rw [hcore] at hget
    cases hget
    rw [hdead] at halive
    cases halive
  obtain ⟨r, hr, rfl, rfl⟩ | ⟨r, hr, rfl, rfl⟩ | ⟨r, hr, rfl, rfl⟩ := hmade
  · obtain ⟨d, hd⟩ := List.mem_iff_getElem?.mp hr
    obtain hspent | ⟨hlive, -⟩ := hi.datasets d r hd
    · exact hspent
    · obtain ⟨core', hcore', heq⟩ := hh.dataset_core d r hd
      rw [hcore] at hcore'
      cases hcore'
      rw [hdead, hlive] at heq
      cases heq
  · obtain ⟨i, hri⟩ := List.mem_iff_getElem?.mp hr
    obtain hspent | ⟨core', hlive⟩ := hi.ios i r hri
    · exact hspent
    · exact absurd hlive (hgone core')
  · obtain ⟨v, hrv⟩ := List.mem_iff_getElem?.mp hr
    obtain hspent | ⟨-, core', hlive⟩ := hi.views v r hrv
    · exact hspent
    · exact absurd hlive (hgone core')

/-- The pointer arguments of a call are all there. -/
def Call.pointers : Call → Bool
  | .init pointers _ => pointers
  | .core _ pointers _ => pointers
  | .dataset _ pointers _ => pointers
  | .wait _ => true
  | .view _ pointers _ => pointers

/-- The call is turned away before it looks at a record, and nothing changes. -/
def World.Rejects (w : World) (q : Call) : Prop :=
  ∃ e, (q.pointers = true → e = .ERR_NULL_HANDLE ∨ e = .ERR_INVALID_HANDLE) ∧
    w.call q = some (.error e, w)

theorem rejects_of_not_live (htable : TableInv w.table) {t : Token}
    (hno : ∀ kind p, (t, kind, p) ∉ w.table.handles) {q : Call} (hq : q.token = some t) :
    w.Rejects q := by
  have hdispatch : ∀ kind op, ∃ e, (e = .ERR_NULL_HANDLE ∨ e = .ERR_INVALID_HANDLE) ∧
      w.kind_dispatch t kind op = some (.error e, w) := by
    intro kind op
    obtain ⟨e, he, hl⟩ := htable.lookup_refused (hno kind)
    exact ⟨e, he, by simp only [World.kind_dispatch, hl]⟩
  cases q with
  | init pointers built => cases hq
  | core token pointers op =>
    cases hq
    cases pointers with
    | false => exact ⟨.ERR_INVALID_INPUT, by simp [Call.pointers], rfl⟩
    | true =>
      obtain ⟨e, he, hcall⟩ := hdispatch .Core _
      exact ⟨e, fun _ => he, hcall⟩
  | dataset token pointers op =>
    cases hq
    cases pointers with
    | false => exact ⟨.ERR_INVALID_INPUT, by simp [Call.pointers], rfl⟩
    | true =>
      obtain ⟨e, he, hcall⟩ := hdispatch .Dataset _
      exact ⟨e, fun _ => he, hcall⟩
  | wait token =>
    cases hq
    obtain ⟨e, he, hcall⟩ := hdispatch .Io _
    exact ⟨e, fun _ => he, hcall⟩
  | view token pointers op =>
    cases hq
    cases pointers with
    | false => exact ⟨.ERR_INVALID_INPUT, by simp [Call.pointers], rfl⟩
    | true =>
      obtain ⟨e, he, hcall⟩ := hdispatch .View _
      exact ⟨e, fun _ => he, hcall⟩

/-- **Handles of a finalized core.** In a run whose tokens are made once and
    whose cores are vacated when they are finalized, every call with a handle
    that was made under a finalized core is rejected, without a look at the
    core. -/
theorem finalized_handles_rejected (hr : (boundary.restrict OrderlyTeardown).Reachable w)
    (c : Nat) (core : CoreRecord) (hcore : w.cores[c]? = some core)
    (hdead : core.destroyed = true) (t : Token) (hmade : w.MadeUnder c t) (q : Call)
    (hq : q.token = some t) : w.Rejects q := by
  have hh := handles_inv_reachable hr.of_restrict
  have hi := tokens_inv_reachable hr
  have hspent := hi.spent_of_destroyed hh hcore hdead hmade
  exact rejects_of_not_live hh.table (hh.table.spent_not_live hi.first_turn hspent) hq

/-- A core without workers, a dataset that is written to, and `finalize`. -/
def writtenRun (args : WriteArgs) : List Event :=
  [.call (.init true (.ok false)),
   .call (.core (HandleTable.pack 0 1) true (.open_dataset AMIO_MODE_WRITE (.ok ()))),
   .call (.dataset (HandleTable.pack 1 1) true (.write args (some 0) true)),
   .call (.core (HandleTable.pack 0 1) true (.finalize (fun _ => none) fun _ => false))]

/-- One float. -/
def oneFloat : WriteArgs where
  dataset_id := 0
  var_name := some [120#8]
  host_data := some [0#8, 0#8, 0#8, 0#8]
  dtype := .F32
  shape := some ⟨1, fun _ => 1, fun _ => 0⟩

theorem finalized_handles_rejected_flush : ∃ w, (boundary.restrict OrderlyTeardown).Reachable w ∧
    w.MadeUnder 0 (HandleTable.pack 1 1) ∧
    w.Rejects (.dataset (HandleTable.pack 1 1) true .flush) := by
  have hrun : ∃ w, System.exec (System.guarded World.next OrderlyTeardown) .empty
      (writtenRun { oneFloat with shape := none }) = some w ∧
      w.cores[0]? = some ⟨HandleTable.pack 0 1, [], false, true⟩ ∧
      (⟨0, HandleTable.pack 1 1, 0, true, 1⟩ : DatasetRecord) ∈ w.datasets :=
    ⟨_, rfl, rfl, List.mem_cons_self⟩
  obtain ⟨w, hexec, hcore, hmem⟩ := hrun
  have hr : (boundary.restrict OrderlyTeardown).Reachable w :=
    System.restrict_reachable_of_exec rfl hexec
  have hmade : w.MadeUnder 0 (HandleTable.pack 1 1) := .inl ⟨_, hmem, rfl, rfl⟩
  exact ⟨w, hr, hmade, finalized_handles_rejected hr 0 _ hcore rfl _ hmade _ rfl⟩

/-- **Requests and views outlive their core.** After `finalize`, `wait` accepts
    a request of the core, and the view that was not returned is looked up: its
    release reads the deleted core. -/
theorem leftover_handles_accepted : ∃ w, boundary.Reachable w ∧
    (∃ core, w.cores[0]? = some core ∧ core.destroyed = true) ∧
    (w.MadeUnder 0 (HandleTable.pack 2 1) ∧
      w.call (.wait (HandleTable.pack 2 1)) = some (.ok .done, w)) ∧
    (w.MadeUnder 0 (HandleTable.pack 4 1) ∧
      w.call (.view (HandleTable.pack 4 1) true .release) = none) := by
  have hrun : ∃ w, System.exec World.next .empty
      [.call (.init true (.ok false)),
       .call (.core (HandleTable.pack 0 1) true (.open_dataset AMIO_MODE_WRITE (.ok ()))),
       .call (.dataset (HandleTable.pack 1 1) true (.write oneFloat (some 0) true)),
       .call (.core (HandleTable.pack 0 1) true (.open_dataset AMIO_MODE_READ (.ok ()))),
       .call (.dataset (HandleTable.pack 3 1) true
         (.read "x" 0 none (some ⟨.F32, ⟨1, fun _ => 1, fun _ => 0⟩, 1⟩) (.ok 1) {})),
       .call (.core (HandleTable.pack 0 1) true
         (.finalize (fun _ => none) fun _ => false))] = some w ∧
      w.cores[0]? = some ⟨HandleTable.pack 0 1, [], false, true⟩ ∧
      (⟨0, 0, HandleTable.pack 2 1⟩ : IoRecord) ∈ w.ios ∧
      w.call (.wait (HandleTable.pack 2 1)) = some (.ok .done, w) ∧
      (⟨1, 0, HandleTable.pack 4 1, false⟩ : ViewRecord) ∈ w.views ∧
      w.call (.view (HandleTable.pack 4 1) true .release) = none :=
    ⟨_, rfl, rfl, List.mem_cons_self, rfl, List.mem_cons_self, rfl⟩
  obtain ⟨w, hexec, hcore, hio, hwait, hview, hrelease⟩ := hrun
  have hr : boundary.Reachable w := System.reachable_of_exec rfl hexec
  exact ⟨w, hr, ⟨_, hcore, rfl⟩, ⟨.inr (.inl ⟨_, hio, rfl, rfl⟩), hwait⟩,
    ⟨.inr (.inr ⟨_, hview, rfl, rfl⟩), hrelease⟩⟩

end Teardown

/-! ## Section 2: Drivers are closed once -/

section Closing

variable {w w' : World} {h : Handles}

/-- Has the driver been closed? -/
def Handles.closed (h : Handles) (d : Nat) : Bool := (h.datasets[d]?).any (0 < ·.closes)

/-- A core is finalized when, of the drivers of its datasets, exactly those
    throw on `flush` that have been closed before. -/
def ClosesOnce (w : World) (e : Event) : Prop :=
  ∀ x ∈ w.finalizes e, ∀ core ∈ w.core? x.1, ∀ d ∈ core.datasets, x.2 d = w.closed d

instance (w : World) (e : Event) : Decidable (ClosesOnce w e) :=
  inferInstanceAs (Decidable
    (∀ x ∈ w.finalizes e, ∀ core ∈ w.core? x.1, ∀ d ∈ core.datasets, x.2 d = w.closed d))

/-- The driver of a dataset has not been closed while there is a handle, and
    has been closed once after the dataset has been deleted. -/
structure ClosesInv (h : Handles) : Prop where
  at_most_once : ∀ (d : Nat) (r : DatasetRecord), h.datasets[d]? = some r → r.closes ≤ 1
  deleted : ∀ (d : Nat) (r : DatasetRecord), h.datasets[d]? = some r → r.destroyed = true →
    r.closes = 1
  live : ∀ (d : Nat) (r : DatasetRecord), h.datasets[d]? = some r →
    ∀ t, (t, .Dataset, some (.dataset d)) ∈ h.table.handles → r.closes = 0

theorem closes_inv_empty : ClosesInv .empty where
  at_most_once := by simp [Handles.empty]
  deleted := by simp [Handles.empty]
  live := by simp [Handles.empty]

theorem ClosesInv.keep (hi : ClosesInv h) {h' : Handles}
    (hdatasets : ∀ (d : Nat) (r : DatasetRecord), h'.datasets[d]? = some r →
      (∃ r₀ : DatasetRecord, h.datasets[d]? = some r₀ ∧ r.closes = r₀.closes ∧
        r.destroyed = r₀.destroyed ∧
        ∀ t, (t, .Dataset, some (.dataset d)) ∈ h'.table.handles →
          (t, .Dataset, some (.dataset d)) ∈ h.table.handles) ∨
      (r.closes = 0 ∧ r.destroyed = false)) :
    ClosesInv h' := by
  constructor
  case at_most_once =>
    intro d r hr
    obtain ⟨r₀, hr₀, hc, -⟩ | ⟨hc, -⟩ := hdatasets d r hr
    · rw [hc]
      exact hi.at_most_once d r₀ hr₀
    · omega
  case deleted =>
    intro d r hr hd
    obtain ⟨r₀, hr₀, hc, heq, -⟩ | ⟨-, hlive⟩ := hdatasets d r hr
    · rw [hc]
      exact hi.deleted d r₀ hr₀ (heq.symm.trans hd)
    · rw [hlive] at hd
      cases hd
  case live =>
    intro d r hr t hm
    obtain ⟨r₀, hr₀, hc, -, hback⟩ | ⟨hc, -⟩ := hdatasets d r hr
    · rw [hc]
      exact hi.live d r₀ hr₀ t (hback t hm)
    · exact hc

theorem mem_insert_dataset {s : TableState Payload} {kind : HandleKind} {payload : Payload}
    {t : Token} {d : Nat} (hne : payload ≠ .dataset d)
    (hm : (t, .Dataset, some (.dataset d)) ∈ (s.insert kind payload).1.handles) :
    (t, .Dataset, some (.dataset d)) ∈ s.handles := by
  obtain hm | ⟨-, -, -, heq⟩ := TableState.mem_insert.mp hm
  · exact hm
  · cases heq
    exact absurd rfl hne

theorem ClosesInv.close_dataset (hi : ClosesInv h) (hh : HandlesInv h) {t : Token} {d : Nat}
    {record : DatasetRecord} (hlive : (t, .Dataset, some (.dataset d)) ∈ h.table.handles)
    (hrecord : h.dataset? d = some record) : ClosesInv (h.close_dataset d record) := by
  obtain ⟨hget, hopen⟩ := dataset?_iff.mp hrecord
  have hzero := hi.live d record hget t hlive
  have hold : ∀ (d' : Nat) (r : DatasetRecord), (h.close_dataset d record).datasets[d']? = some r →
      (d' = d ∧ r = { record with closes := 1 }) ∨ (d' ≠ d ∧ h.datasets[d']? = some r) := by
    intro d' r hr
    simp only [Handles.close_dataset, hzero, List.getElem?_set] at hr
    split at hr
    · next heq =>
      split at hr
      · cases hr
        exact .inl ⟨heq.symm, rfl⟩
      · cases hr
    · next hne => exact .inr ⟨Ne.symm hne, hr⟩
  constructor
  case at_most_once =>
    intro d' r hr
    obtain ⟨-, rfl⟩ | ⟨-, hr⟩ := hold d' r hr
    · exact le_rfl
    · exact hi.at_most_once d' r hr
  case deleted =>
    intro d' r hr hd
    obtain ⟨-, rfl⟩ | ⟨-, hr⟩ := hold d' r hr
    · rfl
    · exact hi.deleted d' r hr hd
  case live =>
    intro d' r hr t' hm
    obtain ⟨hbefore, hne⟩ := hh.table.mem_release hm
    obtain ⟨rfl, -⟩ | ⟨-, hr⟩ := hold d' r hr
    · -- the handle of this dataset is gone
      exact absurd ⟨(hh.dataset_token hbefore hget).symm, rfl⟩ hne
    · exact hi.live d' r hr t' hbefore

theorem ClosesInv.release_view (hi : ClosesInv h) (hh : HandlesInv h) {v : Nat}
    {view : ViewRecord} {core : CoreRecord} : ClosesInv (h.release_view v view core) := by
  apply hi.keep
  intro d r hr
  have hback : ∀ t, (t, .Dataset, some (.dataset d)) ∈ (h.release_view v view core).table.handles →
      (t, .Dataset, some (.dataset d)) ∈ h.table.handles :=
    fun t hm => (hh.table.mem_release hm).1
  simp only [Handles.release_view] at hr
  split at hr
  · obtain ⟨r₀, hr₀, rfl⟩ := getElem?_modify_some.mp hr
    refine .inl ⟨r₀, hr₀, ?_, ?_, hback⟩
    · split <;> rfl
    · split <;> rfl
  · exact .inl ⟨r, hr, rfl, rfl, hback⟩

/-- `finalize` closes the drivers that have not been closed and no other. -/
theorem ClosesInv.finalize (hi : ClosesInv h) (hh : HandlesInv h) {c : Nat} {core : CoreRecord}
    (hcore : h.core? c = some core) (flush_throws : Nat → Bool)
    (hthrows : ∀ d ∈ core.datasets, flush_throws d = h.closed d) :
    ClosesInv (h.finalize c core flush_throws) := by
  obtain ⟨hget, hopen⟩ := core?_iff.mp hcore
  obtain ⟨table, datasets, heq, htable, -, hdatasets, hhandles⟩ :=
    hh.finalize_spec hcore flush_throws
  rw [heq]
  have hold : ∀ (d : Nat) (r : DatasetRecord), datasets[d]? = some r → ∃ r₀ : DatasetRecord,
      h.datasets[d]? = some r₀ ∧ ((r₀.core = c ∧ r.closes = 1) ∨ (r₀.core ≠ c ∧ r = r₀)) := by
    intro d r hr
    rw [hdatasets d, Option.map_eq_some_iff] at hr
    obtain ⟨r₀, hr₀, rfl⟩ := hr
    refine ⟨r₀, hr₀, ?_⟩
    by_cases hc : r₀.core = c
    · refine .inl ⟨hc, ?_⟩
      obtain ⟨core', hcore', hd⟩ := hh.dataset_core d r₀ hr₀
      rw [hc, hget] at hcore'
      cases hcore'
      have hmem := (hh.registry c core hget d).mpr ⟨r₀, hr₀, hc, hd.symm.trans hopen⟩
      have hflush : flush_throws d = decide (0 < r₀.closes) := by
        rw [hthrows d hmem, Handles.closed, hr₀, Option.any_some]
      have hle := hi.at_most_once d r₀ hr₀
      rw [if_pos hc]
      simp only [DatasetRecord.finalized, hflush, decide_eq_true_eq]
      split <;> omega
    · rw [if_neg hc]
      exact .inr ⟨hc, rfl⟩
  constructor
  case at_most_once =>
    intro d r hr
    obtain ⟨r₀, hr₀, ⟨-, hone⟩ | ⟨-, rfl⟩⟩ := hold d r hr
    · omega
    · exact hi.at_most_once d r hr₀
  case deleted =>
    intro d r hr hd
    obtain ⟨r₀, hr₀, ⟨-, hone⟩ | ⟨-, rfl⟩⟩ := hold d r hr
    · exact hone
    · exact hi.deleted d r hr₀ hd
  case live =>
    intro d r hr t hm
    obtain ⟨hm, -⟩ := htable.mem_release hm
    obtain ⟨hm, hgone⟩ := hhandles _ _ _ hm
    obtain ⟨r₀, hr₀, ⟨hc, -⟩ | ⟨-, rfl⟩⟩ := hold d r hr
    · exact absurd ⟨(hh.dataset_token hm hr₀).symm, rfl⟩ (hgone d r₀ hr₀ hc)
    · exact hi.live d r hr₀ t hm

theorem ClosesInv.change (hi : ClosesInv w.toHandles) (hh : HandlesInv w.toHandles) {q : Call}
    {h' : Handles} (hok : ClosesOnce w (.call q)) (hc : Change w q h') : ClosesInv h' := by
  cases hc with
  | same => exact hi
  | new_core hq =>
    apply hi.keep
    intro d r hr
    exact .inl ⟨r, hr, rfl, rfl, fun t hm => mem_insert_dataset (by simp) hm⟩
  | new_dataset hq hcore =>
    apply hi.keep
    intro d r hr
    obtain hr | ⟨-, rfl⟩ := getElem?_concat_some.mp hr
    · refine .inl ⟨r, hr, rfl, rfl, fun t hm => mem_insert_dataset ?_ hm⟩
      have := (List.getElem?_eq_some_iff.mp hr).1
      simp only [ne_eq, Payload.dataset.injEq]
      omega
    · exact .inr ⟨rfl, rfl⟩
  | new_io hq hrecord hcore =>
    apply hi.keep
    intro d r hr
    exact .inl ⟨r, hr, rfl, rfl, fun t hm => mem_insert_dataset (by simp) hm⟩
  | new_view hq hrecord hcore =>
    apply hi.keep
    intro d r hr
    obtain ⟨r₀, hr₀, rfl⟩ := getElem?_modify_some.mp hr
    refine .inl ⟨r₀, hr₀, ?_, ?_, fun t hm => mem_insert_dataset (by simp) hm⟩
    · split <;> rfl
    · split <;> rfl
  | close hlive hrecord hviews => exact hi.close_dataset hh hlive hrecord
  | release_view hlive hview hcore => exact hi.release_view hh
  | @finalize t drained flush_throws c core hlive hcore =>
    have hlookup := (hh.table.lookup_iff _ _ _).mpr hlive
    have hthrows := hok (c, flush_throws) (by simp [World.finalizes, hlookup]) core hcore
    exact hi.finalize hh hcore flush_throws hthrows

theorem closes_inv_reachable (hr : (boundary.restrict ClosesOnce).Reachable w) :
    ClosesInv w.toHandles := by
  refine hr.invariant (P := fun w => ClosesInv w.toHandles) ?_ ?_
  · rintro _ rfl
    exact closes_inv_empty
  · rintro w e w' hr hi ⟨hok, hstep⟩
    have hh := handles_inv_reachable hr.of_restrict
    obtain heq | ⟨q, res, rfl, hcall⟩ := next_cases hstep
    · rw [heq]
      exact hi
    · exact hi.change hh hok (call_change hh.table hcall)

/-! ### A close while views are out -/

/-- The dataset has a view that has not been returned. -/
def Handles.ViewsOut (h : Handles) (d : Nat) : Prop :=
  ∃ r ∈ h.views, r.dataset = d ∧ r.destroyed = false

theorem HandlesInv.views_out_iff (hh : HandlesInv h) {d : Nat} {record : DatasetRecord}
    (hrecord : h.datasets[d]? = some record) :
    0 < record.outstanding_views ↔ h.ViewsOut d := by
  rw [hh.counted d record hrecord, List.countP_pos_iff]
  simp [Handles.ViewsOut, ViewRecord.outstanding]

theorem call_close_eq (hh : HandlesInv w.toHandles) {t : Token} {d : Nat}
    (hlookup : w.table.table.lookup t .Dataset = .ok (some (.dataset d)))
    (flush_throws close_throws : Bool) : ∃ record, w.dataset? d = some record ∧
      w.call (.dataset t true (.close flush_throws close_throws)) =
        w.close_dataset d flush_throws close_throws := by
  obtain ⟨record, hr, -, hd⟩ := hh.backed _ _ _ ((hh.table.lookup_iff _ _ _).mp hlookup)
  refine ⟨record, dataset?_iff.mpr ⟨hr, hd⟩, ?_⟩
  show w.kind_dispatch t .Dataset _ = _
  simp only [World.kind_dispatch, hlookup]
  rfl

/-- **A close while views are out** is refused in every run, and changes
    nothing. -/
theorem close_refused_with_views (hr : boundary.Reachable w) {t : Token} {d : Nat}
    (hlookup : w.table.table.lookup t .Dataset = .ok (some (.dataset d)))
    (hviews : w.ViewsOut d) (flush_throws close_throws : Bool) :
    w.call (.dataset t true (.close flush_throws close_throws)) =
      some (.error .ERR_VIEWS_OUTSTANDING, w) := by
  have hh := handles_inv_reachable hr
  obtain ⟨record, hrecord, hcall⟩ := call_close_eq hh hlookup flush_throws close_throws
  have hpos := (hh.views_out_iff (dataset?_iff.mp hrecord).1).mpr hviews
  rw [hcall]
  simp only [World.close_dataset, hrecord, if_pos hpos]

/-- **Drivers are closed once.** In a run in which `flush` throws inside
    `finalize` for exactly the drivers that have been closed before: no driver
    is closed twice; the driver of a dataset has been closed once when its core
    is finalized, and after a `close` that finds no view; and a `close` while
    views are out is refused and changes nothing. -/
theorem drivers_closed_once (hr : (boundary.restrict ClosesOnce).Reachable w) :
    (∀ (d : Nat) (r : DatasetRecord), w.datasets[d]? = some r → r.closes ≤ 1 ∧
      ∀ core : CoreRecord, w.cores[r.core]? = some core → core.destroyed = true →
        r.closes = 1) ∧
    ∀ (t : Token) (d : Nat) (flush_throws close_throws : Bool),
      w.table.table.lookup t .Dataset = .ok (some (.dataset d)) →
      (¬ w.ViewsOut d → ∃ res w' r,
        w.call (.dataset t true (.close flush_throws close_throws)) = some (res, w') ∧
        w'.datasets[d]? = some r ∧ r.closes = 1) ∧
      (w.ViewsOut d → w.call (.dataset t true (.close flush_throws close_throws)) =
        some (.error .ERR_VIEWS_OUTSTANDING, w)) := by
  have hh := handles_inv_reachable hr.of_restrict
  have hi := closes_inv_reachable hr
  constructor
  · intro d r hget
    refine ⟨hi.at_most_once d r hget, ?_⟩
    intro core hcore hdead
    obtain ⟨core', hcore', heq⟩ := hh.dataset_core d r hget
    rw [hcore] at hcore'
    cases hcore'
    exact hi.deleted d r hget (heq.symm.trans hdead)
  · intro t d flush_throws close_throws hlookup
    constructor
    · intro hnone
      obtain ⟨record, hrecord, hcall⟩ := call_close_eq hh hlookup flush_throws close_throws
      obtain ⟨hget, -⟩ := dataset?_iff.mp hrecord
      have hzero := hi.live d record hget t ((hh.table.lookup_iff _ _ _).mp hlookup)
      have hnot : ¬ 0 < record.outstanding_views :=
        fun hpos => hnone ((hh.views_out_iff hget).mp hpos)
      obtain ⟨hlt, -⟩ := List.getElem?_eq_some_iff.mp hget
      rw [hcall]
      simp only [World.close_dataset, hrecord, if_neg hnot]
      refine ⟨_, _, _, rfl, List.getElem?_set_self hlt, ?_⟩
      simp only [hzero]
    · exact fun hviews =>
        close_refused_with_views hr.of_restrict hlookup hviews flush_throws close_throws

theorem drivers_closed_once_finalize : ∃ w, (boundary.restrict ClosesOnce).Reachable w ∧
    ∀ (d : Nat) (r : DatasetRecord), w.datasets[d]? = some r → r.closes = 1 := by
  have hrun : ∃ w, System.exec (System.guarded World.next ClosesOnce) .empty
      (writtenRun oneFloat) = some w ∧
      w.cores = [⟨HandleTable.pack 0 1, [], false, true⟩] := ⟨_, rfl, rfl⟩
  obtain ⟨w, hexec, hcores⟩ := hrun
  have hr : (boundary.restrict ClosesOnce).Reachable w :=
    System.restrict_reachable_of_exec rfl hexec
  refine ⟨w, hr, ?_⟩
  intro d r hget
  obtain ⟨core, hcore, -⟩ := (handles_inv_reachable hr.of_restrict).dataset_core d r hget
  refine ((drivers_closed_once hr).1 d r hget).2 core hcore ?_
  rw [hcores] at hcore
  have hmem := List.mem_of_getElem? hcore
  rw [List.mem_singleton] at hmem
  rw [hmem]

/-- **A closed driver is closed again.** `finalize` finds the record of a
    dataset that was closed still in the registry. -/
theorem closed_driver_closed_again : ∃ w, boundary.Reachable w ∧
    (⟨0, HandleTable.pack 1 1, 0, true, 2⟩ : DatasetRecord) ∈ w.datasets := by
  have hrun : ∃ w, System.exec World.next .empty
      [.call (.init true (.ok false)),
       .call (.core (HandleTable.pack 0 1) true (.open_dataset AMIO_MODE_WRITE (.ok ()))),
       .call (.dataset (HandleTable.pack 1 1) true (.close false false)),
       .call (.core (HandleTable.pack 0 1) true
         (.finalize (fun _ => none) fun _ => false))] = some w ∧
      (⟨0, HandleTable.pack 1 1, 0, true, 2⟩ : DatasetRecord) ∈ w.datasets :=
    ⟨_, rfl, List.mem_cons_self⟩
  obtain ⟨w, hexec, hmem⟩ := hrun
  have hr : boundary.Reachable w := System.reachable_of_exec rfl hexec
  exact ⟨w, hr, hmem⟩

end Closing

end Amio.Boundary
