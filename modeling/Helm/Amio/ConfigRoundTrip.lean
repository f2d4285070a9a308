import Helm.Amio.ConfigLoader

/-! # AMIO: serialize and parse a configuration

  `serialize` is documented to be the inverse of `parse_string` on valid
  configurations. The text it writes is a YAML document with the strings as
  they are, and the reader takes every number as an `int`.

  Main result: `parse_serialize_iff`.
-/

namespace Amio

namespace ConfigLoader

open Yaml Conf Signed

/-! ## Section 1: The document -/

def list_field (key : String) (texts : List String) : List (String × Leaf) :=
  if texts = [] then [] else [(key, .items texts)]

def int_texts (ns : List Int32) : List String := ns.map fun n => toString n.toInt

def staging_pool_fields (c : StagingPoolConfig) : List (String × Leaf) :=
  [("buffer_count", .text (toString c.buffer_count)),
   ("buffer_capacity_bytes", .text (toString c.buffer_capacity_bytes)),
   ("max_buffer_count", .text (toString c.max_buffer_count))]

def numa_field (domain : Option Int32) : List (String × Leaf) :=
  match domain with
  | some n => [("numa_domain", .text (toString n.toInt))]
  | none => []

def worker_pool_fields (c : WorkerPoolCfg) : List (String × Leaf) :=
  ("threads", .text (toString c.threads)) ::
    (list_field "cpu_cores" (int_texts c.cpu_cores) ++ numa_field c.numa_domain)

def prefetch_fields (c : PrefetchConfig) : List (String × Leaf) :=
  [("depth", .text (toString c.depth)), ("read_timeout_s", .text (toString c.read_timeout_s))]

def backpressure_fields (c : BackpressureCfg) : List (String × Leaf) :=
  [("low_watermark", .text (toString c.low_watermark)),
   ("high_watermark", .text (toString c.high_watermark)),
   ("queue_capacity", .text (toString c.queue_capacity))]

def codec_fields (c : CodecConfig) : List (String × Leaf) :=
  ("active_codec", .text c.active_codec) :: list_field "lossless_allow_list" c.lossless_allow_list

/-- The document in front of the backend and behind it. -/
def front (c : Config) : Document :=
  [("staging_pool", .fields (staging_pool_fields c.staging_pool)),
   ("worker_pool", .fields (worker_pool_fields c.worker_pool)),
   ("prefetch", .fields (prefetch_fields c.prefetch)),
   ("staging_timeout_ms", .leaf (.text (toString c.staging_timeout_ms))),
   ("backpressure", .fields (backpressure_fields c.backpressure))]

def io_ranks_entry (ranks : List Int32) : Document :=
  (list_field "io_ranks" (int_texts ranks)).map fun f => (f.1, .leaf f.2)

def back (c : Config) : Document :=
  ("codec", .fields (codec_fields c.codec)) :: io_ranks_entry c.io_ranks

def document (c : Config) : Document :=
  front c ++ ("backend", .leaf (.text c.backend)) :: back c

/-! ## Section 2: Its text -/

theorem text_of_lines_append (as bs : List Line) :
    text_of_lines (as ++ bs) = text_of_lines as ++ text_of_lines bs := by
  induction as with
  | nil => simp [text_of_lines]
  | cons a as ih => simp [text_of_lines, ih, String.append_assoc]

theorem text_of_items (indent : Nat) (ts : List String) :
    text_of_lines (ts.map (.item indent)) = write_items (spaces indent ++ "- ") ts := by
  induction ts with
  | nil => rfl
  | cons t ts ih =>
    rw [List.map_cons, text_of_lines, ih]
    rfl

theorem text_of_list_field (key : String) (ts : List String) :
    text_of_lines ((list_field key ts).flatMap fun f => f.2.lines 2 f.1) =
      write_list ("  " ++ key ++ ":\n") "    - " ts := by
  have hspaces : spaces 2 = "  " := by decide
  have hitem : spaces (2 + 2) ++ "- " = "    - " := by decide
  unfold list_field write_list
  split
  · rfl
  · simp only [List.flatMap_cons, List.flatMap_nil, List.append_nil, Leaf.lines, text_of_lines,
      text_of_items, Line.content, hspaces, hitem]
    simp only [String.append_assoc]
    rfl

theorem text_of_io_ranks (ranks : List Int32) :
    Document.text (io_ranks_entry ranks) =
      write_list "io_ranks:\n" "  - " (ranks.map fun rank => toString rank.toInt) := by
  have hspaces : spaces 0 = "" := by decide
  have hitem : spaces (0 + 2) ++ "- " = "  - " := by decide
  unfold Document.text Document.lines io_ranks_entry list_field write_list int_texts
  split
  · rfl
  · simp only [List.map_cons, List.map_nil, List.flatMap_cons, List.flatMap_nil, List.append_nil,
      Entry.lines, Leaf.lines, text_of_lines, text_of_items, Line.content, hspaces, hitem]
    rfl

theorem text_of_numa (domain : Option Int32) :
    text_of_lines ((numa_field domain).flatMap fun f => f.2.lines 2 f.1) =
      write_numa_domain domain := by
  have hspaces : spaces 2 ++ "numa_domain" ++ ": " = "  numa_domain: " := by decide
  cases domain with
  | none => rfl
  | some n =>
    show (spaces 2 ++ "numa_domain" ++ ": " ++ toString n.toInt) ++ "\n" ++ "" = _
    rw [hspaces, String.append_empty]
    rfl

theorem text_of_pair (key t : String) :
    text_of_lines (Leaf.lines 2 key (.text t)) = "  " ++ key ++ ": " ++ t ++ "\n" := by
  have hspaces : spaces 2 = "  " := by decide
  simp only [Leaf.lines, text_of_lines, Line.content, hspaces, String.append_empty]

theorem text_of_top_pair (key t : String) :
    text_of_lines (Entry.lines key (.leaf (.text t))) = key ++ ": " ++ t ++ "\n" := by
  have hspaces : spaces 0 = "" := by decide
  simp only [Entry.lines, Leaf.lines, text_of_lines, Line.content, hspaces, String.append_empty,
    String.empty_append]

theorem text_of_section (key : String) (fs : List (String × Leaf)) :
    text_of_lines (Entry.lines key (.fields fs)) =
      key ++ ":" ++ "\n" ++ text_of_lines (fs.flatMap fun f => f.2.lines 2 f.1) := by
  have hspaces : spaces 0 = "" := by decide
  simp only [Entry.lines, text_of_lines, Line.content, hspaces, String.empty_append]

theorem serialize_eq (c : Config) : serialize c = (document c).text := by
  have hcores := text_of_list_field "cpu_cores" (int_texts c.worker_pool.cpu_cores)
  have hallow := text_of_list_field "lossless_allow_list" c.codec.lossless_allow_list
  have hnuma := text_of_numa c.worker_pool.numa_domain
  have hranks := text_of_io_ranks c.io_ranks
  unfold Document.text Document.lines at hranks ⊢
  simp only [document, front, back, List.cons_append, List.nil_append, List.flatMap_cons,
    staging_pool_fields, worker_pool_fields, prefetch_fields, backpressure_fields, codec_fields,
    List.flatMap_append, List.flatMap_nil, text_of_lines, text_of_lines_append, text_of_pair,
    text_of_top_pair, text_of_section, hcores, hallow, hnuma, hranks, String.reduceAppend]
  unfold serialize int_texts
  simp only [String.append_assoc, String.append_empty]

/-! ## Section 3: Valid configurations -/

theorem toString_natCast (n : Nat) : toString n = toString (n : Int) := by
  rw [Int.toString_eq_repr, Int.repr_eq_if, if_pos (Int.natCast_nonneg n), Int.toNat_natCast]
  rfl

theorem readable_int (n : Int) : readable (toString n) = true := by
  rw [readable, plain_toString, Bool.or_true]

theorem readable_nat (n : Nat) : readable (toString n) = true := by
  rw [toString_natCast]
  exact readable_int n

/-- What the rules say about the fields that are written. -/
structure RulesHold (c : Config) : Prop where
  buffer_count : c.staging_pool.buffer_count < 2 ^ 31
  buffer_capacity_bytes : c.staging_pool.buffer_capacity_bytes < 2 ^ 31
  max_buffer_count : c.staging_pool.max_buffer_count < 2 ^ 31
  threads : c.worker_pool.threads < 2 ^ 31
  depth : c.prefetch.depth < 2 ^ 31
  read_timeout_s : c.prefetch.read_timeout_s < 2 ^ 31
  staging_timeout_ms : c.staging_timeout_ms < 2 ^ 31
  allow_list : ∀ t ∈ c.codec.lossless_allow_list, t ∈ valid_codecs
  active_codec : c.codec.active_codec = "" ∨ c.codec.active_codec ∈ valid_codecs

theorem le_of_range_rule {field_path bounds extra : String} {lo hi n : Nat}
    (h : range_rule field_path bounds lo hi n extra = none) : n ≤ hi := by
  unfold range_rule at h
  split at h
  · cases h
  · omega

theorem valid_of_allow_list_rule {codec : CodecConfig} (h : allow_list_rule codec = none) :
    ∀ t ∈ codec.lossless_allow_list, t ∈ valid_codecs := by
  unfold allow_list_rule at h
  split at h
  · cases h
  · next hfind =>
    intro t ht
    have hvalid := List.find?_eq_none.mp hfind t ht
    simpa [is_valid_codec] using hvalid

theorem valid_of_active_codec_rule {codec : CodecConfig} (h : active_codec_rule codec = none) :
    codec.active_codec = "" ∨ codec.active_codec ∈ valid_codecs := by
  unfold active_codec_rule at h
  split at h
  · split at h
    · cases h
    · next hvalid =>
      right
      simpa [is_valid_codec] using hvalid
  · next hempty => exact .inl (not_not.mp hempty)

theorem rules_hold {c : Config} (h : validate c = none) : RulesHold c := by
  unfold validate at h
  simp only [Option.orElse_eq_none] at h
  obtain ⟨hcount, hcapacity, hmax, hthreads, hdepth, htimeout, hstaging, _, hallow, hactive⟩ := h
  have hcount := le_of_range_rule hcount
  have hcapacity := le_of_range_rule hcapacity
  have hmax := le_of_range_rule hmax
  have hthreads := le_of_range_rule hthreads
  have hdepth := le_of_range_rule hdepth
  have htimeout := le_of_range_rule htimeout
  have hstaging := le_of_range_rule hstaging
  unfold kMaxBufferCount at hcount hmax
  unfold kMaxBufferCapacity at hcapacity
  unfold kMaxThreads at hthreads
  unfold kMaxPrefetchDepth at hdepth
  unfold kMaxReadTimeoutS at htimeout
  unfold kMaxStagingTimeoutMs at hstaging
  constructor
  · omega
  · omega
  · omega
  · omega
  · omega
  · omega
  · omega
  · exact valid_of_allow_list_rule hallow
  · exact valid_of_active_codec_rule hactive

theorem plain_codec : ∀ t ∈ valid_codecs, plain t = true ∧ t ∉ null_texts := by decide

theorem list_field_well_formed {key : String} {ts : List String} (h : ∀ t ∈ ts, readable t = true) :
    ∀ f ∈ list_field key ts, f.1 = key ∧ f.2.WellFormed := by
  unfold list_field
  split
  · intro f hf
    cases hf
  · next hne =>
    intro f hf
    rw [List.mem_singleton.mp hf]
    exact ⟨rfl, hne, h⟩

theorem readable_int_texts (ns : List Int32) : ∀ t ∈ int_texts ns, readable t = true := by
  intro t ht
  obtain ⟨n, _, heq⟩ := List.mem_map.mp ht
  rw [← heq]
  exact readable_int _

theorem nat_field_well_formed {key : String} (hkey : is_word key = true) (n : Nat) :
    is_word key = true ∧ (Leaf.text (toString n)).WellFormed := ⟨hkey, readable_nat n⟩

theorem staging_pool_well_formed (c : StagingPoolConfig) :
    (Entry.fields (staging_pool_fields c)).WellFormed := by
  have hkeys : ["buffer_count", "buffer_capacity_bytes", "max_buffer_count"].Nodup := by decide
  refine ⟨List.cons_ne_nil _ _, hkeys, ?_⟩
  unfold staging_pool_fields
  rw [List.forall_mem_cons, List.forall_mem_cons, List.forall_mem_singleton]
  dsimp only
  exact ⟨nat_field_well_formed (by decide) _, nat_field_well_formed (by decide) _,
    nat_field_well_formed (by decide) _⟩

theorem worker_pool_well_formed (c : WorkerPoolCfg) :
    (Entry.fields (worker_pool_fields c)).WellFormed := by
  refine ⟨List.cons_ne_nil _ _, ?_, ?_⟩
  · unfold worker_pool_fields list_field numa_field
    split <;> split <;> simp
  · unfold worker_pool_fields
    rw [List.forall_mem_cons, List.forall_mem_append]
    dsimp only
    refine ⟨nat_field_well_formed (by decide) _, ?_, ?_⟩
    · intro f hf
      obtain ⟨hkey, hleaf⟩ := list_field_well_formed (readable_int_texts c.cpu_cores) f hf
      rw [hkey]
      exact ⟨by decide, hleaf⟩
    · intro f hf
      unfold numa_field at hf
      split at hf
      · have hkey : is_word "numa_domain" = true := by decide
        rw [List.mem_singleton.mp hf]
        exact ⟨hkey, readable_int _⟩
      · cases hf

theorem prefetch_well_formed (c : PrefetchConfig) :
    (Entry.fields (prefetch_fields c)).WellFormed := by
  have hkeys : ["depth", "read_timeout_s"].Nodup := by decide
  refine ⟨List.cons_ne_nil _ _, hkeys, ?_⟩
  unfold prefetch_fields
  rw [List.forall_mem_cons, List.forall_mem_singleton]
  dsimp only
  exact ⟨nat_field_well_formed (by decide) _, nat_field_well_formed (by decide) _⟩

theorem backpressure_well_formed (c : BackpressureCfg) :
    (Entry.fields (backpressure_fields c)).WellFormed := by
  have hkeys : ["low_watermark", "high_watermark", "queue_capacity"].Nodup := by decide
  refine ⟨List.cons_ne_nil _ _, hkeys, ?_⟩
  unfold backpressure_fields
  rw [List.forall_mem_cons, List.forall_mem_cons, List.forall_mem_singleton]
  dsimp only
  exact ⟨nat_field_well_formed (by decide) _, nat_field_well_formed (by decide) _,
    nat_field_well_formed (by decide) _⟩

theorem codec_well_formed {c : CodecConfig} (hactive : readable c.active_codec = true)
    (hallow : ∀ t ∈ c.lossless_allow_list, readable t = true) :
    (Entry.fields (codec_fields c)).WellFormed := by
  refine ⟨List.cons_ne_nil _ _, ?_, ?_⟩
  · unfold codec_fields list_field
    split <;> simp
  · unfold codec_fields
    have hkey : is_word "active_codec" = true := by decide
    rw [List.forall_mem_cons]
    refine ⟨⟨hkey, hactive⟩, ?_⟩
    intro f hf
    obtain ⟨hkey, hleaf⟩ := list_field_well_formed hallow f hf
    rw [hkey]
    exact ⟨by decide, hleaf⟩

theorem document_well_formed {c : Config} (hrules : RulesHold c) {backend : String}
    (hbackend : readable backend = true) :
    Document.WellFormed (front c ++ ("backend", .leaf (.text backend)) :: back c) := by
  have hactive : readable c.codec.active_codec = true := by
    obtain hempty | hvalid := hrules.active_codec
    · rw [hempty]
      decide
    · rw [readable, (plain_codec _ hvalid).1, Bool.or_true]
  have hallow : ∀ t ∈ c.codec.lossless_allow_list, readable t = true := by
    intro t ht
    rw [readable, (plain_codec t (hrules.allow_list t ht)).1, Bool.or_true]
  refine ⟨by simp [front], ?_, ?_⟩
  · unfold front back io_ranks_entry list_field
    split <;> simp
  · unfold front back
    simp only [List.cons_append, List.nil_append, List.forall_mem_cons]
    refine ⟨⟨by decide, staging_pool_well_formed _⟩, ⟨by decide, worker_pool_well_formed _⟩,
      ⟨by decide, prefetch_well_formed _⟩, ⟨by decide, readable_nat _⟩,
      ⟨by decide, backpressure_well_formed _⟩, ⟨by decide, hbackend⟩,
      ⟨by decide, codec_well_formed hactive hallow⟩, ?_⟩
    intro e he
    obtain ⟨f, hf, heq⟩ := List.mem_map.mp he
    obtain ⟨hkey, hleaf⟩ := list_field_well_formed (readable_int_texts c.io_ranks) f hf
    rw [← heq]
    dsimp only
    rw [hkey]
    exact ⟨by decide, hleaf⟩

/-! ## Section 4: Reading a field -/

section
variable {yaml : Parser} {manifest : Node} {path : List String}

theorem bind_eq_ok {ε α β : Type} {x : Except ε α} {f : α → Except ε β} {b : β} :
    (x >>= f) = .ok b ↔ ∃ a, x = .ok a ∧ f a = .ok b := by
  cases x with
  | error e =>
    constructor
    · intro h
      cases h
    · intro ⟨_, h, _⟩
      cases h
  | ok a =>
    constructor
    · intro h
      exact ⟨a, rfl, h⟩
    · intro ⟨_, h, hb⟩
      cases h
      exact hb

theorem read_field_present {α : Type} {get : Node → List String → Except Conf_Error α}
    {d v : α} {node : Node} (h : resolve manifest path = .ok node) :
    read_field manifest path get d = .ok v ↔ get manifest path = .ok v := by
  unfold read_field has
  rw [h, if_pos rfl]
  cases get manifest path with
  | error e =>
    constructor
    · intro hok
      cases hok
    · intro hok
      cases hok
  | ok a =>
    show Except.ok a = Except.ok v ↔ Except.ok a = Except.ok v
    rw [Except.ok.injEq, Except.ok.injEq]

theorem read_field_absent {α : Type} {get : Node → List String → Except Conf_Error α} {d : α}
    {e : Conf_Error} (h : resolve manifest path = .error e) :
    read_field manifest path get d = .ok d := by
  unfold read_field has
  rw [h, if_neg Bool.false_ne_true]

variable (yaml) in
theorem convert_int_text (n : Int) {x : Int32} :
    convert_int yaml (.scalar (toString n)) = .ok x ↔ Fits 32 n ∧ x.toInt = n := by
  unfold convert_int
  dsimp only
  rw [yaml.as_int_decimal]
  by_cases hfits : Fits 32 n
  · rw [if_pos hfits]
    dsimp only
    have hround := toInt_ofInt32_of_fits hfits
    constructor
    · intro h
      cases h
      exact ⟨hfits, hround⟩
    · intro h
      rw [← h.2, Int32.ofInt_toInt]
  · rw [if_neg hfits]
    constructor
    · intro h
      cases h
    · intro h
      exact absurd h.1 hfits

variable (yaml) in
theorem read_size {n : Nat} (d : Nat) (h : resolve manifest path = .ok (text_node (toString n))) :
    read_field manifest path (get_size yaml) d = .ok n ↔ n < 2 ^ 31 := by
  rw [toString_natCast, text_node_toString] at h
  rw [read_field_present h, get_size, get_int, h]
  show (convert_int yaml (.scalar (toString (n : Int)))).map _ = _ ↔ _
  by_cases hfits : Fits 32 (n : Int)
  · have hok := (convert_int_text yaml (n : Int)).mpr
      ⟨hfits, toInt_ofInt32_of_fits hfits⟩
    rw [hok]
    have hbounds := fits_32.mp hfits
    show Except.ok ((Int32.ofInt (n : Int)).toInt % 2 ^ 64).toNat = Except.ok n ↔ _
    rw [toInt_ofInt32_of_fits hfits, Except.ok.injEq]
    omega
  · have hbounds := mt fits_32.mpr hfits
    constructor
    · intro hok
      cases hread : convert_int yaml (.scalar (toString (n : Int))) with
      | ok x => exact absurd ((convert_int_text yaml (n : Int)).mp hread).1 hfits
      | error e =>
        rw [hread] at hok
        cases hok
    · intro hlt
      omega

theorem convert_int_items (ns : List Int32) :
    convert_list (convert_int yaml) (.sequence ((int_texts ns).map text_node)) = .ok ns := by
  show ((int_texts ns).map text_node).mapM (convert_int yaml) = _
  induction ns with
  | nil => rfl
  | cons n ns ih =>
    have hfirst : convert_int yaml (text_node (toString n.toInt)) = .ok n := by
      rw [text_node_toString]
      exact (convert_int_text yaml n.toInt).mpr ⟨fits_toInt32 n, rfl⟩
    show (text_node (toString n.toInt) :: (int_texts ns).map text_node).mapM _ = _
    rw [List.mapM_cons, hfirst, ih]
    rfl

theorem read_string {t : String} (d : String) (h : resolve manifest path = .ok (text_node t)) :
    read_field manifest path get_string d = .ok t ↔ t ∉ null_texts := by
  rw [read_field_present h, get_string, h]
  show convert_string (text_node t) = .ok t ↔ _
  unfold text_node
  by_cases hnull : t ∈ null_texts
  · rw [if_pos hnull]
    constructor
    · intro hok
      cases hok
    · intro hnot
      exact absurd hnull hnot
  · rw [if_neg hnull]
    exact iff_of_true rfl hnull

theorem convert_string_items {ts : List String} (h : ∀ t ∈ ts, t ∉ null_texts) :
    convert_list convert_string (.sequence (ts.map text_node)) = .ok ts := by
  show (ts.map text_node).mapM convert_string = _
  induction ts with
  | nil => rfl
  | cons t ts ih =>
    have hrest := ih fun t' ht' => h t' (List.mem_cons_of_mem t ht')
    have hfirst : convert_string (text_node t) = .ok t := by
      rw [text_node, if_neg (h t List.mem_cons_self)]
      rfl
    rw [List.map_cons, List.mapM_cons, hfirst, hrest]
    rfl

theorem read_list {α : Type} {convert : Node → Except Conf_Error α} {texts : List String}
    {values : List α} {e : Conf_Error}
    (hconvert : convert_list convert (.sequence (texts.map text_node)) = .ok values)
    (hempty : texts = [] → values = [])
    (h : resolve manifest path =
      if texts = [] then .error e else .ok (.sequence (texts.map text_node))) :
    read_field manifest path (fun m p => resolve m p >>= convert_list convert) [] =
      .ok values := by
  by_cases htexts : texts = []
  · rw [if_pos htexts] at h
    rw [read_field_absent h, hempty htexts]
  · rw [if_neg htexts] at h
    rw [read_field_present h, h]
    exact hconvert

end

/-! ## Section 5: Reading the document -/

/-- What a parser makes of the document. -/
def manifest (c : Config) : Node := (document c).node

section
variable (c : Config)

def field_nodes (fs : List (String × Leaf)) : List (String × Node) :=
  fs.map fun f => (f.1, f.2.node)

def entry_nodes : List (String × Node) := (document c).map fun e => (e.1, e.2.node)

theorem manifest_eq : manifest c = .map (entry_nodes c) := rfl

theorem lookup_staging_pool : (entry_nodes c).lookup "staging_pool" =
    some (.map (field_nodes (staging_pool_fields c.staging_pool))) := by
  simp [entry_nodes, document, front, Entry.node, field_nodes]

theorem lookup_worker_pool : (entry_nodes c).lookup "worker_pool" =
    some (.map (field_nodes (worker_pool_fields c.worker_pool))) := by
  simp [entry_nodes, document, front, Entry.node, field_nodes, List.lookup_cons]

theorem lookup_prefetch : (entry_nodes c).lookup "prefetch" =
    some (.map (field_nodes (prefetch_fields c.prefetch))) := by
  simp [entry_nodes, document, front, Entry.node, field_nodes, List.lookup_cons]

theorem lookup_backpressure : (entry_nodes c).lookup "backpressure" =
    some (.map (field_nodes (backpressure_fields c.backpressure))) := by
  simp [entry_nodes, document, front, Entry.node, field_nodes, List.lookup_cons]

theorem lookup_codec : (entry_nodes c).lookup "codec" =
    some (.map (field_nodes (codec_fields c.codec))) := by
  simp [entry_nodes, document, front, back, Entry.node, field_nodes, List.lookup_cons]

theorem lookup_staging_timeout : (entry_nodes c).lookup "staging_timeout_ms" =
    some (text_node (toString c.staging_timeout_ms)) := by
  simp [entry_nodes, document, front, Entry.node, Leaf.node, List.lookup_cons]

theorem lookup_backend : (entry_nodes c).lookup "backend" = some (text_node c.backend) := by
  simp [entry_nodes, document, front, Entry.node, Leaf.node, List.lookup_cons]

theorem resolve_io_ranks : resolve (manifest c) ["io_ranks"] =
    if int_texts c.io_ranks = [] then .error (key_not_found ["io_ranks"])
    else .ok (.sequence ((int_texts c.io_ranks).map text_node)) := by
  rw [manifest_eq, resolve_one (by decide)]
  by_cases hranks : int_texts c.io_ranks = []
  · simp [hranks, entry_nodes, document, front, back, io_ranks_entry, list_field, List.lookup_cons]
  · simp [hranks, entry_nodes, document, front, back, io_ranks_entry, list_field, Entry.node,
      Leaf.node, List.lookup_cons]

theorem resolve_cpu_cores : resolve (manifest c) ["worker_pool", "cpu_cores"] =
    if int_texts c.worker_pool.cpu_cores = [] then
      .error (key_not_found ["worker_pool", "cpu_cores"])
    else .ok (.sequence ((int_texts c.worker_pool.cpu_cores).map text_node)) := by
  rw [manifest_eq, resolve_two (by decide) (by decide) (lookup_worker_pool c)]
  by_cases hcores : int_texts c.worker_pool.cpu_cores = []
  · cases hnuma : c.worker_pool.numa_domain <;>
      simp [hcores, hnuma, field_nodes, worker_pool_fields, list_field, numa_field, List.lookup_cons]
  · simp [hcores, field_nodes, worker_pool_fields, list_field, Leaf.node, List.lookup_cons]

theorem resolve_numa_domain : resolve (manifest c) ["worker_pool", "numa_domain"] =
    match c.worker_pool.numa_domain with
    | some n => .ok (text_node (toString n.toInt))
    | none => .error (key_not_found ["worker_pool", "numa_domain"]) := by
  rw [manifest_eq, resolve_two (by decide) (by decide) (lookup_worker_pool c)]
  by_cases hcores : int_texts c.worker_pool.cpu_cores = []
  · cases hnuma : c.worker_pool.numa_domain <;>
      simp [hcores, hnuma, field_nodes, worker_pool_fields, list_field, numa_field, Leaf.node,
        List.lookup_cons]
  · cases hnuma : c.worker_pool.numa_domain <;>
      simp [hcores, hnuma, field_nodes, worker_pool_fields, list_field, numa_field, Leaf.node,
        List.lookup_cons]

theorem resolve_allow_list : resolve (manifest c) ["codec", "lossless_allow_list"] =
    if c.codec.lossless_allow_list = [] then
      .error (key_not_found ["codec", "lossless_allow_list"])
    else .ok (.sequence (c.codec.lossless_allow_list.map text_node)) := by
  rw [manifest_eq, resolve_two (by decide) (by decide) (lookup_codec c)]
  by_cases hlist : c.codec.lossless_allow_list = []
  · simp [hlist, field_nodes, codec_fields, list_field, List.lookup_cons]
  · simp [hlist, field_nodes, codec_fields, list_field, Leaf.node, List.lookup_cons]

/-! ## Section 6: Reading the sections -/

variable (yaml : Parser)

theorem read_staging_pool_iff (d : StagingPoolConfig) :
    read_staging_pool yaml (manifest c) d = .ok c.staging_pool ↔
      c.staging_pool.buffer_count < 2 ^ 31 ∧ c.staging_pool.buffer_capacity_bytes < 2 ^ 31 ∧
        c.staging_pool.max_buffer_count < 2 ^ 31 := by
  have hcount := read_size yaml d.buffer_count
    (show resolve (manifest c) ["staging_pool", "buffer_count"] =
      .ok (text_node (toString c.staging_pool.buffer_count)) by
      rw [manifest_eq, resolve_two (by decide) (by decide) (lookup_staging_pool c)]
      simp [field_nodes, staging_pool_fields, Leaf.node])
  have hcapacity := read_size yaml d.buffer_capacity_bytes
    (show resolve (manifest c) ["staging_pool", "buffer_capacity_bytes"] =
      .ok (text_node (toString c.staging_pool.buffer_capacity_bytes)) by
      rw [manifest_eq, resolve_two (by decide) (by decide) (lookup_staging_pool c)]
      simp [field_nodes, staging_pool_fields, Leaf.node, List.lookup_cons])
  have hmax := read_size yaml d.max_buffer_count
    (show resolve (manifest c) ["staging_pool", "max_buffer_count"] =
      .ok (text_node (toString c.staging_pool.max_buffer_count)) by
      rw [manifest_eq, resolve_two (by decide) (by decide) (lookup_staging_pool c)]
      simp [field_nodes, staging_pool_fields, Leaf.node, List.lookup_cons])
  unfold read_staging_pool
  constructor
  · intro h
    obtain ⟨count, hread_count, h⟩ := bind_eq_ok.mp h
    obtain ⟨capacity, hread_capacity, h⟩ := bind_eq_ok.mp h
    obtain ⟨max, hread_max, h⟩ := bind_eq_ok.mp h
    have heq := Except.ok.inj h
    rw [← heq] at hcount hcapacity hmax ⊢
    exact ⟨hcount.mp hread_count, hcapacity.mp hread_capacity, hmax.mp hread_max⟩
  · intro ⟨h1, h2, h3⟩
    rw [hcount.mpr h1, hcapacity.mpr h2, hmax.mpr h3]
    rfl

theorem read_backpressure_iff (d : BackpressureCfg) :
    read_backpressure yaml (manifest c) d = .ok c.backpressure ↔
      c.backpressure.low_watermark < 2 ^ 31 ∧ c.backpressure.high_watermark < 2 ^ 31 ∧
        c.backpressure.queue_capacity < 2 ^ 31 := by
  have hlow := read_size yaml d.low_watermark
    (show resolve (manifest c) ["backpressure", "low_watermark"] =
      .ok (text_node (toString c.backpressure.low_watermark)) by
      rw [manifest_eq, resolve_two (by decide) (by decide) (lookup_backpressure c)]
      simp [field_nodes, backpressure_fields, Leaf.node])
  have hhigh := read_size yaml d.high_watermark
    (show resolve (manifest c) ["backpressure", "high_watermark"] =
      .ok (text_node (toString c.backpressure.high_watermark)) by
      rw [manifest_eq, resolve_two (by decide) (by decide) (lookup_backpressure c)]
      simp [field_nodes, backpressure_fields, Leaf.node, List.lookup_cons])
  have hcapacity := read_size yaml d.queue_capacity
    (show resolve (manifest c) ["backpressure", "queue_capacity"] =
      .ok (text_node (toString c.backpressure.queue_capacity)) by
      rw [manifest_eq, resolve_two (by decide) (by decide) (lookup_backpressure c)]
      simp [field_nodes, backpressure_fields, Leaf.node, List.lookup_cons])
  unfold read_backpressure
  constructor
  · intro h
    obtain ⟨low, hread_low, h⟩ := bind_eq_ok.mp h
    obtain ⟨high, hread_high, h⟩ := bind_eq_ok.mp h
    obtain ⟨capacity, hread_capacity, h⟩ := bind_eq_ok.mp h
    have heq := Except.ok.inj h
    rw [← heq] at hlow hhigh hcapacity ⊢
    exact ⟨hlow.mp hread_low, hhigh.mp hread_high, hcapacity.mp hread_capacity⟩
  · intro ⟨h1, h2, h3⟩
    rw [hlow.mpr h1, hhigh.mpr h2, hcapacity.mpr h3]
    rfl

theorem read_worker_pool_eq (hthreads : c.worker_pool.threads < 2 ^ 31) :
    read_worker_pool yaml (manifest c) {} = .ok c.worker_pool := by
  have hread_threads := (read_size yaml 1
    (show resolve (manifest c) ["worker_pool", "threads"] =
      .ok (text_node (toString c.worker_pool.threads)) by
      rw [manifest_eq, resolve_two (by decide) (by decide) (lookup_worker_pool c)]
      simp [field_nodes, worker_pool_fields, Leaf.node])).mpr hthreads
  have hread_cores : read_field (manifest c) ["worker_pool", "cpu_cores"] (get_int_list yaml) [] =
      .ok c.worker_pool.cpu_cores :=
    read_list (convert_int_items _) List.map_eq_nil_iff.mp (resolve_cpu_cores c)
  have hread_numa : read_field (manifest c) ["worker_pool", "numa_domain"]
      (fun m p => (get_int yaml m p).map some) none = .ok c.worker_pool.numa_domain := by
    have hresolve := resolve_numa_domain c
    cases hnuma : c.worker_pool.numa_domain with
    | none =>
      rw [hnuma] at hresolve
      exact read_field_absent hresolve
    | some n =>
      rw [hnuma] at hresolve
      dsimp only at hresolve
      rw [read_field_present hresolve, get_int, hresolve, text_node_toString]
      show (convert_int yaml (.scalar (toString n.toInt))).map some = _
      rw [(convert_int_text yaml n.toInt).mpr ⟨fits_toInt32 n, rfl⟩]
      rfl
  unfold read_worker_pool
  rw [hread_threads, hread_cores, hread_numa]
  rfl

theorem read_prefetch_eq (hdepth : c.prefetch.depth < 2 ^ 31)
    (htimeout : c.prefetch.read_timeout_s < 2 ^ 31) (d : PrefetchConfig) :
    read_prefetch yaml (manifest c) d = .ok c.prefetch := by
  have hread_depth := (read_size yaml d.depth
    (show resolve (manifest c) ["prefetch", "depth"] =
      .ok (text_node (toString c.prefetch.depth)) by
      rw [manifest_eq, resolve_two (by decide) (by decide) (lookup_prefetch c)]
      simp [field_nodes, prefetch_fields, Leaf.node])).mpr hdepth
  have hread_timeout := (read_size yaml d.read_timeout_s
    (show resolve (manifest c) ["prefetch", "read_timeout_s"] =
      .ok (text_node (toString c.prefetch.read_timeout_s)) by
      rw [manifest_eq, resolve_two (by decide) (by decide) (lookup_prefetch c)]
      simp [field_nodes, prefetch_fields, Leaf.node, List.lookup_cons])).mpr htimeout
  unfold read_prefetch
  rw [hread_depth, hread_timeout]
  rfl

theorem read_codec_iff (hallow : ∀ t ∈ c.codec.lossless_allow_list, t ∉ null_texts) :
    read_codec (manifest c) {} = .ok c.codec ↔ c.codec.active_codec ∉ null_texts := by
  have hactive := read_string "" (show resolve (manifest c) ["codec", "active_codec"] =
      .ok (text_node c.codec.active_codec) by
      rw [manifest_eq, resolve_two (by decide) (by decide) (lookup_codec c)]
      simp [field_nodes, codec_fields, Leaf.node])
  have hlist : read_field (manifest c) ["codec", "lossless_allow_list"] get_string_list [] =
      .ok c.codec.lossless_allow_list :=
    read_list (convert_string_items hallow) id (resolve_allow_list c)
  unfold read_codec
  constructor
  · intro h
    obtain ⟨active, hread_active, h⟩ := bind_eq_ok.mp h
    obtain ⟨list, _, h⟩ := bind_eq_ok.mp h
    have heq := Except.ok.inj h
    rw [← heq] at hactive ⊢
    exact hactive.mp hread_active
  · intro h
    rw [hactive.mpr h, hlist]
    rfl

variable {c}

/-- What has to hold of the fields that no rule bounds. -/
structure WrittenAsInts (c : Config) : Prop where
  low_watermark : c.backpressure.low_watermark < 2 ^ 31
  high_watermark : c.backpressure.high_watermark < 2 ^ 31
  queue_capacity : c.backpressure.queue_capacity < 2 ^ 31

theorem read_config_iff (hrules : RulesHold c) :
    read_config yaml (manifest c) = .ok c ↔
      WrittenAsInts c ∧ c.backend ∉ null_texts ∧ c.codec.active_codec ∉ null_texts := by
  have hpool := (read_staging_pool_iff c yaml {}).mpr
    ⟨hrules.buffer_count, hrules.buffer_capacity_bytes, hrules.max_buffer_count⟩
  have hworkers := read_worker_pool_eq c yaml hrules.threads
  have hprefetch := read_prefetch_eq c yaml hrules.depth hrules.read_timeout_s {}
  have htimeout := (read_size yaml 5000
    (show resolve (manifest c) ["staging_timeout_ms"] =
      .ok (text_node (toString c.staging_timeout_ms)) by
      rw [manifest_eq, resolve_one (by decide), lookup_staging_timeout])).mpr
    hrules.staging_timeout_ms
  have hpressure := read_backpressure_iff c yaml {}
  have hbackend := read_string "" (show resolve (manifest c) ["backend"] = .ok (text_node c.backend) by
      rw [manifest_eq, resolve_one (by decide), lookup_backend])
  have hcodec := read_codec_iff c fun t ht => (plain_codec t (hrules.allow_list t ht)).2
  have hranks : read_field (manifest c) ["io_ranks"] (get_int_list yaml) [] = .ok c.io_ranks :=
    read_list (convert_int_items _) List.map_eq_nil_iff.mp (resolve_io_ranks c)
  unfold read_config
  dsimp only
  rw [hpool, hworkers, hprefetch, htimeout]
  constructor
  · intro h
    change (read_backpressure yaml (manifest c) {} >>= _) = _ at h
    obtain ⟨pressure, hread_pressure, h⟩ := bind_eq_ok.mp h
    obtain ⟨backend, hread_backend, h⟩ := bind_eq_ok.mp h
    obtain ⟨codec, hread_codec, h⟩ := bind_eq_ok.mp h
    obtain ⟨ranks, _, h⟩ := bind_eq_ok.mp h
    have heq := Except.ok.inj h
    have h1 : pressure = c.backpressure := congrArg Config.backpressure heq
    have h2 : backend = c.backend := congrArg Config.backend heq
    have h3 : codec = c.codec := congrArg Config.codec heq
    rw [h1] at hread_pressure
    rw [h2] at hread_backend
    rw [h3] at hread_codec
    obtain ⟨hlow, hhigh, hcapacity⟩ := hpressure.mp hread_pressure
    exact ⟨⟨hlow, hhigh, hcapacity⟩, hbackend.mp hread_backend, hcodec.mp hread_codec⟩
  · intro ⟨hints, hnot_null, hactive⟩
    have hread := hpressure.mpr ⟨hints.low_watermark, hints.high_watermark, hints.queue_capacity⟩
    show (read_backpressure yaml (manifest c) {} >>= _) = _
    rw [hread]
    show (read_field (manifest c) ["backend"] get_string "" >>= _) = _
    rw [hbackend.mpr hnot_null]
    show (read_codec (manifest c) {} >>= _) = _
    rw [hcodec.mpr hactive]
    show (read_field (manifest c) ["io_ranks"] (get_int_list yaml) [] >>= _) = _
    rw [hranks]
    rfl

end

/-! ## Section 7: The round trip -/

variable (yaml : Parser) {c : Config}

theorem backend_of_read_config {root : Node} (h : read_config yaml root = .ok c) :
    c.backend = "" ∨ root.find? "backend" = some (.scalar c.backend) := by
  unfold read_config at h
  obtain ⟨_, _, h⟩ := bind_eq_ok.mp h
  obtain ⟨_, _, h⟩ := bind_eq_ok.mp h
  obtain ⟨_, _, h⟩ := bind_eq_ok.mp h
  obtain ⟨_, _, h⟩ := bind_eq_ok.mp h
  obtain ⟨_, _, h⟩ := bind_eq_ok.mp h
  obtain ⟨backend, hbackend, h⟩ := bind_eq_ok.mp h
  obtain ⟨_, _, h⟩ := bind_eq_ok.mp h
  obtain ⟨_, _, h⟩ := bind_eq_ok.mp h
  have heq : backend = c.backend := congrArg Config.backend (Except.ok.inj h)
  rw [heq] at hbackend
  cases hresolve : resolve root ["backend"] with
  | error e =>
    rw [read_field_absent hresolve] at hbackend
    exact .inl (Except.ok.inj hbackend).symm
  | ok node =>
    right
    rw [read_field_present hresolve, get_string, hresolve] at hbackend
    rw [find_of_resolve (by decide) (by decide) hresolve]
    cases node with
    | scalar text => exact congrArg (fun t => some (Node.scalar t)) (Except.ok.inj hbackend)
    | null => cases hbackend
    | sequence items => cases hbackend
    | map entries => cases hbackend

theorem parse_string_eq_ok {content : String} {c' : Config} :
    parse_string yaml content = .ok c' ↔
      ∃ root, yaml.load content = .ok root ∧ read_config yaml root = .ok c' ∧
        validate c' = none := by
  unfold parse_string from_string populate_from_conf
  constructor
  · intro h
    obtain ⟨root, hroot, h⟩ := bind_eq_ok.mp h
    obtain ⟨config, hread, h⟩ := bind_eq_ok.mp h
    cases hload : yaml.load content with
    | error what =>
      rw [hload] at hroot
      cases hroot
    | ok root' =>
      rw [hload] at hroot
      have hsame : root' = root := Except.ok.inj hroot
      split at h
      · cases h
      · next hvalid =>
        have heq : config = c' := Except.ok.inj h
        rw [heq] at hread hvalid
        exact ⟨root', rfl, hsame ▸ hread, hvalid⟩
  · rintro ⟨root, hload, hread, hvalid⟩
    rw [hload]
    show (read_config yaml root >>= _) = _
    rw [hread]
    simp only [bind, Except.bind, hvalid]

theorem active_codec_not_null_iff (hrules : RulesHold c) :
    c.codec.active_codec ∉ null_texts ↔ c.codec.active_codec ≠ "" := by
  constructor
  · intro h hempty
    rw [hempty] at h
    exact h (by decide)
  · intro h
    exact (plain_codec _ (hrules.active_codec.resolve_left h)).2

theorem parse_serialize_of_readable (hvalid : validate c = none)
    (hbackend : readable c.backend = true) :
    parse_string yaml (serialize c) = .ok c ↔
      WrittenAsInts c ∧ c.backend ∉ null_texts ∧ c.codec.active_codec ≠ "" := by
  have hrules := rules_hold hvalid
  have hload : yaml.load (serialize c) = .ok (manifest c) := by
    rw [serialize_eq]
    exact yaml.load_document _ (document_well_formed hrules hbackend)
  rw [parse_string_eq_ok, ← active_codec_not_null_iff hrules, ← read_config_iff yaml hrules]
  constructor
  · intro ⟨root, hroot, hread, _⟩
    rw [hload] at hroot
    cases hroot
    exact hread
  · intro hread
    exact ⟨_, hload, hread, hvalid⟩

/-- **Round trip**: a valid configuration comes back exactly when no string
    is empty or a word for null, the backend is a plain scalar on one line,
    and the numbers that no rule bounds are of type `int`. -/
theorem parse_serialize_iff (hvalid : validate c = none) :
    parse_string yaml (serialize c) = .ok c ↔
      (plain c.backend = true ∧ c.backend ∉ null_texts) ∧ c.codec.active_codec ≠ "" ∧
        c.backpressure.low_watermark < 2 ^ 31 ∧ c.backpressure.high_watermark < 2 ^ 31 ∧
        c.backpressure.queue_capacity < 2 ^ 31 := by
  constructor
  · intro h
    obtain ⟨root, hload, hread, _⟩ := (parse_string_eq_ok yaml).mp h
    have hplain : plain c.backend = true ∨ c.backend = "" := by
      obtain hempty | hfind := backend_of_read_config yaml hread
      · exact .inr hempty
      · rw [serialize_eq] at hload
        exact .inl (yaml.load_verbatim (front c) (back c) "backend" c.backend root
          (document_well_formed (rules_hold hvalid) (by decide)) hload hfind)
    have hbackend : readable c.backend = true := by
      unfold readable
      rw [Bool.or_eq_true, decide_eq_true_eq]
      exact hplain.symm
    obtain ⟨hints, hnot_null, hcodec⟩ := (parse_serialize_of_readable yaml hvalid hbackend).mp h
    have hnonempty : c.backend ≠ "" := by
      intro hempty
      rw [hempty] at hnot_null
      exact hnot_null (by decide)
    exact ⟨⟨hplain.resolve_right hnonempty, hnot_null⟩, hcodec, hints.low_watermark,
      hints.high_watermark, hints.queue_capacity⟩
  · intro ⟨⟨hplain, hnot_null⟩, hcodec, hlow, hhigh, hcapacity⟩
    have hbackend : readable c.backend = true := by
      rw [readable, hplain, Bool.or_true]
    exact (parse_serialize_of_readable yaml hvalid hbackend).mpr
      ⟨⟨hlow, hhigh, hcapacity⟩, hnot_null, hcodec⟩

/-! ### A backend and a codec -/

def compressed : Config :=
  { backend := "zarr3"
    worker_pool := { threads := 4, cpu_cores := [0, 2], numa_domain := some (-1) }
    codec := { lossless_allow_list := ["blosc", "zstandard"], active_codec := "blosc" }
    io_ranks := [0] }

theorem parse_serialize_compressed :
    validate compressed = none ∧
      parse_string line_yaml (serialize compressed) = .ok compressed :=
  ⟨by decide, (parse_serialize_iff line_yaml (by decide)).mpr (by decide)⟩

theorem default_not_read_back :
    validate {} = none ∧ parse_string line_yaml (serialize {}) ≠ .ok {} := by
  refine ⟨by decide, ?_⟩
  intro h
  obtain ⟨_, hnot_null, _⟩ :=
    (parse_serialize_of_readable line_yaml (by decide) (by decide)).mp h
  exact hnot_null (by decide)

end ConfigLoader

end Amio
