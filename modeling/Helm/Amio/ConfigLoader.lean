import Helm.Amio.Errors
import Helm.Conf.Config

/-! # AMIO: the configuration loader

  `ConfigLoader` reads a manifest into a `Config`, checks the rules of the
  schema in their order and reports the first one that fails. `serialize`
  writes a `Config` as YAML text.

  Numbers of type `size_t` are natural numbers. What a failed call leaves
  in `config_out` is not modelled.
-/

namespace Amio

open Yaml Conf Signed

/-! ## Section 1: Configurations -/

structure StagingPoolConfig where
  buffer_count : Nat := 16
  buffer_capacity_bytes : Nat := 1048576
  max_buffer_count : Nat := 4096
  deriving DecidableEq

structure WorkerPoolCfg where
  threads : Nat := 1
  cpu_cores : List Int32 := []
  numa_domain : Option Int32 := none
  deriving DecidableEq

structure PrefetchConfig where
  depth : Nat := 4
  read_timeout_s : Nat := 60
  deriving DecidableEq

structure BackpressureCfg where
  low_watermark : Nat := 0
  high_watermark : Nat := 0
  queue_capacity : Nat := 1024
  deriving DecidableEq

structure CodecConfig where
  lossless_allow_list : List String := []
  active_codec : String := ""
  deriving DecidableEq

structure Config where
  staging_pool : StagingPoolConfig := {}
  worker_pool : WorkerPoolCfg := {}
  prefetch : PrefetchConfig := {}
  staging_timeout_ms : Nat := 5000
  backpressure : BackpressureCfg := {}
  backend : String := ""
  codec : CodecConfig := {}
  io_ranks : List Int32 := []
  deriving DecidableEq

structure ValidationError where
  field_path : String
  message : String
  line : Int := 0
  deriving DecidableEq

namespace ConfigLoader

def kMinBufferCount : Nat := 1
def kMaxBufferCount : Nat := 4096
def kMinBufferCapacity : Nat := 1
def kMaxBufferCapacity : Nat := 1073741824
def kMinThreads : Nat := 1
def kMaxThreads : Nat := 256
def kMinPrefetchDepth : Nat := 1
def kMaxPrefetchDepth : Nat := 1024
def kMinReadTimeoutS : Nat := 1
def kMaxReadTimeoutS : Nat := 3600
def kMinStagingTimeoutMs : Nat := 1
def kMaxStagingTimeoutMs : Nat := 60000

def valid_codecs : List String := ["blosc", "zstandard", "libaec", "lossless_jpeg2000"]

def is_valid_codec (name : String) : Bool := name ∈ valid_codecs

/-! ## Section 2: Validation -/

/-- A code and what `error_out` says. -/
abbrev Failure := AmioStatus × ValidationError

def invalid (field_path message : String) : Failure :=
  (.ERR_MANIFEST_INVALID, { field_path, message })

def forbidden (field_path message : String) : Failure :=
  (.ERR_LOSSY_CODEC_FORBIDDEN, { field_path, message })

/-- The rule for a number: its bounds, and the end of the message. -/
def range_rule (field_path bounds : String) (lo hi n : Nat) (extra : String) : Option Failure :=
  if n < lo ∨ n > hi then
    some (invalid field_path (bounds ++ ", got " ++ toString n ++ extra))
  else none

def watermark_rule (b : BackpressureCfg) : Option Failure :=
  if b.high_watermark > 0 then
    if b.low_watermark ≥ b.high_watermark then
      some (invalid "backpressure.low_watermark" "low_watermark must be < high_watermark")
    else if b.high_watermark > b.queue_capacity then
      some (invalid "backpressure.high_watermark" "high_watermark must be <= queue_capacity")
    else none
  else none

def allow_list_rule (codec : CodecConfig) : Option Failure :=
  match codec.lossless_allow_list.find? fun c => !is_valid_codec c with
  | some c =>
    some (forbidden "codec.lossless_allow_list"
      ("codec '" ++ c ++ "' is not a recognized lossless codec"))
  | none => none

def active_codec_rule (codec : CodecConfig) : Option Failure :=
  if codec.active_codec ≠ "" then
    if !is_valid_codec codec.active_codec then
      some (forbidden "codec.active_codec"
        ("active codec '" ++ codec.active_codec ++ "' is not a recognized lossless codec"))
    else if codec.lossless_allow_list ≠ [] ∧ codec.active_codec ∉ codec.lossless_allow_list then
      some (forbidden "codec.active_codec"
        ("active codec '" ++ codec.active_codec ++
          "' is not on the manifest's lossless_allow_list"))
    else none
  else none

/-- The first rule that fails. -/
def validate (config : Config) : Option Failure :=
  let pool := config.staging_pool
  range_rule "staging_pool.buffer_count" "buffer_count must be in [1, 4096]"
    kMinBufferCount kMaxBufferCount pool.buffer_count "" <|>
  range_rule "staging_pool.buffer_capacity_bytes"
    "buffer_capacity_bytes must be in [1, 1073741824]"
    kMinBufferCapacity kMaxBufferCapacity pool.buffer_capacity_bytes "" <|>
  range_rule "staging_pool.max_buffer_count" "max_buffer_count must be in [buffer_count, 4096]"
    pool.buffer_count kMaxBufferCount pool.max_buffer_count
    (" with buffer_count " ++ toString pool.buffer_count) <|>
  range_rule "worker_pool.threads" "threads must be in [1, 256]"
    kMinThreads kMaxThreads config.worker_pool.threads "" <|>
  range_rule "prefetch.depth" "depth must be in [1, 1024]"
    kMinPrefetchDepth kMaxPrefetchDepth config.prefetch.depth "" <|>
  range_rule "prefetch.read_timeout_s" "read_timeout_s must be in [1, 3600]"
    kMinReadTimeoutS kMaxReadTimeoutS config.prefetch.read_timeout_s "" <|>
  range_rule "staging_timeout_ms" "staging_timeout_ms must be in [1, 60000]"
    kMinStagingTimeoutMs kMaxStagingTimeoutMs config.staging_timeout_ms "" <|>
  watermark_rule config.backpressure <|>
  allow_list_rule config.codec <|>
  active_codec_rule config.codec

/-! ## Section 3: Reading -/

/-- What the handler makes of an exception at `current_key`. -/
def access_failure (path : List String) (e : Conf_Error) : Failure :=
  match e.code with
  | .Key_Not_Found => invalid (dotted path) ("required key not found: " ++ dotted path)
  | .Type_Mismatch =>
    invalid (dotted path) ("type mismatch at '" ++ dotted path ++ "': " ++ e.what)
  | _ => invalid (dotted path) e.what

/-- `if (manifest.has(current_key)) field = get(current_key);` -/
def read_field {α : Type} (manifest : Node) (path : List String)
    (get : Node → List String → Except Conf_Error α) (field : α) : Except Failure α :=
  if has manifest path then (get manifest path).mapError (access_failure path) else .ok field

variable (yaml : Parser)

/-- `static_cast<std::size_t>(manifest.get_int(key))` -/
def get_size (manifest : Node) (path : List String) : Except Conf_Error Nat :=
  (get_int yaml manifest path).map fun n => (n.toInt % 2 ^ 64).toNat

def read_staging_pool (manifest : Node) (d : StagingPoolConfig) :
    Except Failure StagingPoolConfig := do
  let buffer_count ← read_field manifest ["staging_pool", "buffer_count"] (get_size yaml)
    d.buffer_count
  let buffer_capacity_bytes ← read_field manifest ["staging_pool", "buffer_capacity_bytes"]
    (get_size yaml) d.buffer_capacity_bytes
  let max_buffer_count ← read_field manifest ["staging_pool", "max_buffer_count"] (get_size yaml)
    d.max_buffer_count
  return { buffer_count, buffer_capacity_bytes, max_buffer_count }

def read_worker_pool (manifest : Node) (d : WorkerPoolCfg) : Except Failure WorkerPoolCfg := do
  let threads ← read_field manifest ["worker_pool", "threads"] (get_size yaml) d.threads
  let cpu_cores ← read_field manifest ["worker_pool", "cpu_cores"] (get_int_list yaml) d.cpu_cores
  let numa_domain ← read_field manifest ["worker_pool", "numa_domain"]
    (fun m p => (get_int yaml m p).map some) d.numa_domain
  return { threads, cpu_cores, numa_domain }

def read_prefetch (manifest : Node) (d : PrefetchConfig) : Except Failure PrefetchConfig := do
  let depth ← read_field manifest ["prefetch", "depth"] (get_size yaml) d.depth
  let read_timeout_s ← read_field manifest ["prefetch", "read_timeout_s"] (get_size yaml)
    d.read_timeout_s
  return { depth, read_timeout_s }

def read_backpressure (manifest : Node) (d : BackpressureCfg) :
    Except Failure BackpressureCfg := do
  let low_watermark ← read_field manifest ["backpressure", "low_watermark"] (get_size yaml)
    d.low_watermark
  let high_watermark ← read_field manifest ["backpressure", "high_watermark"] (get_size yaml)
    d.high_watermark
  let queue_capacity ← read_field manifest ["backpressure", "queue_capacity"] (get_size yaml)
    d.queue_capacity
  return { low_watermark, high_watermark, queue_capacity }

def read_codec (manifest : Node) (d : CodecConfig) : Except Failure CodecConfig := do
  let active_codec ← read_field manifest ["codec", "active_codec"] get_string d.active_codec
  let lossless_allow_list ← read_field manifest ["codec", "lossless_allow_list"] get_string_list
    d.lossless_allow_list
  return { lossless_allow_list, active_codec }

/-- Every field keeps its default when its key is absent. -/
def read_config (manifest : Node) : Except Failure Config := do
  let d : Config := {}
  let staging_pool ← read_staging_pool yaml manifest d.staging_pool
  let worker_pool ← read_worker_pool yaml manifest d.worker_pool
  let prefetch ← read_prefetch yaml manifest d.prefetch
  let staging_timeout_ms ← read_field manifest ["staging_timeout_ms"] (get_size yaml)
    d.staging_timeout_ms
  let backpressure ← read_backpressure yaml manifest d.backpressure
  let backend ← read_field manifest ["backend"] get_string d.backend
  let codec ← read_codec manifest d.codec
  let io_ranks ← read_field manifest ["io_ranks"] (get_int_list yaml) d.io_ranks
  return { staging_pool, worker_pool, prefetch, staging_timeout_ms, backpressure, backend, codec,
           io_ranks }

def populate_from_conf (manifest : Node) : Except Failure Config := do
  let config ← read_config yaml manifest
  match validate config with
  | some failure => .error failure
  | none => .ok config

/-- `File_Not_Found` cannot come from a text, and every other code is an
    invalid manifest. -/
def load_failure (e : Conf_Error) : Failure :=
  match e.code with
  | .File_Not_Found => (.ERR_MANIFEST_NOT_FOUND, { field_path := "", message := e.what })
  | _ => invalid "" e.what

def parse_string (content : String) : Except Failure Config := do
  let manifest ← (from_string yaml content).mapError load_failure
  populate_from_conf yaml manifest

/-! ## Section 4: Writing -/

def write_items (front : String) : List String → String
  | [] => ""
  | t :: ts => front ++ t ++ "\n" ++ write_items front ts

/-- A list is written only when it is not empty. -/
def write_list (header front : String) (texts : List String) : String :=
  if texts = [] then "" else header ++ write_items front texts

def write_numa_domain : Option Int32 → String
  | some domain => "  numa_domain: " ++ toString domain.toInt ++ "\n"
  | none => ""

def serialize (config : Config) : String :=
  "staging_pool:\n" ++
  "  buffer_count: " ++ toString config.staging_pool.buffer_count ++ "\n" ++
  "  buffer_capacity_bytes: " ++ toString config.staging_pool.buffer_capacity_bytes ++ "\n" ++
  "  max_buffer_count: " ++ toString config.staging_pool.max_buffer_count ++ "\n" ++
  "worker_pool:\n" ++
  "  threads: " ++ toString config.worker_pool.threads ++ "\n" ++
  write_list "  cpu_cores:\n" "    - "
    (config.worker_pool.cpu_cores.map fun core => toString core.toInt) ++
  write_numa_domain config.worker_pool.numa_domain ++
  "prefetch:\n" ++
  "  depth: " ++ toString config.prefetch.depth ++ "\n" ++
  "  read_timeout_s: " ++ toString config.prefetch.read_timeout_s ++ "\n" ++
  "staging_timeout_ms: " ++ toString config.staging_timeout_ms ++ "\n" ++
  "backpressure:\n" ++
  "  low_watermark: " ++ toString config.backpressure.low_watermark ++ "\n" ++
  "  high_watermark: " ++ toString config.backpressure.high_watermark ++ "\n" ++
  "  queue_capacity: " ++ toString config.backpressure.queue_capacity ++ "\n" ++
  "backend: " ++ config.backend ++ "\n" ++
  "codec:\n" ++
  "  active_codec: " ++ config.codec.active_codec ++ "\n" ++
  write_list "  lossless_allow_list:\n" "    - " config.codec.lossless_allow_list ++
  write_list "io_ranks:\n" "  - " (config.io_ranks.map fun rank => toString rank.toInt)

/-- The defaults are accepted. -/
example : validate {} = none := by decide

end ConfigLoader

end Amio
