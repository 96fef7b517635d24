import Namrbd.Gateway.ProtectedVolumes
import Namrbd.Lib.Trace

/-!
# The objects of a node

`sbs/local/store.go`: a node keeps its objects in several databases. A key names a
plain record, a chunk or an object. Chunks and objects go to the database of their
shard, and the policy of their volume says whether they are compressed. A read takes
this from the stored bytes alone. The codecs are those of the community edition,
which passes bytes through and decompresses nothing.
-/

namespace Namrbd.Node

open Text (trimSpace)

inductive Codec
  | none
  | lz4
  | zstd
  deriving DecidableEq

inductive StoreErr
  | invalidKey (key : String)
  | invalidShard (key : String)
  | unknownRoute (storeID : String) (shardID : Nat)
  | codecUnavailable (codec : Codec)
  | compress (key : String)
  | decode (key : String)
  | invalidPolicy
  | unsupportedLevel (level : Int)
  | staleRevision
  | conflictingRevision
  deriving DecidableEq

/-! ## Keys -/

/-- `strings.Cut`. -/
def cut (sep : List Char) : List Char → Option (List Char × List Char)
  | [] => none
  | c :: s =>
    if sep.isPrefixOf (c :: s) then some ([], (c :: s).drop sep.length)
    else (cut sep s).map fun (before, after) => (c :: before, after)

/-- `strconv.ParseUint(strings.TrimSpace(raw), 10, 32)`. -/
def parseShardID (raw : List Char) : Option Nat :=
  let digits := (trimSpace (.ofList raw)).toList
  let n := digits.foldl (fun n c => 10 * n + (c.toNat - 48)) 0
  if digits ≠ [] ∧ digits.all Char.isDigit ∧ n < 2 ^ 32 then some n else none

/-- The parts of a key that tell where an object is stored. -/
structure ParsedObjectKey where
  keyPrefix : String := ""
  storeID : String := ""
  shardID : Nat := 0
  chunkSuffix : String := ""
  objectSuffix : String := ""
  isChunk : Bool := false
  isObject : Bool := false
  deriving DecidableEq

/-- The route of a key. -/
def parseObjectKey (key : String) : Except StoreErr ParsedObjectKey :=
  match cut ":store:".toList key.toList with
  | some (before, rest) =>
    match cut ":shard:".toList rest with
    | none => .error (.invalidKey key)
    | some (storeID, rest) =>
      let route : ParsedObjectKey :=
        { keyPrefix := .ofList before, storeID := trimSpace (.ofList storeID) }
      match cut ":obj:".toList rest, cut ":chk:".toList rest with
      | some (shardRaw, objectRaw), _ =>
        match parseShardID shardRaw with
        | none => .error (.invalidShard key)
        | some shardID =>
          .ok { route with shardID, objectSuffix := .ofList objectRaw, isObject := true }
      | none, none => .error (.invalidKey key)
      | none, some (shardRaw, chunkRaw) =>
        match parseShardID shardRaw with
        | none => .error (.invalidShard key)
        | some shardID => .ok { route with shardID, chunkSuffix := .ofList chunkRaw, isChunk := true }
  | none =>
    match cut ":obj:".toList key.toList, cut ":chk:".toList key.toList with
    | some (before, suffix), _ =>
      .ok { keyPrefix := .ofList before, objectSuffix := .ofList suffix, isObject := true }
    | none, some (before, suffix) =>
      .ok { keyPrefix := .ofList before, chunkSuffix := .ofList suffix, isChunk := true }
    | none, none => .ok {}

/-! ## Compression -/

structure CompressionPolicy where
  volumeID : String
  policyID : String
  policyRevision : Nat
  codec : Codec
  level : Int := 0
  minimumInputBytes : Nat
  checksumEnabled : Bool
  enabled : Bool
  deriving DecidableEq

/-- Eight lower-case hexadecimal digits. -/
def isVolumeID (text : String) : Bool :=
  let digits := (trimSpace text).toList
  digits.length = 8 && digits.all fun c => c.isDigit || 'a' ≤ c && c ≤ 'f'

def CompressionPolicy.validate (p : CompressionPolicy) : Bool :=
  isVolumeID p.volumeID && p.policyID ≠ "" && p.policyRevision ≠ 0 &&
    (!p.enabled || p.checksumEnabled)

/-- The codec that a policy may use in this edition. -/
def compressionCodec (codec : Codec) : Except StoreErr Codec :=
  if codec = .none then .ok codec else .error (.codecUnavailable codec)

def bigEndian (bytes : List Byte) : Nat :=
  bytes.foldl (fun n b => 256 * n + b.toNat) 0

/-- The value starts with the magic of a compressed object. -/
def isEnvelope (data : List Byte) : Bool :=
  32 ≤ data.length && bigEndian (data.take 8) = 0x4e414d52434d5002

/-- As `isEnvelope`, for the older format with its magic of two bytes. -/
def isLegacyEnvelope (data : List Byte) : Bool :=
  16 ≤ data.length && bigEndian (data.take 2) = 0x4e43

/-- The bytes compressed; only `none` is in this edition. -/
def compressPayload (raw : List Byte) (codec : Codec) : Option (List Byte) :=
  if codec = .none then some raw else none

/-- Nothing is decompressed in this edition. -/
def decompressPayload (_ : List Byte) : Option (List Byte) := none

/-! ## The store -/

/-- A database: that of the metadata, or one of a shard. -/
abbrev DB := Option (String × Nat)

structure ObjectStore where
  shards : List ((String × Nat) × DB)
  dbs : DB → String → Option (List Byte)
  /-- The policy of the chunks and objects with a prefix. -/
  compression : String → Option CompressionPolicy := fun _ => none

namespace ObjectStore

variable (s : ObjectStore)

def dbForRoute (route : ParsedObjectKey) : Except StoreErr DB :=
  if route.storeID = "" then .ok none
  else
    match s.shards.lookup (route.storeID, route.shardID), s.shards with
    | some db, _ => .ok db
    | none, [(_, sole)] =>
      if route.storeID = "default" ∧ route.shardID = 0 then .ok sole
      else .error (.unknownRoute route.storeID route.shardID)
    | none, _ => .error (.unknownRoute route.storeID route.shardID)

def routeKey (key : String) : Except StoreErr (DB × String) := do
  let route ← parseObjectKey key
  if !route.isChunk && !route.isObject then return (none, key)
  else
    let db ← s.dbForRoute route
    let root := "volumes/" ++ route.keyPrefix
    if route.isObject then return (db, root ++ "/objects/" ++ route.objectSuffix)
    else return (db, root ++ "/chunks/" ++ route.chunkSuffix)

def get (key : String) : Except StoreErr (Option (List Byte)) := do
  let route ← parseObjectKey key
  let (db, internalKey) ← s.routeKey key
  match s.dbs db internalKey with
  | none => return none
  | some value =>
    if !route.isChunk && !route.isObject then return some value
    else if !isEnvelope value && !isLegacyEnvelope value then return some value
    else
      match decompressPayload value with
      | none => throw (.decode key)
      | some decoded => return some decoded

def encode (key : String) (route : ParsedObjectKey) (value : List Byte) :
    Except StoreErr (List Byte) :=
  match s.compression route.keyPrefix with
  | none => .ok value
  | some policy =>
    if (route.isChunk || route.isObject) && policy.enabled &&
        policy.minimumInputBytes ≤ value.length && policy.codec ≠ .none then do
      let codec ← compressionCodec policy.codec
      match compressPayload value codec with
      | none => throw (.compress key)
      | some encoded => return encoded
    else .ok value

def put (key : String) (value : List Byte) : Except StoreErr ObjectStore := do
  let route ← parseObjectKey key
  let (db, internalKey) ← s.routeKey key
  let stored ← s.encode key route value
  return { s with
    dbs := Function.update s.dbs db (Function.update (s.dbs db) internalKey (some stored)) }

def applyCompressionPolicy (policy : CompressionPolicy) (aliases : List String) :
    Except StoreErr ObjectStore := do
  if !policy.validate then throw .invalidPolicy
  else if policy.level ≠ 0 then throw (.unsupportedLevel policy.level)
  else
    let _ ← compressionCodec policy.codec
    let applied := { s with
      compression := fun key =>
        if key = "sbs-" ++ policy.volumeID ∨ key = "ec-" ++ policy.volumeID ∨
          key ≠ "" ∧ key ∈ aliases.map trimSpace then some policy else s.compression key }
    match (s.compression ("sbs-" ++ policy.volumeID)).or
        (aliases.findSome? fun name => s.compression (trimSpace name)) with
    | none => return applied
    | some current =>
      if policy.policyRevision < current.policyRevision then throw .staleRevision
      else if current.policyRevision < policy.policyRevision then return applied
      else if current ≠ policy then throw .conflictingRevision
      else return s

def removeCompressionPolicy (volumeID : String) (aliases : List String) : ObjectStore :=
  { s with
    compression := fun key =>
      if key = "sbs-" ++ volumeID ∨ key = "ec-" ++ volumeID ∨ key ∈ aliases.map trimSpace then none
      else s.compression key }

end ObjectStore

/-- What happens to the policies. A node that starts again applies the policies it has stored,
and does not start if one of them is refused. -/
inductive PolicyEvent
  | apply (policy : CompressionPolicy) (aliases : List String)
  | remove (volumeID : String) (aliases : List String)
  | restart (policies : List (CompressionPolicy × List String))
  deriving DecidableEq

def ObjectStore.handle (s : ObjectStore) : PolicyEvent → Option ObjectStore
  | .apply policy aliases => some ((s.applyCompressionPolicy policy aliases).toOption.getD s)
  | .remove volumeID aliases => some (s.removeCompressionPolicy volumeID aliases)
  | .restart policies =>
    (policies.foldlM (fun s p => applyCompressionPolicy s p.1 p.2)
      { s with compression := fun _ => none }).toOption

end Namrbd.Node
