import ContractMigration.Analysis.Basic
import ContractMigration.Digest.Sha256

/-!
# The cache of analyses

An analysis depends on nothing but its source, so it is kept under the digest of the source. Entries grow old: one
that is older than the time to live is expired, is no longer given out, and is dropped at the next write or when it is
asked for. The store keeps its entries in the order of the writes and holds no more than its limit; the oldest writes
make room.

All times are passed in. They are whole numbers of ticks, and a tick may be any length of time, one second or the
smallest step of a clock: the cache only compares how far two times lie apart with a time to live in the same ticks.
-/

namespace ContractMigration

/-- An analysis as it is kept: the tick it was stored at, and for how many ticks it is given out. -/
structure CachedAnalysis where
  contentHash : String
  analysis : Analysis
  storedAt : Int
  timeToLive : Int
deriving DecidableEq, Repr

/-- Whether an entry is older at the tick `now` than its time to live. -/
def CachedAnalysis.hasExpired (now : Int) (entry : CachedAnalysis) : Bool :=
  decide (now - entry.storedAt > entry.timeToLive)

/-- The cache: its limits, and its entries by key in the order of the writes. -/
structure Cache where
  timeToLive : Int := 3600
  maxEntries : Int := 256
  store : List (String × CachedAnalysis) := []
deriving DecidableEq, Repr

/-- How many entries there are. -/
structure CacheCounts where
  total : Nat
  expired : Nat
deriving DecidableEq, Repr

/-- How many entries are not expired. -/
def CacheCounts.active (counts : CacheCounts) : Nat :=
  counts.total - counts.expired

/-- The key of a source. -/
def contentHash (source : String) : String :=
  Sha256.hex source

namespace Cache

/-- The number of entries that the cache may hold; there is always room for one. -/
def capacity (cache : Cache) : Nat :=
  (max cache.maxEntries 1).toNat

/-- The keys in the order of the writes. -/
def keys (cache : Cache) : List String :=
  cache.store.map (·.1)

/-- Whether there is anything under a key. -/
def contains (cache : Cache) (key : String) : Bool :=
  cache.keys.contains key

/-- The cache without a key. -/
def erase (cache : Cache) (key : String) : Cache :=
  { cache with store := cache.store.filter (·.1 != key) }

/-- The cache without expired entries. -/
def dropExpired (cache : Cache) (now : Int) : Cache :=
  { cache with store := cache.store.filter fun (_, entry) => !entry.hasExpired now }

/-- How many entries have expired. -/
def expiredCount (cache : Cache) (now : Int) : Nat :=
  cache.store.countP fun (_, entry) => entry.hasExpired now

/-- The analysis under a key, unless it has expired. -/
def find? (cache : Cache) (now : Int) (key : String) : Option Analysis :=
  match cache.store.lookup key with
  | none => none
  | some entry => if entry.hasExpired now then none else some entry.analysis

/-- The cache after a key was asked for: what has expired under the key is dropped. -/
def afterAsking (cache : Cache) (now : Int) (key : String) : Cache :=
  match cache.store.lookup key with
  | none => cache
  | some entry => if entry.hasExpired now then cache.erase key else cache

/-- Drops the oldest writes until the cache holds no more than it may. -/
def evict (cache : Cache) : Cache :=
  { cache with store := cache.store.drop (cache.store.length - cache.capacity) }

/-- Keeps an analysis under a key, as the newest write. -/
def insert (cache : Cache) (now : Int) (key : String) (analysis : Analysis) : Cache :=
  let others := (cache.dropExpired now).erase key
  let entry : CachedAnalysis := ⟨key, analysis, now, cache.timeToLive⟩
  evict { others with store := others.store ++ [(key, entry)] }

/-- The cache without entries. -/
def emptied (cache : Cache) : Cache :=
  { cache with store := [] }

/-- The number of entries. -/
def size (cache : Cache) : Nat :=
  cache.store.length

/-- How many entries there are. -/
def counts (cache : Cache) (now : Int) : CacheCounts :=
  ⟨cache.size, cache.expiredCount now⟩

end Cache

end ContractMigration
