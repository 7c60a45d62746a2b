import ContractMigration.Cache.History
import ContractMigration.Proofs.Cache.Store
import Mathlib.Data.Finset.Option

/-!
# What a cache remembers

After any history, what is found under a key is what was last written there, and it is young and was not removed since.
Conversely the last write of a key is found while it is young, nothing removed it, and fewer other keys were written
since than the cache may hold (`find?_run`). The first half follows every entry back to its write, the second half
follows a write forward; what an event does to an entry is said once for each direction (`mem_store_step`,
`holdsAhead_step`).
-/

namespace ContractMigration

namespace CacheEvent

/-- Whether an event writes a key or removes what is under it. -/
def touches (key : String) : CacheEvent → Bool
  | insert other _ => other == key
  | erase other => other == key
  | empty => true
  | ask _ | dropExpired | wait _ => false

/-- Whether time does not run backwards in an event. -/
def IsForward : CacheEvent → Prop
  | wait seconds => 0 ≤ seconds
  | insert _ _ | ask _ | erase _ | dropExpired | empty => True

instance : (event : CacheEvent) → Decidable event.IsForward
  | wait seconds => inferInstanceAs (Decidable (0 ≤ seconds))
  | insert _ _ | ask _ | erase _ | dropExpired | empty => inferInstanceAs (Decidable True)

def written? : CacheEvent → Option String
  | insert key _ => some key
  | ask _ | erase _ | dropExpired | empty | wait _ => none

end CacheEvent

/-- The different keys that a history writes. -/
def writtenKeys (events : List CacheEvent) : Finset String :=
  (events.filterMap CacheEvent.written?).toFinset

theorem writtenKeys_cons (event : CacheEvent) (rest : List CacheEvent) :
    writtenKeys (event :: rest) = event.written?.toFinset ∪ writtenKeys rest := by
  unfold writtenKeys
  cases hwritten : event.written? with
  | none => rw [List.filterMap_cons_none hwritten, Option.toFinset_none, Finset.empty_union]
  | some key =>
    rw [List.filterMap_cons_some hwritten, List.toFinset_cons, Option.toFinset_some, Finset.insert_eq]

/-- A history in which `analysis` is written under a key, with `earlier` before that write and `later` behind it, and
nothing behind it writes the key again or removes it. -/
structure LastWrite (events : List CacheEvent) (key : String) (analysis : Analysis)
    (earlier later : List CacheEvent) : Prop where
  split : events = earlier ++ .insert key analysis :: later
  untouched : ∀ event ∈ later, event.touches key = false

theorem LastWrite.concat {events earlier later : List CacheEvent} {key : String} {analysis : Analysis}
    (h : LastWrite events key analysis earlier later) {event : CacheEvent} (hevent : event.touches key = false) :
    LastWrite (events ++ [event]) key analysis earlier (later ++ [event]) where
  split := by rw [h.split, List.append_assoc, List.cons_append]
  untouched := List.forall_mem_append.2 ⟨h.untouched, List.forall_mem_singleton.2 hevent⟩

namespace TimedCache

/-! ### The limits and the clock -/

theorem limits_step (timed : TimedCache) (event : CacheEvent) :
    (timed.step event).cache.timeToLive = timed.cache.timeToLive ∧
      (timed.step event).cache.maxEntries = timed.cache.maxEntries := by
  cases event with
  | ask key =>
    rcases timed.cache.afterAsking_cases timed.now key with h | ⟨h, -⟩
    · simp only [step, h, and_self]
    · simp only [step, h, Cache.erase, and_self]
  | insert key analysis => exact ⟨rfl, rfl⟩
  | erase key => exact ⟨rfl, rfl⟩
  | dropExpired => exact ⟨rfl, rfl⟩
  | empty => exact ⟨rfl, rfl⟩
  | wait seconds => exact ⟨rfl, rfl⟩

theorem limits_run (timed : TimedCache) (events : List CacheEvent) :
    (timed.run events).cache.timeToLive = timed.cache.timeToLive ∧
      (timed.run events).cache.maxEntries = timed.cache.maxEntries := by
  induction events generalizing timed with
  | nil => exact ⟨rfl, rfl⟩
  | cons event rest ih =>
    obtain ⟨htime, hentries⟩ := ih (timed.step event)
    obtain ⟨htime', hentries'⟩ := timed.limits_step event
    exact ⟨htime.trans htime', hentries.trans hentries'⟩

theorem capacity_run (timed : TimedCache) (events : List CacheEvent) :
    (timed.run events).cache.capacity = timed.cache.capacity := by
  simp only [Cache.capacity, (timed.limits_run events).2]

theorem now_le_now_step (timed : TimedCache) {event : CacheEvent} (hforward : event.IsForward) :
    timed.now ≤ (timed.step event).now := by
  cases event with
  | wait seconds => exact Int.le_add_of_nonneg_right hforward
  | insert key analysis => exact Int.le_refl _
  | ask key => exact Int.le_refl _
  | erase key => exact Int.le_refl _
  | dropExpired => exact Int.le_refl _
  | empty => exact Int.le_refl _

theorem now_le_now_run (timed : TimedCache) {events : List CacheEvent} (hforward : ∀ event ∈ events, event.IsForward) :
    timed.now ≤ (timed.run events).now := by
  induction events generalizing timed with
  | nil => exact Int.le_refl _
  | cons event rest ih =>
    rw [List.forall_mem_cons] at hforward
    exact Int.le_trans (timed.now_le_now_step hforward.1) (ih (timed.step event) hforward.2)

theorem hasExpired_of_le {entry : CachedAnalysis} {earlier now : Int} (hle : earlier ≤ now)
    (hlive : entry.hasExpired now = false) : entry.hasExpired earlier = false := by
  simp only [CachedAnalysis.hasExpired, decide_eq_false_iff_not] at hlive ⊢
  omega

/-! ### From an entry back to its write -/

/-- What is kept after an event was kept before and is not touched, or it has just been written. -/
theorem mem_store_step {timed : TimedCache} {event : CacheEvent} {item : String × CachedAnalysis}
    (hmem : item ∈ (timed.step event).cache.store) :
    item ∈ timed.cache.store ∧ event.touches item.1 = false ∨
      ∃ analysis, event = .insert item.1 analysis ∧ item = timed.cache.written timed.now item.1 analysis := by
  have herase : ∀ key, item ∈ (timed.cache.erase key).store → item ∈ timed.cache.store ∧ (key == item.1) = false :=
    fun key hitem => ⟨(timed.cache.store_erase_sublist key).subset hitem,
      beq_eq_false_iff_ne.2 (Cache.ne_of_mem_erase hitem).symm⟩
  cases event with
  | insert key analysis =>
    rcases List.mem_append.1 ((timed.cache.store_insert_sublist timed.now key analysis).subset hmem) with hold | hnew
    · exact .inl (herase key hold)
    · obtain rfl := List.mem_singleton.1 hnew
      exact .inr ⟨analysis, rfl, rfl⟩
  | ask key => exact .inl ⟨(timed.cache.store_afterAsking_sublist timed.now key).subset hmem, rfl⟩
  | erase key => exact .inl (herase key hmem)
  | dropExpired => exact .inl ⟨(timed.cache.store_dropExpired_sublist timed.now).subset hmem, rfl⟩
  | empty => exact absurd hmem List.not_mem_nil
  | wait seconds => exact .inl ⟨hmem, rfl⟩

theorem exists_lastWrite_of_mem (timed : TimedCache) (hempty : timed.cache.store = []) {events : List CacheEvent}
    {item : String × CachedAnalysis} (hmem : item ∈ (timed.run events).cache.store) :
    ∃ analysis earlier later, LastWrite events item.1 analysis earlier later ∧
      item = (timed.run earlier).cache.written (timed.run earlier).now item.1 analysis := by
  induction events using List.reverseRecOn with
  | nil => exact absurd (hempty ▸ hmem) List.not_mem_nil
  | append_singleton events event ih =>
    rw [run_append] at hmem
    rcases mem_store_step hmem with ⟨hold, huntouched⟩ | ⟨analysis, rfl, hwritten⟩
    · obtain ⟨analysis, earlier, later, hlast, hwritten⟩ := ih hold
      exact ⟨analysis, earlier, later ++ [event], hlast.concat huntouched, hwritten⟩
    · exact ⟨analysis, events, [], ⟨rfl, fun event hevent => absurd hevent List.not_mem_nil⟩, hwritten⟩

/-! ### From a write forward to its entry -/

theorem nodup_keys_step (timed : TimedCache) (hdistinct : timed.cache.keys.Nodup) (event : CacheEvent) :
    (timed.step event).cache.keys.Nodup := by
  cases event with
  | insert key analysis => exact Cache.nodup_keys_insert timed.now key hdistinct analysis
  | ask key => exact Cache.nodup_keys_of_sublist hdistinct (timed.cache.store_afterAsking_sublist timed.now key)
  | erase key => exact Cache.nodup_keys_of_sublist hdistinct (timed.cache.store_erase_sublist key)
  | dropExpired => exact Cache.nodup_keys_of_sublist hdistinct (timed.cache.store_dropExpired_sublist timed.now)
  | empty => exact List.nodup_nil
  | wait seconds => exact hdistinct

theorem nodup_keys_run (timed : TimedCache) (hdistinct : timed.cache.keys.Nodup) (events : List CacheEvent) :
    (timed.run events).cache.keys.Nodup := by
  induction events generalizing timed with
  | nil => exact hdistinct
  | cons event rest ih => exact ih (timed.step event) (timed.nodup_keys_step hdistinct event)

section Forward

variable {timed : TimedCache} {entry : String × CachedAnalysis} {behind : Finset String}

/-- A young entry that an event does not touch stays, with the key behind it that the event writes. -/
theorem holdsAhead_step (h : timed.cache.HoldsAhead entry behind) (hdistinct : timed.cache.keys.Nodup)
    (hlive : entry.2.hasExpired timed.now = false) {event : CacheEvent} (huntouched : event.touches entry.1 = false)
    (hroom : (behind ∪ event.written?.toFinset).card < timed.cache.capacity) :
    (timed.step event).cache.HoldsAhead entry (behind ∪ event.written?.toFinset) := by
  cases event with
  | insert key analysis =>
    have hkeys : behind ∪ (CacheEvent.insert key analysis).written?.toFinset = insert key behind := by
      rw [Finset.insert_eq, Finset.union_comm]
      rfl
    rw [hkeys] at hroom ⊢
    exact h.insert hdistinct hlive (beq_eq_false_iff_ne.1 huntouched).symm hroom analysis
  | ask key => exact (h.afterAsking hdistinct hlive key).mono Finset.subset_union_left
  | erase key => exact (h.erase (beq_eq_false_iff_ne.1 huntouched).symm).mono Finset.subset_union_left
  | dropExpired => exact (h.dropExpired hlive).mono Finset.subset_union_left
  | empty => exact absurd huntouched Bool.true_eq_false_eq_False
  | wait seconds => exact h.mono Finset.subset_union_left

theorem holdsAhead_run (h : timed.cache.HoldsAhead entry behind) (hdistinct : timed.cache.keys.Nodup)
    {events : List CacheEvent} (huntouched : ∀ event ∈ events, event.touches entry.1 = false)
    (hforward : ∀ event ∈ events, event.IsForward) (hlive : entry.2.hasExpired (timed.run events).now = false)
    (hroom : (behind ∪ writtenKeys events).card < timed.cache.capacity) :
    (timed.run events).cache.HoldsAhead entry (behind ∪ writtenKeys events) := by
  induction events generalizing timed behind with
  | nil => exact h.mono Finset.subset_union_left
  | cons event rest ih =>
    have hlive' : entry.2.hasExpired timed.now = false := hasExpired_of_le (timed.now_le_now_run hforward) hlive
    rw [List.forall_mem_cons] at huntouched hforward
    rw [writtenKeys_cons, ← Finset.union_assoc] at hroom ⊢
    have hstep := holdsAhead_step h hdistinct hlive' huntouched.1
      (Nat.lt_of_le_of_lt (Finset.card_le_card Finset.subset_union_left) hroom)
    refine ih hstep (timed.nodup_keys_step hdistinct event) huntouched.2 hforward.2 hlive ?_
    rwa [show (timed.step event).cache.capacity = timed.cache.capacity from timed.capacity_run [event]]

end Forward

/-! ### The law of the history -/

section Law

variable {fresh : TimedCache} (hempty : fresh.cache.store = []) {events : List CacheEvent} {key : String}
  {analysis : Analysis}
include hempty

theorem exists_lastWrite_of_find? (hfound : (fresh.run events).find? key = some analysis) :
    ∃ earlier later, LastWrite events key analysis earlier later ∧
      (fresh.run events).now - (fresh.run earlier).now ≤ fresh.cache.timeToLive := by
  obtain ⟨entry, hmem, hlive, hanalysis⟩ := Cache.exists_mem_of_find? hfound
  obtain ⟨written, earlier, later, hlast, hentry⟩ := fresh.exists_lastWrite_of_mem hempty hmem
  have hentry : entry = ⟨key, written, (fresh.run earlier).now, (fresh.run earlier).cache.timeToLive⟩ :=
    congrArg Prod.snd hentry
  obtain rfl : written = analysis := by rwa [hentry] at hanalysis
  refine ⟨earlier, later, hlast, ?_⟩
  rw [hentry, (fresh.limits_run earlier).1] at hlive
  exact Int.not_lt.1 (of_decide_eq_false hlive)

theorem find?_of_lastWrite (hforward : ∀ event ∈ events, event.IsForward) {earlier later : List CacheEvent}
    (hlast : LastWrite events key analysis earlier later)
    (hage : (fresh.run events).now - (fresh.run earlier).now ≤ fresh.cache.timeToLive)
    (hroom : (writtenKeys later).card < fresh.cache.capacity) : (fresh.run events).find? key = some analysis := by
  let before := fresh.run earlier
  let entry := before.cache.written before.now key analysis
  have hevents : fresh.run events = (before.step (.insert key analysis)).run later := by
    rw [hlast.split, run_append]
    rfl
  have hlive : entry.2.hasExpired (fresh.run events).now = false := by
    refine decide_eq_false (Int.not_lt.2 ?_)
    rwa [show entry.2.timeToLive = fresh.cache.timeToLive from (fresh.limits_run earlier).1]
  have hdistinct : fresh.cache.keys.Nodup := by
    rw [Cache.keys, hempty]
    exact List.nodup_nil
  have hcapacity : (before.step (.insert key analysis)).cache.capacity = fresh.cache.capacity :=
    fresh.capacity_run earlier
  have hlater : ∀ event ∈ later, event.IsForward := fun event hevent => by
    refine hforward event ?_
    rw [hlast.split]
    exact List.mem_append_right _ (List.mem_cons_of_mem _ hevent)
  -- right after the write nothing stands behind the entry
  have hheld : (fresh.run events).cache.HoldsAhead entry (∅ ∪ writtenKeys later) := by
    rw [hevents]
    refine holdsAhead_run (before.cache.holdsAhead_insert before.now key analysis)
      (before.nodup_keys_step (fresh.nodup_keys_run hdistinct earlier) _) hlast.untouched hlater (hevents ▸ hlive) ?_
    rwa [Finset.empty_union, hcapacity]
  exact Cache.find?_of_mem (fresh.nodup_keys_run hdistinct events) hheld.mem hlive

end Law

/-- What is found under a key is its last write, young and not removed; and the last write is found when it is young,
was not removed, and fewer different keys were written since than the cache may hold. -/
theorem find?_run (timeToLive maxEntries start : Int) {events : List CacheEvent}
    (hforward : ∀ event ∈ events, event.IsForward) (key : String) (analysis : Analysis) :
    let fresh : TimedCache := { cache := { timeToLive, maxEntries }, now := start }
    let age := fun earlier : List CacheEvent => (fresh.run events).now - (fresh.run earlier).now
    ((fresh.run events).find? key = some analysis →
        ∃ earlier later, LastWrite events key analysis earlier later ∧ age earlier ≤ timeToLive) ∧
      ∀ earlier later, LastWrite events key analysis earlier later → age earlier ≤ timeToLive →
        ((writtenKeys later).card : Int) < max maxEntries 1 → (fresh.run events).find? key = some analysis := by
  intro fresh age
  have hcapacity : fresh.cache.capacity = (max maxEntries 1).toNat := rfl
  constructor
  · exact fun hfound => exists_lastWrite_of_find? rfl hfound
  · intro earlier later hlast hage hroom
    exact find?_of_lastWrite rfl hforward hlast hage (by omega)

/-- With room for two entries, a key that is written again is found at the last moment of its time, whatever was
written, removed and purged meanwhile. -/
theorem find?_run_rewritten :
    let latest : Analysis := { lineCount := 7 }
    let earlier : List CacheEvent := [.insert "first" {}, .insert "second" {}, .wait 50]
    let later : List CacheEvent := [.insert "third" {}, .ask "first", .wait 60, .erase "third", .dropExpired]
    let events := earlier ++ .insert "first" latest :: later
    let fresh : TimedCache := { cache := { timeToLive := 60, maxEntries := 2 }, now := 5 }
    (∀ event ∈ events, event.IsForward) ∧ LastWrite events "first" latest earlier later ∧
      (fresh.run events).find? "first" = some latest := by
  intro latest earlier later events fresh
  have hforward : ∀ event ∈ events, event.IsForward := by decide
  have hlast : LastWrite events "first" latest earlier later := ⟨rfl, by decide⟩
  exact ⟨hforward, hlast, (find?_run 60 2 5 hforward "first" latest).2 earlier later hlast (by decide) (by decide)⟩

end TimedCache

end ContractMigration
