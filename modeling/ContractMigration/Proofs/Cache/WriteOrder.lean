import ContractMigration.Proofs.Cache.LastWrite

/-!
# The order of a cache

The entries of a cache stand in the order of their writes, and they all live equally long. Whatever has expired is
therefore in front of what has not, the front is what a full cache drops, and a write ends up last (`inOrder_run`).

All operations but a write only take entries away and leave the others where they are, so one lemma on sublists
(`InOrder.of_sublist`) says what they keep. A write is the one case with an argument of its own: its time is now, and no
entry is younger than that as long as the clock does not run backwards.
-/

namespace ContractMigration

/-- What every operation keeps of a cache, as seen at some time. -/
structure Cache.InOrder (cache : Cache) (now : Int) : Prop where
  distinct : cache.keys.Nodup
  hashes : ∀ item ∈ cache.store, item.2.contentHash = item.1
  size : cache.store.length ≤ cache.capacity
  order : cache.store.Pairwise fun older newer => older.2.storedAt ≤ newer.2.storedAt
  past : ∀ item ∈ cache.store, item.2.storedAt ≤ now
  lifetimes : ∀ item ∈ cache.store, item.2.timeToLive = cache.timeToLive

namespace Cache

variable {cache : Cache} {now : Int}

theorem inOrder_of_store_eq_nil (h : cache.store = []) (now : Int) : cache.InOrder now := by
  constructor <;> simp [keys, h]

theorem InOrder.mono (h : cache.InOrder now) {later : Int} (hle : now ≤ later) : cache.InOrder later :=
  { h with past := fun item hitem => Int.le_trans (h.past item hitem) hle }

/-- Taking entries away keeps the order of the others. -/
theorem InOrder.of_sublist (h : cache.InOrder now) {fewer : Cache} (hstore : fewer.store.Sublist cache.store)
    (htime : fewer.timeToLive = cache.timeToLive) (hmost : fewer.maxEntries = cache.maxEntries) :
    fewer.InOrder now where
  distinct := nodup_keys_of_sublist h.distinct hstore
  hashes item hitem := h.hashes item (hstore.subset hitem)
  size := by
    have hcapacity : fewer.capacity = cache.capacity := by rw [capacity, capacity, hmost]
    rw [hcapacity]
    exact Nat.le_trans hstore.length_le h.size
  order := h.order.sublist hstore
  past item hitem := h.past item (hstore.subset hitem)
  lifetimes item hitem := (h.lifetimes item (hstore.subset hitem)).trans htime.symm

/-! ### A write -/

section Write

variable (cache) (now) (key : String) (analysis : Analysis)

theorem length_store_insert_le : (cache.insert now key analysis).store.length ≤ cache.capacity := by
  rw [store_insert, List.length_drop]
  omega

/-- A write leaves the new entry last, behind some of those that have not expired. -/
theorem exists_store_insert_eq_concat :
    ∃ others, (cache.insert now key analysis).store = others ++ [cache.written now key analysis] ∧
      others.Sublist ((cache.dropExpired now).erase key).store := by
  obtain ⟨others, newer, hstore, hnone⟩ := cache.holdsAhead_insert now key analysis
  obtain rfl : newer = [] := List.eq_nil_iff_forall_not_mem.2 fun item hitem =>
    Finset.notMem_empty _ (hnone item hitem)
  refine ⟨others, hstore, (List.append_sublist_append_right [cache.written now key analysis]).1 ?_⟩
  rw [← hstore, store_insert]
  exact List.drop_sublist _ _

end Write

theorem InOrder.insert (h : cache.InOrder now) (key : String) (analysis : Analysis) :
    (cache.insert now key analysis).InOrder now := by
  obtain ⟨others, hstore, hothers⟩ := cache.exists_store_insert_eq_concat now key analysis
  have hpart : others.Sublist cache.store :=
    hothers.trans ((store_erase_sublist _ key).trans (cache.store_dropExpired_sublist now))
  constructor
  case distinct => exact nodup_keys_insert now key h.distinct analysis
  case size => exact cache.length_store_insert_le now key analysis
  case order =>
    rw [hstore, List.pairwise_append]
    refine ⟨h.order.sublist hpart, List.pairwise_singleton _ _, fun older holder newer hnewer => ?_⟩
    rw [List.mem_singleton.1 hnewer]
    exact h.past older (hpart.subset holder)
  all_goals
    rw [hstore, List.forall_mem_append, List.forall_mem_singleton]
  case hashes => exact ⟨fun item hitem => h.hashes item (hpart.subset hitem), rfl⟩
  case past => exact ⟨fun item hitem => h.past item (hpart.subset hitem), Int.le_refl _⟩
  case lifetimes => exact ⟨fun item hitem => h.lifetimes item (hpart.subset hitem), rfl⟩

/-- Right after a write nothing has expired, unless entries expire at once. -/
theorem hasExpired_of_mem_insert (htime : 0 ≤ cache.timeToLive) {key : String} {analysis : Analysis}
    {item : String × CachedAnalysis} (hitem : item ∈ (cache.insert now key analysis).store) :
    item.2.hasExpired now = false := by
  obtain ⟨others, hstore, hothers⟩ := cache.exists_store_insert_eq_concat now key analysis
  rw [hstore, List.mem_append, List.mem_singleton] at hitem
  rcases hitem with hother | rfl
  · have hkept : item ∈ (cache.dropExpired now).store :=
      (store_erase_sublist _ key).subset (hothers.subset hother)
    simpa using (List.mem_filter.1 hkept).2
  · refine decide_eq_false (Int.not_lt.2 ?_)
    show now - now ≤ cache.timeToLive
    omega

/-! ### What has expired -/

/-- What goes from an item to all items before it ends with a front of the list. -/
theorem exists_append_of_pairwise {α : Type} {p : α → Bool} {items : List α}
    (h : items.Pairwise fun first second => p second = true → p first = true) :
    ∃ front behind, items = front ++ behind ∧ (∀ item ∈ front, p item = true) ∧ ∀ item ∈ behind, p item = false := by
  induction items with
  | nil => exact ⟨[], [], rfl, by simp, by simp⟩
  | cons first rest ih =>
    obtain ⟨hfirst, hrest⟩ := List.pairwise_cons.1 h
    by_cases hp : p first = true
    · obtain ⟨front, behind, rfl, hfront, hbehind⟩ := ih hrest
      exact ⟨first :: front, behind, rfl, List.forall_mem_cons.2 ⟨hp, hfront⟩, hbehind⟩
    · refine ⟨[], first :: rest, rfl, by simp, List.forall_mem_cons.2 ⟨Bool.eq_false_iff.2 hp, fun item hitem => ?_⟩⟩
      exact Bool.eq_false_iff.2 fun hlater => hp (hfirst item hitem hlater)

/-- The expired entries stand in front of the others. -/
theorem InOrder.exists_expired_append (h : cache.InOrder now) :
    ∃ expired live, cache.store = expired ++ live ∧ (∀ item ∈ expired, item.2.hasExpired now = true) ∧
      ∀ item ∈ live, item.2.hasExpired now = false := by
  refine exists_append_of_pairwise (h.order.imp_of_mem fun {older newer} holder hnewer hle => ?_)
  simp only [CachedAnalysis.hasExpired, decide_eq_true_eq, h.lifetimes _ holder, h.lifetimes _ hnewer]
  omega

/-- A question takes away the entry under its key if that has expired, and nothing else. -/
theorem afterAsking_eq (hdistinct : cache.keys.Nodup) (now : Int) (key : String) :
    cache.afterAsking now key =
      { cache with store := cache.store.filter fun item => !(item.1 == key && item.2.hasExpired now) } := by
  have hentry : ∀ item ∈ cache.store, item.1 = key → cache.store.lookup key = some item.2 := by
    rintro ⟨name, entry⟩ hmem rfl
    exact lookup_of_mem hdistinct hmem
  have hsame (hlive : ∀ item ∈ cache.store, item.1 = key → item.2.hasExpired now = false) :
      cache.store.filter (fun item => !(item.1 == key && item.2.hasExpired now)) = cache.store :=
    List.filter_eq_self.2 fun item hitem => by simpa [imp_iff_not_or] using hlive item hitem
  unfold afterAsking
  cases hlookup : cache.store.lookup key with
  | none => rw [hsame fun item hitem hkey => absurd (hentry item hitem hkey) (by simp [hlookup])]
  | some entry =>
    have honly : ∀ item ∈ cache.store, item.1 = key → item.2 = entry := fun item hitem hkey =>
      Option.some.inj ((hentry item hitem hkey).symm.trans hlookup)
    cases hexpired : entry.hasExpired now with
    | false =>
      rw [hsame fun item hitem hkey => honly item hitem hkey ▸ hexpired]
      exact if_neg (Bool.eq_false_iff.1 hexpired)
    | true =>
      have hfilter : cache.store.filter (·.1 != key) =
          cache.store.filter fun item => !(item.1 == key && item.2.hasExpired now) := by
        refine List.filter_congr fun item hitem => ?_
        by_cases hkey : item.1 = key
        · simp [hkey, honly item hitem hkey, hexpired]
        · simp [bne_iff_ne.2 hkey, hkey]
      rw [← hfilter]
      exact if_pos hexpired

end Cache

namespace TimedCache

/-! ### Steps and runs -/

theorem inOrder_step {timed : TimedCache} (h : timed.cache.InOrder timed.now) {event : CacheEvent}
    (hforward : event.IsForward) : (timed.step event).cache.InOrder (timed.step event).now := by
  cases event with
  | insert key analysis => exact h.insert key analysis
  | ask key =>
    have hlimits := timed.limits_step (.ask key)
    exact h.of_sublist (timed.cache.store_afterAsking_sublist timed.now key) hlimits.1 hlimits.2
  | erase key => exact h.of_sublist (timed.cache.store_erase_sublist key) rfl rfl
  | dropExpired => exact h.of_sublist (timed.cache.store_dropExpired_sublist timed.now) rfl rfl
  | empty => exact h.of_sublist (List.nil_sublist _) rfl rfl
  | wait seconds => exact h.mono (timed.now_le_now_step hforward)

theorem inOrder_run {timed : TimedCache} (h : timed.cache.InOrder timed.now) {events : List CacheEvent}
    (hforward : ∀ event ∈ events, event.IsForward) : (timed.run events).cache.InOrder (timed.run events).now := by
  induction events generalizing timed with
  | nil => exact h
  | cons event rest ih =>
    rw [List.forall_mem_cons] at hforward
    exact ih (inOrder_step h hforward.1) hforward.2

/-- After any history the keys are different from each other, every entry lies under its own hash, there is room for
all entries, they stand in the order of their writes, and what has expired is in front of the others. A write then ends
up last, with nothing expired beside it unless entries expire at once, and a question takes away at most the entry that
is asked for. -/
theorem run_keeps_order (timeToLive maxEntries start : Int) {events : List CacheEvent}
    (hforward : ∀ event ∈ events, event.IsForward) :
    let fresh : TimedCache := { cache := { timeToLive, maxEntries }, now := start }
    let timed := fresh.run events
    let store := timed.cache.store
    timed.cache.keys.Nodup ∧
      (∀ item ∈ store, item.2.contentHash = item.1) ∧
      (store.length : Int) ≤ max maxEntries 1 ∧
      store.Pairwise (fun older newer => older.2.storedAt ≤ newer.2.storedAt) ∧
      (∃ expired live, store = expired ++ live ∧ (∀ item ∈ expired, item.2.hasExpired timed.now = true) ∧
        ∀ item ∈ live, item.2.hasExpired timed.now = false) ∧
      (∀ key analysis,
        let after := timed.step (.insert key analysis)
        after.cache.keys.getLast? = some key ∧
          (0 ≤ timeToLive → ∀ item ∈ after.cache.store, item.2.hasExpired after.now = false)) ∧
      ∀ key, (timed.step (.ask key)).cache =
        { timed.cache with store := store.filter fun item => !(item.1 == key && item.2.hasExpired timed.now) } := by
  intro fresh timed store
  have horder : timed.cache.InOrder timed.now := inOrder_run (Cache.inOrder_of_store_eq_nil rfl start) hforward
  have hcapacity : timed.cache.capacity = (max maxEntries 1).toNat := fresh.capacity_run events
  have htime : timed.cache.timeToLive = timeToLive := (fresh.limits_run events).1
  refine ⟨horder.distinct, horder.hashes, ?_, horder.order, horder.exists_expired_append, fun key analysis => ?_,
    Cache.afterAsking_eq horder.distinct timed.now⟩
  · have hsize : store.length ≤ (max maxEntries 1).toNat := hcapacity ▸ horder.size
    omega
  · intro after
    obtain ⟨others, hstore, -⟩ := timed.cache.exists_store_insert_eq_concat timed.now key analysis
    refine ⟨?_, fun hpositive item hitem => Cache.hasExpired_of_mem_insert (htime ▸ hpositive) hitem⟩
    show ((timed.cache.insert timed.now key analysis).store.map (·.1)).getLast? = some key
    rw [hstore, List.map_append]
    exact List.getLast?_concat

/-- A full cache with one expired entry: it is in front, and neither a question for another key nor a write of its
neighbour leaves the order. -/
theorem run_keeps_order_full :
    let events : List CacheEvent :=
      [.insert "first" {}, .insert "second" {}, .wait 50, .insert "first" {}, .ask "third", .wait 20]
    let fresh : TimedCache := { cache := { timeToLive := 60, maxEntries := 2 }, now := 5 }
    let timed := fresh.run events
    (∀ event ∈ events, event.IsForward) ∧ timed.cache.keys = ["second", "first"] ∧
      (timed.step (.ask "second")).cache.keys = ["first"] ∧
      (timed.step (.insert "second" {})).cache.keys.getLast? = some "second" := by
  intro events fresh timed
  have hforward : ∀ event ∈ events, event.IsForward := by decide
  obtain ⟨-, -, -, -, -, hwrite, hask⟩ := run_keeps_order 60 2 5 hforward
  refine ⟨hforward, by decide, ?_, (hwrite "second" {}).1⟩
  rw [Cache.keys, hask "second"]
  decide

end TimedCache

end ContractMigration
