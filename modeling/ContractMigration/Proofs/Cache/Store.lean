import ContractMigration.Cache.Basic
import Mathlib.Data.Finset.Card
import Mathlib.Data.List.Nodup

/-!
# The entries of a cache

A question, a removal and a purge only take entries away, and a write puts one entry behind what is left of the others.
So the keys stay different from each other, and what is found under a key is the one entry that is kept there.

A write makes room by dropping from the front. What matters for an entry is therefore which keys stand behind it
(`HoldsAhead`): it stays when another key is written as long as these are fewer than the cache may hold.
-/

namespace ContractMigration.Cache

/-- The entry that a write makes, under its key. -/
def written (cache : Cache) (now : Int) (key : String) (analysis : Analysis) : String × CachedAnalysis :=
  (key, ⟨key, analysis, now, cache.timeToLive⟩)

/-- An entry is kept, and behind it stand no keys but certain ones. -/
def HoldsAhead (cache : Cache) (entry : String × CachedAnalysis) (behind : Finset String) : Prop :=
  ∃ older newer, cache.store = older ++ entry :: newer ∧ ∀ item ∈ newer, item.1 ∈ behind

theorem HoldsAhead.mem {cache : Cache} {entry : String × CachedAnalysis} {behind : Finset String}
    (h : cache.HoldsAhead entry behind) : entry ∈ cache.store := by
  obtain ⟨older, newer, hstore, -⟩ := h
  rw [hstore]
  exact List.mem_append_right _ List.mem_cons_self

theorem one_le_capacity (cache : Cache) : 1 ≤ cache.capacity := by
  unfold capacity
  omega

/-! ### Finding an entry -/

section Find

variable {cache : Cache} {now : Int} {key : String}

theorem exists_mem_of_find? {analysis : Analysis} (h : cache.find? now key = some analysis) :
    ∃ entry, (key, entry) ∈ cache.store ∧ entry.hasExpired now = false ∧ entry.analysis = analysis := by
  unfold find? at h
  cases hlookup : cache.store.lookup key with
  | none => simp only [hlookup, reduceCtorEq] at h
  | some entry =>
    simp only [hlookup, Option.ite_none_left_eq_some, Bool.not_eq_true, Option.some.injEq] at h
    obtain ⟨front, rest, hstore, -⟩ := List.lookup_eq_some_iff.1 hlookup
    refine ⟨entry, ?_, h⟩
    rw [hstore]
    exact List.mem_append_right _ List.mem_cons_self

theorem lookup_of_mem (hdistinct : cache.keys.Nodup) {entry : CachedAnalysis} (hmem : (key, entry) ∈ cache.store) :
    cache.store.lookup key = some entry := by
  obtain ⟨front, rest, hstore⟩ := List.append_of_mem hmem
  refine List.lookup_eq_some_iff.2 ⟨front, rest, hstore, fun item hitem => bne_iff_ne.2 fun heq => ?_⟩
  rw [keys, hstore, List.map_append, List.nodup_append] at hdistinct
  exact hdistinct.2.2 _ (List.mem_map_of_mem hitem) key List.mem_cons_self heq.symm

theorem find?_of_mem (hdistinct : cache.keys.Nodup) {entry : CachedAnalysis} (hmem : (key, entry) ∈ cache.store)
    (hlive : entry.hasExpired now = false) : cache.find? now key = some entry.analysis := by
  simp only [find?, lookup_of_mem hdistinct hmem, hlive, Bool.false_eq_true, if_false]

end Find

/-! ### What an operation leaves -/

section Operations

variable (cache : Cache) (now : Int) (key : String)

theorem store_erase_sublist : (cache.erase key).store.Sublist cache.store :=
  List.filter_sublist

theorem store_dropExpired_sublist : (cache.dropExpired now).store.Sublist cache.store :=
  List.filter_sublist

/-- A question changes nothing, or it takes away what has expired under the key. -/
theorem afterAsking_cases :
    cache.afterAsking now key = cache ∨
      cache.afterAsking now key = cache.erase key ∧
        ∃ entry, cache.store.lookup key = some entry ∧ entry.hasExpired now = true := by
  unfold afterAsking
  split
  · exact .inl rfl
  · next entry hlookup =>
    split
    · next hexpired => exact .inr ⟨rfl, entry, hlookup, hexpired⟩
    · exact .inl rfl

theorem store_afterAsking_sublist : (cache.afterAsking now key).store.Sublist cache.store := by
  rcases cache.afterAsking_cases now key with h | ⟨h, -⟩
  · rw [h]
  · rw [h]
    exact cache.store_erase_sublist key

/-- What a write keeps before it makes room: the others that have not expired, and the new entry behind them. -/
theorem store_insert (analysis : Analysis) :
    (cache.insert now key analysis).store =
      let kept := ((cache.dropExpired now).erase key).store ++ [cache.written now key analysis]
      kept.drop (kept.length - cache.capacity) := rfl

theorem store_insert_sublist (analysis : Analysis) :
    (cache.insert now key analysis).store.Sublist
      ((cache.erase key).store ++ [cache.written now key analysis]) := by
  rw [store_insert]
  exact (List.drop_sublist _ _).trans (((cache.store_dropExpired_sublist now).filter _).append_right _)

theorem ne_of_mem_erase {cache : Cache} {key : String} {item : String × CachedAnalysis}
    (hmem : item ∈ (cache.erase key).store) : item.1 ≠ key :=
  bne_iff_ne.1 (List.mem_filter.1 hmem).2

variable {cache}

theorem nodup_keys_of_sublist {shorter : Cache} (hdistinct : cache.keys.Nodup)
    (hpart : shorter.store.Sublist cache.store) : shorter.keys.Nodup :=
  hdistinct.sublist (hpart.map _)

theorem nodup_keys_written (hdistinct : cache.keys.Nodup) (analysis : Analysis) :
    (((cache.erase key).store ++ [cache.written now key analysis]).map (·.1)).Nodup := by
  rw [List.map_append, List.nodup_append]
  refine ⟨nodup_keys_of_sublist hdistinct (cache.store_erase_sublist key), List.nodup_singleton _, ?_⟩
  intro name hname other hother
  obtain ⟨item, hitem, rfl⟩ := List.mem_map.1 hname
  rw [List.mem_singleton.1 hother]
  exact ne_of_mem_erase hitem

theorem nodup_keys_insert (hdistinct : cache.keys.Nodup) (analysis : Analysis) :
    (cache.insert now key analysis).keys.Nodup :=
  (nodup_keys_written now key hdistinct analysis).sublist ((cache.store_insert_sublist now key analysis).map _)

end Operations

/-! ### Which entries stay -/

section HoldsAhead

variable {cache : Cache} {now : Int} {entry : String × CachedAnalysis} {behind : Finset String}

theorem HoldsAhead.mono (h : cache.HoldsAhead entry behind) {more : Finset String} (hmore : behind ⊆ more) :
    cache.HoldsAhead entry more := by
  obtain ⟨older, newer, hstore, hbehind⟩ := h
  exact ⟨older, newer, hstore, fun item hitem => hmore (hbehind item hitem)⟩

/-- An entry that a filter keeps stays where it is among the others. -/
theorem HoldsAhead.filter (h : cache.HoldsAhead entry behind) {p : String × CachedAnalysis → Bool}
    (hkept : p entry = true) {after : Cache} (hafter : after.store = cache.store.filter p) :
    after.HoldsAhead entry behind := by
  obtain ⟨older, newer, hstore, hbehind⟩ := h
  refine ⟨older.filter p, newer.filter p, ?_, fun item hitem => hbehind item (List.mem_of_mem_filter hitem)⟩
  rw [hafter, hstore, List.filter_append, List.filter_cons_of_pos hkept]

theorem HoldsAhead.erase (h : cache.HoldsAhead entry behind) {key : String} (hkey : entry.1 ≠ key) :
    (cache.erase key).HoldsAhead entry behind :=
  h.filter (p := (·.1 != key)) (bne_iff_ne.2 hkey) rfl

theorem HoldsAhead.dropExpired (h : cache.HoldsAhead entry behind) (hlive : entry.2.hasExpired now = false) :
    (cache.dropExpired now).HoldsAhead entry behind :=
  h.filter (p := fun item => !item.2.hasExpired now) (congrArg (!·) hlive) rfl

theorem HoldsAhead.afterAsking (h : cache.HoldsAhead entry behind) (hdistinct : cache.keys.Nodup)
    (hlive : entry.2.hasExpired now = false) (key : String) : (cache.afterAsking now key).HoldsAhead entry behind := by
  rcases cache.afterAsking_cases now key with hsame | ⟨herased, expired, hlookup, hexpired⟩
  · rwa [hsame]
  · rw [herased]
    refine h.erase fun hkey => ?_
    rw [← hkey, lookup_of_mem hdistinct h.mem, Option.some.injEq] at hlookup
    rw [← hlookup, hlive] at hexpired
    exact Bool.false_ne_true hexpired

/-- Making room does not reach an entry with less behind it than there is room for. -/
theorem exists_drop_eq_append_cons {α : Type} (older : List α) (item : α) {newer : List α} {room : Nat}
    (hroom : newer.length < room) :
    ∃ front, (older ++ item :: newer).drop ((older ++ item :: newer).length - room) = front ++ item :: newer := by
  refine ⟨_, List.drop_append_of_le_length ?_⟩
  rw [List.length_append, List.length_cons]
  omega

theorem holdsAhead_insert (cache : Cache) (now : Int) (key : String) (analysis : Analysis) :
    (cache.insert now key analysis).HoldsAhead (cache.written now key analysis) ∅ := by
  obtain ⟨front, hfront⟩ := exists_drop_eq_append_cons ((cache.dropExpired now).erase key).store
    (cache.written now key analysis) (show [].length < cache.capacity from cache.one_le_capacity)
  exact ⟨front, [], hfront, fun item hitem => absurd hitem List.not_mem_nil⟩

/-- An entry stays ahead when another key is written, as long as the keys behind it leave room for it. -/
theorem HoldsAhead.insert (h : cache.HoldsAhead entry behind) (hdistinct : cache.keys.Nodup)
    (hlive : entry.2.hasExpired now = false) {key : String} (hkey : entry.1 ≠ key)
    (hroom : (Insert.insert key behind).card < cache.capacity) (analysis : Analysis) :
    (cache.insert now key analysis).HoldsAhead entry (Insert.insert key behind) := by
  obtain ⟨older, newer, hstore, hbehind⟩ := (h.dropExpired hlive).erase hkey
  let latest := newer ++ [cache.written now key analysis]
  have hkept : ((cache.dropExpired now).erase key).store ++ [cache.written now key analysis] =
      older ++ entry :: latest := by
    rw [hstore, List.append_assoc, List.cons_append]
  have hlatest : ∀ item ∈ latest, item.1 ∈ Insert.insert key behind := fun item hitem => by
    rcases List.mem_append.1 hitem with hold | hnew
    · exact Finset.mem_insert_of_mem (hbehind item hold)
    · rw [List.mem_singleton.1 hnew]
      exact Finset.mem_insert_self key behind
  -- the keys behind the entry are different from each other, so there are no more of them than were written
  have hnodup : (latest.map (·.1)).Nodup := by
    have hall := nodup_keys_written now key
      (nodup_keys_of_sublist hdistinct (cache.store_dropExpired_sublist now)) analysis
    have hpart : latest.Sublist (older ++ entry :: latest) :=
      (List.sublist_cons_self entry latest).trans (List.sublist_append_right older _)
    exact hall.sublist ((hkept ▸ hpart).map _)
  have hlength : latest.length < cache.capacity := by
    rw [← List.length_map (·.1), ← List.toFinset_card_of_nodup hnodup]
    refine Nat.lt_of_le_of_lt (Finset.card_le_card fun name hname => ?_) hroom
    obtain ⟨item, hitem, rfl⟩ := List.mem_map.1 (List.mem_toFinset.1 hname)
    exact hlatest item hitem
  obtain ⟨front, hfront⟩ := exists_drop_eq_append_cons older entry hlength
  refine ⟨front, latest, ?_, hlatest⟩
  rw [store_insert, hkept]
  exact hfront

end HoldsAhead

end ContractMigration.Cache
