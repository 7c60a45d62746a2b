import ContractMigration.Proofs.Cache.Store
import ContractMigration.Session.History
import Mathlib.Data.Set.Function

/-!
# Sessions do not show their cache

What a session answers is what it would answer without a cache (`plainAnswers`), but for the flag in each record and for
the marks. The reason is that a cache only ever holds analyses of their own sources: every entry lies under the digest
of some source of the history and is the analysis of that source (`Cache.Sound`). As long as no two sources of the
history have one digest, what is found for a source is its analysis.

Two sessions with the same rules and the same log, and with whatever limits to their caches, therefore answer a history
alike and note the same records at the same times (`answers_of_limits`).
-/

namespace ContractMigration

/-- A record without what its source does not decide: the id, the duration, and whether the cache was hit. -/
def AuditRecord.observed (entry : AuditRecord) : AuditRecord :=
  { entry with analysisId := "", cacheHit := false, durationMs := .finite false 0 }

/-- The log with notes at its end, each a record and the time at which it was logged. -/
def AuditLog.noteAll (audit : AuditLog) (notes : List (Int × AuditRecord)) : AuditLog :=
  notes.foldl (fun audit (now, entry) => audit.note now entry) audit

namespace SessionEvent

/-- The event without its mark. -/
def unmarked : SessionEvent → SessionEvent
  | analyze _ source filename => analyze {} source filename
  | migrate _ source filename => migrate {} source filename
  | wait seconds => wait seconds

def source? : SessionEvent → Option String
  | analyze _ source _ | migrate _ source _ => some source
  | wait _ => none

def after (now : Int) : SessionEvent → Int
  | analyze _ _ _ | migrate _ _ _ => now
  | wait seconds => now + seconds

end SessionEvent

namespace SessionAnswer

/-- The answer without the mark and the flag of its record. -/
def observed : SessionAnswer → SessionAnswer
  | analysed analysis entry => analysed analysis entry.observed
  | migrated plan => migrated { plan with audit := plan.audit.observed }
  | time now => time now

def analysis? : SessionAnswer → Option Analysis
  | analysed analysis _ => some analysis
  | migrated plan => some plan.analysis
  | time _ => none

def record? : SessionAnswer → Option AuditRecord
  | analysed _ entry => some entry
  | migrated plan => some plan.audit
  | time _ => none

end SessionAnswer

/-- The sources of a history. -/
def sourcesOf (events : List SessionEvent) : Set String :=
  { source | source ∈ events.filterMap SessionEvent.source? }

/-! ### Without a cache -/

/-- The answer to an event for which nothing has to be remembered. -/
def plainAnswer (registry : List RuleModule) (now : Int) : SessionEvent → SessionAnswer
  | .analyze _ source filename =>
    let analysis := analyze source.toList
    .analysed analysis (Session.recordFor {} filename analysis false)
  | .migrate _ source filename =>
    let analysis := analyze source.toList
    .migrated (Session.plan registry now source analysis (Session.recordFor {} filename analysis false))
  | .wait seconds => .time (now + seconds)

/-- The answers to a history for which nothing has to be remembered but the time. -/
def plainAnswers (registry : List RuleModule) (now : Int) : List SessionEvent → List SessionAnswer
  | [] => []
  | event :: rest => plainAnswer registry now event :: plainAnswers registry (event.after now) rest

/-- The notes of a history for which nothing has to be remembered but the time. -/
def plainNotes (registry : List RuleModule) (now : Int) : List SessionEvent → List (Int × AuditRecord)
  | [] => []
  | event :: rest =>
    ((plainAnswer registry now event).record?.map (now, ·)).toList ++ plainNotes registry (event.after now) rest

theorem plainAnswer_unmarked (registry : List RuleModule) (now : Int) (event : SessionEvent) :
    plainAnswer registry now event.unmarked = plainAnswer registry now event := by
  cases event <;> rfl

theorem after_unmarked (now : Int) (event : SessionEvent) : event.unmarked.after now = event.after now := by
  cases event <;> rfl

theorem source?_unmarked (event : SessionEvent) : event.unmarked.source? = event.source? := by
  cases event <;> rfl

theorem plainAnswers_unmarked (registry : List RuleModule) (now : Int) (events : List SessionEvent) :
    plainAnswers registry now (events.map SessionEvent.unmarked) = plainAnswers registry now events := by
  induction events generalizing now with
  | nil => rfl
  | cons event rest ih => rw [List.map_cons, plainAnswers, plainAnswer_unmarked, after_unmarked, ih, plainAnswers]

theorem plainNotes_unmarked (registry : List RuleModule) (now : Int) (events : List SessionEvent) :
    plainNotes registry now (events.map SessionEvent.unmarked) = plainNotes registry now events := by
  induction events generalizing now with
  | nil => rfl
  | cons event rest ih => rw [List.map_cons, plainNotes, plainAnswer_unmarked, after_unmarked, ih, plainNotes]

theorem sourcesOf_unmarked (events : List SessionEvent) :
    sourcesOf (events.map SessionEvent.unmarked) = sourcesOf events := by
  simp only [sourcesOf, List.filterMap_map, Function.comp_def, source?_unmarked]

theorem analysis?_plainAnswer (registry : List RuleModule) (now : Int) (event : SessionEvent) :
    (plainAnswer registry now event).analysis? = event.source?.map fun source => analyze source.toList := by
  cases event <;> rfl

/-! ### Sound caches -/

/-- Every entry is the analysis of a source, under the digest of that source. -/
def Cache.Sound (cache : Cache) (sources : Set String) : Prop :=
  ∀ item ∈ cache.store, ∃ source ∈ sources, item.1 = contentHash source ∧ item.2.analysis = analyze source.toList

namespace Cache

variable {cache : Cache} {sources : Set String} {source : String}

theorem Sound.afterAsking (h : cache.Sound sources) (now : Int) (key : String) :
    (cache.afterAsking now key).Sound sources :=
  fun item hitem => h item ((cache.store_afterAsking_sublist now key).subset hitem)

theorem Sound.insert (h : cache.Sound sources) (hsource : source ∈ sources) (now : Int) :
    (cache.insert now (contentHash source) (analyze source.toList)).Sound sources := by
  intro item hitem
  rcases List.mem_append.1 ((cache.store_insert_sublist now _ _).subset hitem) with hold | hnew
  · exact h item ((cache.store_erase_sublist _).subset hold)
  · rw [List.mem_singleton.1 hnew]
    exact ⟨source, hsource, rfl, rfl⟩

end Cache

section

variable {cache : Cache} {sources : Set String} {source : String}

/-- Through a sound cache comes the analysis of a source with the same digest, and the cache stays sound. -/
theorem exists_cachedAnalysis (h : cache.Sound sources) (hsource : source ∈ sources) (now : Int) :
    (∃ kept ∈ sources, contentHash source = contentHash kept ∧
        (Session.cachedAnalysis cache now source).1 = analyze kept.toList) ∧
      (Session.cachedAnalysis cache now source).2.2.Sound sources := by
  simp only [Session.cachedAnalysis]
  cases hfound : cache.find? now (contentHash source) with
  | some analysis =>
    obtain ⟨entry, hmem, -, rfl⟩ := Cache.exists_mem_of_find? hfound
    exact ⟨h _ hmem, h.afterAsking now _⟩
  | none => exact ⟨⟨source, hsource, rfl, rfl⟩, (h.afterAsking now _).insert hsource now⟩

/-- Where digests tell the sources apart it is the analysis of the source itself. -/
theorem cachedAnalysis_of_sound (h : cache.Sound sources) (hdigest : Set.InjOn contentHash sources)
    (hsource : source ∈ sources) (now : Int) :
    (Session.cachedAnalysis cache now source).1 = analyze source.toList ∧
      (Session.cachedAnalysis cache now source).2.2.Sound sources := by
  obtain ⟨⟨kept, hkept, hkey, hanalysis⟩, hsound⟩ := exists_cachedAnalysis h hsource now
  obtain rfl := hdigest hsource hkept hkey
  exact ⟨hanalysis, hsound⟩

end

/-! ### Steps and runs -/

namespace TimedSession

/-- The records that a history makes the session log, with their times. -/
def notes (timed : TimedSession) : List SessionEvent → List (Int × AuditRecord)
  | [] => []
  | event :: rest =>
    ((timed.step event).1.record?.map (timed.now, ·)).toList ++ (timed.step event).2.notes rest

/-- The log after an event has at its end the record of the answer. -/
theorem audit_step (timed : TimedSession) (event : SessionEvent) :
    (timed.step event).2.session.audit =
      timed.session.audit.map (·.noteAll ((timed.step event).1.record?.map (timed.now, ·)).toList) := by
  cases event with
  | analyze mark source filename => rfl
  | migrate mark source filename => rfl
  | wait seconds => exact Option.map_id'.symm

theorem audit_run (timed : TimedSession) (events : List SessionEvent) :
    (timed.run events).session.audit = timed.session.audit.map (·.noteAll (timed.notes events)) := by
  induction events generalizing timed with
  | nil => exact Option.map_id'.symm
  | cons event rest ih =>
    have hrest := ih (timed.step event).2
    rw [audit_step, Option.map_map] at hrest
    refine hrest.trans (congrArg (Option.map · timed.session.audit) (funext fun audit => ?_))
    simp only [Function.comp, AuditLog.noteAll, notes, List.foldl_append]

theorem map_snd_notes (timed : TimedSession) (events : List SessionEvent) :
    (timed.notes events).map Prod.snd = (timed.answers events).filterMap SessionAnswer.record? := by
  induction events generalizing timed with
  | nil => rfl
  | cons event rest ih =>
    rw [notes, List.map_append, ih, answers]
    cases hrecord : (timed.step event).1.record? with
    | none => rw [List.filterMap_cons_none hrecord]; rfl
    | some entry => rw [List.filterMap_cons_some hrecord]; rfl

/-- What an event is answered and what it leaves, when the cache is sound. -/
theorem step_of_sound {timed : TimedSession} {sources : Set String} (h : timed.session.cache.Sound sources)
    (hdigest : Set.InjOn contentHash sources) {event : SessionEvent}
    (hsource : ∀ source ∈ event.source?, source ∈ sources) :
    (timed.step event).1.observed = plainAnswer timed.session.registry timed.now event ∧
      (timed.step event).2.session.cache.Sound sources ∧
      (timed.step event).2.session.registry = timed.session.registry ∧
      (timed.step event).2.now = event.after timed.now := by
  cases event with
  | analyze mark source filename =>
    obtain ⟨hanalysis, hsound⟩ := cachedAnalysis_of_sound h hdigest (hsource source rfl) timed.now
    refine ⟨?_, hsound, rfl, rfl⟩
    simp only [plainAnswer, ← hanalysis]
    rfl
  | migrate mark source filename =>
    obtain ⟨hanalysis, hsound⟩ := cachedAnalysis_of_sound h hdigest (hsource source rfl) timed.now
    refine ⟨?_, hsound, rfl, rfl⟩
    simp only [plainAnswer, ← hanalysis]
    rfl
  | wait seconds => exact ⟨rfl, h, rfl, rfl⟩

/-- What a history is answered and makes the session log, when the cache is sound at its beginning. -/
theorem run_of_sound {timed : TimedSession} {sources : Set String} (h : timed.session.cache.Sound sources)
    (hdigest : Set.InjOn contentHash sources) {events : List SessionEvent} (hsources : sourcesOf events ⊆ sources) :
    (timed.answers events).map SessionAnswer.observed = plainAnswers timed.session.registry timed.now events ∧
      (timed.notes events).map (Prod.map id AuditRecord.observed) =
        plainNotes timed.session.registry timed.now events := by
  induction events generalizing timed with
  | nil => exact ⟨rfl, rfl⟩
  | cons event rest ih =>
    have hsource : ∀ source ∈ event.source?, source ∈ sources := fun source hmem =>
      hsources (List.mem_filterMap.2 ⟨event, List.mem_cons_self, hmem⟩)
    have hrest : sourcesOf rest ⊆ sources := fun source hmem =>
      hsources (((List.sublist_cons_self event rest).filterMap _).subset hmem)
    obtain ⟨hanswer, hsound, hregistry, hnow⟩ := step_of_sound h hdigest hsource
    obtain ⟨hanswers, hnotes⟩ := ih hsound hrest
    rw [hregistry, hnow] at hanswers hnotes
    constructor
    · rw [answers, List.map_cons, plainAnswers, hanswer, hanswers]
    · rw [notes, List.map_append, plainNotes, hnotes, ← hanswer]
      cases (timed.step event).1 <;> rfl

end TimedSession

/-- A session at its beginning, with nothing in its cache. -/
def freshSession (registry : List RuleModule) (audit : Option AuditLog) (start timeToLive maxEntries : Int) :
    TimedSession where
  session := { cache := { timeToLive, maxEntries }, audit, registry }
  now := start

theorem analysis?_plainAnswers (registry : List RuleModule) (now : Int) (events : List SessionEvent) :
    (plainAnswers registry now events).map SessionAnswer.analysis? =
      events.map fun event => event.source?.map fun source => analyze source.toList := by
  induction events generalizing now with
  | nil => rfl
  | cons event rest ih => rw [plainAnswers, List.map_cons, List.map_cons, analysis?_plainAnswer, ih]

theorem analysis?_observed (answer : SessionAnswer) : answer.observed.analysis? = answer.analysis? := by
  cases answer <;> rfl

/-- Two sessions with the same rules and the same log, whatever the limits of their caches, answer a history alike and
log alike, but for marks and the flag; and every analysis they answer is the analysis of the source. -/
theorem answers_of_limits (registry : List RuleModule) (audit : Option AuditLog)
    (start timeToLive maxEntries timeToLive' maxEntries' : Int) {events events' : List SessionEvent}
    (hsame : events.map SessionEvent.unmarked = events'.map SessionEvent.unmarked)
    (hdigest : Set.InjOn contentHash (sourcesOf events)) :
    let first := freshSession registry audit start timeToLive maxEntries
    let second := freshSession registry audit start timeToLive' maxEntries'
    (first.answers events).map SessionAnswer.observed = (second.answers events').map SessionAnswer.observed ∧
      (first.answers events).map SessionAnswer.analysis? =
        events.map (fun event => event.source?.map fun source => analyze source.toList) ∧
      ∃ notes notes', (first.run events).session.audit = audit.map (·.noteAll notes) ∧
        (second.run events').session.audit = audit.map (·.noteAll notes') ∧
        notes.map (Prod.map id AuditRecord.observed) = notes'.map (Prod.map id AuditRecord.observed) ∧
        notes.map Prod.snd = (first.answers events).filterMap SessionAnswer.record? := by
  intro first second
  have hsources : sourcesOf events' = sourcesOf events := by
    rw [← sourcesOf_unmarked events', ← hsame, sourcesOf_unmarked]
  have hempty : ∀ timed : TimedSession, timed.session.cache.store = [] → timed.session.cache.Sound (sourcesOf events) :=
    fun timed hstore item hitem => absurd (hstore ▸ hitem) List.not_mem_nil
  obtain ⟨hanswers, hnotes⟩ := TimedSession.run_of_sound (hempty first rfl) hdigest (subset_refl _)
  obtain ⟨hanswers', hnotes'⟩ := TimedSession.run_of_sound (hempty second rfl) hdigest hsources.subset
  refine ⟨?_, ?_, first.notes events, second.notes events', first.audit_run events, second.audit_run events', ?_,
    first.map_snd_notes events⟩
  · rw [hanswers, hanswers', ← plainAnswers_unmarked, hsame, plainAnswers_unmarked]
    rfl
  · have hplain : plainAnswers registry start events = (first.answers events).map SessionAnswer.observed :=
      hanswers.symm
    rw [← analysis?_plainAnswers registry start, hplain, List.map_map]
    simp only [Function.comp_def, analysis?_observed]
  · rw [hnotes, hnotes', ← plainNotes_unmarked, hsame, plainNotes_unmarked]
    rfl

/-- One file, analysed and migrated again and again, once with room and time to remember it and once without. -/
theorem answers_of_limits_resubmitted :
    let source := "contract Vault \x7b mapping(address => uint256) held; \x7d"
    let events : List SessionEvent :=
      [.analyze ⟨"a", .finite false 3⟩ source "Vault.sol", .wait 20, .migrate ⟨"b", .finite false 1⟩ source "Copy.sol"]
    let events' : List SessionEvent :=
      [.analyze ⟨"c", .finite false 5⟩ source "Vault.sol", .wait 20, .migrate ⟨"d", .finite false 9⟩ source "Copy.sol"]
    let first := freshSession RuleModule.standard (some {}) 0 3600 256
    let second := freshSession RuleModule.standard (some {}) 0 (-1) 0
    events.map SessionEvent.unmarked = events'.map SessionEvent.unmarked ∧ Set.InjOn contentHash (sourcesOf events) ∧
      (first.answers events).map SessionAnswer.observed = (second.answers events').map SessionAnswer.observed := by
  intro source events events' first second
  have hsame : events.map SessionEvent.unmarked = events'.map SessionEvent.unmarked := rfl
  have hdigest : Set.InjOn contentHash (sourcesOf events) := by
    have honly : ∀ text ∈ sourcesOf events, text = source := fun text htext => by
      have hmem : text ∈ [source, source] := htext
      simpa only [List.mem_cons, List.not_mem_nil, or_false, or_self] using hmem
    exact fun text htext other hother _ => (honly text htext).trans (honly other hother).symm
  exact ⟨hsame, hdigest, (answers_of_limits _ _ 0 3600 256 (-1) 0 hsame hdigest).1⟩

end ContractMigration
