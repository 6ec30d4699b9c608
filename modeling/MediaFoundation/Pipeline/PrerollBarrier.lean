import MediaFoundation.Lib.Runs
import MediaFoundation.Pipeline.MediaSyncManager

/-!
# The preroll barrier

The calls of several threads on a `MediaSyncManager` that waits for preroll.
`syncersMutex_` and `clockMutex_` order their blocks of code, but for one: a call
that arms the barrier clears the reports before it takes `syncersMutex_`, so it
may do so in the middle of a `ReportPrerolled`. It holds `clockMutex_` until it
has told the synchronizers to wait.

Beside a run a ledger is kept of whose report has ended since the barrier was
armed or released last; `Reset` empties the barrier as arming does. The barrier
counts reports and registrations, so it goes wrong once they are not of the same
synchronizers: when one reports that is not registered, or when one is removed
that has reported, or that all the others wait for; and when the reports are
cleared in the middle of one. `KeepsBarrier` excludes the four
(`preroll_barrier`).
-/

namespace MediaFoundation.Sync

open MediaSyncManager

-- The calls

/-- The manager, the thread that is about to tell the synchronizers to wait, and the one between
the two halves of `ReportPrerolled`, which has `syncersMutex_`. -/
structure System where
  manager : MediaSyncManager := {}
  telling : Option Nat := none
  reporting : Option (Nat × Synchronizer) := none

inductive Action where
  | addSynchronizer (syncer : Option Synchronizer)
  | removeSynchronizer (syncer : Option Synchronizer)
  | reportPrerolled (supplier : Option Synchronizer)
  /-- `ReportPrerolled` goes on with the test of the sizes. -/
  | release
  | resume (now : Int)
  | pause (now : Int)
  | seek (mediaTime : Int)
  | reset
  | setMediaTimeRangeStart (startMediaTime : Int)
  | setMediaTimeRangeEnd (endMediaTime : Int)
  /-- `Resume` or `Seek` goes on with the calls of `WaitAllPrerolled`. -/
  | tell

structure Label where
  thread : Nat
  action : Action

/-- What a block of code leaves, and whom it calls. -/
structure Outcome where
  system : System
  /-- Whose `NotifyAllPrerolled` is called. -/
  notified : List Synchronizer := []
  told : List Synchronizer := []
  /-- Whose report ends. -/
  reports : Option Synchronizer := none
  armed : Bool := false

/-- The state after a call that may arm the barrier. -/
def arm (s : System) (manager : MediaSyncManager) (thread : Nat) (armed : Bool) : Outcome where
  system := { s with manager, telling := if armed then some thread else none }
  armed := armed

/-- The calls that take `clockMutex_` only, and whether they arm the barrier. -/
def clockCall (m : MediaSyncManager) : Action → Option (MediaSyncManager × Bool)
  | .resume now => some (m.resume now)
  | .pause now => some (m.pause now, false)
  | .seek mediaTime =>
    let r := m.seek mediaTime
    some (r.1, r.2.2)
  | .setMediaTimeRangeStart startMediaTime => some (m.setMediaTimeRangeStart startMediaTime, false)
  | .setMediaTimeRangeEnd endMediaTime => some (m.setMediaTimeRangeEnd endMediaTime, false)
  | _ => none

def exec (s : System) (l : Label) : Option Outcome :=
  match l.action, s.telling, s.reporting with
  -- these take `syncersMutex_` only, which a thread in `ReportPrerolled` has
  | .addSynchronizer syncer, _, none =>
    some { system := { s with manager := s.manager.addSynchronizer syncer } }
  | .removeSynchronizer syncer, _, none =>
    some { system := { s with manager := s.manager.removeSynchronizer syncer } }
  | .reportPrerolled supplier, _, none =>
    match supplier, s.manager.addPrerolled supplier with
    | some supplier, some manager =>
      some { system := { s with manager, reporting := some (l.thread, supplier) } }
    | _, _ => some { system := s, reports := supplier }
  | .release, _, some (thread, supplier) =>
    if thread = l.thread then
      let r := s.manager.releasePrerolled
      some { system := { s with manager := r.1, reporting := none }
             notified := r.2, reports := some supplier }
    else none
  -- these need both mutexes; the thread that tells has `clockMutex_`
  | .reset, none, none => some { system := { s with manager := s.manager.reset }, armed := true }
  | .tell, some thread, none =>
    if thread = l.thread then
      some { system := { s with telling := none }, told := s.manager.shouldWait }
    else none
  | .resume _, none, _ | .pause _, none, _ | .seek _, none, _ | .setMediaTimeRangeStart _, none, _
  | .setMediaTimeRangeEnd _, none, _ =>
    (clockCall s.manager l.action).map fun r => arm s r.1 l.thread r.2
  | _, _, _ => none

def step (s : System) (l : Label) : Option System := (exec s l).map Outcome.system

-- The ledger

/-- What a block of code did to the barrier. -/
structure Moment where
  registered : List Synchronizer
  /-- Whose report has ended since the barrier was armed or released last. -/
  reported : List Synchronizer
  notified : List Synchronizer

/-- `NotifyAllPrerolled` is called when, and only when, every registered
synchronizer has reported, and it is called for them and for nobody else. -/
structure Moment.Right (m : Moment) : Prop where
  released_iff : m.notified ≠ [] ↔ m.registered ≠ [] ∧ ∀ syncer ∈ m.registered, syncer ∈ m.reported
  registered : ∀ syncer ∈ m.notified, syncer ∈ m.registered
  everybody : m.notified ≠ [] → ∀ syncer ∈ m.registered, syncer ∈ m.notified

structure Ledger where
  reported : List Synchronizer := []
  moments : List Moment := []

/-- The reports after a block of code, before a release ends their round. -/
def Ledger.reportedAfter (g : Ledger) (o : Outcome) : List Synchronizer :=
  if o.armed then []
  else
    match o.reports with
    | some supplier => g.reported.insert supplier
    | none => g.reported

def Ledger.record (g : Ledger) (s : System) (l : Label) (t : System) : Ledger :=
  match exec s l with
  | none => g
  | some outcome =>
    let reported := g.reportedAfter outcome
    { reported := if outcome.notified = [] then reported else []
      moments := g.moments ++ [⟨t.manager.syncers, reported, outcome.notified⟩] }

def stepWithLedger : System × Ledger → Label → Option (System × Ledger) :=
  Runs.withGhost step Ledger.record

-- The condition

/-- `Resume` or `Seek` clears the reports. -/
def Clears (m : MediaSyncManager) : Action → Prop
  | .resume _ => m.clockState ≠ .resumed ∧ ¬ m.alreadySetSyncersShouldWait
  | .seek mediaTime => m.minRangeStartOfMediaTime ≠ hstTimeNone ∧
      m.maxRangeEndOfMediaTime ≠ hstTimeNone ∧
      m.minRangeStartOfMediaTime ≤ mediaTime ∧ mediaTime ≤ m.maxRangeEndOfMediaTime
  | _ => False

/-- Only registered synchronizers report, and one that is removed has not
reported, nor is it the only one of several that has not. The reports are not
cleared in the middle of one. -/
def KeepsBarrier (x : System × Ledger) (l : Label) : Prop :=
  match l.action with
  | .reportPrerolled (some supplier) => supplier ∈ x.1.manager.syncers
  | .removeSynchronizer (some syncer) =>
    syncer ∈ x.1.manager.syncers → syncer ∉ x.2.reported ∧
      (x.1.manager.syncers.erase syncer = [] ∨
        ∃ other ∈ x.1.manager.syncers.erase syncer, other ∉ x.2.reported)
  | action => Clears x.1.manager action → x.1.reporting = none

-- The two lists

/-- The barrier waits: it counts the reports of its round, all of them by
registered synchronizers, and somebody is missing. -/
structure Waits (syncers prerolledSyncers reported : List Synchronizer) : Prop where
  same : ∀ syncer, syncer ∈ reported ↔ syncer ∈ prerolledSyncers
  registered : ∀ syncer ∈ prerolledSyncers, syncer ∈ syncers
  nodup : syncers.Nodup
  nodup_prerolled : prerolledSyncers.Nodup
  missing : syncers ≠ [] → ∃ syncer ∈ syncers, syncer ∉ reported

namespace Waits

variable {syncers prerolledSyncers reported : List Synchronizer} {syncer : Synchronizer}

/-- Nobody is notified while somebody is missing. -/
theorem silent (h : Waits syncers prerolledSyncers reported) :
    Moment.Right ⟨syncers, reported, []⟩ where
  released_iff := by
    constructor
    · intro hsilent
      exact absurd rfl hsilent
    · rintro ⟨hne, hall⟩
      obtain ⟨other, hmem, hmissing⟩ := h.missing hne
      exact absurd (hall other hmem) hmissing
  registered := nofun
  everybody := fun hsilent => absurd rfl hsilent

theorem empty (hnodup : syncers.Nodup) : Waits syncers [] [] where
  same := fun _ => Iff.rfl
  registered := nofun
  nodup := hnodup
  nodup_prerolled := List.nodup_nil
  missing := by
    intro hne
    obtain ⟨first, hfirst⟩ := List.exists_mem_of_ne_nil syncers hne
    exact ⟨first, hfirst, List.not_mem_nil⟩

theorem add (h : Waits syncers prerolledSyncers reported) (hnew : syncer ∉ syncers) :
    Waits (syncers ++ [syncer]) prerolledSyncers reported where
  same := h.same
  registered := fun other hmem => List.mem_append_left _ (h.registered other hmem)
  nodup := by
    rw [List.nodup_append]
    refine ⟨h.nodup, List.nodup_singleton _, ?_⟩
    rintro other hmem _ hother rfl
    rw [List.mem_singleton] at hother
    exact hnew (hother ▸ hmem)
  nodup_prerolled := h.nodup_prerolled
  missing := by
    intro _
    refine ⟨syncer, List.mem_append_right _ List.mem_cons_self, ?_⟩
    -- who is not registered has not reported
    rw [h.same]
    exact fun hmem => hnew (h.registered syncer hmem)

theorem remove (h : Waits syncers prerolledSyncers reported) (hsilent : syncer ∉ reported)
    (hothers : syncers.erase syncer = [] ∨ ∃ other ∈ syncers.erase syncer, other ∉ reported) :
    Waits (syncers.erase syncer) prerolledSyncers reported where
  same := h.same
  registered := by
    intro other hmem
    refine (List.mem_erase_of_ne ?_).mpr (h.registered other hmem)
    rintro rfl
    exact hsilent ((h.same other).mpr hmem)
  nodup := h.nodup.erase _
  nodup_prerolled := h.nodup_prerolled
  missing := fun hne => hothers.resolve_left hne

theorem length_eq_iff (h : Waits syncers prerolledSyncers reported) (hmem : syncer ∈ syncers)
    (hsilent : syncer ∉ prerolledSyncers) :
    (prerolledSyncers ++ [syncer]).length = syncers.length ↔
      ∀ other ∈ syncers, other ∈ prerolledSyncers ++ [syncer] := by
  have hnodup : (prerolledSyncers ++ [syncer]).Nodup := by
    rw [List.nodup_append]
    refine ⟨h.nodup_prerolled, List.nodup_singleton _, ?_⟩
    rintro other hother _ hlast rfl
    rw [List.mem_singleton] at hlast
    exact hsilent (hlast ▸ hother)
  have hsub : prerolledSyncers ++ [syncer] ⊆ syncers := by
    intro other hother
    rcases List.mem_append.mp hother with hother | hother
    · exact h.registered other hother
    · rw [List.mem_singleton.mp hother]
      exact hmem
  constructor
  · intro hlength other hother
    exact ((hnodup.subperm hsub).perm_of_length_le hlength.ge).mem_iff.mpr hother
  · intro hall
    exact Nat.le_antisymm (hnodup.subperm hsub).length_le (h.nodup.subperm hall).length_le

end Waits

-- The calls, one by one

/-- The reports that are counted, but for the one under way. -/
def System.settled (s : System) : List Synchronizer :=
  match s.reporting with
  | none => s.manager.prerolledSyncers
  | some _ => s.manager.prerolledSyncers.dropLast

structure Barrier (s : System) (reported : List Synchronizer) : Prop where
  waits : s.manager.allSyncerShouldPrerolled = true
  lists : Waits s.manager.syncers s.settled reported
  last : ∀ p, s.reporting = some p → s.manager.prerolledSyncers = s.settled ++ [p.2] ∧
    p.2 ∈ s.manager.syncers ∧ p.2 ∉ s.settled

/-- A block of code leaves the barrier waiting, and notified whom it had to. -/
structure Outcome.Fair (o : Outcome) (reported : List Synchronizer) : Prop where
  barrier : Barrier o.system (if o.notified = [] then reported else [])
  right : Moment.Right ⟨o.system.manager.syncers, reported, o.notified⟩

section Calls

variable {s : System} {reported : List Synchronizer}

theorem Barrier.fair {o : Outcome} (hsilent : o.notified = []) (h : Barrier o.system reported) :
    o.Fair reported where
  barrier := by
    rw [if_pos hsilent]
    exact h
  right := by
    rw [hsilent]
    exact h.lists.silent

/-- With `syncersMutex_` free nothing is under way. -/
theorem barrier_iff (hfree : s.reporting = none) : Barrier s reported ↔
    s.manager.allSyncerShouldPrerolled = true ∧
      Waits s.manager.syncers s.manager.prerolledSyncers reported := by
  have hsettled : s.settled = s.manager.prerolledSyncers := by
    unfold System.settled
    rw [hfree]
  constructor
  · intro h
    exact ⟨h.waits, hsettled ▸ h.lists⟩
  · rintro ⟨hwaits, hlists⟩
    refine ⟨hwaits, hsettled ▸ hlists, fun p hp => ?_⟩
    rw [hfree] at hp
    cases hp

theorem Barrier.of_lists (h : Barrier s reported) {t : System}
    (hreporting : t.reporting = s.reporting)
    (hsyncers : t.manager.syncers = s.manager.syncers)
    (hprerolled : t.manager.prerolledSyncers = s.manager.prerolledSyncers)
    (hwaits : t.manager.allSyncerShouldPrerolled = s.manager.allSyncerShouldPrerolled) :
    Barrier t reported := by
  have hsettled : t.settled = s.settled := by
    unfold System.settled
    rw [hreporting, hprerolled]
  refine ⟨hwaits.trans h.waits, ?_, fun p hp => ?_⟩
  · rw [hsyncers, hsettled]
    exact h.lists
  · rw [hsyncers, hsettled, hprerolled]
    exact h.last p (hreporting ▸ hp)

/-- The first half of a report: it returns at once, or is under way. -/
theorem Barrier.report (h : Barrier s reported) (hfree : s.reporting = none)
    {supplier : Synchronizer} (hmem : supplier ∈ s.manager.syncers) (thread : Nat) :
    (s.manager.addPrerolled (some supplier) = none ∧ supplier ∈ reported) ∨
      ∃ manager, s.manager.addPrerolled (some supplier) = some manager ∧
        Barrier { s with manager, reporting := some (thread, supplier) } reported := by
  obtain ⟨hwaits, hlists⟩ := (barrier_iff hfree).mp h
  simp only [addPrerolled]
  rw [if_neg (not_not.mpr hwaits)]
  by_cases hagain : supplier ∈ s.manager.prerolledSyncers
  · exact .inl ⟨if_pos hagain, (hlists.same supplier).mpr hagain⟩
  · refine .inr ⟨_, if_neg hagain, hwaits, ?_, ?_⟩
    · simpa [System.settled] using hlists
    · rintro p hp
      cases hp
      simpa [System.settled] using And.intro hmem hagain

/-- The second half: the last report releases the others. -/
theorem Barrier.release (h : Barrier s reported) {thread : Nat} {supplier : Synchronizer}
    (hreporting : s.reporting = some (thread, supplier)) :
    Outcome.Fair { system := { s with manager := s.manager.releasePrerolled.1, reporting := none }
                   notified := s.manager.releasePrerolled.2, reports := some supplier }
      (reported.insert supplier) := by
  obtain ⟨hprerolled, hmem, hnew⟩ := h.last _ hreporting
  have hlists := h.lists
  generalize s.settled = settled at *
  have hsame : ∀ other, other ∈ reported.insert supplier ↔ other ∈ settled ++ [supplier] := by
    intro other
    rw [List.mem_insert_iff, List.mem_append, List.mem_singleton, hlists.same, or_comm]
  have hregistered : ∀ other ∈ settled ++ [supplier], other ∈ s.manager.syncers := by
    intro other hother
    rcases List.mem_append.mp hother with hother | hother
    · exact hlists.registered other hother
    · rw [List.mem_singleton.mp hother]
      exact hmem
  have hcount := hlists.length_eq_iff hmem hnew
  unfold releasePrerolled
  rw [hprerolled]
  by_cases hall : (settled ++ [supplier]).length = s.manager.syncers.length
  · rw [if_pos hall]
    have hnotified : settled ++ [supplier] ≠ [] := List.append_ne_nil_of_right_ne_nil _ nofun
    refine ⟨?_, ?_, hregistered, fun _ => hcount.mp hall⟩
    · rw [if_neg hnotified]
      exact (barrier_iff rfl).mpr ⟨h.waits, Waits.empty hlists.nodup⟩
    · refine iff_of_true hnotified ⟨List.ne_nil_of_mem hmem, fun other hother => ?_⟩
      rw [hsame]
      exact hcount.mp hall other hother
  · rw [if_neg hall]
    refine Barrier.fair rfl ((barrier_iff rfl).mpr ⟨h.waits, ?_⟩)
    simp only [hprerolled]
    refine ⟨hsame, hregistered, hlists.nodup, ?_, ?_⟩
    · rw [List.nodup_append]
      refine ⟨hlists.nodup_prerolled, List.nodup_singleton _, ?_⟩
      rintro other hother _ hlast rfl
      rw [List.mem_singleton] at hlast
      exact hnew (hlast ▸ hother)
    · intro _
      rw [hcount] at hall
      push Not at hall
      obtain ⟨other, hother, hmissing⟩ := hall
      exact ⟨other, hother, (hsame other).not.mpr hmissing⟩

end Calls

-- The clock

section Clock

variable (m : MediaSyncManager)

theorem anchorAfterPause_frame (now : Int) :
    (m.anchorAfterPause now).syncers = m.syncers ∧
      (m.anchorAfterPause now).prerolledSyncers = m.prerolledSyncers ∧
      (m.anchorAfterPause now).allSyncerShouldPrerolled = m.allSyncerShouldPrerolled ∧
      (m.anchorAfterPause now).clockState = m.clockState ∧
      (m.anchorAfterPause now).alreadySetSyncersShouldWait = m.alreadySetSyncersShouldWait := by
  unfold anchorAfterPause
  split <;> exact ⟨rfl, rfl, rfl, rfl, rfl⟩

/-- What a call of the clock leaves of the lists: it may clear the reports. -/
structure Frame (m m' : MediaSyncManager) (armed : Bool) : Prop where
  syncers : m'.syncers = m.syncers
  waits : m'.allSyncerShouldPrerolled = m.allSyncerShouldPrerolled
  prerolled : m'.prerolledSyncers = if armed = true then [] else m.prerolledSyncers

theorem setAllSyncShouldWaitNoLock_frame :
    Frame m m.setAllSyncShouldWaitNoLock.1 m.setAllSyncShouldWaitNoLock.2 ∧
      (m.setAllSyncShouldWaitNoLock.2 = true → ¬ m.alreadySetSyncersShouldWait) := by
  unfold setAllSyncShouldWaitNoLock
  split
  · rename_i h
    exact ⟨⟨rfl, rfl, rfl⟩, fun _ => h.2⟩
  · exact ⟨⟨rfl, rfl, rfl⟩, nofun⟩

theorem clockCall_frame {a : Action} {r : MediaSyncManager × Bool} (h : clockCall m a = some r) :
    Frame m r.1 r.2 ∧ (r.2 = true → Clears m a) := by
  cases a with
  | resume now =>
    cases h
    obtain ⟨hsyncers, hprerolled, hwaits, hstate, halready⟩ := anchorAfterPause_frame m now
    unfold resume
    simp only
    split
    · exact ⟨⟨hsyncers, hwaits, hprerolled⟩, nofun⟩
    · rename_i hnot
      obtain ⟨⟨h, h', h''⟩, hclears⟩ := setAllSyncShouldWaitNoLock_frame (m.anchorAfterPause now)
      exact ⟨⟨h.trans hsyncers, h'.trans hwaits, hprerolled ▸ h''⟩,
        fun harmed => ⟨hstate ▸ hnot, halready ▸ hclears harmed⟩⟩
  | pause now =>
    cases h
    unfold pause
    split <;> exact ⟨⟨rfl, rfl, rfl⟩, nofun⟩
  | seek mediaTime =>
    cases h
    unfold seek
    split
    · exact ⟨⟨rfl, rfl, rfl⟩, nofun⟩
    · split
      · exact ⟨⟨rfl, rfl, rfl⟩, nofun⟩
      · obtain ⟨⟨h, h', h''⟩, -⟩ := setAllSyncShouldWaitNoLock_frame { m with
          isSeeking := true, seekingMediaTime := mediaTime, alreadySetSyncersShouldWait := false }
        refine ⟨⟨h, h', h''⟩, fun _ => ?_⟩
        unfold Clears
        omega
  | setMediaTimeRangeStart startMediaTime =>
    cases h
    unfold setMediaTimeRangeStart
    split <;> exact ⟨⟨rfl, rfl, rfl⟩, nofun⟩
  | setMediaTimeRangeEnd endMediaTime =>
    cases h
    unfold setMediaTimeRangeEnd
    split <;> exact ⟨⟨rfl, rfl, rfl⟩, nofun⟩
  | _ => cases h

end Clock

-- Every run

theorem arm_fair {s : System} {m : MediaSyncManager} {thread : Nat} {armed : Bool} {g : Ledger}
    (h : Barrier s g.reported) (hframe : Frame s.manager m armed)
    (hclears : armed = true → s.reporting = none) :
    (arm s m thread armed).Fair (g.reportedAfter (arm s m thread armed)) := by
  obtain ⟨hsyncers, hwaits, hprerolled⟩ := hframe
  refine Barrier.fair rfl ?_
  cases armed with
  | true =>
    -- nobody is in the middle of a report when the reports are cleared
    have hfree : (arm s m thread true).system.reporting = none := hclears rfl
    refine (barrier_iff hfree).mpr ⟨hwaits.trans h.waits, ?_⟩
    show Waits m.syncers m.prerolledSyncers []
    rw [hsyncers, hprerolled]
    exact Waits.empty h.lists.nodup
  | false => exact h.of_lists rfl hsyncers hprerolled hwaits

theorem exec_fair {s : System} {g : Ledger} {l : Label} {o : Outcome}
    (h : Barrier s g.reported) (hkeeps : KeepsBarrier (s, g) l) (hx : exec s l = some o) :
    o.Fair (g.reportedAfter o) := by
  obtain ⟨manager, telling, reporting⟩ := s
  obtain ⟨thread, action⟩ := l
  cases action with
  | addSynchronizer syncer =>
    cases reporting with
    | some _ => cases hx
    | none =>
      cases hx
      obtain ⟨hwaits, hlists⟩ := (barrier_iff rfl).mp h
      cases syncer with
      | none => exact Barrier.fair rfl h
      | some syncer =>
        refine Barrier.fair rfl ?_
        simp only [addSynchronizer]
        split
        · exact h
        · rename_i hnew
          exact (barrier_iff rfl).mpr ⟨hwaits, hlists.add hnew⟩
  | removeSynchronizer syncer =>
    cases reporting with
    | some _ => cases hx
    | none =>
      cases hx
      obtain ⟨hwaits, hlists⟩ := (barrier_iff rfl).mp h
      cases syncer with
      | none => exact Barrier.fair rfl h
      | some syncer =>
        refine Barrier.fair rfl ?_
        by_cases hmem : syncer ∈ manager.syncers
        · -- neither has it reported, nor do all the others wait for it
          obtain ⟨hsilent, hothers⟩ := hkeeps hmem
          exact (barrier_iff rfl).mpr ⟨hwaits, hlists.remove hsilent hothers⟩
        · exact h.of_lists rfl (List.erase_of_not_mem hmem) rfl rfl
  | reportPrerolled supplier =>
    cases reporting with
    | some _ => cases hx
    | none =>
      cases supplier with
      | none =>
        cases hx
        exact Barrier.fair rfl h
      | some supplier =>
        -- a second report returns early; another one is half done after this block
        rcases h.report rfl hkeeps thread with ⟨hearly, hmem⟩ | ⟨manager', hadded, hinside⟩
        · simp only [exec, hearly] at hx
          cases hx
          refine Barrier.fair rfl ?_
          simp only [Ledger.reportedAfter]
          rwa [List.insert_of_mem hmem]
        · simp only [exec, hadded] at hx
          cases hx
          exact Barrier.fair rfl hinside
  | release =>
    cases reporting with
    | none => cases hx
    | some p =>
      simp only [exec] at hx
      split at hx
      · cases hx
        exact h.release rfl
      · cases hx
  | reset =>
    cases telling with
    | none =>
      cases reporting with
      | none =>
        cases hx
        exact Barrier.fair rfl ((barrier_iff rfl).mpr ⟨rfl, Waits.empty List.nodup_nil⟩)
      | some _ => cases hx
    | some _ => cases hx
  | tell =>
    cases telling with
    | none => cases hx
    | some holder =>
      cases reporting with
      | some _ => cases hx
      | none =>
        simp only [exec] at hx
        split at hx
        · cases hx
          exact Barrier.fair rfl (h.of_lists rfl rfl rfl rfl)
        · cases hx
  | resume _ | pause _ | seek _ | setMediaTimeRangeStart _ | setMediaTimeRangeEnd _ =>
    cases telling with
    | some _ => cases hx
    | none =>
      simp only [exec] at hx
      obtain ⟨r, hr, rfl⟩ := Option.map_eq_some_iff.mp hx
      obtain ⟨hframe, hclears⟩ := clockCall_frame manager hr
      exact arm_fair h hframe fun harmed => hkeeps (hclears harmed)

structure Fair (x : System × Ledger) : Prop where
  barrier : Barrier x.1 x.2.reported
  moments : ∀ moment ∈ x.2.moments, moment.Right

theorem fair_start : Fair ({}, {}) := ⟨⟨rfl, Waits.empty List.nodup_nil, nofun⟩, nofun⟩

theorem fair_step {x y : System × Ledger} {l : Label} (h : Fair x) (hkeeps : KeepsBarrier x l)
    (hstep : stepWithLedger x l = some y) : Fair y := by
  obtain ⟨s, g⟩ := x
  obtain ⟨t, g'⟩ := y
  obtain ⟨hs, hg⟩ := Runs.withGhost_some.mp hstep
  obtain ⟨o, ho, hsystem⟩ := Option.map_eq_some_iff.mp hs
  have hfair := exec_fair h.barrier hkeeps ho
  simp only at hg hsystem
  subst hsystem
  have hrecord : g' = { reported := if o.notified = [] then g.reportedAfter o else []
                        moments := g.moments ++
                          [⟨o.system.manager.syncers, g.reportedAfter o, o.notified⟩] } := by
    rw [hg, Ledger.record]
    simp only [ho]
  rw [hrecord]
  refine ⟨hfair.barrier, ?_⟩
  intro moment hmoment
  rcases List.mem_append.mp hmoment with hmoment | hmoment
  · exact h.moments moment hmoment
  · rw [List.mem_singleton.mp hmoment]
    exact hfair.right

/--
**The preroll barrier**, in every run whose calls meet the condition: at every
block of code `NotifyAllPrerolled` is called if and only if every registered
synchronizer has reported since the barrier was armed or released last, and it
is called for exactly the registered ones.
-/
theorem preroll_barrier {ls : List Label} {s : System} {g : Ledger}
    (hkeeps : Runs.Along stepWithLedger KeepsBarrier ({}, {}) ls)
    (hrun : Runs.run stepWithLedger ({}, {}) ls = some (s, g)) :
    ∀ moment ∈ g.moments, moment.Right :=
  (Runs.run_invariant (fun _ _ _ h hgood hstep => fair_step h hgood hstep) fair_start hkeeps
    hrun).moments

def audioSink : Synchronizer := ⟨1, 2⟩

def videoSink : Synchronizer := ⟨2, 0⟩

def startTogether : List Label :=
  [⟨0, .addSynchronizer (some audioSink)⟩, ⟨0, .addSynchronizer (some videoSink)⟩, ⟨0, .resume 5⟩,
    ⟨1, .reportPrerolled (some audioSink)⟩, ⟨1, .release⟩, ⟨0, .tell⟩,
    ⟨2, .reportPrerolled (some videoSink)⟩, ⟨0, .pause 6⟩, ⟨2, .release⟩]

theorem preroll_barrier_startTogether : ∃ s g,
    Runs.run stepWithLedger ({}, {}) startTogether = some (s, g) ∧
      ∀ moment ∈ g.moments, moment.Right := by
  have hrun : Runs.run stepWithLedger ({}, {}) startTogether = some (_, _) := rfl
  have hkeeps : Runs.Along stepWithLedger KeepsBarrier ({}, {}) startTogether :=
    .cons nofun rfl (.cons nofun rfl (.cons (fun _ => rfl) rfl (.cons List.mem_cons_self rfl
      (.cons nofun rfl (.cons nofun rfl (.cons (List.mem_cons_of_mem _ List.mem_cons_self) rfl
        (.cons nofun rfl (.cons nofun rfl trivial))))))))
  exact ⟨_, _, hrun, preroll_barrier hkeeps hrun⟩

/-- The video sink goes before it has reported, and the audio sink is not released. -/
def removeLast : List Label :=
  [⟨0, .addSynchronizer (some audioSink)⟩, ⟨0, .addSynchronizer (some videoSink)⟩, ⟨0, .resume 5⟩,
    ⟨0, .tell⟩, ⟨1, .reportPrerolled (some audioSink)⟩, ⟨1, .release⟩,
    ⟨0, .removeSynchronizer (some videoSink)⟩]

/-- The seek clears the report of the video sink in the middle of it. -/
def clearedReport : List Label :=
  [⟨0, .addSynchronizer (some audioSink)⟩, ⟨0, .addSynchronizer (some videoSink)⟩,
    ⟨0, .setMediaTimeRangeStart 0⟩, ⟨0, .setMediaTimeRangeEnd 9⟩,
    ⟨1, .reportPrerolled (some videoSink)⟩, ⟨0, .seek 3⟩, ⟨1, .release⟩, ⟨0, .tell⟩,
    ⟨2, .reportPrerolled (some audioSink)⟩, ⟨2, .release⟩]

theorem nobody_released :
    (∃ s g, Runs.run stepWithLedger ({}, {}) removeLast = some (s, g) ∧
      ∃ moment ∈ g.moments, moment.registered = [audioSink] ∧ audioSink ∈ moment.reported ∧
        moment.notified = [] ∧ ¬ moment.Right) ∧
    ∃ s g, Runs.run stepWithLedger ({}, {}) clearedReport = some (s, g) ∧
      ∃ moment ∈ g.moments, ¬ moment.Right := by
  constructor
  · have hrun : (Runs.run stepWithLedger ({}, {}) removeLast).map (fun x => x.2.moments.getLast?) =
        some (some ⟨[audioSink], [audioSink], []⟩) := rfl
    obtain ⟨⟨s, g⟩, hrun, hlast⟩ := Option.map_eq_some_iff.mp hrun
    refine ⟨s, g, hrun, _, List.mem_of_getLast? hlast, rfl, List.mem_cons_self, rfl, ?_⟩
    intro hright
    exact absurd rfl (hright.released_iff.mpr ⟨nofun, fun _ hmem => hmem⟩)
  · have hrun : (Runs.run stepWithLedger ({}, {}) clearedReport).map
        (fun x => x.2.moments.getLast?) =
          some (some ⟨[audioSink, videoSink], [audioSink, videoSink], []⟩) := rfl
    obtain ⟨⟨s, g⟩, hrun, hlast⟩ := Option.map_eq_some_iff.mp hrun
    refine ⟨s, g, hrun, _, List.mem_of_getLast? hlast, ?_⟩
    intro hright
    exact absurd rfl (hright.released_iff.mpr ⟨nofun, fun _ hmem => hmem⟩)

end MediaFoundation.Sync
