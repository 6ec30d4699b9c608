import MediaFoundation.Pipeline.MuxerFilter

/-!
# The end of a recording

The muxer counts the ended tracks over all the recordings of the filter. The count is still right,
because `Configure` adds tracks that have not ended to the list. What goes wrong is that everybody
who finds all the tracks ended goes into `SendEos`, whoever has been there before.
-/

namespace MediaFoundation.Muxer

variable {s t : State} {inPort : Nat} {buffer : AVBuffer} {events : List Event}

-- The property and the condition

/-- The header before the first buffer, and the buffers that are not empty. -/
def opening (s : State) : List Call :=
  (if s.pushed then [.writeHeader] else []) ++ s.accepted.map .writeFrame

def closing (s : State) : List Call := (if s.pushed then [.writeTrailer] else []) ++ [.pushEos]

def AllDelivered (s : State) : Prop := 0 < s.tracks ∧ ∀ inPort < s.tracks, inPort ∈ s.delivered

/-- The calls since the filter was started. The end is sent when every track has delivered its own
or somebody asks for it: not before, and it is not missing when no thread is on its way. -/
structure FinishedOnce (s : State) : Prop where
  calls : s.log = opening s ++ if .pushEos ∈ s.log then closing s else []
  due : .pushEos ∈ s.log → s.asked = true ∨ AllDelivered s
  sent : s.asked = true ∨ AllDelivered s ∧ s.checking = [] ∧ s.ending = [] → .pushEos ∈ s.log

/-- `SendEos` comes once after each start; data is accepted between a start and the next
`Negotiate`, and the filter is not resumed after the end. A recording whose tracks have all ended
has ended when the filter negotiates again. The filter is started when `Configure` has given each
port a track that has not ended, with no thread on its way into `SendEos`. -/
def Keeps (s : State) : Event → Prop
  | .negotiate _ _ =>
    s.state = .preparing → s.started = true → s.allTracksEos = true → s.eos = true
  | .configure _ _ => s.started = false
  | .start => s.started = false ∧ 0 < s.inPorts ∧ s.ending = [] ∧
    ∀ inPort < s.inPorts, ∃ item ∈ s.trackInfos, item.inPort = inPort ∧ item.eos = false
  | .resume => s.eos = false
  | .pushData _ _ => s.accepts = true → s.started = true
  | .endByTrack _ => s.started = true ∧ s.eos = false
  | .sendEos => s.started = true ∧ s.eos = false
  | _ => True

instance decidableKeeps (s : State) : ∀ e, Decidable (Keeps s e)
  | .negotiate _ _ => inferInstanceAs (Decidable
      (s.state = .preparing → s.started = true → s.allTracksEos = true → s.eos = true))
  | .configure _ _ => inferInstanceAs (Decidable (s.started = false))
  | .start => inferInstanceAs (Decidable (s.started = false ∧ 0 < s.inPorts ∧ s.ending = [] ∧
      ∀ inPort < s.inPorts, ∃ item ∈ s.trackInfos, item.inPort = inPort ∧ item.eos = false))
  | .resume => inferInstanceAs (Decidable (s.eos = false))
  | .pushData _ _ => inferInstanceAs (Decidable (s.accepts = true → s.started = true))
  | .endByTrack _ | .sendEos => inferInstanceAs (Decidable (s.started = true ∧ s.eos = false))
  | .addTrack | .prepare | .pause | .stop | .checkEos _ => .isTrue trivial

-- The invariant

/-- What has been written, and what the flags know about it. -/
structure Logged (s : State) : Prop where
  log : s.log = opening s ++ if s.eos then closing s else []
  header : s.started = true → s.eos = false → s.hasWriteHeader = s.pushed
  noHeader : s.started = false → s.hasWriteHeader = false
  plugin : s.hasWriteHeader = true → s.plugin = true
  empty : s.pushed = false → s.accepted = []

structure Tracked (s : State) : Prop where
  count : s.eosTrackCnt = s.trackInfos.countP TrackInfo.eos
  ports : ∀ item ∈ s.trackInfos, item.inPort < s.inPorts
  cache : ∀ inPort ∈ s.metaCache, inPort < s.inPorts
  positive : s.started = true → 0 < s.tracks
  within : s.started = true → ∀ item ∈ s.trackInfos, item.inPort < s.tracks
  marked : s.started = true → ∀ item ∈ s.trackInfos, item.inPort ∈ s.delivered → item.eos = true
  present : s.started = true → ∀ inPort < s.tracks, ∃ item ∈ s.trackInfos,
    item.inPort = inPort ∧ (item.eos = true → inPort ∈ s.delivered)

structure Ends (s : State) : Prop where
  busy : s.started = true → s.allTracksEos = true → s.eos = false →
    s.checking ≠ [] ∨ s.ending ≠ []
  ending : s.started = true → s.ending ≠ [] → s.allTracksEos = true
  past : s.started = false → AllDelivered s → s.eos = true
  due : s.eos = true → s.asked = true ∨ AllDelivered s
  asked : s.asked = true → s.eos = true

structure Inv (s : State) : Prop where
  logged : Logged s
  tracked : Tracked s
  ends : Ends s

theorem inv_init : Inv init where
  logged := ⟨rfl, nofun, fun _ => rfl, nofun, fun _ => rfl⟩
  tracked := ⟨rfl, List.forall_mem_nil _, List.forall_mem_nil _, nofun, nofun, nofun, nofun⟩
  ends := ⟨nofun, nofun, fun _ h => absurd h.1 (Nat.lt_irrefl 0), nofun, nofun⟩

-- The count of the tracks

theorem Tracked.allTracksEos_iff (h : Tracked s) :
    s.allTracksEos = true ↔ ∀ item ∈ s.trackInfos, item.eos = true := by
  rw [State.allTracksEos, decide_eq_true_eq, h.count]
  exact List.countP_eq_length

/-- **The count** says whether every track of this recording has delivered its end. -/
theorem Tracked.allDelivered_iff (h : Tracked s) (hstarted : s.started = true) :
    AllDelivered s ↔ s.allTracksEos = true := by
  rw [h.allTracksEos_iff]
  constructor
  · intro hall item hitem
    exact h.marked hstarted item hitem (hall.2 _ (h.within hstarted item hitem))
  · intro hall
    refine ⟨h.positive hstarted, fun inPort hport => ?_⟩
    obtain ⟨item, hitem, -, heos⟩ := h.present hstarted inPort hport
    exact heos (hall item hitem)

theorem mem_marked {items : List TrackInfo} {item : TrackInfo} :
    (item ∈ items.map fun item =>
        if item.inPort = inPort then { item with eos := true } else item) ↔
      ∃ old ∈ items, item.inPort = old.inPort ∧
        item = { old with eos := old.eos || decide (old.inPort = inPort) } := by
  rw [List.mem_map]
  constructor
  · rintro ⟨old, hold, rfl⟩
    refine ⟨old, hold, ?_, ?_⟩
    · split <;> rfl
    · split
      next heq => rw [decide_eq_true heq, Bool.or_true]
      next hne => rw [decide_eq_false hne, Bool.or_false]
  · rintro ⟨old, hold, -, rfl⟩
    refine ⟨old, hold, ?_⟩
    split
    next heq => rw [decide_eq_true heq, Bool.or_true]
    next hne => rw [decide_eq_false hne, Bool.or_false]

theorem Tracked.updateEosState (h : Tracked s) (inPort : Nat) :
    Tracked (updateEosState { s with delivered := s.delivered ++ [inPort] } inPort) := by
  refine ⟨rfl, fun item hitem => ?_, h.cache, h.positive, fun hstarted item hitem => ?_,
    fun hstarted item hitem hport => ?_, fun hstarted port hport => ?_⟩
  · obtain ⟨old, hold, heq, -⟩ := mem_marked.mp hitem
    rw [heq]
    exact h.ports old hold
  · obtain ⟨old, hold, heq, -⟩ := mem_marked.mp hitem
    rw [heq]
    exact h.within hstarted old hold
  · obtain ⟨old, hold, heq, rfl⟩ := mem_marked.mp hitem
    show (old.eos || decide (old.inPort = inPort)) = true
    cases List.mem_append.mp hport with
    | inl hbefore =>
      have heos : old.eos = true := h.marked hstarted old hold hbefore
      rw [heos, Bool.true_or]
    | inr hnow =>
      have hsame : old.inPort = inPort := List.mem_singleton.mp hnow
      rw [decide_eq_true hsame, Bool.or_true]
  · obtain ⟨old, hold, hsame, heos⟩ := h.present hstarted port hport
    refine ⟨{ old with eos := old.eos || decide (old.inPort = inPort) },
      mem_marked.mpr ⟨old, hold, rfl, rfl⟩, hsame, fun hmarked => ?_⟩
    cases Bool.or_eq_true_iff.mp hmarked with
    | inl hbefore => exact List.mem_append_left _ (heos hbefore)
    | inr hnow =>
      have hport : port = inPort := hsame.symm.trans (of_decide_eq_true hnow)
      exact List.mem_append_right _ (List.mem_singleton.mpr hport)

-- Preparing a recording

theorem Inv.rest (h : Inv s) (state : FilterState) {inPorts : Nat} (hports : s.inPorts ≤ inPorts) :
    Inv { s with
      state := state
      inPorts := inPorts } where
  logged := ⟨h.logged.log, h.logged.header, h.logged.noHeader, h.logged.plugin, h.logged.empty⟩
  tracked := ⟨h.tracked.count, fun item hitem => (h.tracked.ports item hitem).trans_le hports,
    fun port hport => (h.tracked.cache port hport).trans_le hports, h.tracked.positive,
    h.tracked.within, h.tracked.marked, h.tracked.present⟩
  ends := ⟨h.ends.busy, h.ends.ending, h.ends.past, h.ends.due, h.ends.asked⟩

theorem Inv.addTrack (h : Inv s) : Inv (addTrack s) := by
  unfold Muxer.addTrack
  split
  next => exact h
  next => exact h.rest s.state (Nat.le_succ _)

theorem Inv.prepare (h : Inv s) : Inv (prepare s) := by
  unfold Muxer.prepare
  split
  next => exact h.rest .preparing le_rfl
  next => exact h

theorem Inv.resume (h : Inv s) (heos : s.eos = false) : Inv (resume s) := by
  have hsame : Muxer.resume s = { s with state := .running } := by
    unfold Muxer.resume Muxer.start
    rw [← heos]
  rw [hsame]
  exact h.rest .running le_rfl

theorem Inv.renegotiate (h : Inv s)
    (hdue : s.started = true → s.allTracksEos = true → s.eos = true)
    (cache : List Nat) {plugin : Bool} :
    Inv { s with
      hasWriteHeader := false
      capabilityCache := cache
      started := false
      plugin := plugin } where
  logged := ⟨h.logged.log, nofun, fun _ => rfl, nofun, h.logged.empty⟩
  tracked := ⟨h.tracked.count, h.tracked.ports, h.tracked.cache, nofun, nofun, nofun, nofun⟩
  ends := by
    refine ⟨nofun, nofun, fun _ hall => ?_, h.ends.due, h.ends.asked⟩
    by_cases hstarted : s.started = true
    · exact hdue hstarted ((h.tracked.allDelivered_iff hstarted).mp hall)
    · exact h.ends.past (Bool.eq_false_iff.mpr hstarted) hall

theorem Inv.negotiate (h : Inv s) {found : Found} (hkeeps : Keeps s (.negotiate inPort found)) :
    Inv (negotiate s inPort found).1 := by
  unfold Muxer.negotiate
  split
  next => exact h
  next hpreparing =>
    have hdue := hkeeps (not_not.mp hpreparing)
    dsimp only
    split
    next => exact h.renegotiate hdue _
    next =>
      cases found with
      | nothing | failed | plugin => exact h.renegotiate hdue _

-- Configure

theorem mem_addTracks {addTrack : Nat → Option Int} {i : Nat} {ports : List Nat}
    {item : TrackInfo} (h : item ∈ (addTracks addTrack i ports).1) :
    item.inPort ∈ ports ∧ item.eos = false := by
  induction ports generalizing i with
  | nil => cases h
  | cons port rest ih =>
    unfold addTracks at h
    cases hid : addTrack i with
    | none =>
      rw [hid] at h
      cases h
    | some trackId =>
      rw [hid] at h
      cases List.mem_cons.mp h with
      | inl hhead =>
        rw [hhead]
        exact ⟨List.mem_cons_self, rfl⟩
      | inr hrest => exact ⟨List.mem_cons_of_mem _ (ih hrest).1, (ih hrest).2⟩

theorem Inv.addInfos (h : Inv s) (hstarted : s.started = false) (infos : List TrackInfo)
    (hinfos : ∀ item ∈ infos, item.inPort < s.inPorts ∧ item.eos = false)
    (state : FilterState) {cache : List Nat} (hcache : ∀ port ∈ cache, port < s.inPorts) :
    Inv { s with
      trackInfos := s.trackInfos ++ infos
      state := state
      metaCache := cache } where
  logged := ⟨h.logged.log, h.logged.header, h.logged.noHeader, h.logged.plugin, h.logged.empty⟩
  tracked := by
    have hoff : ∀ {p : Prop}, s.started = true → p :=
      fun hon => absurd hon (Bool.eq_false_iff.mp hstarted)
    refine ⟨?_, fun item hitem => ?_, hcache, fun hon => hoff hon, fun hon => hoff hon,
      fun hon => hoff hon, fun hon => hoff hon⟩
    · have hnone : infos.countP TrackInfo.eos = 0 :=
        List.countP_eq_zero.mpr fun item hitem => Bool.eq_false_iff.mp (hinfos item hitem).2
      rw [List.countP_append, hnone, Nat.add_zero]
      exact h.tracked.count
    · cases List.mem_append.mp hitem with
      | inl hold => exact h.tracked.ports item hold
      | inr hnew => exact (hinfos item hnew).1
  ends := ⟨fun hon => absurd hon (Bool.eq_false_iff.mp hstarted),
    fun hon => absurd hon (Bool.eq_false_iff.mp hstarted), h.ends.past, h.ends.due, h.ends.asked⟩

theorem Inv.configure (h : Inv s) {answers : Answers} (hport : inPort < s.inPorts)
    (hstarted : s.started = false) : Inv (configure s inPort answers).1 := by
  have hcache : ∀ port ∈ s.metaCache ++ [inPort], port < s.inPorts := by
    intro port hmem
    cases List.mem_append.mp hmem with
    | inl hold => exact h.tracked.cache port hold
    | inr hnew => exact List.mem_singleton.mp hnew ▸ hport
  have hnone := h.addInfos hstarted [] (List.forall_mem_nil _) s.state hcache
  rw [List.append_nil] at hnone
  have hadded := h.addInfos hstarted (addTracks answers.addTrack 0 (s.metaCache ++ [inPort])).1
    (fun item hitem => ⟨hcache _ (mem_addTracks hitem).1, (mem_addTracks hitem).2⟩)
  unfold Muxer.configure
  split
  next => exact h
  next =>
    dsimp only
    split
    next => exact hnone
    next =>
      split
      next => exact hnone
      next =>
        split
        next => exact hnone
        next =>
          unfold configureToStart
          dsimp only
          generalize ((addTracks answers.addTrack 0 (s.metaCache ++ [inPort])).2 &&
            answers.prepare && answers.start) = ok
          cases ok with
          | true => exact hadded .ready hcache
          | false => exact hadded s.state hcache

-- The recording

theorem Inv.startRecording (h : Inv s) (hkeeps : Keeps s .start) : Inv (startRecording s) := by
  obtain ⟨hstarted, hpositive, hending, hfresh⟩ := hkeeps
  have hopen : (Muxer.startRecording s).allTracksEos = false := by
    rw [Bool.eq_false_iff]
    intro hall
    obtain ⟨item, hitem, -, heos⟩ := hfresh 0 hpositive
    rw [h.tracked.allTracksEos_iff.mp hall item hitem] at heos
    cases heos
  refine ⟨⟨rfl, fun _ _ => h.logged.noHeader hstarted, nofun, h.logged.plugin, fun _ => rfl⟩,
    ⟨h.tracked.count, h.tracked.ports, h.tracked.cache, fun _ => hpositive,
      fun _ => h.tracked.ports, (fun _ _ _ hnone => nomatch hnone), fun _ port hport => ?_⟩,
    ⟨fun _ hall => absurd hall (Bool.eq_false_iff.mp hopen), fun _ hnot => absurd hending hnot,
      nofun, nofun, nofun⟩⟩
  obtain ⟨item, hitem, heq, heos⟩ := hfresh port hport
  exact ⟨item, hitem, heq, fun hyes => absurd hyes (Bool.eq_false_iff.mp heos)⟩

theorem Logged.write (h : Logged s) (hstarted : s.started = true) (heos : s.eos = false)
    (buffer : AVBuffer) :
    s.log ++ write s buffer = (if true then [Call.writeHeader] else []) ++
      (if buffer.memory = [] then s.accepted else s.accepted ++ [buffer]).map .writeFrame := by
  have hlog := h.log
  have hheader := h.header hstarted heos
  rw [heos, if_neg Bool.false_ne_true, List.append_nil, opening] at hlog
  rw [hlog, Muxer.write, hheader, if_pos rfl]
  cases hpushed : s.pushed with
  | true =>
    by_cases hempty : buffer.memory = []
    · simp only [if_pos hempty, if_true, List.append_nil]
    · simp only [if_neg hempty, if_true, List.nil_append, List.map_append, List.map_cons,
        List.map_nil, List.append_assoc]
  | false =>
    have hnone := h.empty hpushed
    by_cases hempty : buffer.memory = []
    · simp only [if_pos hempty, hnone, List.map_nil, List.append_nil, Bool.false_eq_true,
        if_false, List.nil_append]
    · simp only [if_neg hempty, hnone, List.map_nil, List.append_nil, Bool.false_eq_true,
        if_false, List.nil_append, List.map_cons]

theorem Inv.accept (h : Inv s) (hstarted : s.started = true) (heos : s.eos = false)
    (hplugin : s.plugin = true) (inPort : Nat) (buffer : AVBuffer) {infos : List TrackInfo}
    {count : Nat} {delivered : List Nat}
    (htracked : Tracked { s with
      trackInfos := infos
      eosTrackCnt := count
      delivered := delivered })
    (hmore : (∀ item ∈ s.trackInfos, item.eos = true) → ∀ item ∈ infos, item.eos = true) :
    Inv { s with
      hasWriteHeader := true
      log := s.log ++ write s buffer
      pushed := true
      accepted := if buffer.memory = [] then s.accepted else s.accepted ++ [buffer]
      trackInfos := infos
      eosTrackCnt := count
      delivered := delivered
      checking := s.checking ++ [inPort] } where
  logged := by
    refine ⟨?_, fun _ _ => rfl, fun hoff => absurd hoff (by rw [hstarted]; exact nofun),
      fun _ => hplugin, nofun⟩
    show s.log ++ write s buffer = _ ++ if s.eos = true then _ else []
    rw [heos, if_neg Bool.false_ne_true, List.append_nil]
    exact h.logged.write hstarted heos buffer
  tracked := ⟨htracked.count, htracked.ports, htracked.cache, htracked.positive, htracked.within,
    htracked.marked, htracked.present⟩
  ends := by
    refine ⟨fun _ _ _ => .inl (List.append_ne_nil_of_right_ne_nil _ (List.cons_ne_nil _ _)),
      fun _ hending => ?_, fun hoff => absurd hoff (by rw [hstarted]; exact nofun),
      fun hend => absurd hend (by rw [heos]; exact nofun), h.ends.asked⟩
    have hall := h.tracked.allTracksEos_iff.mp (h.ends.ending hstarted hending)
    exact htracked.allTracksEos_iff.mpr (hmore hall)

theorem Inv.pushData (h : Inv s) (hkeeps : Keeps s (.pushData inPort buffer))
    (ht : pushData s inPort buffer = some t) : Inv t := by
  unfold Muxer.pushData at ht
  split at ht
  next => exact Option.some.inj ht ▸ h
  next haccepts =>
    have haccepts : s.accepts = true := by
      rw [Bool.not_eq_true, Bool.not_eq_false'] at haccepts
      exact haccepts
    have heos : s.eos = false := by
      have hand := (Bool.and_eq_true_iff.mp haccepts).2
      rw [Bool.not_eq_true'] at hand
      exact hand
    have hstarted := hkeeps haccepts
    split at ht
    next => cases ht
    next hplugin =>
      have hplugin : s.plugin = true := by
        rw [Bool.not_eq_true, Bool.not_eq_false'] at hplugin
        exact hplugin
      dsimp only at ht
      split at ht
      next =>
        cases ht
        refine h.accept hstarted heos hplugin inPort buffer (h.tracked.updateEosState inPort) ?_
        intro hall item hitem
        obtain ⟨old, hold, -, rfl⟩ := mem_marked.mp hitem
        show (old.eos || _) = true
        rw [hall old hold, Bool.true_or]
      next =>
        cases ht
        exact h.accept hstarted heos hplugin inPort buffer h.tracked fun hall => hall

theorem Inv.checkEos (h : Inv s) (ht : checkEos s inPort = some t) : Inv t := by
  unfold Muxer.checkEos at ht
  split at ht
  next hchecking =>
    cases ht
    dsimp only
    have hall_iff : State.allTracksEos { s with checking := s.checking.erase inPort } =
        s.allTracksEos := rfl
    rw [hall_iff]
    split
    next hall =>
      refine ⟨⟨h.logged.log, h.logged.header, h.logged.noHeader, h.logged.plugin,
        h.logged.empty⟩, ⟨h.tracked.count, h.tracked.ports, h.tracked.cache, h.tracked.positive,
        h.tracked.within, h.tracked.marked, h.tracked.present⟩, ⟨fun _ _ _ => .inr ?_,
        fun _ _ => hall, h.ends.past, h.ends.due, h.ends.asked⟩⟩
      exact List.append_ne_nil_of_right_ne_nil _ (List.cons_ne_nil _ _)
    next hnot =>
      exact ⟨⟨h.logged.log, h.logged.header, h.logged.noHeader, h.logged.plugin,
        h.logged.empty⟩, ⟨h.tracked.count, h.tracked.ports, h.tracked.cache, h.tracked.positive,
        h.tracked.within, h.tracked.marked, h.tracked.present⟩, ⟨fun _ hall => absurd hall hnot,
        h.ends.ending, h.ends.past, h.ends.due, h.ends.asked⟩⟩
  next => cases ht

/-- **The end** is sent for the first time, since every track has ended or somebody asks for it. -/
theorem Inv.sendEos (h : Inv s) (hstarted : s.started = true) (heos : s.eos = false)
    {asked : Bool} (hdue : asked = true ∨ s.allTracksEos = true) {ending : List Nat}
    (hending : ending ≠ [] → s.allTracksEos = true) :
    Inv { sendEos { s with ending := ending } with asked := asked } where
  logged := by
    refine ⟨?_, nofun, fun _ => rfl, nofun, h.logged.empty⟩
    have hlog := h.logged.log
    have hheader := h.logged.header hstarted heos
    rw [heos, if_neg Bool.false_ne_true, List.append_nil] at hlog
    have htrailer : (s.hasWriteHeader && s.plugin) = s.pushed := by
      rw [hheader]
      cases hpushed : s.pushed with
      | false => rfl
      | true => exact h.logged.plugin (hheader.trans hpushed)
    show s.log ++ (if (s.hasWriteHeader && s.plugin) = true then _ else _) ++ _ = opening s ++ _
    rw [hlog, htrailer, List.append_assoc]
    rfl
  tracked := ⟨h.tracked.count, h.tracked.ports, List.forall_mem_nil _, h.tracked.positive,
    h.tracked.within, h.tracked.marked, h.tracked.present⟩
  ends := by
    refine ⟨(fun _ _ hnot => nomatch hnot), fun _ => hending, fun _ _ => rfl, fun _ => ?_,
      fun _ => rfl⟩
    cases hdue with
    | inl hasked => exact .inl hasked
    | inr hall => exact .inr ((h.tracked.allDelivered_iff hstarted).mpr hall)

theorem onPort_some {result : Option State} (h : onPort s inPort result = some t) :
    inPort < s.inPorts ∧ result = some t := by
  unfold onPort at h
  split at h
  next hport => exact ⟨hport, h⟩
  next => cases h

/-- **One step.** -/
theorem Inv.step {e : Event} (h : Inv s) (hkeeps : Keeps s e) (ht : step s e = some t) :
    Inv t := by
  cases e with
  | addTrack => exact Option.some.inj ht ▸ h.addTrack
  | prepare => exact Option.some.inj ht ▸ h.prepare
  | negotiate =>
    obtain ⟨-, ht⟩ := onPort_some ht
    exact Option.some.inj ht ▸ h.negotiate hkeeps
  | configure =>
    obtain ⟨hport, ht⟩ := onPort_some ht
    exact Option.some.inj ht ▸ h.configure hport hkeeps
  | start => exact Option.some.inj ht ▸ h.startRecording hkeeps
  | pause => exact Option.some.inj ht ▸ h.rest .paused le_rfl
  | resume => exact Option.some.inj ht ▸ h.resume hkeeps
  | stop => exact Option.some.inj ht ▸ h.rest .initialized le_rfl
  | pushData =>
    unfold Muxer.step at ht
    dsimp only at ht
    split at ht
    next => cases ht
    next =>
      obtain ⟨-, ht⟩ := onPort_some ht
      exact h.pushData hkeeps ht
  | checkEos => exact h.checkEos ht
  | endByTrack port =>
    unfold Muxer.step at ht
    dsimp only at ht
    split at ht
    next hending =>
      obtain ⟨hstarted, heos⟩ := hkeeps
      have hall := h.ends.ending hstarted (List.ne_nil_of_mem hending)
      cases ht
      have hsent : Inv { Muxer.sendEos { s with ending := s.ending.erase port } with
          asked := s.asked } :=
        h.sendEos hstarted heos (.inr hall) fun _ => hall
      exact hsent
    next => cases ht
  | sendEos =>
    obtain ⟨hstarted, heos⟩ := hkeeps
    exact Option.some.inj ht ▸ h.sendEos hstarted heos (.inl rfl) (h.ends.ending hstarted)

-- Every run

theorem pushEos_not_mem_opening (s : State) : Call.pushEos ∉ opening s := by
  intro hmem
  cases List.mem_append.mp hmem with
  | inl hheader =>
    split at hheader
    · cases List.mem_singleton.mp hheader
    · cases hheader
  | inr hframe =>
    obtain ⟨buffer, -, heq⟩ := List.mem_map.mp hframe
    cases heq

theorem Logged.pushEos_mem_iff (h : Logged s) : .pushEos ∈ s.log ↔ s.eos = true := by
  rw [h.log]
  cases heos : s.eos with
  | false =>
    rw [if_neg Bool.false_ne_true, List.append_nil]
    exact ⟨fun hmem => absurd hmem (pushEos_not_mem_opening s), nofun⟩
  | true =>
    rw [if_pos rfl]
    refine ⟨fun _ => rfl, fun _ => List.mem_append_right _ (List.mem_append_right _ ?_)⟩
    exact List.mem_singleton.mpr rfl

theorem Inv.finishedOnce (h : Inv s) : FinishedOnce s where
  calls := by
    simp only [h.logged.pushEos_mem_iff]
    exact h.logged.log
  due hmem := h.ends.due (h.logged.pushEos_mem_iff.mp hmem)
  sent hdue := by
    rw [h.logged.pushEos_mem_iff]
    cases hdue with
    | inl hasked => exact h.ends.asked hasked
    | inr hall =>
      obtain ⟨hdelivered, hchecking, hending⟩ := hall
      by_cases hstarted : s.started = true
      · have htracks := (h.tracked.allDelivered_iff hstarted).mp hdelivered
        by_contra heos
        cases h.ends.busy hstarted htracks (Bool.eq_false_iff.mpr heos) with
        | inl hbusy => exact hbusy hchecking
        | inr hbusy => exact hbusy hending
      · exact h.ends.past (Bool.eq_false_iff.mpr hstarted) hdelivered

/-- **A recording is finished once and in order**, in every run of steps that meet the condition. -/
theorem finished_once (hkeeps : Runs.Along step Keeps init events)
    (hrun : Runs.run step init events = some s) : FinishedOnce s :=
  Inv.finishedOnce (Runs.run_invariant (fun _ _ _ h hgood hstep => h.step hgood hstep)
    inv_init hkeeps hrun)

def afterEvents (events : List Event) : State := (Runs.run step init events).getD init

theorem run_afterEvents (h : (Runs.run step init events).isSome = true) :
    Runs.run step init events = some (afterEvents events) := by
  obtain ⟨t, ht⟩ := Option.isSome_iff_exists.mp h
  rw [afterEvents, ht]
  rfl

def allAgreed : Answers := ⟨true, true, fun i => some i, true, true⟩

def addTwo : List Event := [.addTrack, .addTrack]

def prepareTwo : List Event :=
  [.prepare, .negotiate 0 .plugin, .negotiate 1 .plugin, .configure 0 allAgreed,
    .configure 1 allAgreed, .start]

def frame (byte : UInt8) : AVBuffer := ⟨[byte], false⟩

def endOfTrack : AVBuffer := ⟨[], true⟩

def endedByTracks : List Event :=
  [.pushData 0 (frame 1), .pushData 1 (frame 2), .checkEos 0, .checkEos 1, .pushData 0 endOfTrack,
    .checkEos 0, .pushData 1 endOfTrack, .checkEos 1, .endByTrack 1, .stop]

/-- A recording that somebody ends. -/
def endedFromOutside : List Event :=
  [.pushData 1 (frame 3), .checkEos 1, .pushData 0 endOfTrack, .checkEos 0, .sendEos]

def twoRecordings : List Event :=
  addTwo ++ prepareTwo ++ endedByTracks ++ prepareTwo ++ endedFromOutside

theorem finished_once_two :
    Runs.run step init twoRecordings = some (afterEvents twoRecordings) ∧
      FinishedOnce (afterEvents twoRecordings) ∧
      (afterEvents twoRecordings).log =
        [.writeHeader, .writeFrame (frame 3), .writeTrailer, .pushEos] := by
  have hkeeps : Runs.Along step Keeps init twoRecordings := by decide +kernel
  have hrun : Runs.run step init twoRecordings = some (afterEvents twoRecordings) :=
    run_afterEvents (by decide +kernel)
  exact ⟨hrun, finished_once hkeeps hrun, by decide +kernel⟩

/-- Both tracks end before the first thread looks. -/
def endedTogether : List Event :=
  [.pushData 0 endOfTrack, .pushData 1 endOfTrack, .checkEos 0, .checkEos 1, .endByTrack 0,
    .endByTrack 1]

def bothEnd : List Event := addTwo ++ prepareTwo ++ endedTogether

theorem end_sent_twice :
    Runs.run step init bothEnd = some (afterEvents bothEnd) ∧
      ¬ FinishedOnce (afterEvents bothEnd) := by
  refine ⟨run_afterEvents (by decide +kernel), fun h => ?_⟩
  have htwice : (afterEvents bothEnd).log =
      [.writeHeader, .writeTrailer, .pushEos, .pushEos] := by decide +kernel
  have hcalls := h.calls
  rw [htwice] at hcalls
  exact absurd hcalls (by decide)

end MediaFoundation.Muxer
