import MediaFoundation.Monitor.MediaMonitorPolicy

/-!
# Counts and durations under aggregation

An entry's aggregation key is the entry without what it has counted. Every
entry of the vector was built by one of the nine functions, so an `isExist`
that compares exactly the values its new entry is built from selects the entry
of the same key and no other. Two of the nine do not: the stream usage compares
fewer values than it keeps, and the stream property looks among the entries of
another kind.
-/

namespace MediaFoundation.MediaMonitor

open Runs

variable {key : Key} {kind : Kind}

-- Comparisons

theorem isExist_iff {eventId : EventId} {ints strings : List Key} {bean e : EventBean} :
    isExist eventId ints strings bean e = true ↔
      e.eventId = eventId ∧ (∀ key ∈ ints, bean.getIntValue key = e.getIntValue key) ∧
        ∀ key ∈ strings, bean.getStringValue key = e.getStringValue key := by
  simp only [isExist, Bool.and_eq_true, beq_iff_eq, List.all_eq_true, and_assoc]

theorem isExist_congr {eventId : EventId} {ints strings : List Key} {bean e e' : EventBean}
    (hid : e.eventId = e'.eventId) (hstring : e.stringMap = e'.stringMap)
    (hint : ∀ key ∈ ints, e.getIntValue key = e'.getIntValue key) :
    isExist eventId ints strings bean e = isExist eventId ints strings bean e' := by
  have hgets : ∀ key, e.getStringValue key = e'.getStringValue key := fun key => by
    unfold EventBean.getStringValue
    rw [hstring]
  rw [Bool.eq_iff_iff, isExist_iff, isExist_iff, hid]
  simp only [hgets]
  refine and_congr_right fun _ => and_congr_left fun _ => forall₂_congr fun key hkey => ?_
  rw [hint key hkey]

-- Aggregation keys

/-- The values an entry was built from: the entry with its counters at zero. -/
def aggregationKey (e : EventBean) : EventBean :=
  ((e.updateUint64Map .DURATION 0).updateUint64Map .TIMES 0).updateIntMap .TIMES 0

def duration (e : EventBean) : Nat := (e.getUint64Value .DURATION).toNat

/-- The calls an entry has counted: the stream usage keeps them with 64 bits, the others
with 32. -/
def times (e : EventBean) : Nat :=
  (e.getUint64Value .TIMES).toNat + (e.getIntValue .TIMES).toInt.toNat

section Keys

variable {e e' : EventBean}

theorem aggregationKey_intMap (e : EventBean) (key : Key) :
    (aggregationKey e).intMap key =
      if key = .TIMES then (e.intMap key).map fun _ => 0 else e.intMap key := by
  show e.intMap.assign .TIMES 0 key = _
  split
  case isTrue h => rw [h, KeyMap.assign_self]
  case isFalse h => rw [KeyMap.assign_of_ne _ _ h]

theorem aggregationKey_uint64Map (e : EventBean) (key : Key) :
    (aggregationKey e).uint64Map key =
      if key = .DURATION ∨ key = .TIMES then (e.uint64Map key).map fun _ => 0
      else e.uint64Map key := by
  show (e.uint64Map.assign .DURATION 0).assign .TIMES 0 key = _
  by_cases ht : key = .TIMES
  · subst ht
    rw [KeyMap.assign_self, KeyMap.assign_of_ne _ _ (by decide), if_pos (.inr rfl)]
  · rw [KeyMap.assign_of_ne _ _ ht]
    by_cases hd : key = .DURATION
    · subst hd
      rw [KeyMap.assign_self, if_pos (.inl rfl)]
    · rw [KeyMap.assign_of_ne _ _ hd, if_neg (by simp [hd, ht])]

theorem aggregationKey_ext (hid : e.eventId = e'.eventId) (htype : e.eventType = e'.eventType)
    (hstring : e.stringMap = e'.stringMap)
    (hint : ∀ key, (aggregationKey e).intMap key = (aggregationKey e').intMap key)
    (huint : ∀ key, (aggregationKey e).uint64Map key = (aggregationKey e').uint64Map key) :
    aggregationKey e = aggregationKey e' :=
  EventBean.ext hid htype (funext hint) hstring (funext huint)

/-- Setting a counter to another value keeps the key. -/
theorem aggregationKey_updateUint64Map (hkey : key = .DURATION ∨ key = .TIMES)
    (e : EventBean) (n : UInt64) : aggregationKey (e.updateUint64Map key n) = aggregationKey e := by
  refine aggregationKey_ext rfl rfl rfl (fun _ => rfl) fun key' => ?_
  rw [aggregationKey_uint64Map, aggregationKey_uint64Map]
  show (if _ then (e.uint64Map.assign key n key').map _ else e.uint64Map.assign key n key') = _
  by_cases h : key' = key
  · subst h
    rw [KeyMap.assign_self, if_pos hkey, if_pos hkey, Option.map_map]
    rfl
  · rw [KeyMap.assign_of_ne _ _ h]

theorem aggregationKey_updateIntMap (e : EventBean) (n : Int32) :
    aggregationKey (e.updateIntMap .TIMES n) = aggregationKey e := by
  refine aggregationKey_ext rfl rfl rfl (fun key => ?_) fun _ => rfl
  rw [aggregationKey_intMap, aggregationKey_intMap]
  show (if _ then (e.intMap.assign .TIMES n key).map _ else e.intMap.assign .TIMES n key) = _
  by_cases h : key = .TIMES
  · subst h
    rw [KeyMap.assign_self, if_pos rfl, if_pos rfl, Option.map_map]
    rfl
  · rw [KeyMap.assign_of_ne _ _ h]

theorem aggregationKey_addUint64 (hkey : key = .DURATION ∨ key = .TIMES)
    (h : aggregationKey e = aggregationKey e') (m n : UInt64) :
    aggregationKey (e.addUint64 key m) = aggregationKey (e'.addUint64 key n) := by
  refine aggregationKey_ext (congrArg EventBean.eventId h :) (congrArg EventBean.eventType h :)
    (congrArg EventBean.stringMap h :) (congrFun (congrArg EventBean.intMap h :)) fun key' => ?_
  have hmap := congrFun (congrArg EventBean.uint64Map h) key'
  rw [aggregationKey_uint64Map, aggregationKey_uint64Map] at hmap ⊢
  show (if _ then (e.uint64Map.emplace key m key').map _ else e.uint64Map.emplace key m key') =
    if _ then (e'.uint64Map.emplace key n key').map _ else e'.uint64Map.emplace key n key'
  by_cases hk : key' = key
  · subst hk
    rw [KeyMap.emplace_self, KeyMap.emplace_self, if_pos hkey, if_pos hkey]
    rfl
  · rw [KeyMap.emplace_of_ne _ _ hk, KeyMap.emplace_of_ne _ _ hk]
    exact hmap

theorem aggregationKey_addTimes (h : aggregationKey e = aggregationKey e') (m n : Int32) :
    aggregationKey (e.addInt .TIMES m) = aggregationKey (e'.addInt .TIMES n) := by
  refine aggregationKey_ext (congrArg EventBean.eventId h :) (congrArg EventBean.eventType h :)
    (congrArg EventBean.stringMap h :) (fun key => ?_) (congrFun (congrArg EventBean.uint64Map h :))
  have hmap := congrFun (congrArg EventBean.intMap h) key
  rw [aggregationKey_intMap, aggregationKey_intMap] at hmap ⊢
  show (if _ then (e.intMap.emplace .TIMES m key).map _ else e.intMap.emplace .TIMES m key) =
    if _ then (e'.intMap.emplace .TIMES n key).map _ else e'.intMap.emplace .TIMES n key
  by_cases hk : key = .TIMES
  · subst hk
    rw [KeyMap.emplace_self, KeyMap.emplace_self, if_pos rfl, if_pos rfl]
    rfl
  · rw [KeyMap.emplace_of_ne _ _ hk, KeyMap.emplace_of_ne _ _ hk]
    exact hmap

theorem isSome_uint64Map_of_key (h : aggregationKey e = aggregationKey e') (key : Key) :
    (e.uint64Map key).isSome = (e'.uint64Map key).isSome := by
  have hmap := congrArg Option.isSome (congrFun (congrArg EventBean.uint64Map h) key)
  rw [aggregationKey_uint64Map, aggregationKey_uint64Map] at hmap
  split at hmap
  · rwa [Option.isSome_map, Option.isSome_map] at hmap
  · exact hmap

theorem isSome_intMap_of_key (h : aggregationKey e = aggregationKey e') (key : Key) :
    (e.intMap key).isSome = (e'.intMap key).isSome := by
  have hmap := congrArg Option.isSome (congrFun (congrArg EventBean.intMap h) key)
  rw [aggregationKey_intMap, aggregationKey_intMap] at hmap
  split at hmap
  · rwa [Option.isSome_map, Option.isSome_map] at hmap
  · exact hmap

theorem getIntValue_aggregationKey (hkey : key ≠ .TIMES) (e : EventBean) :
    (aggregationKey e).getIntValue key = e.getIntValue key := by
  unfold EventBean.getIntValue
  rw [aggregationKey_intMap, if_neg hkey]

theorem isExist_aggregationKey (eventId : EventId) {ints : List Key} (hints : .TIMES ∉ ints)
    (strings : List Key) (bean e : EventBean) :
    isExist eventId ints strings bean (aggregationKey e) = isExist eventId ints strings bean e :=
  isExist_congr rfl rfl fun _ hkey =>
    getIntValue_aggregationKey (fun heq => hints (heq ▸ hkey)) e

theorem isExist_of_key {eventId : EventId} {ints : List Key} (hints : .TIMES ∉ ints)
    {strings : List Key} {bean : EventBean} (h : aggregationKey e = aggregationKey e') :
    isExist eventId ints strings bean e = isExist eventId ints strings bean e' := by
  rw [← isExist_aggregationKey eventId hints, h, isExist_aggregationKey eventId hints]

end Keys

-- New entries

section NewEntries

variable {eventId : EventId} {eventType : EventType} {ints strings : List Key}
  {bean bean' : EventBean}

theorem foldl_addInt_keeps {β : Type} (get : EventBean → β)
    (hget : ∀ e key n, get (e.addInt key n) = get e) (e : EventBean) :
    get (ints.foldl (fun e key => e.addInt key (bean.getIntValue key)) e) = get e := by
  induction ints generalizing e with
  | nil => rfl
  | cons key ints ih => rw [List.foldl_cons, ih, hget]

theorem foldl_addString_keeps {β : Type} (get : EventBean → β)
    (hget : ∀ e key t, get (e.addString key t) = get e) (e : EventBean) :
    get (strings.foldl (fun e key => e.addString key (bean.getStringValue key)) e) = get e := by
  induction strings generalizing e with
  | nil => rfl
  | cons key strings ih => rw [List.foldl_cons, ih, hget]

theorem foldl_addInt_intMap (e : EventBean) (key : Key) :
    (ints.foldl (fun e key => e.addInt key (bean.getIntValue key)) e).intMap key =
      if key ∈ ints then some ((e.intMap key).getD (bean.getIntValue key)) else e.intMap key := by
  induction ints generalizing e with
  | nil => simp
  | cons k ints ih =>
    rw [List.foldl_cons, ih]
    show (if _ then some ((e.intMap.emplace k _ key).getD _) else e.intMap.emplace k _ key) = _
    by_cases hk : key = k
    · subst hk
      simp [KeyMap.emplace_self]
    · simp [KeyMap.emplace_of_ne _ _ hk, hk]

theorem foldl_addString_stringMap (e : EventBean) (key : Key) :
    (strings.foldl (fun e key => e.addString key (bean.getStringValue key)) e).stringMap key =
      if key ∈ strings then some ((e.stringMap key).getD (bean.getStringValue key))
      else e.stringMap key := by
  induction strings generalizing e with
  | nil => simp
  | cons k strings ih =>
    rw [List.foldl_cons, ih]
    show (if _ then some ((e.stringMap.emplace k _ key).getD _)
      else e.stringMap.emplace k _ key) = _
    by_cases hk : key = k
    · subst hk
      simp [KeyMap.emplace_self]
    · simp [KeyMap.emplace_of_ne _ _ hk, hk]

theorem getIntValue_newEventBean (hkey : key ∈ ints) :
    (newEventBean eventId eventType ints strings bean).getIntValue key = bean.getIntValue key := by
  show ((newEventBean eventId eventType ints strings bean).intMap key).getD (-1) = _
  rw [newEventBean, foldl_addString_keeps EventBean.intMap fun _ _ _ => rfl,
    foldl_addInt_intMap, if_pos hkey]
  rfl

theorem getStringValue_newEventBean (hkey : key ∈ strings) :
    (newEventBean eventId eventType ints strings bean).getStringValue key =
      bean.getStringValue key := by
  show ((newEventBean eventId eventType ints strings bean).stringMap key).getD "UNKNOWN" = _
  rw [newEventBean, foldl_addString_stringMap, foldl_addInt_keeps EventBean.stringMap fun _ _ _ => rfl,
    if_pos hkey]
  rfl

theorem newEventBean_congr (hints : ∀ key ∈ ints, bean.getIntValue key = bean'.getIntValue key)
    (hstrings : ∀ key ∈ strings, bean.getStringValue key = bean'.getStringValue key) :
    newEventBean eventId eventType ints strings bean =
      newEventBean eventId eventType ints strings bean' := by
  have hfold : ∀ e : EventBean,
      ints.foldl (fun e key => e.addInt key (bean.getIntValue key)) e =
        ints.foldl (fun e key => e.addInt key (bean'.getIntValue key)) e := fun e =>
    List.foldl_ext _ _ e fun e key hkey => by rw [hints key hkey]
  unfold newEventBean
  rw [hfold]
  exact List.foldl_ext _ _ _ fun e key hkey => by rw [hstrings key hkey]

theorem eventId_newEventBean :
    (newEventBean eventId eventType ints strings bean).eventId = eventId := by
  exact (foldl_addString_keeps EventBean.eventId (fun _ _ _ => rfl) _).trans
    (foldl_addInt_keeps EventBean.eventId (fun _ _ _ => rfl) _)

/-- An entry is accepted for another bean exactly if the two agree on the values compared. -/
theorem isExist_newEventBean :
    isExist eventId ints strings bean (newEventBean eventId eventType ints strings bean') = true ↔
      (∀ key ∈ ints, bean.getIntValue key = bean'.getIntValue key) ∧
        ∀ key ∈ strings, bean.getStringValue key = bean'.getStringValue key := by
  rw [isExist_iff]
  constructor
  · rintro ⟨-, hi, hs⟩
    exact ⟨fun key hkey => (hi key hkey).trans (getIntValue_newEventBean hkey),
      fun key hkey => (hs key hkey).trans (getStringValue_newEventBean hkey)⟩
  · rintro ⟨hi, hs⟩
    exact ⟨eventId_newEventBean,
      fun key hkey => (hi key hkey).trans (getIntValue_newEventBean hkey).symm,
      fun key hkey => (hs key hkey).trans (getStringValue_newEventBean hkey).symm⟩

end NewEntries

-- Selecting the entry of a key

def block (getBundleInfo : Int32 → BundleInfo) (bean : EventBean) : Kind → FindOrCreate
  | .deviceUsage => deviceUsageStats bean
  | .btUsage => btUsageStats bean
  | .streamUsage => streamUsageStats bean
  | .streamProperty => streamPropertyStats bean
  | .volume => volumeStats bean
  | .captureMuted => captureMutedStats bean
  | .createError => createErrorStats bean
  | .silentPlayback => silentPlaybackStats (getBundleInfo (bean.getIntValue .CLIENT_UID))
  | .underrun => underrunStats bean

theorem hand_some (getBundleInfo : Int32 → BundleInfo) (v : List EventBean) (kind : Kind)
    (bean : EventBean) :
    hand getBundleInfo v kind (some bean) = some ((block getBundleInfo bean kind).perform v) := by
  cases kind <;> rfl

theorem hand_none {getBundleInfo : Int32 → BundleInfo} {v w : List EventBean}
    (h : hand getBundleInfo v kind none = some w) : w = v := by
  cases kind <;> simp only [hand, Option.some.injEq, reduceCtorEq] at h <;> exact h.symm

def Kind.eventId : Kind → EventId
  | .deviceUsage => .AUDIO_DEVICE_UTILIZATION_STATS
  | .btUsage => .BT_UTILIZATION_STATS
  | .streamUsage => .STREAM_UTILIZATION_STATS
  | .streamProperty => .STREAM_PROPERTY_STATS
  | .volume => .PLAYBACK_VOLUME_STATS
  | .captureMuted => .MUTED_CAPTURE_STATS
  | .createError => .AUDIO_STREAM_CREATE_ERROR_STATS
  | .silentPlayback => .BACKGROUND_SILENT_PLAYBACK
  | .underrun => .PERFORMANCE_UNDER_OVERRUN_STATS

theorem Kind.eventId_inj {a b : Kind} (h : a.eventId = b.eventId) : a = b := by
  cases a <;> cases b <;> first | rfl | cases h

def callKey (getBundleInfo : Int32 → BundleInfo) (bean : EventBean) (kind : Kind) : EventBean :=
  aggregationKey (block getBundleInfo bean kind).newBean

theorem callKey_eventId (getBundleInfo : Int32 → BundleInfo) (bean : EventBean) (kind : Kind) :
    (callKey getBundleInfo bean kind).eventId = kind.eventId := by
  cases kind <;> rfl

/-- An entry that one of the nine functions built and others may have added to. -/
structure Built (e : EventBean) : Prop where
  made : ∃ getBundleInfo bean kind, aggregationKey e = callKey getBundleInfo bean kind
  counted : ∀ n, e.intMap .TIMES = some n → 0 < n.toInt

section Selection

variable {eventId : EventId} {ints strings : List Key} {bean bean' e : EventBean}

/-- A duration block accepts an entry of its kind exactly if the entry has the call's key. -/
theorem durationStats_iff (hints : .TIMES ∉ ints)
    (he : aggregationKey e = aggregationKey (durationStats eventId ints strings bean').newBean) :
    (durationStats eventId ints strings bean).isExist e = true ↔
      aggregationKey e = aggregationKey (durationStats eventId ints strings bean).newBean := by
  show isExist eventId ints strings bean e = true ↔ _
  constructor
  · intro h
    rw [isExist_of_key hints he] at h
    obtain ⟨hi, hs⟩ := isExist_newEventBean.mp (show isExist eventId ints strings bean
      (newEventBean eventId .FREQUENCY_AGGREGATION_EVENT ints strings bean') = true from h)
    rw [he]
    exact aggregationKey_addUint64 (.inl rfl)
      (congrArg aggregationKey (newEventBean_congr hi hs).symm) _ _
  · intro h
    rw [isExist_of_key hints h]
    show isExist eventId ints strings bean
      (newEventBean eventId .FREQUENCY_AGGREGATION_EVENT ints strings bean) = true
    exact isExist_newEventBean.mpr ⟨fun _ _ => rfl, fun _ _ => rfl⟩

theorem timesStats_iff (hints : .TIMES ∉ ints)
    (he : aggregationKey e = aggregationKey (timesStats eventId ints bean').newBean) :
    (timesStats eventId ints bean).isExist e = true ↔
      aggregationKey e = aggregationKey (timesStats eventId ints bean).newBean := by
  show isExist eventId ints [] bean e = true ↔ _
  -- the counter of the entry is not among the values compared
  have hread : ∀ b : EventBean, isExist eventId ints [] bean (timesStats eventId ints b).newBean =
      isExist eventId ints [] bean
        (newEventBean eventId .FREQUENCY_AGGREGATION_EVENT ints [] b) := fun b =>
    isExist_congr rfl rfl fun key hkey =>
      congrArg (Option.getD · _) (KeyMap.emplace_of_ne _ _ fun heq => hints (heq ▸ hkey))
  constructor
  · intro h
    rw [isExist_of_key hints he, hread] at h
    obtain ⟨hi, hs⟩ := isExist_newEventBean.mp h
    rw [he]
    exact aggregationKey_addTimes (congrArg aggregationKey (newEventBean_congr hi hs).symm) _ _
  · intro h
    rw [isExist_of_key hints h, hread]
    exact isExist_newEventBean.mpr ⟨fun _ _ => rfl, fun _ _ => rfl⟩

theorem silentPlaybackStats_iff {bundleInfo bundleInfo' : BundleInfo}
    (he : aggregationKey e = aggregationKey (silentPlaybackStats bundleInfo').newBean) :
    (silentPlaybackStats bundleInfo).isExist e = true ↔
      aggregationKey e = aggregationKey (silentPlaybackStats bundleInfo).newBean := by
  have hread : ∀ b : BundleInfo,
      aggregationKey e = aggregationKey (silentPlaybackStats b).newBean →
      e.eventId = .BACKGROUND_SILENT_PLAYBACK ∧ e.getStringValue .APP_NAME = b.appName ∧
        e.getIntValue .APP_VERSION_CODE = b.versionCode := by
    intro b hb
    rw [← getIntValue_aggregationKey (by decide) e, hb, getIntValue_aggregationKey (by decide)]
    exact ⟨(congrArg EventBean.eventId hb :),
      congrArg (fun a : EventBean => a.getStringValue .APP_NAME) hb, rfl⟩
  have hiff : (silentPlaybackStats bundleInfo).isExist e = true ↔
      e.eventId = .BACKGROUND_SILENT_PLAYBACK ∧ e.getStringValue .APP_NAME = bundleInfo.appName ∧
        e.getIntValue .APP_VERSION_CODE = bundleInfo.versionCode := by
    simp only [silentPlaybackStats, Bool.and_eq_true, beq_iff_eq, and_assoc]
    exact and_congr_right fun _ => and_congr eq_comm eq_comm
  rw [hiff]
  constructor
  · rintro ⟨-, hname, hcode⟩
    obtain ⟨-, hname', hcode'⟩ := hread bundleInfo' he
    obtain rfl : bundleInfo' = bundleInfo := by
      cases bundleInfo
      cases bundleInfo'
      simp only [BundleInfo.mk.injEq]
      exact ⟨hname'.symm.trans hname, hcode'.symm.trans hcode⟩
    exact he
  · exact hread bundleInfo

/-- The stream usage accepts the entry of its key, and an entry that differs from it in the
user or in the effect chain. -/
theorem streamUsageStats_iff
    (he : aggregationKey e = aggregationKey (streamUsageStats bean').newBean) :
    (streamUsageStats bean).isExist e = true ∧ e.getIntValue .UID = bean.getIntValue .UID ∧
        e.getIntValue .EFFECT_CHAIN = bean.getIntValue .EFFECT_CHAIN ↔
      aggregationKey e = aggregationKey (streamUsageStats bean).newBean := by
  have hread : ∀ b : EventBean, aggregationKey e = aggregationKey (streamUsageStats b).newBean →
      e.eventId = .STREAM_UTILIZATION_STATS ∧
        (∀ key ∈ [Key.PIPE_TYPE, .UID, .IS_PLAYBACK, .STREAM_TYPE, .SAMPLE_RATE, .EFFECT_CHAIN],
          e.getIntValue key = b.getIntValue key) ∧
        e.getStringValue .APP_NAME = b.getStringValue .APP_NAME := by
    intro b hb
    refine ⟨(congrArg EventBean.eventId hb :), fun key hkey => ?_,
      (congrArg (fun a : EventBean => a.getStringValue .APP_NAME) hb :)⟩
    have hne : key ≠ .TIMES := by
      rintro rfl
      revert hkey
      decide
    rw [← getIntValue_aggregationKey hne e, hb, getIntValue_aggregationKey hne]
    show (newEventBean .STREAM_UTILIZATION_STATS .FREQUENCY_AGGREGATION_EVENT
      [.PIPE_TYPE, .UID, .IS_PLAYBACK, .STREAM_TYPE, .SAMPLE_RATE, .EFFECT_CHAIN]
      [.APP_NAME] b).getIntValue key = b.getIntValue key
    exact getIntValue_newEventBean hkey
  show isExist _ _ _ bean e = true ∧ _ ↔ _
  rw [isExist_iff]
  constructor
  · rintro ⟨⟨-, hints, hname⟩, huid, hchain⟩
    obtain ⟨-, hints', hname'⟩ := hread bean' he
    rw [he]
    have hsame : newEventBean .STREAM_UTILIZATION_STATS .FREQUENCY_AGGREGATION_EVENT
          [.PIPE_TYPE, .UID, .IS_PLAYBACK, .STREAM_TYPE, .SAMPLE_RATE, .EFFECT_CHAIN]
          [.APP_NAME] bean' =
        newEventBean .STREAM_UTILIZATION_STATS .FREQUENCY_AGGREGATION_EVENT
          [.PIPE_TYPE, .UID, .IS_PLAYBACK, .STREAM_TYPE, .SAMPLE_RATE, .EFFECT_CHAIN]
          [.APP_NAME] bean := by
      refine newEventBean_congr (fun key hkey => (hints' key hkey).symm.trans ?_) fun key hkey => ?_
      · fin_cases hkey
        · exact (hints .PIPE_TYPE (by decide)).symm
        · exact huid
        · exact (hints .IS_PLAYBACK (by decide)).symm
        · exact (hints .STREAM_TYPE (by decide)).symm
        · exact (hints .SAMPLE_RATE (by decide)).symm
        · exact hchain
      · obtain rfl := List.mem_singleton.mp hkey
        exact hname'.symm.trans (hname .APP_NAME (by decide)).symm
    exact aggregationKey_addUint64 (.inr rfl) (aggregationKey_addUint64 (.inl rfl)
      (congrArg aggregationKey hsame) _ _) _ _
  · intro h
    obtain ⟨hid, hints, hname⟩ := hread bean h
    refine ⟨⟨hid, fun key hkey => (hints key ?_).symm, fun key hkey => ?_⟩,
      hints .UID (by decide), hints .EFFECT_CHAIN (by decide)⟩
    · revert hkey
      revert key
      decide
    · obtain rfl := List.mem_singleton.mp hkey
      exact hname.symm

variable {getBundleInfo : Int32 → BundleInfo}

theorem eventId_of_isExist (hkind : kind ≠ .streamProperty)
    (h : (block getBundleInfo bean kind).isExist e = true) : e.eventId = kind.eventId := by
  cases kind with
  | streamProperty => exact absurd rfl hkind
  | silentPlayback =>
    simp only [block, silentPlaybackStats, Bool.and_eq_true, beq_iff_eq] at h
    exact h.1.1
  | _ => exact (isExist_iff.mp h).1

/-- Seven of the nine kinds accept exactly the entries with the call's key. -/
theorem isExist_iff_key (husage : kind ≠ .streamUsage)
    (hproperty : kind ≠ .streamProperty) (he : Built e) :
    (block getBundleInfo bean kind).isExist e = true ↔
      aggregationKey e = aggregationKey (block getBundleInfo bean kind).newBean := by
  obtain ⟨getBundleInfo', bean', kind', hkey⟩ := he.made
  have hid : e.eventId = kind'.eventId :=
    (congrArg EventBean.eventId hkey).trans (callKey_eventId ..)
  by_cases hkind : kind' = kind
  · subst hkind
    cases kind' with
    | streamUsage => exact absurd rfl husage
    | streamProperty => exact absurd rfl hproperty
    | silentPlayback => exact silentPlaybackStats_iff hkey
    | createError | underrun => exact timesStats_iff (by decide) hkey
    | _ => exact durationStats_iff (by decide) hkey
  · -- an entry of another kind has another event id
    constructor
    · intro h
      exact absurd (Kind.eventId_inj (hid.symm.trans (eventId_of_isExist hproperty h))) hkind
    · intro h
      have hid' := (congrArg EventBean.eventId h).trans (callKey_eventId getBundleInfo bean kind)
      exact absurd (Kind.eventId_inj (hid.symm.trans hid')) hkind

theorem isExist_iff_key_streamUsage (he : Built e) :
    (streamUsageStats bean).isExist e = true ∧ e.getIntValue .UID = bean.getIntValue .UID ∧
        e.getIntValue .EFFECT_CHAIN = bean.getIntValue .EFFECT_CHAIN ↔
      aggregationKey e = aggregationKey (streamUsageStats bean).newBean := by
  obtain ⟨getBundleInfo', bean', kind', hkey⟩ := he.made
  have hid : e.eventId = kind'.eventId :=
    (congrArg EventBean.eventId hkey).trans (callKey_eventId ..)
  by_cases hkind : kind' = .streamUsage
  · subst hkind
    exact streamUsageStats_iff hkey
  · constructor
    · rintro ⟨h, -, -⟩
      exact absurd (Kind.eventId_inj (b := .streamUsage) (hid.symm.trans (isExist_iff.mp h).1)) hkind
    · intro h
      have hid' : e.eventId = .STREAM_UTILIZATION_STATS := congrArg EventBean.eventId h
      exact absurd (Kind.eventId_inj (b := .streamUsage) (hid.symm.trans hid')) hkind

end Selection

-- When a call adds to the entry of its key

/-- The entry accepted by a stream usage is of the same user and effect chain; a stream
property finds neither a stream usage that it would add to nor an entry of its own key. -/
def AddsToOwnKey (eventVector : List EventBean) (bean : EventBean) : Kind → Prop
  | .streamUsage => ∀ e ∈ eventVector, (streamUsageStats bean).isExist e = true →
      e.getIntValue .UID = bean.getIntValue .UID ∧
        e.getIntValue .EFFECT_CHAIN = bean.getIntValue .EFFECT_CHAIN
  | .streamProperty => ∀ e ∈ eventVector, (streamPropertyStats bean).isExist e = false ∧
      aggregationKey e ≠ aggregationKey (streamPropertyStats bean).newBean
  | _ => True

theorem fitting_block {eventVector : List EventBean} {bean : EventBean}
    (getBundleInfo : Int32 → BundleInfo) (hbuilt : ∀ e ∈ eventVector, Built e)
    (hown : AddsToOwnKey eventVector bean kind) :
    Tally.Fitting aggregationKey (block getBundleInfo bean kind).isExist
      (block getBundleInfo bean kind).newBean eventVector := by
  by_cases husage : kind = .streamUsage
  · subst husage
    exact .of_iff fun e he => Iff.trans ⟨fun h => ⟨h, hown e he h⟩, And.left⟩
      (isExist_iff_key_streamUsage (hbuilt e he))
  by_cases hproperty : kind = .streamProperty
  · subst hproperty
    refine ⟨fun e he => ?_, fun _ e he => (hown e he).2⟩
    have hfalse := (hown e (List.mem_of_find?_eq_some he)).1
    rw [show (streamPropertyStats bean).isExist e = true from List.find?_some he] at hfalse
    cases hfalse
  · exact .of_iff fun e he => isExist_iff_key husage hproperty (hbuilt e he)

-- What a call adds

def Kind.duration : Kind → EventBean → Nat
  | .createError, _ => 0
  | .silentPlayback, _ => 0
  | .underrun, _ => 0
  | _, bean => MediaMonitor.duration bean

/-- The calls that a call counts as; five kinds do not count their calls. -/
def Kind.times : Kind → EventBean → Nat
  | .streamUsage, _ => 1
  | .createError, _ => 1
  | .silentPlayback, _ => 1
  | .underrun, _ => 1
  | _, _ => 0

/-- The counters of the entry have room for the call. -/
def HasRoom (e bean : EventBean) : Prop :=
  duration e + duration bean < 2 ^ 64 ∧ (e.getUint64Value .TIMES).toNat + 1 < 2 ^ 64 ∧
    (e.getIntValue .TIMES).toInt + 1 < 2 ^ 31

instance (e bean : EventBean) : Decidable (HasRoom e bean) :=
  inferInstanceAs (Decidable (_ ∧ _ ∧ _))

section Counting

variable {e bean : EventBean}

theorem duration_addDuration (h : (e.uint64Map .DURATION).isSome)
    (hroom : duration e + duration bean < 2 ^ 64) :
    duration (addDuration bean e) = duration e + duration bean := by
  unfold duration addDuration at *
  rw [EventBean.getUint64Value_updateUint64Map h, UInt64.toNat_add, Nat.mod_eq_of_lt hroom]

theorem times_addDuration (bean e : EventBean) : times (addDuration bean e) = times e := by
  show ((e.updateUint64Map .DURATION _).getUint64Value .TIMES).toNat + _ = _
  rw [EventBean.getUint64Value_updateUint64Map_of_ne (by decide)]
  rfl

/-- A counter below its largest value counts up by one. -/
theorem addTime_spec (hpresent : (e.intMap .TIMES).isSome)
    (hpos : ∀ n, e.intMap .TIMES = some n → 0 < n.toInt)
    (hroom : (e.getIntValue .TIMES).toInt + 1 < 2 ^ 31) :
    (∀ n, (addTime e).intMap .TIMES = some n → 0 < n.toInt) ∧ times (addTime e) = times e + 1 := by
  obtain ⟨n, hn⟩ := Option.isSome_iff_exists.mp hpresent
  have hget := EventBean.getIntValue_of_some hn
  have hnpos := hpos n hn
  rw [hget] at hroom
  have hmap : (addTime e).intMap .TIMES = some (n + 1) := by
    show e.intMap.assign .TIMES (e.getIntValue .TIMES + 1) .TIMES = _
    rw [KeyMap.assign_self, hn, hget]
    rfl
  have hval : (n + 1).toInt = n.toInt + 1 := by
    rw [Int32.toInt_add]
    show (n.toInt + 1).bmod (2 ^ 32) = _
    exact Int.bmod_eq_of_le (by omega) (by omega)
  constructor
  · intro m hm
    rw [hmap] at hm
    cases hm
    omega
  · show (e.getUint64Value .TIMES).toNat + ((addTime e).getIntValue .TIMES).toInt.toNat =
      (e.getUint64Value .TIMES).toNat + (e.getIntValue .TIMES).toInt.toNat + 1
    rw [EventBean.getIntValue_of_some hmap, hget, hval]
    omega

theorem streamUsage_update_spec (hduration : (e.uint64Map .DURATION).isSome)
    (htimes : (e.uint64Map .TIMES).isSome) (hroom : HasRoom e bean) :
    duration ((streamUsageStats bean).update e) = duration e + duration bean ∧
      times ((streamUsageStats bean).update e) = times e + 1 := by
  have hsame : (addDuration bean e).uint64Map .TIMES = e.uint64Map .TIMES := by
    simp only [addDuration, EventBean.updateUint64Map]
    exact KeyMap.assign_of_ne _ _ (show Key.TIMES ≠ .DURATION by decide)
  have hget : (addDuration bean e).getUint64Value .TIMES = e.getUint64Value .TIMES :=
    EventBean.getUint64Value_updateUint64Map_of_ne (by decide) _
  constructor
  · show (((addDuration bean e).updateUint64Map .TIMES _).getUint64Value .DURATION).toNat = _
    rw [EventBean.getUint64Value_updateUint64Map_of_ne (by decide)]
    exact duration_addDuration hduration hroom.1
  · show (((addDuration bean e).updateUint64Map .TIMES _).getUint64Value .TIMES).toNat + _ = _
    rw [EventBean.getUint64Value_updateUint64Map (hsame ▸ htimes), hget, UInt64.toNat_add]
    show ((e.getUint64Value .TIMES).toNat + 1) % 2 ^ 64 + (e.getIntValue .TIMES).toInt.toNat =
      (e.getUint64Value .TIMES).toNat + (e.getIntValue .TIMES).toInt.toNat + 1
    rw [Nat.mod_eq_of_lt hroom.2.1]
    omega

variable (getBundleInfo : Int32 → BundleInfo) (bean)

theorem aggregationKey_update (e : EventBean) (kind : Kind) :
    aggregationKey ((block getBundleInfo bean kind).update e) = aggregationKey e := by
  have hduration : aggregationKey (addDuration bean e) = aggregationKey e :=
    aggregationKey_updateUint64Map (.inl rfl) _ _
  cases kind with
  | streamUsage => exact (aggregationKey_updateUint64Map (.inr rfl) _ _).trans hduration
  | createError | silentPlayback | underrun => exact aggregationKey_updateIntMap _ _
  | _ => exact hduration

theorem duration_newBean (kind : Kind) :
    duration (block getBundleInfo bean kind).newBean = kind.duration bean := by
  cases kind <;> rfl

theorem times_newBean (kind : Kind) :
    times (block getBundleInfo bean kind).newBean = kind.times bean := by
  cases kind <;> rfl

theorem built_newBean (kind : Kind) : Built (block getBundleInfo bean kind).newBean := by
  refine ⟨⟨getBundleInfo, bean, kind, rfl⟩, ?_⟩
  have hcount : (block getBundleInfo bean kind).newBean.intMap .TIMES = none ∨
      (block getBundleInfo bean kind).newBean.intMap .TIMES = some INITIAL_VALUE := by
    cases kind <;> first | exact .inl rfl | exact .inr rfl
  intro n hn
  rcases hcount with hnone | hone
  · rw [hnone] at hn
    cases hn
  · rw [hone] at hn
    cases hn
    decide

variable {getBundleInfo bean}

theorem update_spec (he : Built e)
    (hkey : aggregationKey e = aggregationKey (block getBundleInfo bean kind).newBean)
    (hroom : HasRoom e bean) :
    Built ((block getBundleInfo bean kind).update e) ∧
      duration ((block getBundleInfo bean kind).update e) = duration e + kind.duration bean ∧
      times ((block getBundleInfo bean kind).update e) = times e + kind.times bean := by
  have hmade : ∃ g b k, aggregationKey ((block getBundleInfo bean kind).update e) = callKey g b k :=
    ⟨getBundleInfo, bean, kind, (aggregationKey_update bean getBundleInfo e kind).trans hkey⟩
  -- the counters of the entry are those its kind starts with
  have hduration := isSome_uint64Map_of_key hkey .DURATION
  have htimes := isSome_uint64Map_of_key hkey .TIMES
  have hcount := isSome_intMap_of_key hkey .TIMES
  cases kind with
  | streamUsage => exact ⟨⟨hmade, he.counted⟩, streamUsage_update_spec hduration htimes hroom⟩
  | createError | silentPlayback | underrun =>
    obtain ⟨hpos, hadd⟩ := addTime_spec hcount he.counted hroom.2.2
    exact ⟨⟨hmade, hpos⟩, rfl, hadd⟩
  | _ =>
    exact ⟨⟨hmade, he.counted⟩, duration_addDuration hduration hroom.1, times_addDuration bean e⟩

end Counting

-- What is written

/-- The number written under a name. -/
def HiSysEvent.count (key : Key) (event : HiSysEvent) : Nat :=
  match event.params.lookup key with
  | some (.uint32 n) => n.toNat
  | some (.uint64 n) => n.toNat
  | _ => 0

/-- The counters of the entry fit the width they are written with. -/
def FitsRecord (e : EventBean) : Prop :=
  (e.eventId = .AUDIO_DEVICE_UTILIZATION_STATS ∨ duration e < 2 ^ 32) ∧ times e < 2 ^ 32

instance (e : EventBean) : Decidable (FitsRecord e) :=
  inferInstanceAs (Decidable (_ ∧ _))

section Writing

variable {e : EventBean}

theorem getUint64Value_absent (h : (e.uint64Map key).isSome = false) :
    (e.getUint64Value key).toNat = 0 := by
  rw [Option.isSome_eq_false_iff, Option.isNone_iff_eq_none] at h
  unfold EventBean.getUint64Value
  rw [h]
  rfl

theorem getIntValue_absent (h : (e.intMap key).isSome = false) :
    (e.getIntValue key).toInt.toNat = 0 := by
  rw [Option.isSome_eq_false_iff, Option.isNone_iff_eq_none] at h
  unfold EventBean.getIntValue
  rw [h]
  rfl

theorem toNat_toUInt32 {n : UInt64} (h : n.toNat < 2 ^ 32) : n.toUInt32.toNat = n.toNat := by
  rw [UInt64.toNat_toUInt32, Nat.mod_eq_of_lt h]

/-- A positive 32-bit count is written as it is. -/
theorem toNat_toUInt32_of_pos {n : Int32} (h : 0 < n.toInt) :
    n.toUInt32.toNat = n.toInt.toNat :=
  Int32.toNat_toUInt32_of_le (Int32.le_iff_toInt_le.mpr (Int.le_of_lt h))

/-- The record of an entry carries what the entry has counted. -/
theorem writeEvent_spec (he : Built e) (hfits : FitsRecord e)
    (getBundleInfo : Int32 → BundleInfo) :
    ∃ event, writeEvent e getBundleInfo e.eventId = some event ∧
      event.count .DURATION = duration e ∧ event.count .TIMES = times e := by
  obtain ⟨g, b, kind, hkey⟩ := he.made
  have hid : e.eventId = kind.eventId :=
    (congrArg EventBean.eventId hkey).trans (callKey_eventId g b kind)
  have htype : e.eventType = .FREQUENCY_AGGREGATION_EVENT ∨
      e.eventType = .DURATION_AGGREGATION_EVENT := by
    have hsame : e.eventType = (callKey g b kind).eventType := (congrArg EventBean.eventType hkey :)
    rw [hsame]
    cases kind <;> first | exact .inl rfl | exact .inr rfl
  have hwrite : writeEvent e getBundleInfo e.eventId =
      writeAggregationEvent e getBundleInfo kind.eventId := by
    unfold writeEvent
    rw [hid]
    rcases htype with h | h <;> rw [h]
  have hduration := isSome_uint64Map_of_key hkey .DURATION
  have htimes := isSome_uint64Map_of_key hkey .TIMES
  have hcount := isSome_intMap_of_key hkey .TIMES
  obtain ⟨hfitsD, hfitsT⟩ := hfits
  rw [hid] at hfitsD
  rw [hwrite]
  -- a kind that only adds up durations
  have hnone : (e.uint64Map .TIMES).isSome = false → (e.intMap .TIMES).isSome = false →
      0 = times e := fun hu hi => by
    unfold times
    rw [getUint64Value_absent hu, getIntValue_absent hi]
  -- a kind that counts its calls with 32 bits
  have hint : (e.uint64Map .TIMES).isSome = false → (e.intMap .TIMES).isSome = true →
      (e.getIntValue .TIMES).toUInt32.toNat = times e := fun hu hi => by
    obtain ⟨n, hn⟩ := Option.isSome_iff_exists.mp hi
    unfold times
    rw [getUint64Value_absent hu, EventBean.getIntValue_of_some hn, Nat.zero_add]
    exact toNat_toUInt32_of_pos (he.counted n hn)
  cases kind with
  | deviceUsage => exact ⟨_, rfl, rfl, hnone htimes hcount⟩
  | streamUsage =>
    refine ⟨_, rfl, toNat_toUInt32 (hfitsD.resolve_left EventId.noConfusion), ?_⟩
    unfold times at hfitsT ⊢
    rw [getIntValue_absent hcount, Nat.add_zero] at hfitsT ⊢
    exact toNat_toUInt32 hfitsT
  | createError => exact ⟨_, rfl, (getUint64Value_absent hduration).symm, hint htimes hcount⟩
  | silentPlayback => exact ⟨_, rfl, (getUint64Value_absent hduration).symm, hint htimes hcount⟩
  | underrun => exact ⟨_, rfl, (getUint64Value_absent hduration).symm, hint htimes hcount⟩
  | _ =>
    exact ⟨_, rfl, toNat_toUInt32 (hfitsD.resolve_left EventId.noConfusion), hnone htimes hcount⟩

end Writing

-- Runs

def contribution (amount : Kind → EventBean → Nat) (k : EventBean) : Label → Nat
  | .hand kind (some bean) getBundleInfo =>
    if callKey getBundleInfo bean kind = k then amount kind bean else 0
  | _ => 0

def handedIn (amount : Kind → EventBean → Nat) (k : EventBean) (ls : List Label) : Nat :=
  (ls.map (contribution amount k)).sum

def pending (s : State) : List EventBean := s.eventVector ++ s.taken.flatten

def pendingTotal (val : EventBean → Nat) (k : EventBean) (s : State) : Nat :=
  Tally.total aggregationKey val k (pending s)

def writtenTotal (name : Key) (k : EventBean) (s : State) : Nat :=
  Tally.total (fun w => aggregationKey w.1) (fun w => (w.2.map (HiSysEvent.count name)).getD 0) k
    s.written

/-- At most one entry for each kind and key, and nothing handed in is lost or counted twice. -/
structure Aggregates (ls : List Label) (s : State) : Prop where
  unique : (s.eventVector.map aggregationKey).Nodup
  durations : ∀ k, writtenTotal .DURATION k s + pendingTotal duration k s =
    handedIn Kind.duration k ls
  times : ∀ k, writtenTotal .TIMES k s + pendingTotal MediaMonitor.times k s =
    handedIn Kind.times k ls

/-- A call adds to the entry of its key, whose counters have room for it, and an entry is
written with counters that fit the record. -/
def AddsUp (s : State) : Label → Prop
  | .hand kind (some bean) getBundleInfo =>
    AddsToOwnKey s.eventVector bean kind ∧
      ∀ e, s.eventVector.find? (block getBundleInfo bean kind).isExist = some e → HasRoom e bean
  | .write i _ => ∀ e rest, s.taken[i]? = some (e :: rest) → FitsRecord e
  | _ => True

/-- What holds between the steps of a run whose steps all add up. -/
structure Collected (s : State) : Prop where
  built : ∀ e ∈ pending s, Built e
  unique : (s.eventVector.map aggregationKey).Nodup

section Steps

variable {s t : State}

structure Grows (s t : State) (l : Label) : Prop where
  collected : Collected t
  durations : ∀ k, writtenTotal .DURATION k t + pendingTotal duration k t =
    writtenTotal .DURATION k s + pendingTotal duration k s + contribution Kind.duration k l
  times : ∀ k, writtenTotal .TIMES k t + pendingTotal times k t =
    writtenTotal .TIMES k s + pendingTotal times k s + contribution Kind.times k l

theorem grows_hand (hc : Collected s) {bean : EventBean}
    {getBundleInfo : Int32 → BundleInfo}
    (hgood : AddsUp s (.hand kind (some bean) getBundleInfo)) :
    Grows s { s with eventVector := (block getBundleInfo bean kind).perform s.eventVector }
      (.hand kind (some bean) getBundleInfo) := by
  have hbuilt : ∀ e ∈ s.eventVector, Built e := fun e he =>
    hc.built e (List.mem_append_left _ he)
  have hfit := fitting_block getBundleInfo hbuilt hgood.1
  have hspec : ∀ e, s.eventVector.find? (block getBundleInfo bean kind).isExist = some e →
      _ := fun e he =>
    update_spec (hbuilt e (List.mem_of_find?_eq_some he)) (hfit.hit e he) (hgood.2 e he)
  have hkey := fun e => aggregationKey_update bean getBundleInfo e kind
  have htotal : ∀ (val : EventBean → Nat) (amount : Kind → EventBean → Nat) (name : Key),
      val (block getBundleInfo bean kind).newBean = amount kind bean →
      (∀ e, s.eventVector.find? (block getBundleInfo bean kind).isExist = some e →
        val ((block getBundleInfo bean kind).update e) = val e + amount kind bean) →
      ∀ k, writtenTotal name k s + Tally.total aggregationKey val k
          ((block getBundleInfo bean kind).perform s.eventVector ++ s.taken.flatten) =
        writtenTotal name k s + pendingTotal val k s +
          contribution amount k (.hand kind (some bean) getBundleInfo) := by
    intro val amount name hnew hup k
    unfold FindOrCreate.perform pendingTotal pending contribution
    rw [Tally.total_append, Tally.total_append, Tally.total_upsert hkey hfit hnew hup]
    show _ = _ + if aggregationKey (block getBundleInfo bean kind).newBean = k then _ else 0
    omega
  refine ⟨⟨?_, Tally.nodup_upsert hkey hfit hc.unique⟩,
    htotal duration Kind.duration .DURATION (duration_newBean bean getBundleInfo kind)
      fun e he => (hspec e he).2.1,
    htotal times Kind.times .TIMES (times_newBean bean getBundleInfo kind)
      fun e he => (hspec e he).2.2⟩
  intro e he
  rcases List.mem_append.mp he with he | he
  · exact Tally.forall_upsert (built_newBean bean getBundleInfo kind)
      (fun e he _ => (hspec e he).1) hbuilt e he
  · exact hc.built e (List.mem_append_right _ he)

theorem grows_take (hc : Collected s) :
    Grows s { s with eventVector := [], taken := s.taken ++ [s.eventVector] } .take := by
  have hpending : ∀ val k, pendingTotal val k
      { s with eventVector := [], taken := s.taken ++ [s.eventVector] } = pendingTotal val k s := by
    intro val k
    unfold pendingTotal pending
    rw [List.nil_append, List.flatten_append, List.flatten_singleton, Tally.total_append,
      Tally.total_append, Nat.add_comm]
  refine ⟨⟨fun e he => hc.built e ?_, List.nodup_nil⟩, fun k => ?_, fun k => ?_⟩
  · simp only [pending, List.nil_append, List.flatten_append, List.flatten_singleton,
      List.mem_append] at he ⊢
    exact he.symm
  · rw [hpending]
    rfl
  · rw [hpending]
    rfl

theorem grows_write (hc : Collected s) {i : Nat} {desc : EventBean} {rest : List EventBean}
    (hi : s.taken[i]? = some (desc :: rest)) (hfits : FitsRecord desc)
    (getBundleInfo : Int32 → BundleInfo) :
    Grows s { s with
      taken := s.taken.set i rest
      written := s.written ++ [(desc, writeEvent desc getBundleInfo desc.eventId)] }
      (.write i getBundleInfo) := by
  have hmem : desc ∈ pending s := List.mem_append_right _
    (List.mem_flatten.mpr ⟨_, List.mem_of_getElem? hi, List.mem_cons_self ..⟩)
  obtain ⟨event, hevent, hduration, htimes⟩ := writeEvent_spec (hc.built desc hmem) hfits getBundleInfo
  have htotal : ∀ (val : EventBean → Nat) (name : Key), event.count name = val desc → ∀ k,
      writtenTotal name k { s with
          taken := s.taken.set i rest
          written := s.written ++ [(desc, writeEvent desc getBundleInfo desc.eventId)] } +
        pendingTotal val k { s with
          taken := s.taken.set i rest
          written := s.written ++ [(desc, writeEvent desc getBundleInfo desc.eventId)] } =
        writtenTotal name k s + pendingTotal val k s := by
    intro val name hcount k
    unfold writtenTotal pendingTotal pending
    rw [Tally.total_append, Tally.total_append, Tally.total_append, Tally.total_cons,
      Tally.total_nil, Tally.total_flatten_set hi, hevent]
    show _ + ((if aggregationKey desc = k then event.count name else 0) + 0) +
      (Tally.total aggregationKey val k s.eventVector +
        Tally.total aggregationKey val k (s.taken.set i rest).flatten) = _
    rw [hcount]
    omega
  refine ⟨⟨fun e he => hc.built e ?_, hc.unique⟩, htotal duration .DURATION hduration,
    htotal times .TIMES htimes⟩
  rcases List.mem_append.mp he with he | he
  · exact List.mem_append_left _ he
  · obtain ⟨v, hv, he⟩ := List.mem_flatten.mp he
    refine List.mem_append_right _ (List.mem_flatten.mpr ?_)
    rcases List.mem_or_eq_of_mem_set hv with hv | hv
    · exact ⟨v, hv, he⟩
    · rw [hv] at he
      exact ⟨_, List.mem_of_getElem? hi, List.mem_cons_of_mem _ he⟩

theorem grows_step {l : Label} (hc : Collected s) (hgood : AddsUp s l) (hs : step s l = some t) :
    Grows s t l := by
  cases l with
  | hand kind bean getBundleInfo =>
    obtain ⟨v, hv, rfl⟩ := Option.map_eq_some_iff.mp hs
    cases bean with
    | none =>
      rw [hand_none hv]
      exact ⟨hc, fun _ => rfl, fun _ => rfl⟩
    | some bean =>
      rw [hand_some] at hv
      cases hv
      exact grows_hand hc hgood
  | take =>
    cases hs
    exact grows_take hc
  | write i getBundleInfo =>
    simp only [step] at hs
    split at hs
    case h_1 desc rest hi =>
      cases hs
      exact grows_write hc hi (hgood desc rest hi) getBundleInfo
    case h_2 => cases hs

end Steps

theorem grows_run {s t : State} {ls : List Label} (hc : Collected s) (hgood : Along step AddsUp s ls)
    (hrun : run step s ls = some t) :
    Collected t ∧
      (∀ k, writtenTotal .DURATION k t + pendingTotal duration k t =
        writtenTotal .DURATION k s + pendingTotal duration k s + handedIn Kind.duration k ls) ∧
      ∀ k, writtenTotal .TIMES k t + pendingTotal times k t =
        writtenTotal .TIMES k s + pendingTotal times k s + handedIn Kind.times k ls := by
  induction ls generalizing s with
  | nil =>
    cases hrun
    exact ⟨hc, fun _ => rfl, fun _ => rfl⟩
  | cons l ls ih =>
    obtain ⟨u, hu, hrun⟩ := run_cons_some.mp hrun
    obtain ⟨hcu, hduration, htimes⟩ := grows_step hc hgood.1 hu
    obtain ⟨hct, hdurations, htimess⟩ := ih hcu (along_tail hgood hu) hrun
    refine ⟨hct, fun k => ?_, fun k => ?_⟩
    · rw [hdurations, hduration]
      show _ = _ + (contribution Kind.duration k l + handedIn Kind.duration k ls)
      omega
    · rw [htimess, htimes]
      show _ = _ + (contribution Kind.times k l + handedIn Kind.times k ls)
      omega

/-- Whatever the threads do, as long as each call adds to the entry of its own key and no
counter is cut: one entry for each kind and key, and every duration and every call is either
written or pending. -/
theorem aggregates_run {ls : List Label} {s : State} (hrun : run step {} ls = some s)
    (hgood : Along step AddsUp {} ls) : Aggregates ls s := by
  have hstart : Collected {} := ⟨by simp [pending], List.nodup_nil⟩
  obtain ⟨hc, hdurations, htimes⟩ := grows_run hstart hgood hrun
  refine ⟨hc.unique, fun k => ?_, fun k => ?_⟩
  · rw [hdurations]
    exact Nat.zero_add _
  · rw [htimes]
    exact Nat.zero_add _

def exampleUsage : EventBean where
  intMap := fun key => if key = .DEVICE_TYPE then some 2 else none
  uint64Map := fun key => if key = .DURATION then some 40 else none

def exampleRun : List Label :=
  [.hand .deviceUsage (some exampleUsage) fun _ => ⟨"", 0⟩,
    .hand .deviceUsage (some exampleUsage) fun _ => ⟨"", 0⟩, .take, .write 0 fun _ => ⟨"", 0⟩]

theorem aggregates_run_exampleRun : ∃ s, run step {} exampleRun = some s ∧ Aggregates exampleRun s ∧
    handedIn Kind.duration (callKey (fun _ => ⟨"", 0⟩) exampleUsage .deviceUsage) exampleRun =
      80 := by
  refine ⟨_, rfl, aggregates_run rfl ⟨⟨trivial, ?_⟩, ⟨trivial, ?_⟩, trivial, ?_, trivial⟩, ?_⟩
  · intro e he
    cases he
  · intro e he
    cases he
    decide
  · intro e rest he
    obtain ⟨rfl, -⟩ := List.cons.inj (Option.some.inj he)
    decide
  · decide +kernel

def exampleProperty : EventBean where
  uint64Map := fun key => if key = .DURATION then some 10 else none

/-- The stream property never finds the entry it added before. -/
theorem property_aggregated_twice :
    ¬ ∀ ls s, run step {} ls = some s → Aggregates ls s := by
  intro h
  have hunique := (h [.hand .streamProperty (some exampleProperty) fun _ => ⟨"", 0⟩,
    .hand .streamProperty (some exampleProperty) fun _ => ⟨"", 0⟩] _ rfl).unique
  exact (List.nodup_cons.mp hunique).1 (List.mem_singleton.mpr rfl)

end MediaFoundation.MediaMonitor
