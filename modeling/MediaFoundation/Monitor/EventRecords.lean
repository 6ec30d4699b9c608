import MediaFoundation.Lib.Runs
import MediaFoundation.Monitor.EventParcel

/-!
# Events that are recorded once

The three functions of `media_monitor_policy.cpp` that drop an event which was recorded before, and
the distributed devices of `audio_memo.cpp`. What was recorded is known by a text in which the
fields of the event stand without anything between them.

Conventions:

* A null bean is dropped at once, and is left out. The name of an application is what the system
  answers, if it does.
* Beside the state of the code stands what it is about: the fields of the recorded events, and the
  pairs of network and pin whose last update since the last stop was an addition.
-/

namespace MediaFoundation.EventRecords

open Std (ExtTreeMap)
open EventParcel (EventBean)

-- MediaMonitorPolicy

structure MediaMonitorPolicy where
  cachedBundleInfoMap_ : Int32 → Option String := fun _ => none
  volumeApiInvokeRecordSet_ : Finset String := ∅
  volumeApiInvokeEventQueue_ : List EventBean := []
  callSessionHapSet_ : Finset String := ∅
  audioInterruptErrorSet_ : Finset String := ∅

def volumeApiInvokeRecordSetSize_ : Int32 := 20 * 30 * 12
def volumeApiInvokeOnceEvent_ : Nat := 20
def callSessionHapSetSize_ : UInt32 := 100 * 100
def audioInterruptErrorSetSize_ : UInt32 := 100 * 100

def decimal (n : Int32) : String := toString n.toInt

/-- `APP_NAME`, `FUNC_NAME` and `PARAM_VALUE`. -/
abbrev VolumeFields := String × String × Int32

/-- `APP_NAME` and `SYSTEMHAP_SET_FOCUSSTRATEGY`. -/
abbrev CallFields := String × Int32

/-- `APP_NAME` and `ERROR_INFO`. -/
abbrev InterruptFields := String × String

def volumeFields (bean : EventBean) : VolumeFields :=
  (bean.getStringValue "APP_NAME", bean.getStringValue "FUNC_NAME", bean.getIntValue "PARAM_VALUE")

def callFields (bean : EventBean) : CallFields :=
  (bean.getStringValue "APP_NAME", bean.getIntValue "SYSTEMHAP_SET_FOCUSSTRATEGY")

def interruptFields (bean : EventBean) : InterruptFields :=
  (bean.getStringValue "APP_NAME", bean.getStringValue "ERROR_INFO")

def volumeKey (fields : VolumeFields) : String := fields.1 ++ fields.2.1 ++ decimal fields.2.2
def callKey (fields : CallFields) : String := fields.1 ++ decimal fields.2
def interruptKey (fields : InterruptFields) : String := fields.1 ++ fields.2

/-- What the three functions do under their locks: the key is put in the set, if it is not there
and the set has room. -/
def record (seen : Finset String) (room : Bool) (key : String) : Option (Finset String) :=
  if key ∉ seen ∧ room then some (insert key seen) else none

namespace MediaMonitorPolicy

variable (p : MediaMonitorPolicy) (bean : EventBean)

/-- `GetBundleInfo`; `answer` is the name that the system gives to the user id. -/
def getBundleInfo (appUid : Int32) (answer : Option String) : String × MediaMonitorPolicy :=
  match p.cachedBundleInfoMap_ appUid with
  | some name => (name, p)
  | none => match answer with
    | none => ("uid:" ++ decimal appUid, p)
    | some name =>
      (name,
        { p with cachedBundleInfoMap_ := Function.update p.cachedBundleInfoMap_ appUid name })

def setAppNameToEventVector (key : String) (answer : Option String) :
    EventBean × MediaMonitorPolicy :=
  let (appName, p) := p.getBundleInfo (bean.getIntValue key) answer
  (bean.addString "APP_NAME" appName, p)

def addToVolumeApiInvokeQueue (answer : Option String) : Option EventBean × MediaMonitorPolicy :=
  let (bean, p) := p.setAppNameToEventVector bean "CLIENT_UID" answer
  let seen := p.volumeApiInvokeRecordSet_
  match record seen (Int32.ofNat seen.card ≤ volumeApiInvokeRecordSetSize_)
    (volumeKey (volumeFields bean)) with
  | some seen =>
    (some bean,
      { p with
        volumeApiInvokeRecordSet_ := seen
        volumeApiInvokeEventQueue_ := p.volumeApiInvokeEventQueue_ ++ [bean] })
  | none => (none, p)

def handleToVolumeApiInvokeEvent : List EventBean × MediaMonitorPolicy :=
  (p.volumeApiInvokeEventQueue_.take volumeApiInvokeOnceEvent_,
    { p with
      volumeApiInvokeEventQueue_ := p.volumeApiInvokeEventQueue_.drop volumeApiInvokeOnceEvent_ })

def addToCallSessionQueue (answer : Option String) : Option EventBean × MediaMonitorPolicy :=
  let (bean, p) := p.setAppNameToEventVector bean "CLIENT_UID" answer
  let seen := p.callSessionHapSet_
  match record seen (seen.card < callSessionHapSetSize_.toNat) (callKey (callFields bean)) with
  | some seen => (some bean, { p with callSessionHapSet_ := seen })
  | none => (none, p)

/-- Likewise; the name of the application is the one in the bean. -/
def addAudioInterruptErrorEvent : Option EventBean × MediaMonitorPolicy :=
  let seen := p.audioInterruptErrorSet_
  match record seen (seen.card < audioInterruptErrorSetSize_.toNat)
    (interruptKey (interruptFields bean)) with
  | some seen => (some bean, { p with audioInterruptErrorSet_ := seen })
  | none => (none, p)

end MediaMonitorPolicy

-- AudioMemo

structure AudioMemo where
  distributedDeviceInfos_ : ExtTreeMap String String := ∅

def serviceStatusStop : Int32 := 2
def isAdded : Int32 := 1

/-- `NETWORK_ID` and `HDI_PIN`. -/
abbrev Device := String × Int32

def device (bean : EventBean) : Device :=
  (bean.getStringValue "NETWORK_ID", bean.getIntValue "HDI_PIN")

def deviceKey (d : Device) : String := d.1 ++ decimal d.2

namespace AudioMemo

variable (m : AudioMemo)

def updateDistributedDeviceInfo (bean : EventBean) : AudioMemo :=
  if bean.getIntValue "SERVICE_STATUS" = serviceStatusStop then { distributedDeviceInfos_ := ∅ }
  else
    let key := deviceKey (device bean)
    if bean.getIntValue "IS_ADD" = isAdded then
      { distributedDeviceInfos_ :=
          m.distributedDeviceInfos_.insert key (bean.getStringValue "ORIGINAL_INFO") }
    else { distributedDeviceInfos_ := m.distributedDeviceInfos_.erase key }

def getDistributedDeviceInfo : List String := m.distributedDeviceInfos_.toList.map Prod.snd

end AudioMemo

-- Runs

inductive Event where
  | addToVolumeApiInvokeQueue (bean : EventBean) (answer : Option String)
  | handleToVolumeApiInvokeEvent
  | addToCallSessionQueue (bean : EventBean) (answer : Option String)
  | addAudioInterruptErrorEvent (bean : EventBean)
  | updateDistributedDeviceInfo (bean : EventBean)

structure System where
  policy : MediaMonitorPolicy := {}
  memo : AudioMemo := {}
  volumes : List VolumeFields := []
  calls : List CallFields := []
  interrupts : List InterruptFields := []
  /-- The devices whose last update since the last stop was an addition, with their infos. -/
  devices : List (Device × String) := []

def updatedDevices (devices : List (Device × String)) (bean : EventBean) :
    List (Device × String) :=
  if bean.getIntValue "SERVICE_STATUS" = serviceStatusStop then []
  else
    let others := devices.filter fun e => e.1 ≠ device bean
    if bean.getIntValue "IS_ADD" = isAdded then
      others ++ [(device bean, bean.getStringValue "ORIGINAL_INFO")]
    else others

def step (s : System) : Event → Option System
  | .addToVolumeApiInvokeQueue bean answer =>
    let (reported, policy) := s.policy.addToVolumeApiInvokeQueue bean answer
    some { s with policy, volumes := s.volumes ++ (reported.map volumeFields).toList }
  | .handleToVolumeApiInvokeEvent =>
    some { s with policy := s.policy.handleToVolumeApiInvokeEvent.2 }
  | .addToCallSessionQueue bean answer =>
    let (reported, policy) := s.policy.addToCallSessionQueue bean answer
    some { s with policy, calls := s.calls ++ (reported.map callFields).toList }
  | .addAudioInterruptErrorEvent bean =>
    let (reported, policy) := s.policy.addAudioInterruptErrorEvent bean
    some { s with policy, interrupts := s.interrupts ++ (reported.map interruptFields).toList }
  | .updateDistributedDeviceInfo bean =>
    some { s with
      memo := s.memo.updateDistributedDeviceInfo bean
      devices := updatedDevices s.devices bean }

def ToReport {τ : Type} [DecidableEq τ] (recorded : List τ) (max : Nat) (fields : τ) : Prop :=
  fields ∉ recorded ∧ recorded.toFinset.card < max

/-- An event is reported exactly when it is to be; and an update leaves the infos of the devices
that are there. -/
def Right (s : System) : Event → Prop
  | .addToVolumeApiInvokeQueue bean answer =>
    (s.policy.addToVolumeApiInvokeQueue bean answer).1.isSome ↔
      ToReport s.volumes volumeApiInvokeRecordSetSize_.toNatClampNeg
        (volumeFields (s.policy.setAppNameToEventVector bean "CLIENT_UID" answer).1)
  | .handleToVolumeApiInvokeEvent => True
  | .addToCallSessionQueue bean answer =>
    (s.policy.addToCallSessionQueue bean answer).1.isSome ↔
      ToReport s.calls callSessionHapSetSize_.toNat
        (callFields (s.policy.setAppNameToEventVector bean "CLIENT_UID" answer).1)
  | .addAudioInterruptErrorEvent bean =>
    (s.policy.addAudioInterruptErrorEvent bean).1.isSome ↔
      ToReport s.interrupts audioInterruptErrorSetSize_.toNat (interruptFields bean)
  | .updateDistributedDeviceInfo bean =>
    (s.memo.updateDistributedDeviceInfo bean).getDistributedDeviceInfo.Perm
      ((updatedDevices s.devices bean).map Prod.snd)

/-- While there is room, the text of a recorded event belongs to an event with the same fields. -/
def NoCollision {τ : Type} (key : τ → String) (recorded : List τ) (max : Nat) (fields : τ) : Prop :=
  recorded.length < max → key fields ∈ recorded.map key → fields ∈ recorded

/-- No text stands for two tuples or two devices; and when as many volume events are recorded as may
be, the text of the next one is among theirs. -/
def Fits (s : System) : Event → Prop
  | .addToVolumeApiInvokeQueue bean answer =>
    let fields := volumeFields (s.policy.setAppNameToEventVector bean "CLIENT_UID" answer).1
    let max := volumeApiInvokeRecordSetSize_.toNatClampNeg
    NoCollision volumeKey s.volumes max fields ∧
      (s.volumes.length = max → volumeKey fields ∈ s.volumes.map volumeKey)
  | .handleToVolumeApiInvokeEvent => True
  | .addToCallSessionQueue bean answer =>
    NoCollision callKey s.calls callSessionHapSetSize_.toNat
      (callFields (s.policy.setAppNameToEventVector bean "CLIENT_UID" answer).1)
  | .addAudioInterruptErrorEvent bean =>
    NoCollision interruptKey s.interrupts audioInterruptErrorSetSize_.toNat (interruptFields bean)
  | .updateDistributedDeviceInfo bean =>
    bean.getIntValue "SERVICE_STATUS" = serviceStatusStop ∨
      ∀ e ∈ s.devices, deviceKey e.1 = deviceKey (device bean) → e.1 = device bean

-- Recorded events

section Recorded

variable {τ : Type} [DecidableEq τ] {key : τ → String} {recorded : List τ} {seen : Finset String}
  {fields : τ} {max : Nat}

/-- The set has the texts of the recorded events, which are all different. -/
structure Tracks (key : τ → String) (recorded : List τ) (seen : Finset String) : Prop where
  seen_eq : seen = (recorded.map key).toFinset
  nodup : (recorded.map key).Nodup

omit [DecidableEq τ] in
theorem Tracks.mem_iff (h : Tracks key recorded seen) :
    key fields ∈ seen ↔ key fields ∈ recorded.map key := by
  rw [h.seen_eq, List.mem_toFinset]

omit [DecidableEq τ] in
theorem Tracks.card_seen (h : Tracks key recorded seen) : seen.card = recorded.length := by
  rw [h.seen_eq, List.toFinset_card_of_nodup h.nodup, List.length_map]

theorem Tracks.card_recorded (h : Tracks key recorded seen) :
    recorded.toFinset.card = recorded.length :=
  List.toFinset_card_of_nodup h.nodup.of_map

omit [DecidableEq τ] in
theorem Tracks.record (h : Tracks key recorded seen) {room : Bool} {seen' : Finset String}
    (hrecord : record seen room (key fields) = some seen') :
    Tracks key (recorded ++ [fields]) seen' := by
  unfold EventRecords.record at hrecord
  split at hrecord
  · next hnew =>
    cases hrecord
    rw [h.mem_iff] at hnew
    constructor
    · rw [List.map_append, List.toFinset_append, h.seen_eq, Finset.insert_eq, Finset.union_comm]
      rfl
    · rw [List.map_append, List.nodup_append_comm]
      exact List.nodup_cons.mpr ⟨hnew.1, h.nodup⟩
  · exact absurd hrecord nofun

omit [DecidableEq τ] in
theorem record_isSome_iff (seen : Finset String) (room : Bool) (key : String) :
    (record seen room key).isSome ↔ key ∉ seen ∧ room := by
  unfold EventRecords.record
  split
  · next h => exact ⟨fun _ => h, fun _ => rfl⟩
  · next h => exact ⟨fun hsome => absurd hsome nofun, fun hroom => absurd hroom h⟩

theorem room_of_record {seen seen' : Finset String} {room : Bool} {key : String}
    (h : record seen room key = some seen') : room = true := by
  have hsome : (record seen room key).isSome := by
    rw [h]
    rfl
  exact ((record_isSome_iff seen room key).mp hsome).2

/-- **With room for the maximum**, the text decides as the fields do if it does not collide. -/
theorem exact_iff (h : Tracks key recorded seen) :
    ((record seen (seen.card < max) (key fields)).isSome ↔ ToReport recorded max fields) ↔
      NoCollision key recorded max fields := by
  have hsame : fields ∈ recorded → key fields ∈ recorded.map key := List.mem_map_of_mem
  rw [record_isSome_iff, h.mem_iff, decide_eq_true_eq, h.card_seen, ToReport, h.card_recorded,
    NoCollision]
  tauto

/-- **With room for one more**, it also must be among the texts when the maximum is reached. -/
theorem loose_iff (h : Tracks key recorded seen) {room : Bool}
    (hroom : room = true ↔ recorded.length ≤ max) :
    ((record seen room (key fields)).isSome ↔ ToReport recorded max fields) ↔
      NoCollision key recorded max fields ∧
        (recorded.length = max → key fields ∈ recorded.map key) := by
  have hsame : fields ∈ recorded → key fields ∈ recorded.map key := List.mem_map_of_mem
  have hle : recorded.length ≤ max ↔ recorded.length < max ∨ recorded.length = max :=
    Nat.le_iff_lt_or_eq
  have hne : recorded.length = max → ¬ recorded.length < max := fun heq hlt => by omega
  rw [record_isSome_iff, h.mem_iff, hroom, hle, ToReport, h.card_recorded, NoCollision]
  tauto

end Recorded

-- Devices

section Devices

variable {map : ExtTreeMap String String} {devices : List (Device × String)} {bean : EventBean}
  {d : Device}

structure Mirrors (map : ExtTreeMap String String) (devices : List (Device × String)) : Prop where
  nodup : (devices.map fun e => deviceKey e.1).Nodup
  getElem?_iff : ∀ key info, map[key]? = some info ↔ ∃ e ∈ devices, deviceKey e.1 = key ∧ e.2 = info

theorem Mirrors.perm (h : Mirrors map devices) :
    map.toList.Perm (devices.map fun e => (deviceKey e.1, e.2)) := by
  have hlist : map.toList.Nodup :=
    ExtTreeMap.distinct_keys_toList.imp fun hne heq =>
      hne (Std.LawfulEqCmp.compare_eq_iff_eq.mpr (congrArg Prod.fst heq))
  have hdevices : (devices.map fun e => (deviceKey e.1, e.2)).Nodup := by
    refine List.Nodup.of_map Prod.fst ?_
    rw [List.map_map]
    exact h.nodup
  rw [List.perm_ext_iff_of_nodup hlist hdevices]
  rintro ⟨key, info⟩
  rw [ExtTreeMap.mem_toList_iff_getElem?_eq_some, h.getElem?_iff, List.mem_map]
  simp only [Prod.mk.injEq]

theorem Mirrors.infos_perm (h : Mirrors map devices) :
    (map.toList.map Prod.snd).Perm (devices.map Prod.snd) := by
  have hperm := h.perm.map Prod.snd
  rwa [List.map_map] at hperm

theorem Mirrors.size_eq (h : Mirrors map devices) : map.size = devices.length := by
  have hlength := h.infos_perm.length_eq
  rwa [List.length_map, List.length_map, ExtTreeMap.length_toList] at hlength

theorem mirrors_empty : Mirrors ∅ [] :=
  ⟨List.nodup_nil, fun key info => by simp⟩

/-- Two devices with one text are the same. -/
theorem Mirrors.eq_of_key (h : Mirrors map devices) {e e' : Device × String} (he : e ∈ devices)
    (he' : e' ∈ devices) (hkey : deviceKey e.1 = deviceKey e'.1) : e = e' :=
  List.inj_on_of_nodup_map h.nodup he he' hkey

/-- The update finds no other device under the text of its own. -/
def Alone (devices : List (Device × String)) (d : Device) : Prop :=
  ∀ e ∈ devices, deviceKey e.1 = deviceKey d → e.1 = d

theorem not_mem_others (h : Alone devices d) :
    deviceKey d ∉ (devices.filter fun e => e.1 ≠ d).map fun e => deviceKey e.1 := by
  intro hmem
  obtain ⟨e, he, hkey⟩ := List.mem_map.mp hmem
  obtain ⟨he, hne⟩ := List.mem_filter.mp he
  exact of_decide_eq_true hne (h e he hkey)

theorem Mirrors.erase (h : Mirrors map devices) (halone : Alone devices d) :
    Mirrors (map.erase (deviceKey d)) (devices.filter fun e => e.1 ≠ d) := by
  refine ⟨h.nodup.sublist (List.filter_sublist.map _), fun key info => ?_⟩
  rw [ExtTreeMap.getElem?_erase]
  simp only [Std.LawfulEqCmp.compare_eq_iff_eq]
  by_cases hkey : deviceKey d = key
  · rw [if_pos hkey]
    refine ⟨fun hnone => absurd hnone nofun, ?_⟩
    rintro ⟨e, he, hsame, -⟩
    exact absurd (List.mem_map.mpr ⟨e, he, hsame.trans hkey.symm⟩) (not_mem_others halone)
  · rw [if_neg hkey, h.getElem?_iff]
    constructor
    · rintro ⟨e, he, hsame, hinfo⟩
      refine ⟨e, List.mem_filter.mpr ⟨he, decide_eq_true fun heq => hkey ?_⟩, hsame, hinfo⟩
      rw [← heq, hsame]
    · rintro ⟨e, he, hsame, hinfo⟩
      exact ⟨e, List.mem_of_mem_filter he, hsame, hinfo⟩

theorem Mirrors.insert (h : Mirrors map devices) (halone : Alone devices d) (info : String) :
    Mirrors (map.insert (deviceKey d) info) ((devices.filter fun e => e.1 ≠ d) ++ [(d, info)]) := by
  have hothers := h.erase halone
  constructor
  · rw [List.map_append, List.nodup_append_comm]
    exact List.nodup_cons.mpr ⟨not_mem_others halone, hothers.nodup⟩
  · intro key info'
    have hrest := hothers.getElem?_iff key info'
    rw [ExtTreeMap.getElem?_erase] at hrest
    rw [ExtTreeMap.getElem?_insert]
    simp only [Std.LawfulEqCmp.compare_eq_iff_eq, List.mem_append, List.mem_singleton] at hrest ⊢
    by_cases hkey : deviceKey d = key
    · rw [if_pos hkey] at hrest ⊢
      constructor
      · intro heq
        exact ⟨(d, info), Or.inr rfl, hkey, Option.some.inj heq⟩
      · rintro ⟨e, he | rfl, hsame, hinfo⟩
        · exact absurd (hrest.mpr ⟨e, he, hsame, hinfo⟩) nofun
        · exact congrArg some hinfo
    · rw [if_neg hkey] at hrest ⊢
      rw [hrest]
      constructor
      · rintro ⟨e, he, hsame⟩
        exact ⟨e, Or.inl he, hsame⟩
      · rintro ⟨e, he | rfl, hsame⟩
        · exact ⟨e, he, hsame⟩
        · exact absurd hsame.1 hkey

theorem Mirrors.update {m : AudioMemo} (h : Mirrors m.distributedDeviceInfos_ devices)
    (hfits : bean.getIntValue "SERVICE_STATUS" = serviceStatusStop ∨ Alone devices (device bean)) :
    Mirrors (m.updateDistributedDeviceInfo bean).distributedDeviceInfos_
      (updatedDevices devices bean) := by
  unfold AudioMemo.updateDistributedDeviceInfo updatedDevices
  by_cases hstop : bean.getIntValue "SERVICE_STATUS" = serviceStatusStop
  · rw [if_pos hstop, if_pos hstop]
    exact mirrors_empty
  have halone := hfits.resolve_left hstop
  rw [if_neg hstop, if_neg hstop]
  dsimp only
  split
  · exact h.insert halone _
  · exact h.erase halone

/-- The infos of a device under whose text another one is found are lost, or it is taken away. -/
theorem Mirrors.alone_of_right {m : AudioMemo} (h : Mirrors m.distributedDeviceInfos_ devices)
    (hstop : bean.getIntValue "SERVICE_STATUS" ≠ serviceStatusStop)
    (hright : (m.updateDistributedDeviceInfo bean).getDistributedDeviceInfo.Perm
      ((updatedDevices devices bean).map Prod.snd)) : Alone devices (device bean) := by
  intro e he hkey
  by_contra hne
  have hothers : (devices.filter fun e => e.1 ≠ device bean) = devices := by
    rw [List.filter_eq_self]
    intro e' he'
    refine decide_eq_true fun heq => hne ?_
    rw [h.eq_of_key he he' (by rw [hkey, heq]), heq]
  have hmem : deviceKey (device bean) ∈ m.distributedDeviceInfos_ := by
    rw [ExtTreeMap.mem_iff_isSome_getElem?, (h.getElem?_iff _ e.2).mpr ⟨e, he, hkey, rfl⟩]
    rfl
  have hsize := h.size_eq
  have hlength := hright.length_eq
  unfold AudioMemo.updateDistributedDeviceInfo AudioMemo.getDistributedDeviceInfo
    updatedDevices at hlength
  rw [if_neg hstop, if_neg hstop] at hlength
  dsimp only at hlength
  rw [hothers] at hlength
  split at hlength
  · simp only [List.length_map, ExtTreeMap.length_toList, List.length_append,
      List.length_singleton] at hlength
    rw [ExtTreeMap.size_insert, if_pos (ExtTreeMap.mem_iff_contains.mp hmem)] at hlength
    omega
  · simp only [List.length_map, ExtTreeMap.length_toList] at hlength
    have herase := TreeMap.size_erase_of_mem hmem
    omega

theorem Mirrors.right_iff {m : AudioMemo} (h : Mirrors m.distributedDeviceInfos_ devices) :
    (m.updateDistributedDeviceInfo bean).getDistributedDeviceInfo.Perm
        ((updatedDevices devices bean).map Prod.snd) ↔
      bean.getIntValue "SERVICE_STATUS" = serviceStatusStop ∨ Alone devices (device bean) := by
  constructor
  · intro hright
    rw [or_iff_not_imp_left]
    exact fun hstop => h.alone_of_right hstop hright
  · exact fun hfits => (h.update hfits).infos_perm

end Devices

-- One event

/-- The state of the code is about what stands beside it. -/
structure Linked (s : System) : Prop where
  volumes : Tracks volumeKey s.volumes s.policy.volumeApiInvokeRecordSet_
  room : s.volumes.length ≤ 7201
  calls : Tracks callKey s.calls s.policy.callSessionHapSet_
  interrupts : Tracks interruptKey s.interrupts s.policy.audioInterruptErrorSet_
  devices : Mirrors s.memo.distributedDeviceInfos_ s.devices

theorem linked_init : Linked {} :=
  ⟨⟨rfl, List.nodup_nil⟩, Nat.zero_le _, ⟨rfl, List.nodup_nil⟩, ⟨rfl, List.nodup_nil⟩,
    mirrors_empty⟩

theorem setAppName_policy (p : MediaMonitorPolicy) (bean : EventBean) (key : String)
    (answer : Option String) :
    ∃ cache, (p.setAppNameToEventVector bean key answer).2 =
      { p with cachedBundleInfoMap_ := cache } := by
  unfold MediaMonitorPolicy.setAppNameToEventVector MediaMonitorPolicy.getBundleInfo
  dsimp only
  split
  · exact ⟨_, rfl⟩
  · split
    · exact ⟨_, rfl⟩
    · exact ⟨_, rfl⟩

section Step

variable {s t : System} {e : Event}

theorem volume_room_iff {n : Nat} (h : n ≤ 7201) :
    decide (Int32.ofNat n ≤ volumeApiInvokeRecordSetSize_) = true ↔
      n ≤ volumeApiInvokeRecordSetSize_.toNatClampNeg := by
  have hmax : volumeApiInvokeRecordSetSize_.toInt = 7200 := by decide
  have hclamp : volumeApiInvokeRecordSetSize_.toNatClampNeg = 7200 := by decide
  rw [decide_eq_true_eq, Int32.le_iff_toInt_le, Int32.toInt_ofNat_of_lt (by omega), hmax, hclamp]
  omega

theorem right_iff (h : Linked s) : Right s e ↔ Fits s e := by
  cases e with
  | addToVolumeApiInvokeQueue bean answer =>
    obtain ⟨cache, hcache⟩ := setAppName_policy s.policy bean "CLIENT_UID" answer
    have hseen : Tracks volumeKey s.volumes
        (s.policy.setAppNameToEventVector bean "CLIENT_UID" answer).2.volumeApiInvokeRecordSet_ := by
      rw [hcache]
      exact h.volumes
    have hroom := volume_room_iff h.room
    rw [← hseen.card_seen] at hroom
    unfold Right Fits MediaMonitorPolicy.addToVolumeApiInvokeQueue
    dsimp only
    rw [← loose_iff hseen (by rw [hroom, hseen.card_seen])]
    split
    · next heq => rw [heq]; exact Iff.rfl
    · next heq => rw [heq]; exact Iff.rfl
  | handleToVolumeApiInvokeEvent => exact Iff.rfl
  | addToCallSessionQueue bean answer =>
    obtain ⟨cache, hcache⟩ := setAppName_policy s.policy bean "CLIENT_UID" answer
    have hseen : Tracks callKey s.calls
        (s.policy.setAppNameToEventVector bean "CLIENT_UID" answer).2.callSessionHapSet_ := by
      rw [hcache]
      exact h.calls
    unfold Right Fits MediaMonitorPolicy.addToCallSessionQueue
    dsimp only
    rw [← exact_iff hseen]
    split
    · next heq => rw [heq]; exact Iff.rfl
    · next heq => rw [heq]; exact Iff.rfl
  | addAudioInterruptErrorEvent bean =>
    unfold Right Fits MediaMonitorPolicy.addAudioInterruptErrorEvent
    dsimp only
    rw [← exact_iff h.interrupts]
    split
    · next heq => rw [heq]; exact Iff.rfl
    · next heq => rw [heq]; exact Iff.rfl
  | updateDistributedDeviceInfo bean => exact h.devices.right_iff

theorem linked_step (h : Linked s) (hfits : Fits s e) (hstep : step s e = some t) : Linked t := by
  cases e with
  | addToVolumeApiInvokeQueue bean answer =>
    obtain ⟨cache, hcache⟩ := setAppName_policy s.policy bean "CLIENT_UID" answer
    unfold step MediaMonitorPolicy.addToVolumeApiInvokeQueue at hstep
    dsimp only at hstep
    rw [hcache] at hstep
    split at hstep
    · next seen heq =>
      cases hstep
      refine { h with volumes := h.volumes.record heq, room := ?_ }
      have hroom := room_of_record heq
      rw [h.volumes.card_seen, volume_room_iff h.room] at hroom
      have hmax : volumeApiInvokeRecordSetSize_.toNatClampNeg = 7200 := by decide
      show (s.volumes ++ [_]).length ≤ 7201
      rw [List.length_append, List.length_singleton]
      omega
    · cases hstep
      refine { h with volumes := ?_, room := ?_ }
      · exact (List.append_nil s.volumes).symm ▸ h.volumes
      · exact (List.append_nil s.volumes).symm ▸ h.room
  | handleToVolumeApiInvokeEvent =>
    cases hstep
    exact ⟨h.volumes, h.room, h.calls, h.interrupts, h.devices⟩
  | addToCallSessionQueue bean answer =>
    obtain ⟨cache, hcache⟩ := setAppName_policy s.policy bean "CLIENT_UID" answer
    unfold step MediaMonitorPolicy.addToCallSessionQueue at hstep
    dsimp only at hstep
    rw [hcache] at hstep
    split at hstep
    · next seen heq =>
      cases hstep
      exact { h with calls := h.calls.record heq }
    · cases hstep
      exact { h with calls := (List.append_nil s.calls).symm ▸ h.calls }
  | addAudioInterruptErrorEvent bean =>
    unfold step MediaMonitorPolicy.addAudioInterruptErrorEvent at hstep
    dsimp only at hstep
    split at hstep
    · next seen heq =>
      cases hstep
      exact { h with interrupts := h.interrupts.record heq }
    · cases hstep
      exact { h with interrupts := (List.append_nil s.interrupts).symm ▸ h.interrupts }
  | updateDistributedDeviceInfo bean =>
    cases hstep
    exact { h with devices := h.devices.update hfits }

end Step

/-- **Every event is reported and every device kept as it should be** exactly when no text stands
for two. -/
theorem records_iff (events : List Event) :
    Runs.Along step Right {} events ↔ Runs.Along step Fits {} events :=
  Runs.along_congr (I := Linked) (fun _ _ h => right_iff h)
    (fun _ _ _ h hright hstep => linked_step h ((right_iff h).mp hright) hstep) linked_init

-- Texts that stand for two

def volumeEvent (appName funcName : String) (value : Int32) : Event :=
  .addToVolumeApiInvokeQueue
    { stringMap_ := ((∅ : ExtTreeMap String String).insert "APP_NAME" appName).insert
        "FUNC_NAME" funcName
      intMap_ := (∅ : ExtTreeMap String Int32).insert "PARAM_VALUE" value } none

def deviceEvent (add : Int32) (networkId : String) (pin : Int32) (info : String) : Event :=
  .updateDistributedDeviceInfo
    { stringMap_ := ((∅ : ExtTreeMap String String).insert "NETWORK_ID" networkId).insert
        "ORIGINAL_INFO" info
      intMap_ := ((∅ : ExtTreeMap String Int32).insert "HDI_PIN" pin).insert "IS_ADD" add }

/-- The second event of another function is dropped, and the second device takes the place of the
first. -/
theorem texts_collide :
    ¬ Runs.Along step Right {} [volumeEvent "app" "set1" 2, volumeEvent "app" "set" 12] ∧
      ¬ Runs.Along step Right {}
        [deviceEvent 1 "net1" 2 "first", deviceEvent 1 "net" 12 "second"] := by
  constructor
  · intro h
    have hsecond := (Runs.along_tail h rfl).1
    revert hsecond
    unfold volumeEvent Right ToReport
    decide +kernel
  · intro h
    have hsecond := (Runs.along_tail h rfl).1
    revert hsecond
    unfold deviceEvent Right
    decide +kernel

end MediaFoundation.EventRecords
