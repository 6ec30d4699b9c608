import MediaFoundation.Lib.TreeMap
import MediaFoundation.Pipeline.CapabilityMerge

/-!
# Merging capabilities

Two capabilities with their mimes and key maps, a set of them, and a `Meta`
(`compatible_check.cpp`).

Conventions:

* A `Key` is the `Tag` of the same number, as the source casts them.
* An `Any` names the key whose type of values it has; values stay with their key.
* An out parameter is the result of the function where it returns true.
-/

namespace MediaFoundation.Negotiation

open Std (ExtTreeMap)
open Capability (ValueType CapabilityID)

-- Values and maps

inductive Any where
  | of (id : CapabilityID) (value : ValueType id.Value)
  | text (s : List Char)
  /-- One of any other type. -/
  | foreign (n : Nat)

/-- The value, as the check of a key sees it. -/
def Any.view (id : CapabilityID) : Any → ValueType id.Value
  | of id' value => if h : id' = id then h ▸ value else .other
  | text _ | foreign _ => .other

@[simp] theorem Any.view_of (id : CapabilityID) (value : ValueType id.Value) :
    (Any.of id value).view id = value := by
  rw [view, dif_pos rfl]

abbrev Key := UInt32

abbrev KeyMap := ExtTreeMap Key Any

def mimeTag : Key := 0x10001

/-- `g_allCapabilityId`; `g_capabilityValueCheckMap` and `g_capExtrMap` have the same keys. -/
def allCapabilityId : List (Key × CapabilityID) :=
  [(0x30003, .audioSampleRate), (0x30001, .audioChannels), (0x30002, .audioChannelLayout),
    (0x30004, .audioSampleFormat), (0x40101, .audioMpegVersion), (0x40102, .audioMpegLayer),
    (0x40201, .audioAacProfile), (0x40202, .audioAacLevel), (0x40203, .audioAacStreamFormat),
    (0x50003, .videoPixelFormat), (0x50008, .videoBitStreamFormat), (0x2000F, .mediaBitrate)]

def capabilityID (key : Key) : Option CapabilityID :=
  (allCapabilityId.find? (·.1 = key)).map Prod.snd

theorem isSome_capabilityID {key : Key} :
    (capabilityID key).isSome ↔ key ∈ allCapabilityId.map Prod.fst := by
  rw [capabilityID, Option.isSome_map, List.find?_isSome, List.mem_map]
  simp

structure Capability where
  mime : List Char
  keys : KeyMap

abbrev Meta := KeyMap

-- Mimes

def stringEqIgnoreCase (s1 s2 : List Char) : Bool :=
  s1.length = s2.length && (s1.zip s2).all fun p => p.1.toLower = p.2.toLower

/-- `find_first_of('/')` and the two `substr`; nothing where the slash is missing or first. -/
def splitMime (mime : List Char) : Option (List Char × List Char) :=
  let pos := mime.idxOf '/'
  if pos = 0 ∨ pos = mime.length then none else some (mime.take pos, mime.drop (pos + 1))

def isSubsetMime (subset universeMime : List Char) : Bool :=
  match splitMime subset with
  | none => false
  | some (type, name) =>
    if universeMime = ['*'] then true
    else
      match splitMime universeMime with
      | none => false
      | some (typeInCap, nameInCap) =>
        if !stringEqIgnoreCase type typeInCap then false
        else if nameInCap = ['*'] then true
        else stringEqIgnoreCase nameInCap name

-- Merging

/-- The entry of a key in `g_capabilityValueCheckMap`. -/
def checkValues (id : CapabilityID) (val1 val2 : Any) : Option Any :=
  (id.check (val1.view id) (val2.view id)).map (.of id)

/-- A round of the first loop of `MergeCapabilityKeys`. -/
def mergeKey (otherKeys : KeyMap) (resKeys : KeyMap) (pairKey : Key × Any) : Option KeyMap :=
  match otherKeys[pairKey.1]? with
  | none => some (resKeys.insertIfNew pairKey.1 pairKey.2)
  | some val =>
    match capabilityID pairKey.1 with
    | none => some resKeys
    | some id => (checkValues id pairKey.2 val).map fun tmp => resKeys.insert pairKey.1 tmp

def mergeCapabilityKeys (originKeys otherKeys : KeyMap) : Option KeyMap := do
  let resKeys ← originKeys.toList.foldlM (mergeKey otherKeys) ∅
  return otherKeys.toList.foldl (fun resKeys pairKey => resKeys.insertIfNew pairKey.1 pairKey.2)
    resKeys

def mergeCapability (originCap otherCap : Capability) : Option Capability :=
  if !isSubsetMime originCap.mime otherCap.mime then none
  else (mergeCapabilityKeys originCap.keys otherCap.keys).map fun keys => ⟨originCap.mime, keys⟩

def applyCapabilitySet (originCap : Capability) : List Capability → Option Capability
  | [] => none
  | cap :: capabilitySet =>
    match mergeCapability originCap cap with
    | some resCap => some resCap
    | none => applyCapabilitySet originCap capabilitySet

-- Fixing

def extractFixedCap {T : Type} : ValueType T → Option T
  | .fixed value => some value
  | .interval first _ => some first
  | .discrete values => values.head?
  | .other => none

def extract (id : CapabilityID) (value : Any) : Option Any :=
  (extractFixedCap (value.view id)).map fun x => .of id (.fixed x)

/-- A round of the last loop of `MergeMetaWithCapability`. -/
def fixKey (resMeta : Meta) (oneCap : Key × Any) : Meta :=
  match capabilityID oneCap.1 with
  | none => resMeta
  | some id =>
    match extract id oneCap.2 with
    | some tmp => resMeta.insert oneCap.1 tmp
    | none => resMeta

def metaKey (meta' : Meta) (keys : KeyMap) (key : Key × CapabilityID) : KeyMap :=
  match meta'[key.1]? with
  | some tmp => keys.insert key.1 tmp
  | none => keys

def metaKeys (meta' : Meta) : KeyMap := allCapabilityId.foldl (metaKey meta') ∅

def mergeMetaWithCapability (meta' : Meta) (cap : Capability) : Option Meta :=
  (mergeCapability ⟨cap.mime, metaKeys meta'⟩ cap).map fun resCap =>
    resCap.keys.toList.foldl fixKey (meta'.insert mimeTag (.text cap.mime))

-- The entries of a merge

/-- What the check of a key says of an entry of the origin. -/
def passes (otherKeys : KeyMap) (pairKey : Key × Any) : Bool :=
  match otherKeys[pairKey.1]?, capabilityID pairKey.1 with
  | some val, some id => (checkValues id pairKey.2 val).isSome
  | _, _ => true

def passedKey (otherKeys resKeys : KeyMap) (pairKey : Key × Any) : KeyMap :=
  (mergeKey otherKeys resKeys pairKey).getD resKeys

theorem mergeKey_eq (otherKeys resKeys : KeyMap) (pairKey : Key × Any) :
    mergeKey otherKeys resKeys pairKey =
      if passes otherKeys pairKey then some (passedKey otherKeys resKeys pairKey) else none := by
  unfold passedKey mergeKey passes
  cases otherKeys[pairKey.1]? with
  | none => rfl
  | some val =>
    cases capabilityID pairKey.1 with
    | none => rfl
    | some id =>
      cases hcheck : checkValues id pairKey.2 val with
      | none | some tmp => simp [hcheck]

def keptEntry (otherKeys : KeyMap) (key : Key) (value : Any) (old : Option Any) : Option Any :=
  match otherKeys[key]?, capabilityID key with
  | none, _ => some (old.getD value)
  | some _, none => old
  | some val, some id => (checkValues id value val).or old

theorem getElem?_insertIfNew_self (m : KeyMap) (key : Key) (value : Any) :
    (m.insertIfNew key value)[key]? = some (m[key]?.getD value) := by
  rw [ExtTreeMap.getElem?_insertIfNew]
  by_cases hmem : key ∈ m
  · simp [hmem]
  · simp [hmem]

theorem getElem?_insertIfNew_other {m : KeyMap} {key key' : Key} (h : key ≠ key') (value : Any) :
    (m.insertIfNew key value)[key']? = m[key']? := by
  rw [ExtTreeMap.getElem?_insertIfNew]
  simp [h]

theorem getElem?_passedKey_self (otherKeys resKeys : KeyMap) (pairKey : Key × Any) :
    (passedKey otherKeys resKeys pairKey)[pairKey.1]? =
      keptEntry otherKeys pairKey.1 pairKey.2 resKeys[pairKey.1]? := by
  unfold passedKey mergeKey keptEntry
  cases otherKeys[pairKey.1]? with
  | none => exact getElem?_insertIfNew_self resKeys pairKey.1 pairKey.2
  | some val =>
    cases capabilityID pairKey.1 with
    | none => rfl
    | some id => cases hcheck : checkValues id pairKey.2 val <;> simp [hcheck]

theorem getElem?_passedKey_other {otherKeys resKeys : KeyMap} {pairKey : Key × Any} {key : Key}
    (h : pairKey.1 ≠ key) : (passedKey otherKeys resKeys pairKey)[key]? = resKeys[key]? := by
  unfold passedKey mergeKey
  cases otherKeys[pairKey.1]? with
  | none => exact getElem?_insertIfNew_other h pairKey.2
  | some val =>
    cases capabilityID pairKey.1 with
    | none => rfl
    | some id =>
      cases hcheck : checkValues id pairKey.2 val with
      | none => simp [hcheck]
      | some tmp => simp [hcheck, ExtTreeMap.getElem?_insert, h]

def merged (originKeys otherKeys : KeyMap) (key : Key) : Option Any :=
  match originKeys[key]?, otherKeys[key]?, capabilityID key with
  | some value, some val, some id => checkValues id value val
  | some value, none, _ => some value
  | _, other, _ => other

def Refused (originKeys otherKeys : KeyMap) : Prop :=
  ∃ key value val id, originKeys[key]? = some value ∧ otherKeys[key]? = some val ∧
    capabilityID key = some id ∧ checkValues id value val = none

theorem refused_iff {originKeys otherKeys : KeyMap} :
    Refused originKeys otherKeys ↔ originKeys.toList.all (passes otherKeys) = false := by
  rw [List.all_eq_false]
  constructor
  · rintro ⟨key, value, val, id, hvalue, hval, hid, hcheck⟩
    refine ⟨(key, value), ExtTreeMap.mem_toList_iff_getElem?_eq_some.mpr hvalue, ?_⟩
    simp [passes, hval, hid, hcheck]
  · rintro ⟨⟨key, value⟩, hmem, hpass⟩
    have hvalue := ExtTreeMap.mem_toList_iff_getElem?_eq_some.mp hmem
    unfold passes at hpass
    cases hval : otherKeys[key]? with
    | none => simp [hval] at hpass
    | some val =>
      cases hid : capabilityID key with
      | none => simp [hval, hid] at hpass
      | some id =>
        refine ⟨key, value, val, id, hvalue, hval, hid, ?_⟩
        simpa [hval, hid] using hpass

theorem mergeCapabilityKeys_of_refused {originKeys otherKeys : KeyMap}
    (h : Refused originKeys otherKeys) : mergeCapabilityKeys originKeys otherKeys = none := by
  have hloop := TreeMap.foldlM_guard (passes otherKeys) (passedKey otherKeys) ∅ originKeys.toList
  simp only [← mergeKey_eq] at hloop
  rw [mergeCapabilityKeys, hloop, refused_iff.mp h]
  rfl

/-- **The entries of a merge.** -/
theorem getElem?_mergeCapabilityKeys {originKeys otherKeys : KeyMap}
    (h : ¬ Refused originKeys otherKeys) :
    ∃ resKeys, mergeCapabilityKeys originKeys otherKeys = some resKeys ∧
      ∀ key : Key, resKeys[key]? = merged originKeys otherKeys key := by
  have hall : originKeys.toList.all (passes otherKeys) = true := by
    rw [refused_iff, Bool.not_eq_false] at h
    exact h
  have hloop := TreeMap.foldlM_guard (passes otherKeys) (passedKey otherKeys) ∅ originKeys.toList
  simp only [← mergeKey_eq, hall, if_true] at hloop
  refine ⟨_, by rw [mergeCapabilityKeys, hloop]; rfl, fun key => ?_⟩
  rw [TreeMap.getElem?_foldl_toList (f := fun _ v old => some (old.getD v))
      (fun m e => getElem?_insertIfNew_self m e.1 e.2)
      (fun m e k hne => getElem?_insertIfNew_other hne e.2),
    TreeMap.getElem?_foldl_toList (f := keptEntry otherKeys)
      (fun m e => getElem?_passedKey_self otherKeys m e)
      (fun m e k hne => getElem?_passedKey_other hne),
    ExtTreeMap.getElem?_empty, merged]
  cases hvalue : originKeys[key]? with
  | none => cases otherKeys[key]? <;> rfl
  | some value =>
    simp only [Option.elim_some, keptEntry]
    cases hval : otherKeys[key]? with
    | none => rfl
    | some val =>
      cases hid : capabilityID key with
      | none => rfl
      | some id =>
        cases hcheck : checkValues id value val with
        | none => exact absurd ⟨key, value, val, id, hvalue, hval, hid, hcheck⟩ h
        | some tmp => simp [hcheck]

theorem mergeCapability_eq_some {originCap otherCap resCap : Capability}
    (h : mergeCapability originCap otherCap = some resCap) :
    isSubsetMime originCap.mime otherCap.mime = true ∧ ¬ Refused originCap.keys otherCap.keys ∧
      ∀ key : Key, resCap.keys[key]? = merged originCap.keys otherCap.keys key := by
  unfold mergeCapability at h
  cases hmime : isSubsetMime originCap.mime otherCap.mime with
  | false => simp [hmime] at h
  | true =>
    rw [hmime] at h
    obtain ⟨keys, hkeys, rfl⟩ := Option.map_eq_some_iff.mp h
    have hrefused : ¬ Refused originCap.keys otherCap.keys := fun hrefused => by
      rw [mergeCapabilityKeys_of_refused hrefused] at hkeys
      cases hkeys
    obtain ⟨resKeys, hres, hentries⟩ := getElem?_mergeCapabilityKeys hrefused
    obtain rfl := Option.some.inj (hkeys.symm.trans hres)
    exact ⟨rfl, hrefused, hentries⟩

theorem isSome_mergeCapability {originCap otherCap : Capability} :
    (mergeCapability originCap otherCap).isSome ↔
      isSubsetMime originCap.mime otherCap.mime = true ∧
        ¬ Refused originCap.keys otherCap.keys := by
  constructor
  · intro h
    obtain ⟨resCap, hres⟩ := Option.isSome_iff_exists.mp h
    obtain ⟨hmime, hrefused, -⟩ := mergeCapability_eq_some hres
    exact ⟨hmime, hrefused⟩
  · rintro ⟨hmime, hrefused⟩
    obtain ⟨resKeys, hres, -⟩ := getElem?_mergeCapabilityKeys hrefused
    simp [mergeCapability, hmime, hres]

-- The entries of the fixed meta

theorem getElem?_metaKey_self (meta' : Meta) (keys : KeyMap) (key : Key × CapabilityID) :
    (metaKey meta' keys key)[key.1]? = meta'[key.1]?.or keys[key.1]? := by
  unfold metaKey
  cases meta'[key.1]? <;> simp

theorem getElem?_metaKey_other {meta' : Meta} {keys : KeyMap} {key : Key × CapabilityID}
    {key' : Key} (h : key.1 ≠ key') : (metaKey meta' keys key)[key']? = keys[key']? := by
  unfold metaKey
  cases meta'[key.1]? with
  | none => rfl
  | some tmp => simp [ExtTreeMap.getElem?_insert, h]

theorem getElem?_metaKeys (meta' : Meta) (key : Key) :
    (metaKeys meta')[key]? = if (capabilityID key).isSome then meta'[key]? else none := by
  have hkeys : allCapabilityId.Pairwise fun a b => a.1 ≠ b.1 := by decide
  obtain ⟨hmem, hnot⟩ := TreeMap.getElem?_foldl_entries (f := fun key _ old => meta'[key]?.or old)
    (getElem?_metaKey_self meta') (fun m e k hne => getElem?_metaKey_other hne) hkeys ∅ key
  unfold metaKeys
  by_cases hkey : key ∈ allCapabilityId.map Prod.fst
  · rw [if_pos (isSome_capabilityID.mpr hkey)]
    obtain ⟨⟨_, id⟩, hin, rfl⟩ := List.mem_map.mp hkey
    rw [hmem id hin, ExtTreeMap.getElem?_empty, Option.or_none]
  · rw [if_neg fun h => hkey (isSome_capabilityID.mp h),
      hnot fun id hin => hkey (List.mem_map_of_mem hin)]
    exact ExtTreeMap.getElem?_empty

def fixedEntry (key : Key) (value : Any) (old : Option Any) : Option Any :=
  match capabilityID key with
  | none => old
  | some id => (extract id value).or old

theorem getElem?_fixKey_self (resMeta : Meta) (oneCap : Key × Any) :
    (fixKey resMeta oneCap)[oneCap.1]? = fixedEntry oneCap.1 oneCap.2 resMeta[oneCap.1]? := by
  unfold fixKey fixedEntry
  cases capabilityID oneCap.1 with
  | none => rfl
  | some id => cases hextract : extract id oneCap.2 <;> simp [hextract]

theorem getElem?_fixKey_other {resMeta : Meta} {oneCap : Key × Any} {key : Key}
    (h : oneCap.1 ≠ key) : (fixKey resMeta oneCap)[key]? = resMeta[key]? := by
  unfold fixKey
  cases capabilityID oneCap.1 with
  | none => rfl
  | some id =>
    cases hextract : extract id oneCap.2 with
    | none => simp [hextract]
    | some tmp => simp [hextract, ExtTreeMap.getElem?_insert, h]

/-- **The entries of the result**: those of the `Meta` with the values that are fixed. -/
theorem getElem?_mergeMeta {meta' : Meta} {cap : Capability} {resMeta : Meta}
    (h : mergeMetaWithCapability meta' cap = some resMeta) (key : Key) :
    resMeta[key]? = (merged (metaKeys meta') cap.keys key).elim
      (meta'.insert mimeTag (.text cap.mime))[key]?
      (fixedEntry key · (meta'.insert mimeTag (.text cap.mime))[key]?) := by
  obtain ⟨resCap, hres, rfl⟩ := Option.map_eq_some_iff.mp h
  obtain ⟨-, -, hentries⟩ := mergeCapability_eq_some hres
  rw [TreeMap.getElem?_foldl_toList (f := fixedEntry) getElem?_fixKey_self
    (fun m e k hne => getElem?_fixKey_other hne), hentries]

end MediaFoundation.Negotiation
