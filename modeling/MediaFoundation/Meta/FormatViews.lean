import MediaFoundation.Lib.Runs
import MediaFoundation.Meta.Format

/-!
# The views of a Format

`Stringify` and `GetFormatMap` ask `GetValueType` for the type of every value
and cast it by the answer. `GetValueType` knows eight types and answers
`INT32` or `INT64` for every other one, so the cast of a boolean, of an
enumeration or of any other value is a null pointer, which is dereferenced.
-/

namespace MediaFoundation

open Std (ExtTreeMap)

-- The values that the views know

namespace Any

/-- Of one of the eight types that `GetValueType` tells apart. -/
def Castable : Any → Prop
  | .int32 _ | .uint32 _ | .int64 _ | .float _ | .double _ | .string _ | .vectorUint8 _
  | .vectorInt32 _ => True
  | _ => False

/-- A vector of no elements, whose `data()` may be a null pointer. -/
def IsEmptyVector (v : Any) : Prop := v = .vectorUint8 [] ∨ v = .vectorInt32 []

/-- What both views list, wherever its storage is. -/
def Viewable (v : Any) : Prop := v.Castable ∧ ¬ v.IsEmptyVector

end Any

namespace Meta

def Viewable (m : Meta) : Prop := ∀ tag v, m.find tag = some v → v.Viewable

variable {m : Meta} {key : String} {v : Any}

theorem find_setData (m : Meta) (key tag : String) (v : Any) :
    (m.setData key v).find tag = if key = tag then some v else m.find tag := by
  show (m.map.insert key v)[tag]? = _
  rw [ExtTreeMap.getElem?_insert]
  simp only [Std.LawfulEqCmp.compare_eq_iff_eq]
  rfl

theorem viewable_setData (h : m.Viewable) (hv : v.Viewable) : (m.setData key v).Viewable := by
  intro tag w hw
  rw [find_setData] at hw
  split at hw
  · exact Option.some.inj hw ▸ hv
  · exact h tag w hw

theorem not_viewable_setData (hv : ¬ v.Viewable) : ¬ (m.setData key v).Viewable := by
  intro hset
  exact hv (hset key v (by rw [find_setData, if_pos rfl]))

theorem viewable_remove (h : m.Viewable) : (m.remove key).Viewable := by
  intro tag w hw
  have hfind : (m.map.erase key)[tag]? = some w := hw
  rw [ExtTreeMap.getElem?_erase] at hfind
  split at hfind
  · cases hfind
  · exact h tag w hfind

theorem viewable_empty : Viewable ⟨∅⟩ := by
  intro tag v hv
  have hfind : (∅ : ExtTreeMap String Any)[tag]? = some v := hv
  rw [ExtTreeMap.getElem?_empty] at hfind
  cases hfind

end Meta

-- The views, entry by entry

namespace Format

def Entry (key text : String) : Prop :=
  ∃ value size, text = valueText key value ∨ text = bufferText key size

/-- `GetFormatMap` stores the value: its address is not null. -/
def Stored (emptyData : String → Bool) (key : String) (v : Any) : Prop :=
  v.IsEmptyVector → emptyData key = true

variable {floatText : UInt32 → String} {doubleText : UInt64 → String} {emptyData : String → Bool}
  {f : Format} {key : String} {v : Any}

theorem getValueType_of_not_castable (h : f.content.find key = some v) (hv : ¬ v.Castable) :
    f.getValueType key = .int32 ∨ f.getValueType key = .int64 := by
  cases v with
  | int32 | uint32 | int64 | float | double | string | vectorUint8 | vectorInt32 =>
    exact absurd trivial hv
  | _ =>
    simp only [getValueType, h]
    show (if _ then FormatDataType.int64 else .int32) = _ ∨
      (if _ then FormatDataType.int64 else .int32) = _
    split
    · exact .inr rfl
    · exact .inl rfl

theorem anyCast_of_not_castable (hv : ¬ v.Castable) :
    v.anyCast .int32 = none ∧ v.anyCast .int64 = none := by
  cases v with
  | int32 | uint32 | int64 | float | double | string | vectorUint8 | vectorInt32 =>
    exact absurd trivial hv
  | _ => exact ⟨rfl, rfl⟩

theorem stringifyEntry_of_castable (floatText : UInt32 → String) (doubleText : UInt64 → String)
    (h : f.content.find key = some v) (hv : v.Castable) :
    ∃ text, stringifyEntry floatText doubleText key v (f.getValueType key) = some text ∧
      Entry key text := by
  cases v with
  | int32 n | int64 n =>
    simp only [getValueType, h]
    exact ⟨_, rfl, toString n.toInt, 0, .inl rfl⟩
  | uint32 n =>
    simp only [getValueType, h]
    exact ⟨_, rfl, toString n.toNat, 0, .inl rfl⟩
  | float x =>
    simp only [getValueType, h]
    exact ⟨_, rfl, floatText x, 0, .inl rfl⟩
  | double x =>
    simp only [getValueType, h]
    exact ⟨_, rfl, doubleText x, 0, .inl rfl⟩
  | string s =>
    simp only [getValueType, h]
    exact ⟨_, rfl, s, 0, .inl rfl⟩
  | vectorUint8 b | vectorInt32 b =>
    simp only [getValueType, h]
    exact ⟨_, rfl, "", b.length, .inr rfl⟩
  | _ => exact absurd hv id

theorem stringifyEntry_null (h : f.content.find key = some v) (hv : ¬ v.Castable) :
    stringifyEntry floatText doubleText key v (f.getValueType key) = none := by
  obtain ⟨hint32, hint64⟩ := anyCast_of_not_castable hv
  rcases getValueType_of_not_castable h hv with htype | htype
  · rw [htype]
    exact congrArg (Option.map _) hint32
  · rw [htype]
    exact congrArg (Option.map _) hint64

theorem formatMapEntry_null (h : f.content.find key = some v) (hv : ¬ v.Castable)
    (m : FormatDataMap) : formatMapEntry emptyData key v m (f.getValueType key) = none := by
  obtain ⟨hint32, hint64⟩ := anyCast_of_not_castable hv
  rcases getValueType_of_not_castable h hv with htype | htype
  · rw [htype]
    exact congrArg (Option.map _) hint32
  · rw [htype]
    exact congrArg (Option.map _) hint64

def Adds (m m' : FormatDataMap) (key : String) (stored : Prop) : Prop :=
  ∀ k, k ∈ m' ↔ k ∈ m ∨ k = key ∧ stored

theorem adds_insertIfNew (m : FormatDataMap) (d : FormatData) {stored : Prop} (h : stored) :
    Adds m (m.insertIfNew key d) key stored := by
  intro k
  rw [ExtTreeMap.mem_insertIfNew, Std.LawfulEqCmp.compare_eq_iff_eq]
  constructor
  · rintro (rfl | hk)
    · exact .inr ⟨rfl, h⟩
    · exact .inl hk
  · rintro (hk | ⟨rfl, -⟩)
    · exact .inr hk
    · exact .inl rfl

theorem adds_putBufferToFormatMap (m : FormatDataMap) (size width : Nat) :
    Adds m (putBufferToFormatMap emptyData key size width m) key
      (size = 0 → emptyData key = true) := by
  unfold putBufferToFormatMap
  split
  next hnull =>
    intro k
    constructor
    · exact .inl
    · rintro (hk | ⟨-, hstored⟩)
      · exact hk
      · rw [hstored hnull.1] at hnull
        cases hnull.2
  next hnull =>
    refine adds_insertIfNew m _ fun hsize => ?_
    by_contra hdata
    exact hnull ⟨hsize, Bool.eq_false_iff.mpr hdata⟩

theorem formatMapEntry_of_castable (emptyData : String → Bool) (h : f.content.find key = some v)
    (hv : v.Castable) (m : FormatDataMap) :
    ∃ m', formatMapEntry emptyData key v m (f.getValueType key) = some m' ∧
      Adds m m' key (Stored emptyData key v) := by
  cases v with
  | int32 | uint32 | int64 | float | double | string =>
    simp only [getValueType, h]
    refine ⟨_, rfl, adds_insertIfNew m _ fun hempty => ?_⟩
    rcases hempty with hempty | hempty <;> cases hempty
  | vectorUint8 b =>
    simp only [getValueType, h]
    refine ⟨_, rfl, ?_⟩
    have hstored : (b.length = 0 → emptyData key = true) ↔
        Stored emptyData key (.vectorUint8 b) := by
      simp [Stored, Any.IsEmptyVector]
    rw [← hstored]
    exact adds_putBufferToFormatMap m b.length 1
  | vectorInt32 b =>
    simp only [getValueType, h]
    refine ⟨_, rfl, ?_⟩
    have hstored : (b.length = 0 → emptyData key = true) ↔
        Stored emptyData key (.vectorInt32 b) := by
      simp [Stored, Any.IsEmptyVector]
    rw [← hstored]
    exact adds_putBufferToFormatMap m b.length 4
  | _ => exact absurd hv id

-- The loops

variable {es : List (String × Any)}

theorem stringifyLoop_of_castable (floatText : UInt32 → String) (doubleText : UInt64 → String)
    (h : ∀ e ∈ es, f.content.find e.1 = some e.2 ∧ e.2.Castable) :
    ∃ texts, List.Forall₂ Entry (es.map Prod.fst) texts ∧
      stringifyLoop floatText doubleText f es = some (String.join texts) := by
  induction es with
  | nil => exact ⟨[], .nil, rfl⟩
  | cons e es ih =>
    obtain ⟨key, v⟩ := e
    obtain ⟨hfind, hv⟩ := h (key, v) List.mem_cons_self
    obtain ⟨texts, hentries, hrest⟩ := ih fun e he => h e (List.mem_cons_of_mem _ he)
    obtain ⟨text, htext, hentry⟩ := stringifyEntry_of_castable floatText doubleText hfind hv
    refine ⟨text :: texts, .cons hentry hentries, ?_⟩
    rw [stringifyLoop, htext, hrest, String.join_cons]
    rfl

theorem stringifyLoop_null (h : ∀ e ∈ es, f.content.find e.1 = some e.2)
    (hbad : ∃ e ∈ es, ¬ e.2.Castable) : stringifyLoop floatText doubleText f es = none := by
  induction es with
  | nil =>
    obtain ⟨e, he, -⟩ := hbad
    exact absurd he List.not_mem_nil
  | cons e es ih =>
    obtain ⟨key, v⟩ := e
    have hfind : f.content.find key = some v := h (key, v) List.mem_cons_self
    rw [stringifyLoop]
    by_cases hv : v.Castable
    · have hrest : ∃ e ∈ es, ¬ e.2.Castable :=
        ((List.exists_mem_cons_iff ..).mp hbad).resolve_left (not_not.mpr hv)
      rw [ih (fun e he => h e (List.mem_cons_of_mem _ he)) hrest]
      cases stringifyEntry floatText doubleText key v (f.getValueType key) <;> rfl
    · rw [stringifyEntry_null hfind hv]
      rfl

theorem formatMapLoop_of_castable (emptyData : String → Bool)
    (h : ∀ e ∈ es, f.content.find e.1 = some e.2 ∧ e.2.Castable) (m : FormatDataMap) :
    ∃ m', formatMapLoop emptyData f es m = some m' ∧
      ∀ k, k ∈ m' ↔ k ∈ m ∨ ∃ v, (k, v) ∈ es ∧ Stored emptyData k v := by
  induction es generalizing m with
  | nil =>
    refine ⟨m, rfl, fun k => ⟨.inl, ?_⟩⟩
    rintro (hk | ⟨v, hv, -⟩)
    · exact hk
    · exact absurd hv List.not_mem_nil
  | cons e es ih =>
    obtain ⟨key, v⟩ := e
    obtain ⟨hfind, hv⟩ := h (key, v) List.mem_cons_self
    obtain ⟨m₁, hm₁, hadds⟩ := formatMapEntry_of_castable emptyData hfind hv m
    obtain ⟨m', hm', hkeys⟩ := ih (fun e he => h e (List.mem_cons_of_mem _ he)) m₁
    refine ⟨m', ?_, fun k => ?_⟩
    · rw [formatMapLoop, hm₁]
      exact hm'
    · rw [hkeys k, hadds k]
      constructor
      · rintro ((hk | ⟨rfl, hstored⟩) | ⟨w, hw, hstored⟩)
        · exact .inl hk
        · exact .inr ⟨v, List.mem_cons_self, hstored⟩
        · exact .inr ⟨w, List.mem_cons_of_mem _ hw, hstored⟩
      · rintro (hk | ⟨w, hw, hstored⟩)
        · exact .inl (.inl hk)
        · rcases List.mem_cons.mp hw with heq | hw
          · cases heq
            exact .inl (.inr ⟨rfl, hstored⟩)
          · exact .inr ⟨w, hw, hstored⟩

theorem formatMapLoop_null (h : ∀ e ∈ es, f.content.find e.1 = some e.2)
    (hbad : ∃ e ∈ es, ¬ e.2.Castable) (m : FormatDataMap) :
    formatMapLoop emptyData f es m = none := by
  induction es generalizing m with
  | nil =>
    obtain ⟨e, he, -⟩ := hbad
    exact absurd he List.not_mem_nil
  | cons e es ih =>
    obtain ⟨key, v⟩ := e
    have hfind : f.content.find key = some v := h (key, v) List.mem_cons_self
    rw [formatMapLoop]
    by_cases hv : v.Castable
    · have hrest : ∃ e ∈ es, ¬ e.2.Castable :=
        ((List.exists_mem_cons_iff ..).mp hbad).resolve_left (not_not.mpr hv)
      obtain ⟨m', hm', -⟩ := formatMapEntry_of_castable emptyData hfind hv m
      rw [hm']
      exact ih (fun e he => h e (List.mem_cons_of_mem _ he)) hrest m'
    · rw [formatMapEntry_null hfind hv]
      rfl

-- Exactly when a view is sound

/-- `Stringify` ends and dumps each key once, in the order of the map. -/
def Stringified (floatText : UInt32 → String) (doubleText : UInt64 → String) (f : Format) : Prop :=
  ∃ texts, List.Forall₂ Entry f.content.map.keys texts ∧
    f.stringify floatText doubleText = some (String.join texts)

/-- `GetFormatMap` ends and has an entry for each key. -/
def Mapped (emptyData : String → Bool) (f : Format) : Prop :=
  ∃ m, f.getFormatMap emptyData = some m ∧ ∀ key, key ∈ m ↔ key ∈ f.content.map

def ViewsSound (f : Format) : Prop :=
  (∀ floatText doubleText, f.Stringified floatText doubleText) ∧ ∀ emptyData, f.Mapped emptyData

theorem find_of_mem_toList {e : String × Any} (he : e ∈ f.content.map.toList) :
    f.content.find e.1 = some e.2 := ExtTreeMap.mem_toList_iff_getElem?_eq_some.mp he

theorem exists_mem_toList (h : ¬ ∀ key v, f.content.find key = some v → v.Castable) :
    ∃ e ∈ f.content.map.toList, ¬ e.2.Castable := by
  push Not at h
  obtain ⟨key, v, hfind, hv⟩ := h
  exact ⟨(key, v), ExtTreeMap.mem_toList_iff_getElem?_eq_some.mpr hfind, hv⟩

theorem stringify_null (h : ¬ ∀ key v, f.content.find key = some v → v.Castable) :
    f.stringify floatText doubleText = none :=
  stringifyLoop_null (fun _ he => find_of_mem_toList he) (exists_mem_toList h)

theorem stringify_iff (f : Format) :
    f.Stringified floatText doubleText ↔ ∀ key v, f.content.find key = some v → v.Castable := by
  constructor
  · rintro ⟨texts, -, htexts⟩
    by_contra hbad
    rw [stringify_null hbad] at htexts
    cases htexts
  · intro h
    have hentries : ∀ e ∈ f.content.map.toList, f.content.find e.1 = some e.2 ∧ e.2.Castable :=
      fun e he => ⟨find_of_mem_toList he, h e.1 e.2 (find_of_mem_toList he)⟩
    obtain ⟨texts, hkeys, htexts⟩ := stringifyLoop_of_castable floatText doubleText hentries
    rw [ExtTreeMap.map_fst_toList_eq_keys] at hkeys
    exact ⟨texts, hkeys, htexts⟩

theorem getFormatMap_keys (emptyData : String → Bool)
    (h : ∀ key v, f.content.find key = some v → v.Castable) :
    ∃ m, f.getFormatMap emptyData = some m ∧
      ∀ key, key ∈ m ↔ ∃ v, f.content.find key = some v ∧ Stored emptyData key v := by
  have hentries : ∀ e ∈ f.content.map.toList, f.content.find e.1 = some e.2 ∧ e.2.Castable :=
    fun e he => ⟨find_of_mem_toList he, h e.1 e.2 (find_of_mem_toList he)⟩
  obtain ⟨m, hm, hkeys⟩ := formatMapLoop_of_castable emptyData hentries ∅
  refine ⟨m, hm, fun key => ?_⟩
  rw [hkeys key]
  constructor
  · rintro (hkey | ⟨v, hv, hstored⟩)
    · exact absurd hkey ExtTreeMap.not_mem_empty
    · exact ⟨v, find_of_mem_toList hv, hstored⟩
  · rintro ⟨v, hv, hstored⟩
    exact .inr ⟨v, ExtTreeMap.mem_toList_iff_getElem?_eq_some.mpr hv, hstored⟩

theorem getFormatMap_null (emptyData : String → Bool)
    (h : ¬ ∀ key v, f.content.find key = some v → v.Castable) : f.getFormatMap emptyData = none :=
  formatMapLoop_null (fun _ he => find_of_mem_toList he) (exists_mem_toList h) ∅

theorem mem_content : key ∈ f.content.map ↔ ∃ v, f.content.find key = some v := by
  rw [ExtTreeMap.mem_iff_isSome_getElem?, Option.isSome_iff_exists]
  exact Iff.rfl

theorem mapped_iff (f : Format) :
    f.Mapped emptyData ↔
      ∀ key v, f.content.find key = some v → v.Castable ∧ Stored emptyData key v := by
  constructor
  · rintro ⟨m, hm, hall⟩ key v hv
    have hcast : ∀ key v, f.content.find key = some v → v.Castable := by
      by_contra hbad
      rw [getFormatMap_null emptyData hbad] at hm
      cases hm
    obtain ⟨m', hm', hkeys⟩ := getFormatMap_keys emptyData hcast
    obtain rfl : m = m' := Option.some.inj (hm.symm.trans hm')
    obtain ⟨w, hw, hstored⟩ := (hkeys key).mp ((hall key).mpr (mem_content.mpr ⟨v, hv⟩))
    obtain rfl : v = w := Option.some.inj (hv.symm.trans hw)
    exact ⟨hcast key v hv, hstored⟩
  · intro h
    obtain ⟨m, hm, hkeys⟩ := getFormatMap_keys emptyData fun key v hv => (h key v hv).1
    refine ⟨m, hm, fun key => ?_⟩
    rw [hkeys key, mem_content]
    constructor
    · rintro ⟨v, hv, -⟩
      exact ⟨v, hv⟩
    · rintro ⟨v, hv⟩
      exact ⟨v, hv, (h key v hv).2⟩

/-- **The views are sound** exactly when every value is one that they know. -/
theorem viewsSound_iff (f : Format) : f.ViewsSound ↔ f.content.Viewable := by
  constructor
  · rintro ⟨hstringify, hmap⟩ key v hv
    refine ⟨(stringify_iff f).mp (hstringify (fun _ => "") fun _ => "") key v hv, fun hempty => ?_⟩
    have hstored := ((mapped_iff f).mp (hmap fun _ => false) key v hv).2
    cases hstored hempty
  · intro h
    refine ⟨fun _ _ => (stringify_iff f).mpr fun key v hv => (h key v hv).1, fun _ => ?_⟩
    exact (mapped_iff f).mpr fun key v hv =>
      ⟨(h key v hv).1, fun hempty => absurd hempty (h key v hv).2⟩

-- The calls

/-- The call stores no value that the views do not know: an integer that is
stored goes to no tag that is registered as a boolean or an enumeration, a
vector that is stored has elements, and a `Meta` that is handed over is
viewable. -/
def KeepsViews (f : Format) : Call → Prop
  | .putIntValue key _ =>
    putIntAdmits key = true → isIntEnum key = false ∧ key ∉ metadataBoolVector
  | .putUintValue key _ =>
    putUintAdmits key = true → isIntEnum key = true ∨ key ∉ metadataBoolVector
  | .putLongValue key _ => putLongAdmits key = true → isLongEnum key = false
  | .putBuffer key addr => addr = some [] → ¬ TakesVector .vectorUint8 key
  | .putIntBuffer key addr => addr = some [] → ¬ TakesVector .vectorInt32 key
  | .setMeta (some m) => m.Viewable
  | _ => True
where
  /-- The tag admits the vector, and no value of another type is in its way. -/
  TakesVector (type : CastType) (key : String) : Prop :=
    isSameType key (Any.isSameTypeWith type) = true ∧
      ∀ v, f.content.find key = some v → v.isSameTypeWith type = true

theorem bool_not_viewable (b : Bool) : ¬ (Any.bool b).Viewable := fun h => h.1

theorem enumeration_not_viewable (t : EnumType) (b : BitVec t.underlying.bits) :
    ¬ (Any.enumeration t b).Viewable := fun h => h.1

theorem scalar_viewable (hcast : v.Castable) (huint8 : v.anyCast .vectorUint8 = none)
    (hint32 : v.anyCast .vectorInt32 = none) : v.Viewable := by
  refine ⟨hcast, ?_⟩
  rintro (rfl | rfl)
  · cases huint8
  · cases hint32

theorem putIntValue_viewable (hf : f.content.Viewable) (key : String) (value : Int32) :
    (f.putIntValue key value).2.content.Viewable ↔ f.KeepsViews (.putIntValue key value) := by
  show _ ↔ (putIntAdmits key = true → isIntEnum key = false ∧ key ∉ metadataBoolVector)
  unfold putIntValue
  by_cases hadmits : putIntAdmits key = true
  · rw [if_pos hadmits, isIntEnum]
    show (f.content.setMetaDataInt32 key value).2.Viewable ↔ _
    unfold Meta.setMetaDataInt32
    cases metadataGetterSetterMap.lookup key with
    | some t =>
      exact ⟨fun h => absurd h (Meta.not_viewable_setData (enumeration_not_viewable t _)),
        fun h => absurd (h hadmits).1 Bool.noConfusion⟩
    | none =>
      by_cases hbool : key ∈ metadataBoolVector
      · simp only [if_pos hbool]
        exact ⟨fun h => absurd h (Meta.not_viewable_setData (bool_not_viewable _)), fun h =>
          absurd hbool (h hadmits).2⟩
      · simp only [if_neg hbool]
        exact ⟨fun _ _ => ⟨rfl, hbool⟩, fun _ =>
          Meta.viewable_setData hf (scalar_viewable trivial rfl rfl)⟩
  · rw [if_neg hadmits]
    exact ⟨fun _ h => absurd h hadmits, fun _ => hf⟩

theorem putUintValue_viewable (hf : f.content.Viewable) (key : String) (value : UInt32) :
    (f.putUintValue key value).2.content.Viewable ↔ f.KeepsViews (.putUintValue key value) := by
  show _ ↔ (putUintAdmits key = true → isIntEnum key = true ∨ key ∉ metadataBoolVector)
  unfold putUintValue
  by_cases hadmits : putUintAdmits key = true
  · rw [if_pos hadmits, isIntEnum]
    show (f.content.setMetaDataUint32 key value).2.Viewable ↔ _
    unfold Meta.setMetaDataUint32
    cases metadataGetterSetterMap.lookup key with
    | some t => exact ⟨fun _ _ => .inl rfl, fun _ => hf⟩
    | none =>
      by_cases hbool : key ∈ metadataBoolVector
      · simp only [if_pos hbool]
        refine ⟨fun h => absurd h (Meta.not_viewable_setData (bool_not_viewable _)), fun h => ?_⟩
        rcases h hadmits with hnone | hnot
        · cases hnone
        · exact absurd hbool hnot
      · simp only [if_neg hbool]
        exact ⟨fun _ _ => .inr hbool, fun _ =>
          Meta.viewable_setData hf (scalar_viewable trivial rfl rfl)⟩
  · rw [if_neg hadmits]
    exact ⟨fun _ h => absurd h hadmits, fun _ => hf⟩

theorem putLongValue_viewable (hf : f.content.Viewable) (key : String) (value : Int64) :
    (f.putLongValue key value).2.content.Viewable ↔ f.KeepsViews (.putLongValue key value) := by
  show _ ↔ (putLongAdmits key = true → isLongEnum key = false)
  unfold putLongValue
  by_cases hadmits : putLongAdmits key = true
  · rw [if_pos hadmits, isLongEnum]
    show (f.content.setMetaDataInt64 key value).2.Viewable ↔ _
    unfold Meta.setMetaDataInt64
    by_cases hlong : key ∈ getterSetterInt64Tags
    · rw [if_pos hlong, decide_eq_true hlong]
      exact ⟨fun h => absurd h (Meta.not_viewable_setData (enumeration_not_viewable _ _)),
        fun h => absurd (h hadmits) Bool.noConfusion⟩
    · rw [if_neg hlong, decide_eq_false hlong]
      exact ⟨fun _ _ => rfl, fun _ =>
        Meta.viewable_setData hf (scalar_viewable trivial rfl rfl)⟩
  · rw [if_neg hadmits]
    exact ⟨fun _ h => absurd h hadmits, fun _ => hf⟩

theorem putBaseValue_viewable (hf : f.content.Viewable) (type : CastType) (key : String)
    (hv : v.Viewable) : (putBaseValue type f key v).2.content.Viewable := by
  unfold putBaseValue
  split
  · exact Meta.viewable_setData hf hv
  · exact hf

theorem putVector_viewable (hf : f.content.Viewable) (type : CastType) (width : Nat) (key : String)
    (size : Nat) (value cleared : Any) (hvalue : value.Viewable ↔ size ≠ 0)
    (hcleared : ¬ cleared.Viewable) :
    (putVector type width f key size value cleared).2.content.Viewable ↔
      (size = 0 → ¬ KeepsViews.TakesVector f type key) := by
  unfold putVector KeepsViews.TakesVector
  by_cases hadmits : isSameType key (Any.isSameTypeWith type) = true
  · rw [if_neg (not_not.mpr hadmits)]
    by_cases hmax : bufferSizeMax < size
    · rw [if_pos hmax]
      exact ⟨fun _ hsize => by subst hsize; exact absurd hmax (Nat.not_lt_zero _), fun _ => hf⟩
    · rw [if_neg hmax]
      cases hfind : f.content.find key with
      | none =>
        by_cases hsize : size = 0
        · have hempty : ¬ value.Viewable := hvalue.not.mpr (not_not.mpr hsize)
          exact ⟨fun h => absurd h (Meta.not_viewable_setData hempty), fun h =>
            absurd ⟨hadmits, fun _ hv => nomatch hv⟩ (h hsize)⟩
        · exact ⟨fun _ h => absurd h hsize, fun _ =>
            Meta.viewable_setData hf (hvalue.mpr hsize)⟩
      | some v =>
        by_cases htype : v.isSameTypeWith type = true
        · simp only [if_neg (not_not.mpr htype)]
          by_cases hsize : size = 0
          · simp only [if_pos hsize]
            refine ⟨fun h => absurd h (Meta.not_viewable_setData hcleared), fun h => ?_⟩
            refine absurd ⟨hadmits, ?_⟩ (h hsize)
            rintro _ ⟨⟩
            exact htype
          · simp only [if_neg hsize]
            exact ⟨fun _ h => absurd h hsize, fun _ =>
              Meta.viewable_setData hf (hvalue.mpr hsize)⟩
        · simp only [if_pos htype]
          exact ⟨fun _ _ htakes => htype (htakes.2 v rfl), fun _ => hf⟩
  · rw [if_pos hadmits]
    exact ⟨fun _ _ htakes => hadmits htakes.1, fun _ => hf⟩

theorem call_viewable {f' : Format} {c : Call} (hf : f.content.Viewable)
    (h : f.call c = some f') : f'.content.Viewable ↔ f.KeepsViews c := by
  cases c with
  | putIntValue key value =>
    cases h
    exact putIntValue_viewable hf key value
  | putUintValue key value =>
    cases h
    exact putUintValue_viewable hf key value
  | putLongValue key value =>
    cases h
    exact putLongValue_viewable hf key value
  | putFloatValue key value | putDoubleValue key value | putStringValue key value =>
    cases h
    exact iff_of_true (putBaseValue_viewable hf _ key (scalar_viewable trivial rfl rfl)) trivial
  | putBuffer key addr =>
    cases h
    cases addr with
    | none => exact iff_of_true hf fun hnone => nomatch hnone
    | some data =>
      have hvalue : (Any.vectorUint8 data).Viewable ↔ data.length ≠ 0 := by
        simp [Any.Viewable, Any.Castable, Any.IsEmptyVector]
      have hcleared : ¬ (Any.vectorUint8 []).Viewable := fun hv => hv.2 (.inl rfl)
      rw [KeepsViews, Option.some.injEq, ← List.length_eq_zero_iff]
      exact putVector_viewable hf _ 1 key data.length _ _ hvalue hcleared
  | putIntBuffer key addr =>
    cases h
    cases addr with
    | none => exact iff_of_true hf fun hnone => nomatch hnone
    | some data =>
      have hvalue : (Any.vectorInt32 data).Viewable ↔ data.length ≠ 0 := by
        simp [Any.Viewable, Any.Castable, Any.IsEmptyVector]
      have hcleared : ¬ (Any.vectorInt32 []).Viewable := fun hv => hv.2 (.inr rfl)
      rw [KeepsViews, Option.some.injEq, ← List.length_eq_zero_iff]
      exact putVector_viewable hf _ 4 key data.length _ _ hvalue hcleared
  | setMeta m =>
    cases h
    cases m with
    | none => exact iff_of_true hf trivial
    | some m => exact Iff.rfl
  | removeKey key =>
    cases h
    exact iff_of_true (Meta.viewable_remove hf) trivial
  | getFormatMap emptyData =>
    obtain ⟨m, -, rfl⟩ := Option.map_eq_some_iff.mp h
    exact iff_of_true hf trivial

/-- **The views of every Format** are sound as long as every call keeps them
so, and the first call that does not breaks them. -/
theorem format_views {calls : List Call} (halong : Runs.Along call KeepsViews {} calls)
    (hrun : Runs.run call {} calls = some f) :
    f.ViewsSound ∧
      ∀ c f', f.call c = some f' → (f'.ViewsSound ↔ f.KeepsViews c) := by
  have hf : f.content.Viewable :=
    Runs.run_invariant (I := fun f : Format => f.content.Viewable)
      (fun _ _ _ hI hgood hcall => (call_viewable hI hcall).mpr hgood) Meta.viewable_empty
      halong hrun
  refine ⟨(viewsSound_iff f).mpr hf, fun c f' hcall => ?_⟩
  rw [viewsSound_iff]
  exact call_viewable hf hcall

def exampleCalls : List Call :=
  [.putIntValue "width" 640, .putStringValue "title" "a", .putBuffer "codec_config" (some [1, 2]),
    .removeKey "title"]

theorem format_views_exampleCalls :
    ∃ f, Runs.run call {} exampleCalls = some f ∧ f.ViewsSound := by
  have halong : Runs.Along call KeepsViews {} exampleCalls :=
    .cons (fun _ => by decide +kernel) rfl <| .cons trivial rfl <|
      .cons (fun hnil => nomatch hnil) rfl <| .cons trivial rfl trivial
  have hrun : Runs.run call {} exampleCalls = some _ := rfl
  exact ⟨_, hrun, (format_views halong hrun).1⟩

/-- A boolean tag that is set to an integer, as applications set it. -/
def hasVideo : Format := ⟨∅, Meta.setData ⟨∅⟩ "has_video" (.bool true)⟩

theorem views_dereference_null :
    Runs.run call {} [.putIntValue "has_video" 1] = some hasVideo ∧
      (∀ floatText doubleText, hasVideo.stringify floatText doubleText = none) ∧
      ∀ emptyData, hasVideo.getFormatMap emptyData = none := by
  have hadmits : putIntAdmits "has_video" = true := by decide +kernel
  have hlookup : metadataGetterSetterMap.lookup "has_video" = none := by decide +kernel
  have hbool : "has_video" ∈ metadataBoolVector := by decide +kernel
  have hbad : ¬ ∀ key v, hasVideo.content.find key = some v → v.Castable := fun h =>
    h "has_video" (.bool true) (by rw [hasVideo, Meta.find_setData, if_pos rfl])
  refine ⟨?_, fun _ _ => stringify_null hbad, fun emptyData => getFormatMap_null emptyData hbad⟩
  rw [Runs.run_cons, call, putIntValue, if_pos hadmits, Meta.setMetaDataInt32, hlookup]
  simp only [if_pos hbool]
  rfl

end Format

end MediaFoundation
