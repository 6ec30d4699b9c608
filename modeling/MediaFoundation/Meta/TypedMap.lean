import MediaFoundation.Meta.FormatGets

/-!
# A Format is a typed map

What the `Get`s of a `Format` read after a `Put`. A value goes into the `Meta`
as an integer, as an enumeration or as a boolean, by two tables, and comes back
by the same tables; a vector of formats goes into a map of its own.

`TypedMap` is the law of a map whose keys hold one value of one kind. It fails
for the tags of booleans, which both integer `Get`s read, and where the two maps
are not kept apart (`not_typedMap`); `PutLaw` is what holds.
-/

namespace MediaFoundation

open Std (ExtTreeMap)

-- The tables

theorem lookup_of_mem_boolVector {tag : String} (h : tag ∈ metadataBoolVector) :
    metadataGetterSetterMap.lookup tag = none := by
  have hall : ∀ tag ∈ metadataBoolVector, metadataGetterSetterMap.lookup tag = none := by
    simp only [metadataBoolVector, List.forall_mem_cons]
    and_intros <;> decide +kernel
  exact hall tag h

theorem lookup_of_mem_int64Tags {tag : String} (h : tag ∈ getterSetterInt64Tags) :
    metadataGetterSetterMap.lookup tag = none := by
  have hall : ∀ tag ∈ getterSetterInt64Tags, metadataGetterSetterMap.lookup tag = none := by
    simp only [getterSetterInt64Tags, List.forall_mem_cons]
    and_intros <;> decide +kernel
  exact hall tag h

theorem bits_of_lookup {tag : String} {t : EnumType}
    (h : metadataGetterSetterMap.lookup tag = some t) :
    t.underlying = .int32 ∨ t.underlying = .uint32 := by
  have hall : ∀ e ∈ metadataGetterSetterMap,
      e.2.underlying = .int32 ∨ e.2.underlying = .uint32 := by
    decide
  obtain ⟨before, after, hrows, -⟩ := List.lookup_eq_some_iff.mp h
  exact hall (tag, t) (by rw [hrows]; simp)

theorem castTo_signExtend {t : EnumType} (h : t.underlying = .int32 ∨ t.underlying = .uint32)
    (value : Int32) :
    Int32.ofBitVec (Any.castTo 32 t (value.toBitVec.signExtend t.underlying.bits)) = value := by
  obtain ⟨name, underlying⟩ := t
  rcases h with rfl | rfl
  · simp [Any.castTo, Underlying.signed, Underlying.bits]
  · simp [Any.castTo, Underlying.signed, Underlying.bits]

namespace FullFormat

-- The law

/-- An integer, 0 or 1 for the tag of a boolean. -/
def intPut (key : String) (value : Int32) : Int32 :=
  if key ∈ metadataBoolVector then (if value = 0 then 0 else 1) else value

def uintPut (key : String) (value : UInt32) : UInt32 :=
  if key ∈ metadataBoolVector then (if value = 0 then 0 else 1) else value

def valuePut (key : String) : (kind : Kind) → kind.Argument → Option kind.Value
  | .int, value => some (intPut key value)
  | .uint, value => some (uintPut key value)
  | .long, value => some value
  | .float, value => some value
  | .double, value => some value
  | .string, value => some value
  | .buffer, addr => addr
  | .intBuffer, addr => addr
  | .formatVector, value => some value

structure TypedMap (f : FullFormat) (key : String) (kind : Kind) (value : kind.Argument) :
    Prop where
  get_put : (f.put key kind value).1 = true →
    (f.put key kind value).2.get key kind = valuePut key kind value ∧
      (valuePut key kind value).isSome
  otherKeys : (f.put key kind value).1 = true → ∀ other ≠ key, ∀ kind',
    (f.put key kind value).2.get other kind' = f.get other kind'
  otherKinds : (f.put key kind value).1 = true → ∀ kind' ≠ kind,
    (f.put key kind value).2.get key kind' = none
  keys : (f.put key kind value).1 = true → ∀ tag,
    (f.put key kind value).2.containKey tag = true ↔ tag ∈ (f.put key kind value).2.getKeys
  refused : (f.put key kind value).1 = false → ∀ tag kind',
    (f.put key kind value).2.get tag kind' = f.get tag kind'

def BothIntegers (key : String) (kind kind' : Kind) : Prop :=
  key ∈ metadataBoolVector ∧ (kind = .int ∨ kind = .uint) ∧ (kind' = .int ∨ kind' = .uint)

def truthPut : (kind : Kind) → kind.Argument → Option Bool
  | .int, value => some (int32Truth value)
  | .uint, value => some (uint32Truth value)
  | _, _ => none
where
  int32Truth (value : Int32) : Bool := value ≠ 0
  uint32Truth (value : UInt32) : Bool := value ≠ 0

/-- The array of no elements, put where a vector with elements is. -/
def ClearsVector (f : FullFormat) (key : String) : (kind : Kind) → kind.Argument → Prop
  | .buffer, addr => addr = some [] ∧ ∃ data ∈ f.getBuffer key, data ≠ []
  | .intBuffer, addr => addr = some [] ∧ ∃ data ∈ f.getIntBuffer key, data ≠ []
  | _, _ => False

/-- What a `Put` does: the tag of a boolean is read by both integer `Get`s, and a
key of a vector of formats is contained, listed or not. What becomes of a vector
of formats under a value, and of a vector that is cleared, is left open. -/
structure PutLaw (f : FullFormat) (key : String) (kind : Kind) (value : kind.Argument) : Prop where
  get_put : (f.put key kind value).1 = true →
    (f.put key kind value).2.get key kind = valuePut key kind value ∧
      (valuePut key kind value).isSome
  otherKeys : (f.put key kind value).1 = true → ∀ other ≠ key, ∀ kind',
    (f.put key kind value).2.get other kind' = f.get other kind'
  otherKinds : (f.put key kind value).1 = true → ∀ kind' ≠ kind, ¬ BothIntegers key kind kind' →
    (kind' = .formatVector → f.getFormatVector key = none) →
    (f.put key kind value).2.get key kind' = none
  booleans : (f.put key kind value).1 = true → key ∈ metadataBoolVector → ∀ b ∈ truthPut kind value,
    (f.put key kind value).2.getIntValue key = some (if b then 1 else 0) ∧
      (f.put key kind value).2.getUintValue key = some (if b then 1 else 0)
  keys : ∀ tag, (f.put key kind value).2.containKey tag = true ↔
    tag ∈ (f.put key kind value).2.getKeys ∨
      ((f.put key kind value).2.getFormatVector tag).isSome
  refused : (f.put key kind value).1 = false → ¬ ClearsVector f key kind value → ∀ tag kind',
    (f.put key kind value).2.get tag kind' = f.get tag kind'

-- Reading

def read (key : String) : (kind : Kind) → Any → Option kind.Value
  | .int, v =>
    match metadataGetterSetterMap.lookup key with
    | none =>
      if key ∈ metadataBoolVector then
        (v.anyCast .bool).map fun valueBool : Bool => (if valueBool then 1 else 0 : Int32)
      else v.anyCast .int32
    | some t => (v.anyCastEnum t).map fun b => Int32.ofBitVec (Any.castTo 32 t b)
  | .uint, v =>
    match metadataGetterSetterMap.lookup key with
    | none =>
      if key ∈ metadataBoolVector then
        (v.anyCast .bool).map fun valueBool : Bool => (if valueBool then 1 else 0 : UInt32)
      else v.anyCast .uint32
    | some _ => none
  | .long, v =>
    if key ∈ getterSetterInt64Tags then
      (v.anyCastEnum audioChannelLayout).map fun b => Int64.ofBitVec (b.signExtend 64)
    else v.anyCast .int64
  | .float, v => v.anyCast .float
  | .double, v => v.anyCast .double
  | .string, v => v.anyCast .string
  | .buffer, v => v.anyCast .vectorUint8
  | .intBuffer, v => v.anyCast .vectorInt32
  | .formatVector, _ => none

attribute [local grind =] read

theorem getData_eq (m : Meta) (tag : String) (type : CastType) :
    m.getData tag type = (m.find tag).bind fun v => v.anyCast type := by
  unfold Meta.getData
  cases m.find tag with
  | none => rfl
  | some v =>
    show (if v.isSameTypeWith type then v.anyCast type else none) = v.anyCast type
    unfold Any.isSameTypeWith
    cases v.anyCast type <;> rfl

theorem get_eq (f : FullFormat) (key : String) {kind : Kind} (h : kind ≠ .formatVector) :
    f.get key kind = (f.format.content.find key).bind (read key kind) := by
  cases kind with
  | formatVector => exact absurd rfl h
  | int =>
    show f.format.content.getMetaDataInt32 key = _
    unfold Meta.getMetaDataInt32
    simp only [getData_eq, read]
    cases f.format.content.find key with
    | none =>
      show _ = none
      cases metadataGetterSetterMap.lookup key with
      | none => exact ite_self _
      | some t => rfl
    | some v => rfl
  | uint =>
    show f.format.content.getMetaDataUint32 key = _
    unfold Meta.getMetaDataUint32
    simp only [getData_eq, read]
    cases f.format.content.find key with
    | none =>
      show _ = none
      cases metadataGetterSetterMap.lookup key with
      | none => exact ite_self _
      | some t => rfl
    | some v => rfl
  | long =>
    show f.format.content.getMetaDataInt64 key = _
    unfold Meta.getMetaDataInt64
    cases f.format.content.find key with
    | none => split <;> rfl
    | some v => rfl
  | _ => exact getData_eq _ _ _

theorem get_other {f g : FullFormat} {tag : String}
    (hfind : g.format.content.find tag = f.format.content.find tag)
    (hvectors : g.formatVecMap[tag]? = f.formatVecMap[tag]?) (kind : Kind) :
    g.get tag kind = f.get tag kind := by
  by_cases hkind : kind = .formatVector
  · subst hkind
    exact hvectors
  · rw [get_eq g tag hkind, get_eq f tag hkind, hfind]

-- What each kind of stored value is read as

section Stored

variable {key : String}

theorem read_integers_eq_none {v : Any} (hbool : v.anyCast .bool = none)
    (hint32 : v.anyCast .int32 = none) (huint32 : v.anyCast .uint32 = none)
    (hint64 : v.anyCast .int64 = none) (henum : ∀ t, v.anyCastEnum t = none) :
    read key .int v = none ∧ read key .uint v = none ∧ read key .long v = none := by
  refine ⟨?_, ?_, ?_⟩
  · simp only [read, hbool, hint32, henum]
    cases metadataGetterSetterMap.lookup key with
    | none => exact ite_self _
    | some t => rfl
  · simp only [read, hbool, huint32]
    cases metadataGetterSetterMap.lookup key with
    | none => exact ite_self _
    | some t => rfl
  · simp only [read, hint64, henum]
    exact ite_self _

theorem read_int64_eq_none (value : Int64) {kind : Kind} (h : kind ≠ .long) :
    read key kind (.int64 value) = none := by
  cases kind with
  | long => exact absurd rfl h
  | int | uint =>
    unfold read
    split
    · exact ite_self _
    · rfl
  | _ => rfl

theorem read_channelLayout_eq_none (htag : key ∈ getterSetterInt64Tags) (value : BitVec 64)
    {kind : Kind} (h : kind ≠ .long) :
    read key kind (.enumeration audioChannelLayout value) = none := by
  have hlookup := lookup_of_mem_int64Tags htag
  cases kind with
  | long => exact absurd rfl h
  | int | uint =>
    simp only [read, hlookup]
    exact ite_self _
  | _ => rfl

theorem read_enumeration_eq_none {t : EnumType}
    (hlookup : metadataGetterSetterMap.lookup key = some t) (value : BitVec t.underlying.bits)
    {kind : Kind} (h : kind ≠ .int) :
    read key kind (.enumeration t value) = none := by
  cases kind with
  | int => exact absurd rfl h
  | uint => simp only [read, hlookup]
  | long =>
    have htag : key ∉ getterSetterInt64Tags := by
      intro htag
      rw [lookup_of_mem_int64Tags htag] at hlookup
      cases hlookup
    exact if_neg htag
  | _ => rfl

theorem read_int32_eq_none (hlookup : metadataGetterSetterMap.lookup key = none)
    (hbool : key ∉ metadataBoolVector) (value : Int32) {kind : Kind} (h : kind ≠ .int) :
    read key kind (.int32 value) = none := by
  cases kind with
  | int => exact absurd rfl h
  | uint =>
    simp only [read, hlookup]
    exact if_neg hbool
  | long => exact ite_self _
  | _ => rfl

theorem read_uint32_eq_none (hlookup : metadataGetterSetterMap.lookup key = none)
    (hbool : key ∉ metadataBoolVector) (value : UInt32) {kind : Kind} (h : kind ≠ .uint) :
    read key kind (.uint32 value) = none := by
  cases kind with
  | uint => exact absurd rfl h
  | int =>
    simp only [read, hlookup]
    exact if_neg hbool
  | long => exact ite_self _
  | _ => rfl

/-- The tag of a boolean is read as 0 or 1 by both integer `Get`s, and by no other. -/
theorem read_bool (hbool : key ∈ metadataBoolVector) (b : Bool) :
    read key .int (.bool b) = some (if b then 1 else 0 : Int32) ∧
      read key .uint (.bool b) = some (if b then 1 else 0 : UInt32) ∧
      ∀ kind, kind ≠ .int → kind ≠ .uint → read key kind (.bool b) = none := by
  have hlookup := lookup_of_mem_boolVector hbool
  refine ⟨?_, ?_, fun kind hint huint => ?_⟩
  · simp only [read, hlookup]
    exact if_pos hbool
  · simp only [read, hlookup]
    exact if_pos hbool
  · cases kind with
    | int => exact absurd rfl hint
    | uint => exact absurd rfl huint
    | long => exact ite_self _
    | _ => rfl

end Stored

-- What a Put stores

structure Holds (key : String) (kind : Kind) (value : kind.Argument) (v : Any) : Prop where
  same : read key kind v = valuePut key kind value
  isSome : (valuePut key kind value).isSome
  others : ∀ kind' ≠ kind, ¬ BothIntegers key kind kind' → read key kind' v = none
  booleans : key ∈ metadataBoolVector → ∀ b ∈ truthPut kind value,
    read key .int v = some (if b then 1 else 0 : Int32) ∧
      read key .uint v = some (if b then 1 else 0 : UInt32)

section Puts

variable {key : String}

theorem holds_int_enumeration {t : EnumType}
    (hlookup : metadataGetterSetterMap.lookup key = some t) (value : Int32) :
    Holds key .int value (.enumeration t (value.toBitVec.signExtend t.underlying.bits)) := by
  have hbool : key ∉ metadataBoolVector := by
    intro hbool
    rw [lookup_of_mem_boolVector hbool] at hlookup
    cases hlookup
  refine ⟨?_, rfl, fun kind' h _ => read_enumeration_eq_none hlookup _ h, fun h => absurd h hbool⟩
  have hcast : Any.anyCastEnum t (.enumeration t (value.toBitVec.signExtend t.underlying.bits)) =
      some (value.toBitVec.signExtend t.underlying.bits) := dif_pos rfl
  simp only [read, hlookup, hcast]
  show some (Int32.ofBitVec (Any.castTo 32 t (value.toBitVec.signExtend _))) =
    some (intPut key value)
  rw [castTo_signExtend (bits_of_lookup hlookup), intPut, if_neg hbool]

theorem holds_int_bool (hbool : key ∈ metadataBoolVector) (value : Int32) :
    Holds key .int value (.bool (value ≠ 0)) := by
  obtain ⟨hint, huint, hnone⟩ := read_bool hbool (decide (value ≠ 0))
  refine ⟨hint.trans ?_, rfl, fun kind' h hboth => ?_, fun _ b hb => ?_⟩
  · show some _ = some (intPut key value)
    rw [intPut, if_pos hbool]
    by_cases hzero : value = 0
    · simp [hzero]
    · simp [hzero]
  · refine hnone kind' h fun h' => hboth ⟨hbool, .inl rfl, .inr h'⟩
  · cases hb
    exact ⟨hint, huint⟩

theorem holds_uint_bool (hbool : key ∈ metadataBoolVector) (value : UInt32) :
    Holds key .uint value (.bool (value ≠ 0)) := by
  obtain ⟨hint, huint, hnone⟩ := read_bool hbool (decide (value ≠ 0))
  refine ⟨huint.trans ?_, rfl, fun kind' h hboth => ?_, fun _ b hb => ?_⟩
  · show some _ = some (uintPut key value)
    rw [uintPut, if_pos hbool]
    by_cases hzero : value = 0
    · simp [hzero]
    · simp [hzero]
  · refine hnone kind' (fun h' => hboth ⟨hbool, .inr rfl, .inl h'⟩) h
  · cases hb
    exact ⟨hint, huint⟩

theorem holds_int32 (hlookup : metadataGetterSetterMap.lookup key = none)
    (hbool : key ∉ metadataBoolVector) (value : Int32) : Holds key .int value (.int32 value) := by
  refine ⟨?_, rfl, fun kind' h _ => read_int32_eq_none hlookup hbool value h,
    fun h => absurd h hbool⟩
  simp only [read, hlookup]
  refine (if_neg hbool).trans ?_
  show some value = some (intPut key value)
  rw [intPut, if_neg hbool]

theorem holds_uint32 (hlookup : metadataGetterSetterMap.lookup key = none)
    (hbool : key ∉ metadataBoolVector) (value : UInt32) :
    Holds key .uint value (.uint32 value) := by
  refine ⟨?_, rfl, fun kind' h _ => read_uint32_eq_none hlookup hbool value h,
    fun h => absurd h hbool⟩
  simp only [read, hlookup]
  refine (if_neg hbool).trans ?_
  show some value = some (uintPut key value)
  rw [uintPut, if_neg hbool]

theorem holds_int64 (htag : key ∉ getterSetterInt64Tags) (value : Int64) :
    Holds key .long value (.int64 value) :=
  ⟨if_neg htag, rfl, fun _ h _ => read_int64_eq_none value h, fun _ _ hb => nomatch hb⟩

theorem holds_channelLayout (htag : key ∈ getterSetterInt64Tags) (value : Int64) :
    Holds key .long value (.enumeration audioChannelLayout (value.toBitVec.signExtend _)) := by
  refine ⟨(if_pos htag).trans ?_, rfl, fun _ h _ => read_channelLayout_eq_none htag _ h,
    fun _ _ hb => nomatch hb⟩
  show some (Int64.ofBitVec ((value.toBitVec.signExtend 64).signExtend 64)) = some value
  rw [BitVec.signExtend_eq, BitVec.signExtend_eq]
  rfl

theorem holds_plain {kind : Kind} {value : kind.Argument} {v : Any} (hbool : v.anyCast .bool = none)
    (hint32 : v.anyCast .int32 = none) (huint32 : v.anyCast .uint32 = none)
    (hint64 : v.anyCast .int64 = none) (henum : ∀ t, v.anyCastEnum t = none)
    (hsame : read key kind v = valuePut key kind value) (hsome : (valuePut key kind value).isSome)
    (hothers : ∀ kind' ≠ kind, kind' ≠ .int → kind' ≠ .uint → kind' ≠ .long →
      read key kind' v = none)
    (htruth : truthPut kind value = none) : Holds key kind value v := by
  obtain ⟨hint, huint, hlong⟩ := read_integers_eq_none hbool hint32 huint32 hint64 henum
  refine ⟨hsame, hsome, fun kind' h _ => ?_, fun _ b hb => ?_⟩
  · by_cases hkind : kind' = .int ∨ kind' = .uint ∨ kind' = .long
    · rcases hkind with rfl | rfl | rfl
      · exact hint
      · exact huint
      · exact hlong
    · simp only [not_or] at hkind
      exact hothers kind' h hkind.1 hkind.2.1 hkind.2.2
  · rw [htruth] at hb
    cases hb

/-- A value that is stored as it is put. -/
inductive Plain : (kind : Kind) → kind.Argument → Any → Prop
  | float (value : Kind.float.Argument) : Plain .float value (.float value)
  | double (value : Kind.double.Argument) : Plain .double value (.double value)
  | string (value : Kind.string.Argument) : Plain .string value (.string value)
  | buffer (data : List UInt8) : Plain .buffer (some data) (.vectorUint8 data)
  | intBuffer (data : List Int32) : Plain .intBuffer (some data) (.vectorInt32 data)

theorem Plain.holds {kind : Kind} {value : kind.Argument} {v : Any} (h : Plain kind value v) :
    Holds key kind value v := by
  cases h with
  | float | double | string | buffer | intBuffer =>
    refine holds_plain rfl rfl rfl rfl (fun _ => rfl) rfl rfl (fun kind' hne _ _ _ => ?_) rfl
    cases kind' <;> first | rfl | contradiction

theorem putVector_stores {f : Format} {type : CastType} {width size : Nat} {value cleared : Any}
    (h : (Format.putVector type width f key size value cleared).1 = true) :
    (Format.putVector type width f key size value cleared).2.content =
      f.content.setData key value := by
  unfold Format.putVector at h ⊢
  split at h
  · cases h
  · split at h
    · cases h
    · rename_i hadmits hmax
      rw [if_neg hadmits, if_neg hmax]
      split at h
      · rfl
      · split at h
        · cases h
        · split at h
          · cases h
          · rename_i htype hsize
            rw [if_neg htype, if_neg hsize]

theorem putBaseValue_stores {f : Format} {type : CastType} {v : Any}
    (h : (Format.putBaseValue type f key v).1 = true) :
    (Format.putBaseValue type f key v).2.content = f.content.setData key v := by
  unfold Format.putBaseValue at h ⊢
  split at h
  · rename_i hadmits
    rw [if_pos hadmits]
  · cases h

theorem putIntValue_stores {f : Format} {value : Int32} (h : (f.putIntValue key value).1 = true) :
    ∃ v, (f.putIntValue key value).2.content = f.content.setData key v ∧
      Holds key .int value v := by
  unfold Format.putIntValue at h ⊢
  split at h
  · rename_i hadmits
    rw [if_pos hadmits]
    show ∃ v, (f.content.setMetaDataInt32 key value).2 = _ ∧ _
    unfold Meta.setMetaDataInt32
    cases hlookup : metadataGetterSetterMap.lookup key with
    | some t => exact ⟨_, rfl, holds_int_enumeration hlookup value⟩
    | none =>
      by_cases hbool : key ∈ metadataBoolVector
      · simp only [if_pos hbool]
        exact ⟨_, rfl, holds_int_bool hbool value⟩
      · simp only [if_neg hbool]
        exact ⟨_, rfl, holds_int32 hlookup hbool value⟩
  · cases h

theorem putUintValue_stores {f : Format} {value : UInt32}
    (h : (f.putUintValue key value).1 = true) :
    ∃ v, (f.putUintValue key value).2.content = f.content.setData key v ∧
      Holds key .uint value v := by
  unfold Format.putUintValue at h ⊢
  split at h
  · rename_i hadmits
    rw [if_pos hadmits]
    change (f.content.setMetaDataUint32 key value).1 = true at h
    show ∃ v, (f.content.setMetaDataUint32 key value).2 = _ ∧ _
    unfold Meta.setMetaDataUint32 at h ⊢
    cases hlookup : metadataGetterSetterMap.lookup key with
    | some t =>
      rw [hlookup] at h
      cases h
    | none =>
      by_cases hbool : key ∈ metadataBoolVector
      · simp only [if_pos hbool]
        exact ⟨_, rfl, holds_uint_bool hbool value⟩
      · simp only [if_neg hbool]
        exact ⟨_, rfl, holds_uint32 hlookup hbool value⟩
  · cases h

theorem putLongValue_stores {f : Format} {value : Int64} (h : (f.putLongValue key value).1 = true) :
    ∃ v, (f.putLongValue key value).2.content = f.content.setData key v ∧
      Holds key .long value v := by
  unfold Format.putLongValue at h ⊢
  split at h
  · rename_i hadmits
    rw [if_pos hadmits]
    show ∃ v, (f.content.setMetaDataInt64 key value).2 = _ ∧ _
    unfold Meta.setMetaDataInt64
    by_cases htag : key ∈ getterSetterInt64Tags
    · rw [if_pos htag]
      exact ⟨_, rfl, holds_channelLayout htag value⟩
    · rw [if_neg htag]
      exact ⟨_, rfl, holds_int64 htag value⟩
  · cases h

theorem put_stores {f : FullFormat} {kind : Kind} {value : kind.Argument}
    (hkind : kind ≠ .formatVector) (h : (f.put key kind value).1 = true) :
    ∃ v, (f.put key kind value).2.format.content = f.format.content.setData key v ∧
      (f.put key kind value).2.formatVecMap = f.formatVecMap ∧ Holds key kind value v := by
  cases kind with
  | formatVector => exact absurd rfl hkind
  | int =>
    obtain ⟨v, hcontent, hholds⟩ := putIntValue_stores h
    exact ⟨v, hcontent, rfl, hholds⟩
  | uint =>
    obtain ⟨v, hcontent, hholds⟩ := putUintValue_stores h
    exact ⟨v, hcontent, rfl, hholds⟩
  | long =>
    obtain ⟨v, hcontent, hholds⟩ := putLongValue_stores h
    exact ⟨v, hcontent, rfl, hholds⟩
  | float => exact ⟨.float value, putBaseValue_stores h, rfl, Plain.holds (.float value)⟩
  | double => exact ⟨.double value, putBaseValue_stores h, rfl, Plain.holds (.double value)⟩
  | string => exact ⟨.string value, putBaseValue_stores h, rfl, Plain.holds (.string value)⟩
  | buffer =>
    cases value with
    | none => cases h
    | some data =>
      exact ⟨.vectorUint8 data, putVector_stores h, rfl, Plain.holds (.buffer data)⟩
  | intBuffer =>
    cases value with
    | none => cases h
    | some data =>
      exact ⟨.vectorInt32 data, putVector_stores h, rfl, Plain.holds (.intBuffer data)⟩

end Puts

-- A Put that is refused

section Refused

variable {f : FullFormat} {key : String}

theorem putVector_refused {f : Format} {type : CastType} {width size : Nat} {value cleared : Any}
    (h : (Format.putVector type width f key size value cleared).1 = false) :
    (Format.putVector type width f key size value cleared).2 = f ∨
      size = 0 ∧ ∃ v ∈ f.content.find key, v.isSameTypeWith type = true ∧
        (Format.putVector type width f key size value cleared).2.content =
          f.content.setData key cleared := by
  unfold Format.putVector at h ⊢
  by_cases hadmits : Format.isSameType key (Any.isSameTypeWith type) = true
  · rw [if_neg (not_not.mpr hadmits)] at h ⊢
    by_cases hmax : Format.bufferSizeMax < size
    · rw [if_pos hmax]
      exact .inl rfl
    · rw [if_neg hmax] at h ⊢
      cases hfind : f.content.find key with
      | none =>
        rw [hfind] at h
        cases h
      | some v =>
        rw [hfind] at h
        by_cases htype : v.isSameTypeWith type = true
        · simp only [if_neg (not_not.mpr htype)] at h ⊢
          by_cases hsize : size = 0
          · simp only [if_pos hsize]
            exact .inr ⟨hsize, v, rfl, htype, trivial⟩
          · simp only [if_neg hsize] at h
            cases h
        · simp only [if_pos htype]
          exact .inl trivial
  · rw [if_pos hadmits]
    exact .inl rfl

theorem putIntValue_refused {f : Format} {value : Int32} (h : (f.putIntValue key value).1 = false) :
    (f.putIntValue key value).2 = f := by
  unfold Format.putIntValue at h ⊢
  split at h
  · change (f.content.setMetaDataInt32 key value).1 = false at h
    unfold Meta.setMetaDataInt32 at h
    split at h
    · split at h <;> cases h
    · cases h
  · rename_i hadmits
    rw [if_neg hadmits]

theorem putUintValue_refused {f : Format} {value : UInt32}
    (h : (f.putUintValue key value).1 = false) : (f.putUintValue key value).2 = f := by
  unfold Format.putUintValue at h ⊢
  split at h
  · rename_i hadmits
    rw [if_pos hadmits]
    change (f.content.setMetaDataUint32 key value).1 = false at h
    show { f with content := (f.content.setMetaDataUint32 key value).2 } = f
    unfold Meta.setMetaDataUint32 at h ⊢
    split at h
    · split at h <;> cases h
    · rfl
  · rename_i hadmits
    rw [if_neg hadmits]

theorem putLongValue_refused {f : Format} {value : Int64}
    (h : (f.putLongValue key value).1 = false) : (f.putLongValue key value).2 = f := by
  unfold Format.putLongValue at h ⊢
  split at h
  · change (f.content.setMetaDataInt64 key value).1 = false at h
    unfold Meta.setMetaDataInt64 at h
    split at h <;> cases h
  · rename_i hadmits
    rw [if_neg hadmits]

theorem putBaseValue_refused {f : Format} {type : CastType} {v : Any}
    (h : (Format.putBaseValue type f key v).1 = false) :
    (Format.putBaseValue type f key v).2 = f := by
  unfold Format.putBaseValue at h ⊢
  split at h
  · cases h
  · rename_i hadmits
    rw [if_neg hadmits]

/-- A cleared vector that had no elements is what it was. -/
theorem find_setData_same {m : Meta} {v : Any} (h : m.find key = some v) (tag : String) :
    (m.setData key v).find tag = m.find tag := by
  rw [Meta.find_setData]
  split
  · rename_i heq
    rw [← heq, h]
  · rfl

theorem putFormatVector_true (f : FullFormat) (key : String) (value : List FormatCopy) :
    (f.putFormatVector key value).1 = true := by
  show (!(f.formatVecMap.erase key).contains key) = true
  simp

theorem eq_vectorUint8 {v : Any} (h : v.isSameTypeWith .vectorUint8 = true) :
    ∃ data, v = .vectorUint8 data := by
  cases v with
  | vectorUint8 data => exact ⟨data, rfl⟩
  | _ => cases h

theorem eq_vectorInt32 {v : Any} (h : v.isSameTypeWith .vectorInt32 = true) :
    ∃ data, v = .vectorInt32 data := by
  cases v with
  | vectorInt32 data => exact ⟨data, rfl⟩
  | _ => cases h

theorem put_refused {kind : Kind} {value : kind.Argument} (h : (f.put key kind value).1 = false)
    (hclears : ¬ ClearsVector f key kind value) (tag : String) (kind' : Kind) :
    (f.put key kind value).2.get tag kind' = f.get tag kind' := by
  have hleaves : ∀ call : Format → Bool × Format, (call f.format).2 = f.format →
      (f.onFormat call).2.get tag kind' = f.get tag kind' := by
    intro call hcall
    refine get_other ?_ ?_ kind'
    · show (call f.format).2.content.find tag = _
      rw [hcall]
    · rfl
  have hcleared : ∀ (v : Any) {call : Format → Bool × Format}, f.format.content.find key = some v →
      (call f.format).2.content = f.format.content.setData key v →
      (f.onFormat call).2.get tag kind' = f.get tag kind' := by
    intro v call hfind hcontent
    refine get_other ?_ ?_ kind'
    · show (call f.format).2.content.find tag = _
      rw [hcontent]
      exact find_setData_same hfind tag
    · rfl
  cases kind with
  | formatVector =>
    rw [show (f.put key .formatVector value).1 = true from putFormatVector_true f key value] at h
    cases h
  | int => exact hleaves _ (putIntValue_refused h)
  | uint => exact hleaves _ (putUintValue_refused h)
  | long => exact hleaves _ (putLongValue_refused h)
  | float | double | string => exact hleaves _ (putBaseValue_refused h)
  | buffer =>
    cases value with
    | none => exact hleaves _ rfl
    | some data =>
      rcases putVector_refused h with hsame | ⟨hsize, v, hfind, htype, hcontent⟩
      · exact hleaves _ hsame
      · obtain ⟨old, rfl⟩ := eq_vectorUint8 htype
        obtain rfl := List.length_eq_zero_iff.mp hsize
        have hget : f.getBuffer key = some old := by
          show f.format.content.getData key .vectorUint8 = _
          rw [getData_eq, hfind]
          rfl
        have hempty : old = [] := by
          by_contra hsome
          exact hclears ⟨rfl, old, hget, hsome⟩
        subst hempty
        exact hcleared _ hfind hcontent
  | intBuffer =>
    cases value with
    | none => exact hleaves _ rfl
    | some data =>
      rcases putVector_refused h with hsame | ⟨hsize, v, hfind, htype, hcontent⟩
      · exact hleaves _ hsame
      · obtain ⟨old, rfl⟩ := eq_vectorInt32 htype
        obtain rfl := List.length_eq_zero_iff.mp hsize
        have hget : f.getIntBuffer key = some old := by
          show f.format.content.getData key .vectorInt32 = _
          rw [getData_eq, hfind]
          rfl
        have hempty : old = [] := by
          by_contra hsome
          exact hclears ⟨rfl, old, hget, hsome⟩
        subst hempty
        exact hcleared _ hfind hcontent

end Refused

-- Every Put

theorem containKey_iff (f : FullFormat) (tag : String) :
    f.containKey tag = true ↔ tag ∈ f.getKeys ∨ (f.getFormatVector tag).isSome := by
  unfold containKey getKeys getFormatVector Meta.find
  rw [Bool.or_eq_true, ExtTreeMap.mem_keys, ExtTreeMap.mem_iff_isSome_getElem?,
    ExtTreeMap.contains_eq_isSome_getElem?]

section Law

variable {f : FullFormat} {key : String} {kind : Kind} {value : kind.Argument}

theorem putLaw_stored (hkind : kind ≠ .formatVector) : PutLaw f key kind value where
  get_put h := by
    obtain ⟨v, hcontent, -, hholds⟩ := put_stores hkind h
    refine ⟨?_, hholds.isSome⟩
    rw [get_eq _ _ hkind, hcontent, Meta.find_setData, if_pos rfl]
    exact hholds.same
  otherKeys h other hother kind' := by
    obtain ⟨v, hcontent, hvectors, -⟩ := put_stores hkind h
    refine get_other ?_ ?_ kind'
    · rw [hcontent, Meta.find_setData, if_neg hother.symm]
    · rw [hvectors]
  otherKinds h kind' hne hboth hvector := by
    obtain ⟨v, hcontent, hvectors, hholds⟩ := put_stores hkind h
    by_cases hkind' : kind' = .formatVector
    · subst hkind'
      show (f.put key kind value).2.formatVecMap[key]? = none
      rw [hvectors]
      exact hvector rfl
    · rw [get_eq _ _ hkind', hcontent, Meta.find_setData, if_pos rfl]
      exact hholds.others kind' hne hboth
  booleans h hbool b hb := by
    obtain ⟨v, hcontent, -, hholds⟩ := put_stores hkind h
    obtain ⟨hint, huint⟩ := hholds.booleans hbool b hb
    have hfind : (f.put key kind value).2.format.content.find key = some v := by
      rw [hcontent, Meta.find_setData, if_pos rfl]
    constructor
    · refine (get_eq _ _ (show Kind.int ≠ .formatVector from nofun)).trans ?_
      rw [hfind]
      exact hint
    · refine (get_eq _ _ (show Kind.uint ≠ .formatVector from nofun)).trans ?_
      rw [hfind]
      exact huint
  keys := containKey_iff _
  refused := put_refused

theorem putLaw_formatVector (value : List FormatCopy) : PutLaw f key .formatVector value where
  get_put _ := by
    refine ⟨?_, rfl⟩
    show ((f.formatVecMap.erase key).insertIfNew key value)[key]? = some value
    rw [ExtTreeMap.getElem?_insertIfNew, if_pos ⟨Std.ReflCmp.compare_self, by simp⟩]
  otherKeys _ other hother kind' := by
    have hother' : compare key other ≠ .eq := fun h => hother (Std.LawfulEqOrd.eq_of_compare h).symm
    refine get_other ?_ ?_ kind'
    · show (f.format.content.map.erase key)[other]? = _
      rw [ExtTreeMap.getElem?_erase, if_neg hother']
      rfl
    · show ((f.formatVecMap.erase key).insertIfNew key value)[other]? = _
      rw [ExtTreeMap.getElem?_insertIfNew, if_neg fun h => hother' h.1, ExtTreeMap.getElem?_erase,
        if_neg hother']
  otherKinds _ kind' hne _ _ := by
    rw [get_eq _ _ hne]
    have hfind : (f.put key .formatVector value).2.format.content.find key = none := by
      show (f.format.content.map.erase key)[key]? = none
      exact ExtTreeMap.getElem?_erase_self
    rw [hfind]
    rfl
  booleans _ _ b hb := nomatch hb
  keys := containKey_iff _
  refused := put_refused

end Law

/--
**A Format is a typed map**, for every format, key, kind and value: after a `Put`
that returns true the key is read as the value that was put and by the `Get` of
no other kind, except that the tag of a boolean is read as 0 or 1 by both integer
`Get`s; no other key has changed; the keys that are contained are those that are
listed and those of the vectors of formats; and a `Put` that returns false
changes nothing, unless it clears a vector.
-/
theorem put_law (f : FullFormat) (key : String) (kind : Kind) (value : kind.Argument) :
    PutLaw f key kind value := by
  by_cases hkind : kind = .formatVector
  · subst hkind
    exact putLaw_formatVector value
  · exact putLaw_stored hkind

def buffered : FullFormat where
  format := ⟨∅, Meta.setData ⟨∅⟩ "cover" (.vectorUint8 [1])⟩
  formatVecMap := (∅ : FormatVectorMap).insert "tracks" []

/-- The tag of a boolean is read by both integer `Get`s; a vector of formats is not
listed, and stays where an integer is put; a buffer that is not taken is cleared. -/
theorem not_typedMap :
    ¬ TypedMap {} "has_video" .int (1 : Int32) ∧
      ¬ TypedMap {} "tracks" .formatVector [] ∧
      ¬ TypedMap buffered "tracks" .int (1 : Int32) ∧
      ¬ TypedMap buffered "cover" .buffer (some []) := by
  refine ⟨fun h => ?_, fun h => ?_, fun h => ?_, fun h => ?_⟩
  · have hput : (put {} "has_video" .int (1 : Int32)).1 = true ∧
        (put {} "has_video" .int (1 : Int32)).2.getUintValue "has_video" = some 1 := by
      decide +kernel
    have hnone := h.otherKinds hput.1 .uint nofun
    cases hput.2.symm.trans hnone
  · have hlisted : (put {} "tracks" .formatVector []).2.containKey "tracks" = true ∧
        "tracks" ∉ (put {} "tracks" .formatVector []).2.getKeys := by
      decide +kernel
    exact hlisted.2 ((h.keys (putFormatVector_true _ _ _) "tracks").mp hlisted.1)
  · have hput : (put buffered "tracks" .int (1 : Int32)).1 = true ∧
        ((put buffered "tracks" .int (1 : Int32)).2.getFormatVector "tracks").isSome = true := by
      decide +kernel
    have hnone := h.otherKinds hput.1 .formatVector nofun
    rw [show (put buffered "tracks" .int (1 : Int32)).2.getFormatVector "tracks" = none from hnone]
      at hput
    cases hput.2
  · have hput : (put buffered "cover" .buffer (some [])).1 = false ∧
        (put buffered "cover" .buffer (some [])).2.getBuffer "cover" = some [] ∧
        buffered.getBuffer "cover" = some [1] := by
      decide +kernel
    have hsame := h.refused hput.1 "cover" .buffer
    cases hput.2.1.symm.trans (hsame.trans hput.2.2)

end FullFormat

end MediaFoundation
