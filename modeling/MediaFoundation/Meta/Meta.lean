import MediaFoundation.Lib.TreeMap
import MediaFoundation.Meta.Any

/-!
# Meta

`Meta`, the map from tags to type-erased values, and its way through a parcel
(`meta.cpp`). The reader starts each value from the default of its tag, which
decides the type of an enumeration and nothing else.

Conventions:

* The parcel takes any number of fields; `rawDataCapacity` is what
  `GetRawDataCapacity` returns for it.
* Of `g_metadataDefaultValueMap` the tags are listed whose default is an
  enumeration. The other defaults, and those of `g_ValueTypeDefaultValueMap`,
  are of types that are not one: `FromParcel` overwrites them or fails, alike
  for all of them.
* `GraphicPixelFormat` is an enumeration of the graphics library, of four bytes.
-/

namespace MediaFoundation

open Wire ParcelM
open Std (ExtTreeMap)

structure Meta where
  map : ExtTreeMap String Any

-- Defaults and types

/-- The rows of `g_metadataDefaultValueMap` with an enumeration. -/
def enumDefaults : List (String × EnumType) :=
  [("regular.src.input.type", ⟨"SrcInputType", .uint32⟩),
    ("audio_sample_format", ⟨"AudioSampleFormat", .int32⟩),
    ("audio.raw.sample.format", ⟨"AudioSampleFormat", .int32⟩),
    ("pixel_format", ⟨"VideoPixelFormat", .int32⟩),
    ("track_type", ⟨"MediaType", .int32⟩),
    ("video.h264.profile", ⟨"VideoH264Profile", .int32⟩),
    ("rotation_angle", ⟨"VideoRotation", .int32⟩),
    ("video_orientation_type", ⟨"VideoOrientationType", .int32⟩),
    ("color_primaries", ⟨"ColorPrimary", .int32⟩),
    ("video_hdr_type", ⟨"HDRType", .int32⟩),
    ("transfer_characteristics", ⟨"TransferCharacteristic", .int32⟩),
    ("matrix_coefficients", ⟨"MatrixCoefficient", .int32⟩),
    ("video.h265.profile", ⟨"HEVCProfile", .int32⟩),
    ("video.h265.level", ⟨"HEVCLevel", .int32⟩),
    ("chroma_location", ⟨"ChromaLocation", .int32⟩),
    ("file_type", ⟨"FileType", .int32⟩),
    ("video_encode_bitrate_mode", ⟨"VideoEncodeBitrateMode", .int32⟩),
    ("video_encode_b_frame_gop_mode", ⟨"VideoEncodeBFrameGopMode", .int32⟩),
    ("video_encoder_temporal_gop_reference_mode", ⟨"TemporalGopReferenceMode", .int32⟩),
    ("video_graphic_pixel_format", ⟨"GraphicPixelFormat", .int32⟩),
    ("video_codec_scenario", ⟨"VideoCodecScenario", .int32⟩),
    ("channel_layout", ⟨"AudioChannelLayout", .int64⟩),
    ("audio.output.channel.layout", ⟨"AudioChannelLayout", .int64⟩),
    ("audio_soundbed_layout", ⟨"AudioChannelLayout", .int64⟩),
    ("audio.aac.profile", ⟨"AudioAacProfile", .uint8⟩),
    ("audio.aac.stream.format", ⟨"AudioAacStreamFormat", .uint8⟩),
    ("demuxer_mode", ⟨"DemuxerMode", .int32⟩)]

/-- `GetDefaultAnyValue`; the type code decides only which of the defaults that
are not enumerations is taken. -/
def getDefaultAnyValue (tag : String) (_type : Int32) : Any :=
  match enumDefaults.lookup tag with
  | some t => .enumeration t 0
  | none => .string ""

def getterSetterInt64Tags : List String :=
  ["channel_layout", "audio.output.channel.layout", "audio_soundbed_layout"]

namespace Meta

def getValueType (tag : String) : Any → AnyValueType
  | .int32 _ => .int32T
  | .uint32 _ => .uint32T
  | .bool _ => .bool
  | .int64 _ => .int64T
  | .float _ => .float
  | .double _ => .double
  | .vectorUint8 _ => .vectorUint8
  | .string _ => .string
  | .vectorInt32 _ => .vectorInt32
  | .vectorInt64 _ => .vectorInt64
  | _ => if tag ∈ getterSetterInt64Tags then .int64T else .int32T

-- ToParcel and FromParcel

/-- The loop of `ToParcel`, which ends at the first failure. -/
def writeEntries : List (String × Any) → ParcelM Unit
  | [] => pure ()
  | (tag, value) :: rest => do
    writeString tag
    writeInt32 (getValueType tag value).toInt32
    value.toParcel
    writeEntries rest

def toParcel (m : Meta) : ParcelM Unit := Call.rewinding do
  writeInt32 (.ofNat m.map.size)
  writeEntries m.map.toList

def readEntries : Nat → ExtTreeMap String Any → ParcelM Meta
  | 0, map => pure ⟨map⟩
  | count + 1, map => do
    let key ← readString
    let type ← readInt32
    let value ← (getDefaultAnyValue key type).fromParcel
    readEntries count (map.insert key value)

def fromParcel (rawDataCapacity : Nat) : ParcelM Meta := do
  let size ← readInt32
  if size < 0 ∨ rawDataCapacity < size.toInt.toNat then Call.fail
  else readEntries size.toInt.toNat ∅

-- The round trip

/-- `ToParcel` refuses none of the values. -/
def Writable (m : Meta) : Prop := ∀ (tag : String) (v : Any), m.map[tag]? = some v → v.Writable

/-- Every value is of a base type, or of the enumeration that its tag defaults
to, and the reader admits as many entries. -/
structure Parcelable (rawDataCapacity : Nat) (m : Meta) : Prop where
  size_le : m.map.size ≤ rawDataCapacity
  size_lt : m.map.size < 2 ^ 31
  values : ∀ tag v, m.map[tag]? = some v → Any.Parcelable (getDefaultAnyValue tag 0) v

variable {m : Meta} {rawDataCapacity : Nat}

theorem readEntries_carries {es : List (String × Any)} (map : ExtTreeMap String Any)
    (h : ∀ e ∈ es, Any.Parcelable (getDefaultAnyValue e.1 0) e.2) :
    Carries (writeEntries es) (readEntries es.length map)
      ⟨es.foldl (fun m e => m.insert e.1 e.2) map⟩ := by
  induction es generalizing map with
  | nil => exact .pure _
  | cons e es ih =>
    obtain ⟨tag, v⟩ := e
    have hv : Carries v.toParcel (getDefaultAnyValue tag 0).fromParcel v :=
      Any.toParcel_carries (h (tag, v) List.mem_cons_self)
    have hrest := ih (map.insert tag v) fun e he => h e (List.mem_cons_of_mem _ he)
    refine Carries.bind (a := tag) (.takeD rfl) ?_
    refine Carries.bind (a := (getValueType tag v).toInt32) (.takeD rfl) ?_
    exact hv.bind hrest

theorem toParcel_carries (h : m.Parcelable rawDataCapacity) :
    Carries m.toParcel (fromParcel rawDataCapacity) m := by
  have hsize : (Int32.ofNat m.map.size).toInt = m.map.size := Int32.toInt_ofNat_of_lt h.size_lt
  refine Carries.rewinding (Carries.bind (a := .ofNat m.map.size) (.takeD rfl) ?_)
  have hnonneg : ¬ Int32.ofNat m.map.size < 0 := by
    rw [Int32.lt_iff_toInt_lt, hsize]
    exact Int.not_lt.mpr (Int.natCast_nonneg _)
  have hcap := h.size_le
  rw [if_neg (by rw [hsize, Int.toNat_natCast]; exact not_or_intro hnonneg (by omega)), hsize,
    Int.toNat_natCast, ← ExtTreeMap.length_toList]
  have hvalues : ∀ e ∈ m.map.toList, Any.Parcelable (getDefaultAnyValue e.1 0) e.2 := fun e he =>
    h.values e.1 e.2 (ExtTreeMap.mem_toList_iff_getElem?_eq_some.mp he)
  have hentries := readEntries_carries ∅ hvalues
  rwa [TreeMap.foldl_insert_toList] at hentries

theorem writeEntries_puts {es : List (String × Any)} (h : ∀ e ∈ es, e.2.Writable) :
    ∃ fs, Puts (writeEntries es) fs := by
  induction es with
  | nil => exact ⟨_, .pure⟩
  | cons e es ih =>
    obtain ⟨fs, hv⟩ := Any.toParcel_puts (h e List.mem_cons_self)
    obtain ⟨gs, hrest⟩ := ih fun e he => h e (List.mem_cons_of_mem _ he)
    exact ⟨_, (Puts.put _).bind ((Puts.put _).bind (hv.bind hrest))⟩

theorem writeEntries_fails {es : List (String × Any)} (h : ∃ e ∈ es, ¬ e.2.Writable) :
    Fails (writeEntries es) := by
  induction es with
  | nil =>
    obtain ⟨e, he, -⟩ := h
    exact absurd he List.not_mem_nil
  | cons e es ih =>
    refine .of_rest fun _ => .of_rest fun _ => ?_
    by_cases he : e.2.Writable
    · refine .of_rest fun _ => ih ?_
      obtain ⟨e', he', hbad⟩ := h
      rcases List.mem_cons.mp he' with rfl | he'
      · exact absurd he hbad
      · exact ⟨e', he', hbad⟩
    · exact (Any.toParcel_fails he).bind

theorem toParcel_puts (h : m.Writable) :
    ∃ fs, Puts m.toParcel (.int32 (.ofNat m.map.size) :: fs) := by
  have hwritable : ∀ e ∈ m.map.toList, e.2.Writable := fun e he =>
    h e.1 e.2 (ExtTreeMap.mem_toList_iff_getElem?_eq_some.mp he)
  obtain ⟨fs, hentries⟩ := writeEntries_puts hwritable
  exact ⟨_, ((Puts.put _).bind hentries).rewinding⟩

theorem toParcel_fails (h : ¬ m.Writable) (p : MessageParcel) : m.toParcel p = (none, p) := by
  refine Fails.rewinding (.of_rest fun _ => writeEntries_fails ?_) p
  unfold Writable at h
  push Not at h
  obtain ⟨tag, v, hv, hbad⟩ := h
  exact ⟨(tag, v), ExtTreeMap.mem_toList_iff_getElem?_eq_some.mpr hv, hbad⟩

-- What can arrive

theorem readEntries_parcelable {count : Nat} {map : ExtTreeMap String Any} {p q : MessageParcel}
    (hmap : ∀ tag v, map[tag]? = some v → Any.Parcelable (getDefaultAnyValue tag 0) v)
    (h : readEntries count map p = (some m, q)) :
    (∀ tag v, m.map[tag]? = some v → Any.Parcelable (getDefaultAnyValue tag 0) v) ∧
      m.map.size ≤ map.size + count := by
  induction count generalizing map p with
  | zero =>
    have hm : Meta.mk map = m := Option.some.inj (congrArg Prod.fst h)
    subst hm
    exact ⟨hmap, Nat.le_refl _⟩
  | succ count ih =>
    obtain ⟨key, p₁, -, h⟩ := Call.bind_eq_some.mp h
    obtain ⟨type, p₂, -, h⟩ := Call.bind_eq_some.mp h
    obtain ⟨value, p₃, hvalue, h⟩ := Call.bind_eq_some.mp h
    have hread : Any.Parcelable (getDefaultAnyValue key 0) value :=
      Any.parcelable_of_fromParcel hvalue
    have hinsert : ∀ tag v, (map.insert key value)[tag]? = some v →
        Any.Parcelable (getDefaultAnyValue tag 0) v := by
      intro tag v hv
      rw [ExtTreeMap.getElem?_insert] at hv
      split at hv
      next heq =>
        rw [← Std.LawfulEqOrd.eq_of_compare heq, ← Option.some.inj hv]
        exact hread
      · exact hmap tag v hv
    obtain ⟨hvalues, hsize⟩ := ih hinsert h
    have hgrow := ExtTreeMap.size_insert_le (t := map) (k := key) (v := value)
    exact ⟨hvalues, by omega⟩

theorem parcelable_of_fromParcel {fs q : MessageParcel}
    (h : fromParcel rawDataCapacity (.int32 (.ofNat m.map.size) :: fs) = (some m, q)) :
    m.Parcelable rawDataCapacity := by
  have hread : readInt32 (.int32 (.ofNat m.map.size) :: fs) = (some (.ofNat m.map.size), fs) := rfl
  rw [fromParcel, Call.bind_some hread] at h
  split at h
  · cases h
  next hcount =>
    have hempty : ∀ (tag : String) (v : Any), (∅ : ExtTreeMap String Any)[tag]? = some v →
        Any.Parcelable (getDefaultAnyValue tag 0) v := fun tag v hv => by
      rw [ExtTreeMap.getElem?_empty] at hv
      cases hv
    obtain ⟨hvalues, hsize⟩ := readEntries_parcelable hempty h
    have hlt := (Int32.ofNat m.map.size).toInt_lt
    rw [ExtTreeMap.size_empty] at hsize
    have hcast : (Int32.ofNat m.map.size).toInt = m.map.size :=
      Int32.toInt_ofNat_of_lt (by omega)
    rw [not_or, hcast, Int.toNat_natCast, Nat.not_lt] at hcount
    exact ⟨hcount.2, by omega, hvalues⟩

-- Exactly when a Meta goes through a parcel

/-- A `ToParcel` that succeeds has appended what `FromParcel` makes the same
`Meta` of, and no more; one that fails has left the parcel as it was. -/
def RoundTrips (rawDataCapacity : Nat) (m : Meta) : Prop :=
  (∀ p q, m.toParcel p = (some (), q) →
      ∃ fs, q = p ++ fs ∧ ∀ rest, fromParcel rawDataCapacity (fs ++ rest) = (some m, rest)) ∧
    ∀ p q, m.toParcel p = (none, q) → q = p

/-- **A Meta goes through a parcel** exactly when it holds a value that
`ToParcel` refuses, or every value is of a type that its tag admits. -/
theorem roundTrips_iff (rawDataCapacity : Nat) (m : Meta) :
    RoundTrips rawDataCapacity m ↔ (m.Writable → m.Parcelable rawDataCapacity) := by
  constructor
  · rintro ⟨hround, -⟩ hwritable
    obtain ⟨fs, hputs⟩ := toParcel_puts hwritable
    obtain ⟨fs', hfs, hread⟩ := hround [] _ (hputs [])
    rw [List.nil_append, List.nil_append] at hfs
    have hread := hread []
    rw [List.append_nil, ← hfs] at hread
    exact parcelable_of_fromParcel hread
  · intro hparcelable
    refine ⟨fun p q hwrite => ?_, fun p q hwrite => ?_⟩
    · have hwritable : m.Writable := by
        by_contra hbad
        rw [toParcel_fails hbad p] at hwrite
        cases hwrite
      obtain ⟨fs, hputs, htakes⟩ := toParcel_carries (hparcelable hwritable)
      rw [hputs p] at hwrite
      exact ⟨fs, (congrArg Prod.snd hwrite).symm, htakes⟩
    · by_cases hwritable : m.Writable
      · obtain ⟨fs, hputs⟩ := toParcel_puts hwritable
        rw [hputs p] at hwrite
        cases hwrite
      · rw [toParcel_fails hwritable p] at hwrite
        exact (congrArg Prod.snd hwrite).symm

/-- A value of type `uint8_t`, which is what the tag is registered with. -/
def avType : Meta := ⟨(∅ : ExtTreeMap String Any).insert "avType" (.other ⟨"unsigned char", 1⟩ [1])⟩

/-- `ToParcel` announces a value of no base type and writes none. -/
theorem toParcel_drops_uint8 :
    avType.toParcel [] =
        (some (), [.int32 1, .string "avType", .int32 AnyValueType.int32T.toInt32,
          .int32 AnyValueType.invalidType.toInt32]) ∧
      (fromParcel 1000 (avType.toParcel []).2).1 = none := ⟨rfl, rfl⟩

end Meta

end MediaFoundation
