import MediaFoundation.Common.MessageParcel
import MediaFoundation.Lib.TreeMap

/-!
# Event beans in a parcel

`services/media_monitor/common/src/event_bean.cpp`, with all names and the four maps. A bean that is
written comes back as it was. The reader tells nobody when it gives up: a parcel that is not what a
writer leaves there makes a bean as well.

Conventions:

* The parcel does not fail. A read that does not find a field of its type yields zero or the empty
  string, and takes nothing.
* The three enumerations are the `int32_t` that they are cast from.
-/

namespace MediaFoundation.EventParcel

open Std (ExtTreeMap)
open Wire (Call Puts Takes Fails Yields Carries)
open ParcelM

def maxMapSize : Int32 := 200

structure EventBean where
  moduleId_ : Int32 := -1
  eventId_ : Int32 := -1
  eventType_ : Int32 := -1
  intMap_ : ExtTreeMap String Int32 := ∅
  stringMap_ : ExtTreeMap String String := ∅
  uint64Map_ : ExtTreeMap String UInt64 := ∅
  /-- The bits of the values. -/
  floatMap_ : ExtTreeMap String UInt32 := ∅

namespace EventBean

variable (bean : EventBean)

/-- `Add(key, std::string)`: a value that is there stays. -/
def addString (key value : String) : EventBean :=
  { bean with stringMap_ := bean.stringMap_.insertIfNew key value }

def getIntValue (key : String) : Int32 := bean.intMap_[key]?.getD (-1)

def getStringValue (key : String) : String := bean.stringMap_[key]?.getD "UNKNOWN"

-- Writing

section Maps

variable {α : Type} (write : α → ParcelM Unit) (read : ParcelM α)

def writePairs : List (String × α) → ParcelM Unit
  | [] => pure ()
  | (key, value) :: entries => do
    writeString key
    write value
    writePairs entries

def writeMap (map : ExtTreeMap String α) : ParcelM Unit :=
  if map.size < maxMapSize.toNatClampNeg then do
    writeInt32 (.ofNat map.size)
    writePairs write map.toList
  else Call.fail

-- Reading

/-- The loop of `ReadFromParcel` that adds so many entries to a map; `Add` is `emplace`. -/
def readPairs : Nat → ExtTreeMap String α → ParcelM (ExtTreeMap String α)
  | 0, map => pure map
  | count + 1, map => do
    let key ← readString
    let value ← read
    readPairs count (map.insertIfNew key value)

/-- One map of `ReadFromParcel`, and what comes after it. A size that is too large ends the
function. -/
def readMap (map : ExtTreeMap String α) (add : ExtTreeMap String α → EventBean)
    (next : EventBean → ParcelM EventBean) : ParcelM EventBean := do
  let size ← readInt32
  if size < maxMapSize then
    let map ← readPairs read size.toNatClampNeg map
    next (add map)
  else pure bean

end Maps

def marshalling : ParcelM Unit := do
  writeInt32 bean.moduleId_
  writeInt32 bean.eventId_
  writeInt32 bean.eventType_
  writeMap writeInt32 bean.intMap_
  writeMap writeString bean.stringMap_
  writeMap writeUint64 bean.uint64Map_
  writeMap writeFloat bean.floatMap_

def readFloatMap : ParcelM EventBean :=
  bean.readMap readFloat bean.floatMap_ (fun map => { bean with floatMap_ := map }) pure

def readUint64Map : ParcelM EventBean :=
  bean.readMap readUint64 bean.uint64Map_ (fun map => { bean with uint64Map_ := map }) readFloatMap

def readStringMap : ParcelM EventBean :=
  bean.readMap readString bean.stringMap_ (fun map => { bean with stringMap_ := map }) readUint64Map

def readIntMap : ParcelM EventBean :=
  bean.readMap readInt32 bean.intMap_ (fun map => { bean with intMap_ := map }) readStringMap

def readFromParcel : ParcelM EventBean := do
  let moduleId_ ← readInt32
  let eventId_ ← readInt32
  let eventType_ ← readInt32
  readIntMap { bean with moduleId_, eventId_, eventType_ }

def unmarshalling : ParcelM EventBean := readFromParcel {}

-- Complete parcels

inductive Pairs {α : Type} (select : ParcelField → Option α) :
    List ParcelField → List (String × α) → Prop
  | nil : Pairs select [] []
  | cons {f g : ParcelField} {fs : List ParcelField} {key : String} {value : α}
      {entries : List (String × α)} (hkey : f.string? = some key) (hvalue : select g = some value)
      (hrest : Pairs select fs entries) : Pairs select (f :: g :: fs) ((key, value) :: entries)

/-- The map that a list of pairs makes; the first value of a name stays. -/
def build {α : Type} (map : ExtTreeMap String α) (entries : List (String × α)) :
    ExtTreeMap String α :=
  entries.foldl (fun map e => map.insertIfNew e.1 e.2) map

def Holds {α : Type} (select : ParcelField → Option α) (fields : List ParcelField)
    (map : ExtTreeMap String α) : Prop :=
  ∃ f size fs entries, fields = f :: fs ∧ f.int32? = some size ∧ size < maxMapSize ∧
    entries.length = size.toNatClampNeg ∧ Pairs select fs entries ∧ map = build ∅ entries

/-- The parcel begins with all the fields of this bean, and the rest follows them. -/
def Complete (parcel : MessageParcel) (rest : MessageParcel) : Prop :=
  ∃ f g h ints strings uint64s floats,
    parcel = f :: g :: h :: (ints ++ (strings ++ (uint64s ++ (floats ++ rest)))) ∧
      f.int32? = some bean.moduleId_ ∧ g.int32? = some bean.eventId_ ∧
      h.int32? = some bean.eventType_ ∧ Holds ParcelField.int32? ints bean.intMap_ ∧
      Holds ParcelField.string? strings bean.stringMap_ ∧
      Holds ParcelField.uint64? uint64s bean.uint64Map_ ∧
      Holds ParcelField.float? floats bean.floatMap_

/-- Each of the four maps has fewer entries than the maximum. -/
def Small : Prop :=
  bean.intMap_.size < 200 ∧ bean.stringMap_.size < 200 ∧ bean.uint64Map_.size < 200 ∧
    bean.floatMap_.size < 200

/-- The bean is written if its maps are small, and then the reader takes what was written and makes
the same bean. -/
def RoundTrips : Prop :=
  (∀ parcel, (bean.marshalling parcel).1 = some () ↔ bean.Small) ∧
    (bean.Small → Carries bean.marshalling unmarshalling bean)

/-- A bean is made, with small maps; and it is the one of a complete parcel, if the parcel is. -/
def ReadsAnyway (parcel : MessageParcel) : Prop :=
  ∃ bean rest, unmarshalling parcel = (some bean, rest) ∧ bean.Small ∧
    (bean.Complete parcel rest ↔ ∃ bean' : EventBean, ∃ rest', bean'.Complete parcel rest')

-- Maps in the parcel

section Maps

variable {α : Type} {select : ParcelField → Option α} {write : α → ParcelM Unit}
  {read : ParcelM α} {map : ExtTreeMap String α}

def pairFields (field : α → ParcelField) (entries : List (String × α)) : List ParcelField :=
  entries.flatMap fun e => [.string e.1, field e.2]

theorem writePairs_puts {field : α → ParcelField} (hwrite : ∀ v, Puts (write v) [field v])
    (entries : List (String × α)) : Puts (writePairs write entries) (pairFields field entries) := by
  induction entries with
  | nil => exact .pure
  | cons e entries ih =>
    have hkey : Puts (writeString e.1) [.string e.1] := .put _
    exact hkey.bind ((hwrite e.2).bind ih)

theorem pairs_pairFields {field : α → ParcelField} (hselect : ∀ v, select (field v) = some v)
    (entries : List (String × α)) : Pairs select (pairFields field entries) entries := by
  induction entries with
  | nil => exact .nil
  | cons e entries ih => exact .cons rfl (hselect e.2) ih

theorem build_toList (map : ExtTreeMap String α) : build ∅ map.toList = map := by
  refine ExtTreeMap.ext_getElem? fun k => ?_
  have hself : ∀ (m : ExtTreeMap String α) (e : String × α),
      (m.insertIfNew e.1 e.2)[e.1]? = some (m[e.1]?.getD e.2) := by
    intro m e
    rw [ExtTreeMap.getElem?_insertIfNew]
    cases hm : m[e.1]? with
    | none | some v => simp [ExtTreeMap.mem_iff_isSome_getElem?, hm]
  have hother : ∀ (m : ExtTreeMap String α) (e : String × α) (k : String), e.1 ≠ k →
      (m.insertIfNew e.1 e.2)[k]? = m[k]? := by
    intro m e k hne
    rw [ExtTreeMap.getElem?_insertIfNew]
    simp [Std.LawfulEqCmp.compare_eq_iff_eq, hne]
  have hloop := TreeMap.getElem?_foldl_toList (f := fun _ v old => some (old.getD v)) hself hother
    map ∅ k
  unfold build
  rw [hloop, ExtTreeMap.getElem?_empty]
  cases map[k]? with
  | none | some v => rfl

theorem maxMapSize_toNat : maxMapSize.toNatClampNeg = 200 := by decide

theorem writeMap_puts {field : α → ParcelField} (hwrite : ∀ v, Puts (write v) [field v])
    (h : map.size < 200) :
    Puts (writeMap write map) (.int32 (.ofNat map.size) :: pairFields field map.toList) := by
  unfold writeMap
  rw [maxMapSize_toNat, if_pos h]
  have hsize : Puts (writeInt32 (.ofNat map.size)) [.int32 (.ofNat map.size)] := .put _
  exact hsize.bind (writePairs_puts hwrite map.toList)

theorem writeMap_fails (h : ¬ map.size < 200) : Fails (writeMap write map) := by
  unfold writeMap
  rw [maxMapSize_toNat, if_neg h]
  exact fun _ => rfl

theorem holds_written {field : α → ParcelField} (hselect : ∀ v, select (field v) = some v)
    (h : map.size < 200) :
    Holds select (.int32 (.ofNat map.size) :: pairFields field map.toList) map := by
  have hsize : (Int32.ofNat map.size).toInt = map.size := Int32.toInt_ofNat_of_lt (by omega)
  refine ⟨_, _, _, map.toList, rfl, rfl, ?_, ?_, pairs_pairFields hselect _, (build_toList map).symm⟩
  · rw [Int32.lt_iff_toInt_lt, hsize]
    show (map.size : Int) < 200
    omega
  · rw [ExtTreeMap.length_toList, Int32.toNatClampNeg, hsize]
    rfl

theorem readPairs_takes (hread : ∀ g v, select g = some v → Takes read [g] v)
    {fields : List ParcelField} {entries : List (String × α)} (h : Pairs select fields entries)
    (map : ExtTreeMap String α) :
    Takes (readPairs read entries.length map) fields (build map entries) := by
  induction h generalizing map with
  | nil => exact .pure _
  | cons hkey hvalue _ ih => exact Takes.cons (.takeD hkey) (Takes.cons (hread _ _ hvalue) (ih _))

theorem readPairs_yields {P : α → Prop} (hread : Yields read P) (count : Nat)
    (map : ExtTreeMap String α) :
    Yields (readPairs read count map) fun map' => map'.size ≤ map.size + count := by
  induction count generalizing map with
  | zero => exact .pure (Nat.le_refl _)
  | succ count ih =>
    refine Yields.bind (.takeD _ _) fun key _ => Yields.bind hread fun value _ => ?_
    have hone := ExtTreeMap.size_insertIfNew_le (t := map) (k := key) (v := value)
    intro p
    obtain ⟨map', q, hmap, hle⟩ := ih (map.insertIfNew key value) p
    exact ⟨map', q, hmap, by omega⟩

variable {add : ExtTreeMap String α → EventBean} {next : EventBean → ParcelM EventBean}
  {bean bean' : EventBean}

theorem readMap_takes (hread : ∀ g v, select g = some v → Takes read [g] v)
    {fields rest : List ParcelField} (h : Holds select fields map)
    (hnext : Takes (next (add map)) rest bean') :
    Takes (bean.readMap read ∅ add next) (fields ++ rest) bean' := by
  obtain ⟨f, size, fs, entries, rfl, hsize, hlt, hlength, hpairs, rfl⟩ := h
  refine Takes.cons (.takeD hsize) ?_
  rw [if_pos hlt, ← hlength]
  exact (readPairs_takes hread hpairs ∅).bind hnext

/-- Whatever is read, the map is small, and the rest of the function goes on or is left out. -/
theorem readMap_yields {P : α → Prop} {Q : EventBean → Prop} (hread : Yields read P)
    (hnext : ∀ map : ExtTreeMap String α, map.size < 200 → Yields (next (add map)) Q)
    (hbean : Q bean) : Yields (bean.readMap read ∅ add next) Q := by
  refine Yields.bind (.takeD _ _) fun size _ => ?_
  split
  · next hlt =>
    refine Yields.bind (readPairs_yields hread _ ∅) fun map hmap => hnext map ?_
    rw [Int32.lt_iff_toInt_lt] at hlt
    have hmax : maxMapSize.toInt = 200 := by decide
    have hempty : (∅ : ExtTreeMap String α).size = 0 := ExtTreeMap.size_empty
    have hclamp : size.toNatClampNeg = size.toInt.toNat := rfl
    omega
  · exact .pure hbean

end Maps

-- Beans in the parcel

variable {bean}

theorem unmarshalling_of_complete {parcel rest : MessageParcel} (h : bean.Complete parcel rest) :
    unmarshalling parcel = (some bean, rest) := by
  obtain ⟨f, g, h, ints, strings, uint64s, floats, rfl, hmodule, hevent, htype, hints, hstrings,
    huint64s, hfloats⟩ := h
  have hlast : Takes (readFloatMap { bean with floatMap_ := ∅ }) (floats ++ []) bean :=
    readMap_takes (fun _ _ => .takeD) hfloats (.pure bean)
  have huint64 : Takes (readUint64Map { bean with uint64Map_ := ∅, floatMap_ := ∅ }) _ bean :=
    readMap_takes (fun _ _ => .takeD) huint64s hlast
  have hstring : Takes
      (readStringMap { bean with stringMap_ := ∅, uint64Map_ := ∅, floatMap_ := ∅ }) _ bean :=
    readMap_takes (fun _ _ => .takeD) hstrings huint64
  have hint : Takes (readIntMap { bean with
      intMap_ := ∅, stringMap_ := ∅, uint64Map_ := ∅, floatMap_ := ∅ }) _ bean :=
    readMap_takes (fun _ _ => .takeD) hints hstring
  have hall : Takes unmarshalling _ bean :=
    Takes.cons (.takeD hmodule) (Takes.cons (.takeD hevent) (Takes.cons (.takeD htype) hint))
  have hread := hall rest
  rwa [List.append_nil, List.cons_append, List.cons_append, List.cons_append, List.append_assoc,
    List.append_assoc, List.append_assoc] at hread

theorem unmarshalling_yields : Yields unmarshalling Small := by
  have hzero : ∀ {α : Type}, (∅ : ExtTreeMap String α).size < 200 := fun {α} => by
    rw [ExtTreeMap.size_empty]
    norm_num
  refine Yields.bind (.takeD _ _) fun _ _ => Yields.bind (.takeD _ _) fun _ _ =>
    Yields.bind (.takeD _ _) fun _ _ => ?_
  refine readMap_yields (.takeD _ _) (fun _ hint => ?_) ⟨hzero, hzero, hzero, hzero⟩
  refine readMap_yields (.takeD _ _) (fun _ hstring => ?_) ⟨hint, hzero, hzero, hzero⟩
  refine readMap_yields (.takeD _ _) (fun _ huint64 => ?_) ⟨hint, hstring, hzero, hzero⟩
  exact readMap_yields (.takeD _ _) (fun _ hfloat => .pure ⟨hint, hstring, huint64, hfloat⟩)
    ⟨hint, hstring, huint64, hzero⟩

theorem marshalling_carries (h : bean.Small) : Carries bean.marshalling unmarshalling bean := by
  obtain ⟨hint, hstring, huint64, hfloat⟩ := h
  have hmodule : Puts (writeInt32 bean.moduleId_) [.int32 bean.moduleId_] := .put _
  have hevent : Puts (writeInt32 bean.eventId_) [.int32 bean.eventId_] := .put _
  have htype : Puts (writeInt32 bean.eventType_) [.int32 bean.eventType_] := .put _
  have hints : Puts (writeMap writeInt32 bean.intMap_) _ :=
    writeMap_puts (fun v => Puts.put (ParcelField.int32 v)) hint
  have hstrings : Puts (writeMap writeString bean.stringMap_) _ :=
    writeMap_puts (fun v => Puts.put (ParcelField.string v)) hstring
  have huint64s : Puts (writeMap writeUint64 bean.uint64Map_) _ :=
    writeMap_puts (fun v => Puts.put (ParcelField.uint64 v)) huint64
  have hfloats : Puts (writeMap writeFloat bean.floatMap_) _ :=
    writeMap_puts (fun v => Puts.put (ParcelField.float v)) hfloat
  have hintField : ∀ v, ParcelField.int32? (.int32 v) = some v := fun _ => rfl
  have hstringField : ∀ v, ParcelField.string? (.string v) = some v := fun _ => rfl
  have huint64Field : ∀ v, ParcelField.uint64? (.uint64 v) = some v := fun _ => rfl
  have hfloatField : ∀ v, ParcelField.float? (.float v) = some v := fun _ => rfl
  refine ⟨_, hmodule.bind (hevent.bind (htype.bind (hints.bind (hstrings.bind
    (huint64s.bind hfloats))))), fun rest => ?_⟩
  refine unmarshalling_of_complete ⟨.int32 bean.moduleId_, .int32 bean.eventId_,
    .int32 bean.eventType_, _, _, _, _, ?_, rfl, rfl, rfl,
    holds_written hintField hint, holds_written hstringField hstring,
    holds_written huint64Field huint64, holds_written hfloatField hfloat⟩
  simp only [List.append_assoc, List.cons_append, List.nil_append]

theorem marshalling_fails (h : ¬ bean.Small) : Fails bean.marshalling := by
  unfold Small at h
  refine .of_rest fun _ => .of_rest fun _ => .of_rest fun _ => ?_
  by_cases hint : bean.intMap_.size < 200
  swap
  · exact (writeMap_fails hint).bind
  refine .of_rest fun _ => ?_
  by_cases hstring : bean.stringMap_.size < 200
  swap
  · exact (writeMap_fails hstring).bind
  refine .of_rest fun _ => ?_
  by_cases huint64 : bean.uint64Map_.size < 200
  swap
  · exact (writeMap_fails huint64).bind
  exact .of_rest fun _ => writeMap_fails fun hfloat => h ⟨hint, hstring, huint64, hfloat⟩

theorem marshalling_iff (parcel : MessageParcel) :
    (bean.marshalling parcel).1 = some () ↔ bean.Small := by
  constructor
  · intro h
    by_contra hlarge
    rw [marshalling_fails hlarge parcel] at h
    exact absurd h nofun
  · intro h
    obtain ⟨fs, hputs, -⟩ := marshalling_carries h
    rw [hputs parcel]

/-- **Every bean makes the round trip, and every parcel makes a bean.** -/
theorem parcels_read (bean : EventBean) (parcel : MessageParcel) :
    bean.RoundTrips ∧ ReadsAnyway parcel := by
  refine ⟨⟨marshalling_iff, marshalling_carries⟩, ?_⟩
  obtain ⟨made, rest, hmade, hsmall⟩ := unmarshalling_yields parcel
  refine ⟨made, rest, hmade, hsmall, fun h => ⟨made, rest, h⟩, ?_⟩
  rintro ⟨bean', rest', h⟩
  have hread := unmarshalling_of_complete h
  rw [hmade] at hread
  obtain ⟨hbean, rfl⟩ := Prod.mk.inj hread
  cases hbean
  exact h

def tooLarge : MessageParcel :=
  [.int32 0, .int32 4, .int32 0, .int32 1, .string "PID", .int32 7, .int32 200]

theorem tooLarge_not_complete (bean : EventBean) (rest : MessageParcel) :
    ¬ bean.Complete tooLarge rest := by
  rintro ⟨f, g, h, ints, strings, uint64s, floats, hparcel, -, -, -, hints, hstrings, -, -⟩
  obtain ⟨f', size, fs, entries, rfl, hsize, -, hlength, hpairs, -⟩ := hints
  obtain ⟨g', size', gs, entries', rfl, hsize', hlt', -, -, -⟩ := hstrings
  unfold tooLarge at hparcel
  simp only [List.cons_append, List.cons.injEq] at hparcel
  obtain ⟨-, -, -, rfl, hrest⟩ := hparcel
  obtain rfl : (1 : Int32) = size := Option.some.inj hsize
  -- the one entry of the first map is followed by the size of the second
  cases hpairs with
  | nil => exact absurd hlength (by decide)
  | cons hkey hvalue hmore =>
    cases hmore with
    | cons _ _ _ =>
      rw [List.length_cons, List.length_cons] at hlength
      exact absurd hlength (by have : (1 : Int32).toNatClampNeg = 1 := rfl; omega)
    | nil =>
      simp only [List.cons_append, List.nil_append, List.cons.injEq] at hrest
      obtain ⟨-, -, rfl, -⟩ := hrest
      obtain rfl : (200 : Int32) = size' := Option.some.inj hsize'
      exact absurd hlt' (by decide)

/-- It makes a bean with the first map and nothing else, and no failure. -/
theorem partly_filled :
    (∃ bean, unmarshalling tooLarge = (some bean, []) ∧ bean.eventId_ = 4 ∧
      bean.intMap_["PID"]? = some 7) ∧
      ¬ ∃ bean : EventBean, ∃ rest, bean.Complete tooLarge rest :=
  ⟨⟨_, rfl, rfl, rfl⟩, fun ⟨bean, rest, h⟩ => tooLarge_not_complete bean rest h⟩

end EventBean

end MediaFoundation.EventParcel
