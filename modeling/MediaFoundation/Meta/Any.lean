import MediaFoundation.Common.MessageParcel

/-!
# Any

The type-erased values of `Meta` and how they go through a parcel (`any.h`,
`any.cpp`). A value of one of the base types is sent under the code of its
type. For every other type the code `INVALID_TYPE` is sent, followed by the
value if the type is an enumeration; the reader then takes the type from the
value that it is to overwrite.

Conventions:

* `float` and `double` are their bits.
* A type that is neither a base type nor an enumeration is known by its name
  and its size, since the parcel functions look at nothing else of it.
-/

namespace MediaFoundation

open Wire ParcelM

-- Types and values

inductive Underlying where
  | int8 | uint8 | int16 | uint16 | int32 | uint32 | int64 | uint64
deriving DecidableEq

namespace Underlying

def bits : Underlying → Nat
  | int8 | uint8 => 8
  | int16 | uint16 => 16
  | int32 | uint32 => 32
  | int64 | uint64 => 64

def signed : Underlying → Bool
  | int8 | int16 | int32 | int64 => true
  | _ => false

theorem bits_cases (u : Underlying) :
    u.bits / 8 = 8 ∧ u.bits = 64 ∨ u.bits / 8 < 8 ∧ u.bits ≤ 32 := by
  cases u <;> decide

end Underlying

structure EnumType where
  name : String
  underlying : Underlying
deriving DecidableEq

structure OtherType where
  name : String
  size : Nat

inductive Any where
  | empty
  | bool (value : Bool)
  | int32 (value : Int32)
  | int64 (value : Int64)
  | uint32 (value : UInt32)
  | uint64 (value : UInt64)
  | float (bits : UInt32)
  | double (bits : UInt64)
  | string (value : String)
  | vectorUint8 (value : List UInt8)
  | vectorInt32 (value : List Int32)
  | vectorInt64 (value : List Int64)
  | enumeration (type : EnumType) (value : BitVec type.underlying.bits)
  | other (type : OtherType) (bytes : List UInt8)

inductive AnyValueType where
  | invalidType | bool | int8T | uint8T | int32T | uint32T | int64T | uint64T | float | double
  | vectorUint8 | vectorUint32 | string | vectorInt32 | vectorInt64

/-- The enumerators count up from `INVALID_TYPE = 1`. -/
def AnyValueType.toInt32 (t : AnyValueType) : Int32 := .ofNat (t.ctorIdx + 1)

-- ToParcel

namespace Any

def baseTypesToParcel (type : AnyValueType) (value : ParcelM Unit) : ParcelM Unit := do
  writeInt32 type.toInt32
  value

def castTo (n : Nat) (type : EnumType) (value : BitVec type.underlying.bits) : BitVec n :=
  if type.underlying.signed then value.signExtend n else value.setWidth n

/-- `ToParcel` of a type that is not a base type, when `BaseTypesToParcel` has
refused it. Of the two writers the result is not looked at, and for a type that
is not an enumeration they write nothing. -/
def nonBaseToParcel (size : Nat) (writeValueToParcelInt64 writeValueToParcel : ParcelM Unit) :
    ParcelM Unit := do
  writeInt32 AnyValueType.invalidType.toInt32
  if 8 < size then Call.fail
  else if size = 8 then writeValueToParcelInt64
  else writeValueToParcel

def toParcel : Any → ParcelM Unit
  | .empty => Call.fail
  | .bool v => baseTypesToParcel .bool (writeBool v)
  | .int32 v => baseTypesToParcel .int32T (writeInt32 v)
  | .int64 v => baseTypesToParcel .int64T (writeInt64 v)
  | .uint32 v => baseTypesToParcel .uint32T (writeUint32 v)
  | .uint64 v => baseTypesToParcel .uint64T (writeUint64 v)
  | .float v => baseTypesToParcel .float (writeFloat v)
  | .double v => baseTypesToParcel .double (writeDouble v)
  | .string v => baseTypesToParcel .string (writeString v)
  | .vectorUint8 v => baseTypesToParcel .vectorUint8 (writeUint8Vector v)
  | .vectorInt32 v => baseTypesToParcel .vectorInt32 (writeInt32Vector v)
  | .vectorInt64 v => baseTypesToParcel .vectorInt64 (writeInt64Vector v)
  | .enumeration t v => nonBaseToParcel (t.underlying.bits / 8)
      (writeInt64 (.ofBitVec (castTo 64 t v))) (writeInt32 (.ofBitVec (castTo 32 t v)))
  | .other t _ => nonBaseToParcel t.size (pure ()) (pure ())

-- FromParcel

def makeAnyFromParcel : Any → ParcelM Any
  | .enumeration t _ =>
    if t.underlying.bits / 8 = 8 then do
      let value ← readInt64
      pure (.enumeration t (value.toBitVec.setWidth _))
    else do
      let value ← readInt32
      pure (.enumeration t (value.toBitVec.setWidth _))
  | _ => Call.fail

def typeHandlerMap : List (AnyValueType × ParcelM Any) :=
  [(.bool, readBool >>= fun v => pure (.bool v)),
    (.int32T, readInt32 >>= fun v => pure (.int32 v)),
    (.int64T, readInt64 >>= fun v => pure (.int64 v)),
    (.uint32T, readUint32 >>= fun v => pure (.uint32 v)),
    (.uint64T, readUint64 >>= fun v => pure (.uint64 v)),
    (.float, readFloat >>= fun v => pure (.float v)),
    (.double, readDouble >>= fun v => pure (.double v)),
    (.string, readString >>= fun v => pure (.string v)),
    (.vectorUint8, readUint8Vector >>= fun v => pure (.vectorUint8 v)),
    (.vectorInt32, readInt32Vector >>= fun v => pure (.vectorInt32 v)),
    (.vectorInt64, readInt64Vector >>= fun v => pure (.vectorInt64 v))]

def fromParcel (operand : Any) : ParcelM Any := do
  let type ← readInt32
  match typeHandlerMap.find? fun h => h.1.toInt32 = type with
  | some h => h.2
  | none =>
    if type = AnyValueType.invalidType.toInt32 then makeAnyFromParcel operand
    else Call.fail

-- The round trip

/-- A base type, or an enumeration that `operand` is of too. -/
def Parcelable (operand : Any) : Any → Prop
  | .empty | .other _ _ => False
  | .enumeration t _ => ∃ v, operand = .enumeration t v
  | _ => True

theorem setWidth_castTo {n : Nat} (t : EnumType) (v : BitVec t.underlying.bits)
    (h : t.underlying.bits ≤ n) : (castTo n t v).setWidth t.underlying.bits = v := by
  unfold castTo
  split
  · ext i hi
    rw [BitVec.getElem_setWidth, BitVec.getLsbD_signExtend, if_pos hi,
      decide_eq_true (by omega : i < n), Bool.true_and, BitVec.getLsbD_eq_getElem]
  · rw [BitVec.setWidth_setWidth_of_le _ h, BitVec.setWidth_eq]

/-- `ToParcel` does not refuse the value. -/
def Writable : Any → Prop
  | .empty => False
  | .other t _ => t.size ≤ 8
  | _ => True

variable {operand v : Any}

theorem base_carries {α : Type} {type : AnyValueType} {w : ParcelM Unit} {r : ParcelM α} {a : α}
    {mk : α → Any}
    (hfind : (typeHandlerMap.find? fun h => h.1.toInt32 = type.toInt32) =
      some (type, r >>= fun a => pure (mk a)))
    (h : Carries w r a) : Carries (baseTypesToParcel type w) (fromParcel operand) (mk a) := by
  refine Carries.bind (a := type.toInt32) (.takeD rfl) ?_
  rw [hfind]
  exact h.last rfl

theorem enumeration_carries (t : EnumType) (v v' : BitVec t.underlying.bits) :
    Carries (toParcel (.enumeration t v)) (fromParcel (.enumeration t v')) (.enumeration t v) := by
  refine Carries.bind (a := AnyValueType.invalidType.toInt32) (.takeD rfl) ?_
  show Carries _ (makeAnyFromParcel (.enumeration t v')) _
  simp only [makeAnyFromParcel]
  rcases t.underlying.bits_cases with ⟨hsize, hbits⟩ | ⟨hsize, hbits⟩
  · rw [if_neg (by omega), if_pos hsize, if_pos hsize]
    refine Carries.last (a := Int64.ofBitVec (castTo 64 t v)) (.takeD rfl) ?_
    exact congrArg (fun v => pure (Any.enumeration t v)) (setWidth_castTo t v (by omega))
  · rw [if_neg (by omega), if_neg (by omega), if_neg (by omega)]
    refine Carries.last (a := Int32.ofBitVec (castTo 32 t v)) (.takeD rfl) ?_
    exact congrArg (fun v => pure (Any.enumeration t v)) (setWidth_castTo t v (by omega))

theorem toParcel_carries (h : Parcelable operand v) :
    Carries v.toParcel operand.fromParcel v := by
  cases v with
  | empty | other t bytes => exact absurd h id
  | bool v | int32 v | int64 v | uint32 v | uint64 v => exact base_carries rfl (.takeD rfl)
  | float v | double v | string v | vectorUint8 v => exact base_carries rfl (.takeD rfl)
  | vectorInt32 v | vectorInt64 v => exact base_carries rfl (.takeD rfl)
  | enumeration t v =>
    obtain ⟨v', rfl⟩ := h
    exact enumeration_carries t v v'

-- What is refused, and what can arrive

theorem nonBaseToParcel_puts {size : Nat} {w w' : ParcelM Unit} {fs fs' : List ParcelField}
    (hsize : size ≤ 8) (hw : Puts w fs) (hw' : Puts w' fs') :
    ∃ gs, Puts (nonBaseToParcel size w w') gs := by
  have hcode := Puts.put (ParcelField.int32 AnyValueType.invalidType.toInt32)
  unfold nonBaseToParcel
  rw [if_neg (by omega)]
  split
  · exact ⟨_, hcode.bind hw⟩
  · exact ⟨_, hcode.bind hw'⟩

theorem toParcel_puts (h : v.Writable) : ∃ fs, Puts v.toParcel fs := by
  cases v with
  | empty => exact absurd h id
  | enumeration t v =>
    have hsize : t.underlying.bits / 8 ≤ 8 := by
      rcases t.underlying.bits_cases with ⟨hsize, -⟩ | ⟨hsize, -⟩ <;> omega
    exact nonBaseToParcel_puts hsize (.put _) (.put _)
  | other t bytes => exact nonBaseToParcel_puts h .pure .pure
  | _ => exact ⟨_, (Puts.put _).bind (.put _)⟩

theorem toParcel_fails (h : ¬ v.Writable) : Fails v.toParcel := by
  intro p
  cases v with
  | empty => rfl
  | other t bytes =>
    have hsize : 8 < t.size := Nat.lt_of_not_le h
    show (nonBaseToParcel t.size _ _ p).1 = none
    unfold nonBaseToParcel
    rw [if_pos hsize]
    rfl
  | _ => exact absurd trivial h

theorem handler_value {α : Type} {r : ParcelM α} {g : α → Any} {p q : MessageParcel}
    (h : (r >>= fun a => pure (g a)) p = (some v, q)) : ∃ a, v = g a := by
  obtain ⟨a, p', -, hv⟩ := Call.bind_eq_some.mp h
  exact ⟨a, (Option.some.inj (congrArg Prod.fst hv)).symm⟩

theorem parcelable_of_handler {h : AnyValueType × ParcelM Any} (hmem : h ∈ typeHandlerMap)
    {p q : MessageParcel} (hv : h.2 p = (some v, q)) : Parcelable operand v := by
  simp only [typeHandlerMap, List.mem_cons, List.not_mem_nil, or_false] at hmem
  rcases hmem with rfl | rfl | rfl | rfl | rfl | rfl | rfl | rfl | rfl | rfl | rfl <;>
  · obtain ⟨a, rfl⟩ := handler_value hv
    exact trivial

/-- **Whatever arrives** is of a base type, or of the enumeration of the operand. -/
theorem parcelable_of_fromParcel {p q : MessageParcel}
    (h : operand.fromParcel p = (some v, q)) : Parcelable operand v := by
  obtain ⟨type, p', -, h⟩ := Call.bind_eq_some.mp h
  cases hfind : typeHandlerMap.find? fun h => h.1.toInt32 = type with
  | some handler =>
    rw [hfind] at h
    exact parcelable_of_handler (List.mem_of_find?_eq_some hfind) h
  | none =>
    rw [hfind] at h
    by_cases hcode : type = AnyValueType.invalidType.toInt32
    · simp only [if_pos hcode] at h
      cases operand with
      | enumeration t v' =>
        simp only [makeAnyFromParcel] at h
        split at h
        · obtain ⟨i, rfl⟩ := handler_value h
          exact ⟨v', rfl⟩
        · obtain ⟨i, rfl⟩ := handler_value h
          exact ⟨v', rfl⟩
      | _ => cases h
    · simp only [if_neg hcode] at h
      cases h

end Any

end MediaFoundation
