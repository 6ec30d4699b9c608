import MediaFoundation.Monitor.Usages

/-!
# Open beans and episodes

A vector tracks a usage if it holds one bean for each stream with an open
episode (`Tracks`). Each handler, on the vector that it works on, follows what
its event says about the event's stream (`Follows`): the vector tracks the
usage afterwards, and what is handed over is what the event ends.
-/

namespace MediaFoundation.MediaMonitor

open Episodes

variable {e : EventBean}

-- Timing a bean

section Timing

variable {e : EventBean} {now : UInt64}

/-- Below the sign bit, a long duration is one of more than thirty seconds. -/
theorem isLong_iff {d : UInt64} (h : d.toNat < 2 ^ 63) : isLong d = true ↔ 30 < d.toNat := by
  have hint : d.toInt64.toInt = d.toNat := by
    show d.toBitVec.toInt = (d.toBitVec.toNat : Int)
    exact BitVec.toInt_eq_toNat_of_lt (by
      show 2 * d.toNat < 2 ^ 64
      omega)
  unfold isLong
  rw [Bool.and_eq_true, decide_eq_true_iff, decide_eq_true_iff, gt_iff_lt, gt_iff_lt,
    Int64.lt_iff_toInt_lt, hint, UInt64.lt_iff_toNat_lt]
  show 0 < d.toNat ∧ (30 : Int) < d.toNat ↔ _
  omega

theorem toNat_elapsed (h : (e.getUint64Value .START_TIME).toNat ≤ now.toNat) :
    (elapsed now e).toNat = now.toNat - (e.getUint64Value .START_TIME).toNat :=
  UInt64.toNat_sub_of_le _ _ (UInt64.le_iff_toNat_le.mpr h)

theorem isLong_elapsed (h : (e.getUint64Value .START_TIME).toNat ≤ now.toNat)
    (hnow : now.toNat < 2 ^ 63) :
    isLong (elapsed now e) = true ↔ 30 < now.toNat - (e.getUint64Value .START_TIME).toNat := by
  have helapsed := toNat_elapsed h
  rw [isLong_iff (by omega), helapsed]

theorem getUint64Value_timed (h : e.uint64Map .DURATION = none) :
    (timed now e).getUint64Value .DURATION = elapsed now e := by
  show (e.uint64Map.emplace .DURATION (elapsed now e) .DURATION).getD 0 = _
  rw [KeyMap.emplace_self, h]
  rfl

@[simp] theorem streamOf_timed (u : Usage) : u.streamOf (timed now e) = u.streamOf e := by
  cases u <;> rfl

@[simp] theorem conditionOf_timed (u : Usage) : u.conditionOf (timed now e) = u.conditionOf e := by
  cases u <;> rfl

end Timing

-- Open beans and episodes

/-- The values that the handlers change are there. -/
structure Shaped (u : Usage) (e : EventBean) : Prop where
  device : (e.intMap .DEVICE_TYPE).isSome
  start : (e.uint64Map .START_TIME).isSome
  level : u = .volume → (e.intMap .LEVEL).isSome
  muted : e.intMap .MUTED = none

/-- A bean that was never handed over began with its episode, any other not after it. -/
structure Since (e : EventBean) (since now : Nat) : Prop where
  start_le : (e.getUint64Value .START_TIME).toNat ≤ since
  le_now : since ≤ now
  fresh : e.uint64Map .DURATION = none → (e.getUint64Value .START_TIME).toNat = since

structure Tracks (u : Usage) (v : List EventBean) (cur : Stream → Current Condition)
    (now : Nat) : Prop where
  nodup : (v.map u.streamOf).Nodup
  bean : ∀ e ∈ v, Shaped u e ∧
    ∃ since, cur (u.streamOf e) = some (u.conditionOf e, since) ∧ Since e since now
  covered : ∀ x, cur x ≠ none → ∃ e ∈ v, u.streamOf e = x

section Tracking

variable {u : Usage} {v : List EventBean} {cur : Stream → Current Condition} {x : Stream}
  {last : Nat}

theorem Since.later {since now : Nat} (h : Since e since last)
    (hle : last ≤ now) : Since e since now :=
  ⟨h.start_le, h.le_now.trans hle, h.fresh⟩

theorem Tracks.later {now : Nat} (h : Tracks u v cur last) (hle : last ≤ now) :
    Tracks u v cur now where
  nodup := h.nodup
  bean e he :=
    have ⟨hshape, since, hcur, hsince⟩ := h.bean e he
    ⟨hshape, since, hcur, hsince.later hle⟩
  covered := h.covered

theorem Tracks.cur_eq_none (h : Tracks u v cur last) (hx : ∀ e ∈ v, u.streamOf e ≠ x) :
    cur x = none := by
  by_contra hne
  obtain ⟨e, he, hstream⟩ := h.covered x hne
  exact hx e he hstream

theorem Tracks.replace {front back : List EventBean} (e' : Option EventBean)
    (new : Current Condition) (h : Tracks u (front ++ e :: back) cur last)
    (hx : u.streamOf e = x)
    (he' : ∀ b, e' = some b → u.streamOf b = x ∧ Shaped u b ∧
      ∃ since, new = some (u.conditionOf b, since) ∧ Since b since last)
    (hnone : e' = none → new = none) :
    Tracks u (front ++ e'.toList ++ back) (Function.update cur x new) last := by
  have hnodup := h.nodup
  rw [List.map_append, List.map_cons, hx] at hnodup
  have hrest : ∀ a ∈ front ++ back, u.streamOf a ≠ x := by
    intro a ha heq
    have hnotin := (List.nodup_middle.mp hnodup)
    rw [List.nodup_cons, ← List.map_append] at hnotin
    exact hnotin.1 (heq ▸ List.mem_map_of_mem ha)
  refine ⟨?_, ?_, ?_⟩
  · cases e' with
    | none =>
      rw [Option.toList_none, List.append_nil, List.map_append]
      exact (List.nodup_cons.mp (List.nodup_middle.mp hnodup)).2
    | some b =>
      rw [Option.toList_some, List.append_assoc, List.singleton_append, List.map_append,
        List.map_cons, (he' b rfl).1]
      exact hnodup
  · intro a ha
    have hmem : a ∈ front ++ back ∨ e' = some a := by
      simp only [List.mem_append, Option.mem_toList] at ha ⊢
      tauto
    rcases hmem with hmem | hmem
    · obtain ⟨hshape, since, hcur, hsince⟩ := h.bean a (by
        simp only [List.mem_append, List.mem_cons] at hmem ⊢
        tauto)
      refine ⟨hshape, since, ?_, hsince⟩
      rw [Function.update_of_ne (hrest a hmem)]
      exact hcur
    · obtain ⟨hstream, hshape, since, hnew, hsince⟩ := he' a hmem
      refine ⟨hshape, since, ?_, hsince⟩
      rw [hstream, Function.update_self]
      exact hnew
  · intro y hy
    by_cases hyx : y = x
    · subst hyx
      rw [Function.update_self] at hy
      cases e' with
      | none => exact absurd (hnone rfl) hy
      | some b => exact ⟨b, by simp, (he' b rfl).1⟩
    · rw [Function.update_of_ne hyx] at hy
      obtain ⟨a, ha, hstream⟩ := h.covered y hy
      refine ⟨a, ?_, hstream⟩
      simp only [List.mem_append, List.mem_cons] at ha ⊢
      rcases ha with ha | rfl | ha
      · exact .inl (.inl ha)
      · exact absurd (hstream.symm.trans hx) hyx
      · exact .inr ha

theorem Tracks.push {b : EventBean} {since : Nat} (h : Tracks u v cur last)
    (hx : ∀ e ∈ v, u.streamOf e ≠ x) (hstream : u.streamOf b = x) (hshape : Shaped u b)
    (hsince : Since b since last) :
    Tracks u (v ++ [b]) (Function.update cur x (some (u.conditionOf b, since))) last := by
  refine ⟨?_, ?_, ?_⟩
  · rw [List.map_append, List.map_singleton]
    refine h.nodup.append (List.nodup_singleton _) ?_
    intro y hy hyb
    obtain ⟨e, he, rfl⟩ := List.mem_map.mp hy
    exact hx e he ((List.mem_singleton.mp hyb).trans hstream)
  · intro e he
    rcases List.mem_append.mp he with he | he
    · obtain ⟨hs, t, hcur, ht⟩ := h.bean e he
      refine ⟨hs, t, ?_, ht⟩
      rw [Function.update_of_ne (hx e he)]
      exact hcur
    · obtain rfl := List.mem_singleton.mp he
      refine ⟨hshape, since, ?_, hsince⟩
      rw [hstream, Function.update_self]
  · intro y hy
    by_cases hyx : y = x
    · exact ⟨b, by simp, hstream.trans hyx.symm⟩
    · rw [Function.update_of_ne hyx] at hy
      obtain ⟨a, ha, hay⟩ := h.covered y hy
      exact ⟨a, List.mem_append_left _ ha, hay⟩

theorem find_cases {isExist : EventBean → Bool}
    (hiff : ∀ e ∈ v, isExist e = true ↔ u.streamOf e = x) :
    (v.find? isExist = none ∧ ∀ e ∈ v, u.streamOf e ≠ x) ∨
      ∃ front e back, v = front ++ e :: back ∧ u.streamOf e = x ∧ v.find? isExist = some e ∧
        v.eraseP isExist = front ++ back ∧
        ∀ f, updateFirst isExist f v = front ++ f e :: back := by
  induction v with
  | nil => exact .inl ⟨rfl, fun e he => absurd he List.not_mem_nil⟩
  | cons a v ih =>
    have ha := hiff a (List.mem_cons_self ..)
    by_cases hax : u.streamOf a = x
    · have hexist := ha.mpr hax
      exact .inr ⟨[], a, v, rfl, hax, List.find?_cons_of_pos hexist,
        List.eraseP_cons_of_pos hexist, fun f => if_pos hexist⟩
    · have hexist : ¬ isExist a = true := fun h => hax (ha.mp h)
      rcases ih fun e he => hiff e (List.mem_cons_of_mem _ he) with
        ⟨hnone, hall⟩ | ⟨front, e, back, rfl, hstream, hfind, herase, hupdate⟩
      · refine .inl ⟨(List.find?_cons_of_neg hexist).trans hnone, fun e he => ?_⟩
        rcases List.mem_cons.mp he with rfl | he
        · exact hax
        · exact hall e he
      · refine .inr ⟨a :: front, e, back, rfl, hstream,
          (List.find?_cons_of_neg hexist).trans hfind, ?_, fun f => ?_⟩
        · rw [List.eraseP_cons_of_neg hexist, herase, List.cons_append]
        · rw [updateFirst, if_neg hexist, hupdate, List.cons_append]

end Tracking

-- What the handlers do

def told (u : Usage) (x : Stream) (handed : List Handed) : List (Condition × Nat) :=
  handed.filterMap (Handed.told u x)

section Handlers

variable {u : Usage} {v : List EventBean} {cur : Stream → Current Condition} {x : Stream}
  {now : UInt64}

theorem observe_same {c : Current Condition} {o : Obs Condition} (h : c.map Prod.fst = o.value) :
    observe c o = c ∧ report u.worth c o = [] := by
  constructor
  · rw [observe, if_pos h]
  · rw [report, ended, if_pos h]
    rfl

theorem observe_other {c : Current Condition} {o : Obs Condition} (h : c.map Prod.fst ≠ o.value) :
    observe c o = o.value.map fun value => (value, o.time) := by
  rw [observe, if_neg h]

theorem report_closing {since : Nat} {value : Option Condition}
    (hsince : Since e since now.toNat) (hnow : now.toNat < 2 ^ 63)
    (hvalue : some (u.conditionOf e) ≠ value) (hnew : NotTimed now e)
    (hlevel : u = .volume → KnownLevel now e) :
    report u.worth (some (u.conditionOf e, since)) ⟨now.toNat, value⟩ =
      if isLong (elapsed now e) then [(u.conditionOf e, (elapsed now e).toNat)] else [] := by
  have hle := hsince.start_le.trans hsince.le_now
  have hlong := isLong_elapsed hle hnow
  have helapsed := toNat_elapsed hle
  have hstart := hsince.start_le
  rw [report, ended, Option.map_some, if_neg hvalue, Option.map_some, Option.toList_some]
  by_cases h : isLong (elapsed now e) = true
  · -- its start is the start of the episode
    have hfresh := hsince.fresh (hnew h)
    have hlt : 30 < now.toNat - since := hfresh ▸ hlong.mp h
    have hknown : (u != .volume || (u.conditionOf e).level != UNINITIALIZED) = true := by
      cases u with
      | volume => exact bne_iff_ne.mpr (hlevel rfl h)
      | _ => rfl
    rw [if_pos h, helapsed, hfresh]
    refine List.filter_cons_of_pos ?_
    unfold Usage.worth
    rw [hknown, Bool.and_true, decide_eq_true_iff]
    exact hlt
  · rw [if_neg h]
    refine List.filter_cons_of_neg ?_
    unfold Usage.worth
    rw [Bool.and_eq_true, decide_eq_true_iff]
    rintro ⟨hlt, -⟩
    have hlt : 30 < now.toNat - since := hlt
    exact h (hlong.mpr (by omega))

structure Follows (u : Usage) (v : List EventBean) (handed : List Handed)
    (cur : Stream → Current Condition) (x : Stream) (o : Obs Condition) : Prop where
  tracks : Tracks u v (Function.update cur x (observe (cur x) o)) o.time
  told : told u x handed = report u.worth (cur x) o
  others : ∀ y, y ≠ x → MediaMonitor.told u y handed = []

def Tells (u : Usage) (hand : EventBean → List Handed) : Prop :=
  ∀ y e, told u y (hand e) =
    if u.streamOf e = y then [(u.conditionOf e, (e.getUint64Value .DURATION).toNat)] else []

variable {last : Nat} {d : Int32}

theorem follows_unchanged (hT : Tracks u v cur last) (hle : last ≤ now.toNat)
    {value : Option Condition} (hsame : (cur x).map Prod.fst = value) :
    Follows u v [] cur x ⟨now.toNat, value⟩ := by
  obtain ⟨hobserve, hreport⟩ := observe_same (u := u) (o := ⟨now.toNat, value⟩) hsame
  refine ⟨?_, hreport.symm, fun _ _ => rfl⟩
  rw [hobserve, Function.update_eq_self]
  exact hT.later hle

theorem startUsage_follows (hT : Tracks u v cur last) (hle : last ≤ now.toNat)
    {isExist : EventBean → Bool} {b : EventBean} {value : Option Condition}
    (hiff : ∀ e ∈ v, isExist e = true ↔ u.streamOf e = x)
    (hstream : u.streamOf b = x) (hshape : Shaped u b)
    (hstart : b.getUint64Value .START_TIME = now)
    (hknown : ∀ e ∈ v, u.streamOf e = x → value = some (u.conditionOf e))
    (hnew : cur x = none → value = some (u.conditionOf b)) :
    Follows u (startUsage isExist b v) [] cur x ⟨now.toNat, value⟩ := by
  rcases find_cases hiff with ⟨hnone, hall⟩ | ⟨front, e, back, rfl, hex, hfind, -, -⟩
  · have hcur := hT.cur_eq_none hall
    rw [startUsage, hnone]
    refine ⟨?_, ?_, fun _ _ => rfl⟩
    · rw [hcur, hnew hcur, observe_other (by simp)]
      exact (hT.later hle).push hall hstream hshape
        ⟨Nat.le_of_eq (congrArg _ hstart), Nat.le_refl _, fun _ => congrArg _ hstart⟩
    · rw [hcur]
      unfold report ended
      split <;> rfl
  · have hmem : e ∈ front ++ e :: back := by simp
    obtain ⟨-, since, hcur, -⟩ := hT.bean e hmem
    rw [startUsage, hfind]
    refine follows_unchanged hT hle ?_
    rw [hknown e hmem hex, ← hex, hcur]
    rfl

theorem endUsage_follows (hT : Tracks u v cur last) (hle : last ≤ now.toNat)
    (hnow : now.toNat < 2 ^ 63) {isExist reports : EventBean → Bool}
    {hand : EventBean → List Handed} (hiff : ∀ e ∈ v, isExist e = true ↔ u.streamOf e = x)
    (htells : Tells u hand) (hreports : ∀ e, Shaped u e → reports e = true)
    (hopen : ∀ e ∈ v, u.streamOf e = x →
      NotTimed now e ∧ (u = .volume → KnownLevel now e)) :
    Follows u (endUsage isExist reports hand now v).1 (endUsage isExist reports hand now v).2
      cur x ⟨now.toNat, none⟩ := by
  rcases find_cases hiff with ⟨hnone, hall⟩ | ⟨front, e, back, rfl, hex, hfind, herase, -⟩
  · rw [endUsage, hnone]
    refine follows_unchanged hT hle ?_
    rw [hT.cur_eq_none hall]
    rfl
  · have hmem : e ∈ front ++ e :: back := by simp
    obtain ⟨hshape, since, hcur, hsince⟩ := (hT.later hle).bean e hmem
    obtain ⟨hnew, hlevel⟩ := hopen e hmem hex
    rw [hex] at hcur
    rw [endUsage, hfind, herase]
    dsimp only
    rw [hreports e hshape, Bool.true_and]
    refine ⟨?_, ?_, fun y hy => ?_⟩
    · rw [hcur, observe_other (by simp)]
      have := Tracks.replace none none (hT.later hle) hex (by simp) fun _ => rfl
      rwa [Option.toList_none, List.append_nil] at this
    · rw [hcur, report_closing hsince hnow (by simp) hnew hlevel]
      split
      case isTrue hlong =>
        rw [htells, streamOf_timed, if_pos hex, conditionOf_timed,
          getUint64Value_timed (hnew hlong)]
      case isFalse => rfl
    · split
      · rw [htells, streamOf_timed, if_neg (fun heq => hy (heq.symm.trans hex))]
      · rfl

theorem follows_replace {front back : List EventBean} {e b : EventBean} {since : Nat}
    {c : Condition} {handed : List Handed}
    (hT : Tracks u (front ++ e :: back) cur now.toNat) (hnow : now.toNat < 2 ^ 63)
    (hex : u.streamOf e = x) (hcur : cur x = some (u.conditionOf e, since))
    (hsince : Since e since now.toNat) (hnew : NotTimed now e)
    (hlevel : u = .volume → KnownLevel now e) (hother : u.conditionOf e ≠ c)
    (hstream : u.streamOf b = x) (hshape : Shaped u b) (hcond : u.conditionOf b = c)
    (hb : Since b now.toNat now.toNat)
    (htold : ∀ y, told u y handed =
      if u.streamOf e = y ∧ isLong (elapsed now e) = true then
        [(u.conditionOf e, (elapsed now e).toNat)] else []) :
    Follows u (front ++ b :: back) handed cur x ⟨now.toNat, some c⟩ := by
  have hsome : some (u.conditionOf e) ≠ some c := fun h => hother (Option.some.inj h)
  refine ⟨?_, ?_, fun y hy => ?_⟩
  · rw [hcur, observe_other (c := some (u.conditionOf e, since)) (o := ⟨now.toNat, some c⟩) hsome]
    have hreplace := Tracks.replace (some b) (some (c, now.toNat)) hT hex (fun a ha => by
      cases ha
      exact ⟨hstream, hshape, now.toNat, by rw [hcond], hb⟩) (fun h => nomatch h)
    rw [Option.toList_some, List.append_assoc, List.singleton_append] at hreplace
    exact hreplace
  · rw [hcur, htold, report_closing hsince hnow hsome hnew hlevel]
    simp only [hex, true_and]
  · rw [htold, if_neg fun h => hy (h.1.symm.trans hex)]

theorem bean_of_ints {e b : EventBean} (hshape : Shaped u e)
    (hint : b.intMap = e.intMap.assign .DEVICE_TYPE d)
    (hstart : (b.uint64Map .START_TIME).isSome) :
    u.streamOf b = u.streamOf e ∧ Shaped u b ∧
      u.conditionOf b = (u.conditionOf e).onDevice d := by
  have hget : ∀ key, key ≠ .DEVICE_TYPE → b.getIntValue key = e.getIntValue key := fun key hne => by
    unfold EventBean.getIntValue
    rw [hint, KeyMap.assign_of_ne _ _ hne]
  have hdevice : b.getIntValue .DEVICE_TYPE = d := by
    have := EventBean.getIntValue_updateIntMap hshape.device d
    unfold EventBean.getIntValue at this ⊢
    rw [hint]
    exact this
  have hmap : ∀ key, key ≠ .DEVICE_TYPE → b.intMap key = e.intMap key := fun key hne => by
    rw [hint, KeyMap.assign_of_ne _ _ hne]
  refine ⟨?_, ⟨?_, hstart, fun hu => ?_, ?_⟩, ?_⟩
  · cases u <;> simp only [Usage.streamOf, hget .IS_PLAYBACK (by decide),
      hget .STREAMID (by decide)]
  · rw [hint, KeyMap.assign_self, Option.isSome_map]
    exact hshape.device
  · rw [hmap .LEVEL (by decide)]
    exact hshape.level hu
  · rw [hmap .MUTED (by decide)]
    exact hshape.muted
  · cases u <;> simp only [Usage.conditionOf, Condition.onDevice, hget .LEVEL (by decide), hdevice]

theorem handleDeviceChangeForDuration_spec {hand : EventBean → Handed} {bean e : EventBean}
    (hne : bean.getIntValue .DEVICETYPE ≠ e.getIntValue .DEVICE_TYPE) (hshape : Shaped u e)
    (htells : Tells u fun e => [hand e]) (hnew : NotTimed now e) :
    let result := handleDeviceChangeForDuration hand now bean e
    (u.streamOf result.1 = u.streamOf e ∧ Shaped u result.1 ∧
      u.conditionOf result.1 = (u.conditionOf e).onDevice (bean.getIntValue .DEVICETYPE)) ∧
    result.1.getUint64Value .START_TIME = now ∧
    ∀ y, told u y result.2 =
      if u.streamOf e = y ∧ isLong (elapsed now e) = true then
        [(u.conditionOf e, (elapsed now e).toNat)] else [] := by
  -- the bean that is handed over, if it is
  have hreported : ∀ b : EventBean, b = ((timed now e).updateStringMap
        .MANUFACTURER (bean.getStringValue .MANUFACTURER)).updateStringMap
        .MODEL_NUMBER (bean.getStringValue .MODEL_NUMBER) →
      b.intMap = e.intMap ∧ (b.uint64Map .START_TIME).isSome ∧
        u.streamOf b = u.streamOf e ∧ u.conditionOf b = u.conditionOf e ∧
        b.getUint64Value .DURATION = (timed now e).getUint64Value .DURATION := by
    rintro b rfl
    refine ⟨rfl, ?_, ?_, ?_, rfl⟩
    · exact (congrArg Option.isSome (KeyMap.emplace_of_ne e.uint64Map (elapsed now e)
        (show Key.START_TIME ≠ .DURATION by decide))).trans hshape.start
    · cases u <;> rfl
    · cases u <;> rfl
  intro result
  have hresult : result = handleDeviceChangeForDuration hand now bean e := rfl
  rw [handleDeviceChangeForDuration, if_pos hne] at hresult
  by_cases hlong : isLong (elapsed now e) = true
  · obtain ⟨hint, hstart, hstream, hcond, hduration⟩ := hreported _ rfl
    simp only [hlong, if_true] at hresult
    rw [hresult]
    refine ⟨bean_of_ints hshape (congrArg (KeyMap.assign · _ _) hint) ?_, ?_, fun y => ?_⟩
    · rw [EventBean.isSome_updateUint64Map]
      exact hstart
    · exact EventBean.getUint64Value_updateUint64Map hstart now
    · rw [htells, hstream, hcond, hduration, getUint64Value_timed (hnew hlong)]
      simp only [hlong, and_true]
  · simp only [Bool.not_eq_true] at hlong
    simp only [hlong, Bool.false_eq_true, if_false] at hresult
    rw [hresult]
    refine ⟨bean_of_ints hshape rfl ?_, ?_, fun y => ?_⟩
    · rw [EventBean.isSome_updateUint64Map]
      exact hshape.start
    · exact EventBean.getUint64Value_updateUint64Map hshape.start now
    · simp only [hlong, Bool.false_eq_true, and_false, if_false]
      rfl

/-- A change of device closes the episode and opens the next one in the same bean. -/
theorem moveUsage_follows (hT : Tracks u v cur last) (hle : last ≤ now.toNat)
    (hnow : now.toNat < 2 ^ 63) {isExist reports : EventBean → Bool} {bean : EventBean}
    {hand : EventBean → Handed} (hiff : ∀ e ∈ v, isExist e = true ↔ u.streamOf e = x)
    (htells : Tells u fun e => [hand e]) (hreports : ∀ e, Shaped u e → reports e = true)
    (hopen : ∀ e ∈ v, u.streamOf e = x →
      bean.getIntValue .DEVICETYPE ≠ e.getIntValue .DEVICE_TYPE →
        NotTimed now e ∧ (u = .volume → KnownLevel now e)) :
    Follows u (moveUsage isExist reports hand now bean v).1
      (moveUsage isExist reports hand now bean v).2 cur x
      ⟨now.toNat, ((cur x).map Prod.fst).map fun c =>
        c.onDevice (bean.getIntValue .DEVICETYPE)⟩ := by
  rcases find_cases hiff with ⟨hnone, hall⟩ | ⟨front, e, back, rfl, hex, hfind, -, hupdate⟩
  · rw [moveUsage, hnone]
    refine follows_unchanged hT hle ?_
    rw [hT.cur_eq_none hall]
    rfl
  · have hmem : e ∈ front ++ e :: back := by simp
    obtain ⟨hshape, since, hcur, hsince⟩ := (hT.later hle).bean e hmem
    rw [hex] at hcur
    have hcondition : ∀ a : EventBean, (u.conditionOf a).deviceType = a.getIntValue .DEVICE_TYPE := by
      intro a
      cases u <;> rfl
    rw [moveUsage, hfind]
    dsimp only
    rw [if_pos (hreports e hshape), hupdate]
    by_cases hsame : bean.getIntValue .DEVICETYPE = e.getIntValue .DEVICE_TYPE
    · have hstay : handleDeviceChangeForDuration hand now bean e = (e, []) :=
        if_neg (not_not.mpr hsame)
      rw [hstay]
      refine follows_unchanged hT hle ?_
      rw [hcur, hsame, ← hcondition]
      rfl
    · obtain ⟨hnew, hlevel⟩ := hopen e hmem hex hsame
      obtain ⟨⟨hstream, hshape', hcond⟩, hstart, htold⟩ :=
        handleDeviceChangeForDuration_spec hsame hshape htells hnew
      have hother : u.conditionOf e ≠
          (u.conditionOf e).onDevice (bean.getIntValue .DEVICETYPE) := fun heq =>
        hsame ((congrArg Condition.deviceType heq).symm.trans (hcondition e))
      have hvalue : ((cur x).map Prod.fst).map (fun c =>
          c.onDevice (bean.getIntValue .DEVICETYPE)) =
          some ((u.conditionOf e).onDevice (bean.getIntValue .DEVICETYPE)) := by
        rw [hcur]
        rfl
      rw [hvalue]
      exact follows_replace (hT.later hle) hnow hex hcur hsince hnew hlevel hother
        (hstream.trans hex) hshape' hcond
        ⟨Nat.le_of_eq (congrArg _ hstart), Nat.le_refl _, fun _ => congrArg _ hstart⟩ htold

theorem updateFirst_of_none {isExist : EventBean → Bool} (f : EventBean → EventBean)
    (h : v.find? isExist = none) : updateFirst isExist f v = v := by
  induction v with
  | nil => rfl
  | cons e v ih =>
    have he : ¬ isExist e = true := List.find?_eq_none.mp h e (List.mem_cons_self ..)
    rw [List.find?_cons_of_neg he] at h
    rw [updateFirst, if_neg he, ih h]

theorem tells_volume : Tells .volume fun e => [.volume e] := by
  intro y e
  by_cases h : Usage.volume.streamOf e = y
  · simp [told, Handed.told, Handed.usage, h]
  · simp [told, Handed.told, Handed.usage, h]

def leveled (now : UInt64) (bean e : EventBean) : EventBean :=
  (if isLong (elapsed now e) && e.getIntValue .LEVEL != UNINITIALIZED then timed now e
    else e).updateIntMap .LEVEL (bean.getIntValue .SYSVOLUME)

theorem leveled_spec (now : UInt64) (bean : EventBean) (hshape : Shaped .volume e) :
    Usage.volume.streamOf (leveled now bean e) = Usage.volume.streamOf e ∧
    Shaped .volume (leveled now bean e) ∧
    Usage.volume.conditionOf (leveled now bean e) =
      (Usage.volume.conditionOf e).atLevel (bean.getIntValue .SYSVOLUME) ∧
    (leveled now bean e).getUint64Value .START_TIME = e.getUint64Value .START_TIME := by
  have hsame : ∀ b : EventBean, b = (if isLong (elapsed now e) &&
        e.getIntValue .LEVEL != UNINITIALIZED then timed now e else e) →
      b.intMap = e.intMap ∧ b.uint64Map .START_TIME = e.uint64Map .START_TIME := by
    rintro b rfl
    split
    · exact ⟨rfl, KeyMap.emplace_of_ne e.uint64Map (elapsed now e)
        (show Key.START_TIME ≠ .DURATION by decide)⟩
    · exact ⟨rfl, rfl⟩
  obtain ⟨hint, hstart⟩ := hsame _ rfl
  have hmap : (leveled now bean e).intMap =
      e.intMap.assign .LEVEL (bean.getIntValue .SYSVOLUME) :=
    congrArg (KeyMap.assign · _ _) hint
  have hget : ∀ key, key ≠ .LEVEL →
      (leveled now bean e).getIntValue key = e.getIntValue key := fun key hne => by
    unfold EventBean.getIntValue
    rw [hmap, KeyMap.assign_of_ne _ _ hne]
  have hlevel : (leveled now bean e).getIntValue .LEVEL = bean.getIntValue .SYSVOLUME := by
    have := EventBean.getIntValue_updateIntMap (hshape.level rfl) (bean.getIntValue .SYSVOLUME)
    unfold EventBean.getIntValue at this ⊢
    rw [hmap]
    exact this
  refine ⟨?_, ⟨?_, ?_, fun _ => ?_, ?_⟩, ?_, congrArg (Option.getD · 0) hstart⟩
  · exact congrArg (Stream.mk true) (hget .STREAMID (by decide))
  · rw [hmap, KeyMap.assign_of_ne _ _ (show Key.DEVICE_TYPE ≠ .LEVEL by decide)]
    exact hshape.device
  · exact (congrArg Option.isSome hstart).trans hshape.start
  · rw [hmap, KeyMap.assign_self, Option.isSome_map]
    exact hshape.level rfl
  · rw [hmap, KeyMap.assign_of_ne _ _ (show Key.MUTED ≠ .LEVEL by decide)]
    exact hshape.muted
  · simp only [Usage.conditionOf, Condition.atLevel, hget .DEVICE_TYPE (by decide), hlevel]

/-- A change of level closes the episode, but the bean keeps its start. -/
theorem handleVolumeChange_follows {s : EventAggregate} {bean : EventBean}
    (hT : Tracks .volume s.volumeVector cur last) (hle : last ≤ now.toNat)
    (hnow : now.toNat < 2 ^ 63) (hout : bean.getIntValue .ISOUTPUT ≠ 0)
    (hx : x = ⟨true, bean.getIntValue .STREAMID⟩)
    (hopen : ∀ e ∈ s.volumeVector, Usage.volume.streamOf e = x →
      bean.getIntValue .SYSVOLUME ≠ e.getIntValue .LEVEL →
        e.getUint64Value .START_TIME = now ∨ isLong (elapsed now e) = true ∧
          e.getIntValue .LEVEL ≠ UNINITIALIZED ∧ e.uint64Map .DURATION = none) :
    Follows .volume (handleVolumeChange bean now s).1.volumeVector
      (handleVolumeChange bean now s).2 cur x
      ⟨now.toNat, ((cur x).map Prod.fst).map fun c =>
        c.atLevel (bean.getIntValue .SYSVOLUME)⟩ := by
  have haccept : ∀ e, changesVolume bean e = true ↔
      Usage.volume.streamOf e = x ∧ bean.getIntValue .SYSVOLUME ≠ e.getIntValue .LEVEL := by
    intro e
    rw [hx]
    simp only [changesVolume, sameStream, Bool.and_eq_true, beq_iff_eq, bne_iff_ne,
      Usage.streamOf, Stream.mk.injEq, true_and]
    exact and_congr_left fun _ => eq_comm
  have hvector : (handleVolumeChange bean now s).1.volumeVector =
      updateFirst (changesVolume bean) (leveled now bean) s.volumeVector := by
    rw [handleVolumeChange, if_neg hout]
    rfl
  have hnothing (hnone : s.volumeVector.find? (changesVolume bean) = none) :
      (handleVolumeChange bean now s).2 = [] := by
    rw [handleVolumeChange, if_neg hout, hnone]
  have hhanded {it : EventBean} (hfind : s.volumeVector.find? (changesVolume bean) = some it) :
      (handleVolumeChange bean now s).2 =
        if isLong (elapsed now it) && it.getIntValue .LEVEL != UNINITIALIZED then
          [.volume (timed now it)] else [] := by
    rw [handleVolumeChange, if_neg hout, hfind]
  rw [hvector]
  by_cases hsame : ∃ e ∈ s.volumeVector, Usage.volume.streamOf e = x ∧
      bean.getIntValue .SYSVOLUME = e.getIntValue .LEVEL
  · -- the stream is at that level already
    obtain ⟨e, hmem, hex, hlevel⟩ := hsame
    obtain ⟨-, since, hcur, -⟩ := hT.bean e hmem
    rw [hex] at hcur
    have hnone : s.volumeVector.find? (changesVolume bean) = none := by
      rw [List.find?_eq_none]
      intro a ha hacc
      obtain ⟨hax, hne⟩ := (haccept a).mp hacc
      obtain ⟨-, since', hcur', -⟩ := hT.bean a ha
      rw [hax, hcur] at hcur'
      have hcond := congrArg Condition.level (congrArg Prod.fst (Option.some.inj hcur'))
      exact hne (hlevel.trans hcond)
    rw [updateFirst_of_none _ hnone, hnothing hnone]
    refine follows_unchanged hT hle ?_
    rw [hcur, hlevel]
    rfl
  · have hiff : ∀ e ∈ s.volumeVector,
        changesVolume bean e = true ↔ Usage.volume.streamOf e = x := fun e he =>
      (haccept e).trans ⟨And.left, fun h => ⟨h, fun heq => hsame ⟨e, he, h, heq⟩⟩⟩
    rcases find_cases hiff with ⟨hnone, hall⟩ | ⟨front, e, back, hv, hex, hfind, -, hupdate⟩
    · rw [updateFirst_of_none _ hnone, hnothing hnone]
      refine follows_unchanged hT hle ?_
      rw [hT.cur_eq_none hall]
      rfl
    · have hmem : e ∈ s.volumeVector := by simp [hv]
      obtain ⟨hshape, since, hcur, hsince⟩ := (hT.later hle).bean e hmem
      rw [hex] at hcur
      have hne : bean.getIntValue .SYSVOLUME ≠ e.getIntValue .LEVEL := fun heq =>
        hsame ⟨e, hmem, hex, heq⟩
      obtain ⟨hstream, hshape', hcond, hstart⟩ := leveled_spec now bean hshape
      have hother : Usage.volume.conditionOf e ≠
          (Usage.volume.conditionOf e).atLevel (bean.getIntValue .SYSVOLUME) := fun heq =>
        hne (congrArg Condition.level heq).symm
      have hvalue : ((cur x).map Prod.fst).map (fun c =>
          c.atLevel (bean.getIntValue .SYSVOLUME)) =
          some ((Usage.volume.conditionOf e).atLevel (bean.getIntValue .SYSVOLUME)) := by
        rw [hcur]
        rfl
      rw [hvalue, hupdate, hhanded hfind]
      rw [hv] at hT
      have hle' := hsince.start_le.trans hsince.le_now
      rcases hopen e hmem hex hne with hnow' | ⟨hlong, hknown, hfresh⟩
      · -- the bean began at this moment, so nothing was open for long
        have hshort : ¬ isLong (elapsed now e) = true := by
          rw [isLong_elapsed hle' hnow, hnow']
          omega
        have hstart' := congrArg UInt64.toNat hnow'
        have hb : Since (leveled now bean e) now.toNat now.toNat := by
          rw [← hstart] at hstart'
          exact ⟨Nat.le_of_eq hstart', Nat.le_refl _, fun _ => hstart'⟩
        refine follows_replace (hT.later hle) hnow hex hcur hsince (fun h => absurd h hshort)
          (fun _ h => absurd h hshort) hother (hstream.trans hex) hshape' hcond hb fun y => ?_
        simp only [hshort, Bool.false_and, Bool.false_eq_true, if_false, and_false]
        rfl
      · -- the bean is handed over, and never again
        have hreports : (isLong (elapsed now e) && e.getIntValue .LEVEL != UNINITIALIZED) = true :=
          Bool.and_eq_true_iff.mpr ⟨hlong, bne_iff_ne.mpr hknown⟩
        have hb : Since (leveled now bean e) now.toNat now.toNat := by
          rw [← hstart] at hle'
          refine ⟨hle', Nat.le_refl _, fun hnone => ?_⟩
          have hmap : (leveled now bean e).uint64Map = (timed now e).uint64Map := by
            unfold leveled
            rw [if_pos hreports]
            rfl
          rw [hmap] at hnone
          have hsome := KeyMap.emplace_self e.uint64Map .DURATION (elapsed now e)
          cases hsome.symm.trans hnone
        refine follows_replace (hT.later hle) hnow hex hcur hsince (fun _ => hfresh)
          (fun _ _ => hknown) hother (hstream.trans hex) hshape' hcond hb fun y => ?_
        rw [if_pos hreports, show told .volume y [.volume (timed now e)] = _ from tells_volume y _,
          streamOf_timed, conditionOf_timed,
          getUint64Value_timed hfresh]
        simp only [hlong, and_true]

end Handlers

-- What is told about the other usages

def Silent (u : Usage) (handed : List Handed) : Prop := ∀ x, told u x handed = []

section Silence

variable {u : Usage}

theorem told_append (x : Stream) (a b : List Handed) :
    told u x (a ++ b) = told u x a ++ told u x b := List.filterMap_append

theorem silent_nil : Silent u [] := fun _ => rfl

theorem silent_of_usage {h : Handed} {w : Usage} (husage : h.usage = some (w, e))
    (hne : w ≠ u) : Silent u [h] := by
  intro x
  simp [told, Handed.told, husage, hne]

theorem silent_endUsage {hand : EventBean → List Handed} (h : ∀ e, Silent u (hand e))
    (isExist reports : EventBean → Bool) (now : UInt64) (v : List EventBean) :
    Silent u (endUsage isExist reports hand now v).2 := by
  unfold endUsage
  cases v.find? isExist with
  | none => exact silent_nil
  | some e =>
    dsimp only
    split
    · exact h _
    · exact silent_nil

theorem silent_moveUsage {hand : EventBean → Handed} (h : ∀ e, Silent u [hand e])
    (isExist reports : EventBean → Bool) (now : UInt64) (bean : EventBean) (v : List EventBean) :
    Silent u (moveUsage isExist reports hand now bean v).2 := by
  unfold moveUsage
  cases v.find? isExist with
  | none => exact silent_nil
  | some e =>
    dsimp only
    split
    · dsimp only [handleDeviceChangeForDuration]
      split
      · dsimp only
        split
        · exact h _
        · exact silent_nil
      · exact silent_nil
    · exact silent_nil

theorem tells_captureMuted : Tells .muted fun e => [.captureMuted e] := by
  intro y e
  by_cases h : Usage.muted.streamOf e = y
  · simp [told, Handed.told, Handed.usage, h]
  · simp [told, Handed.told, Handed.usage, h]

theorem tells_deviceUsage : Tells .device fun e => [.deviceUsage e] := by
  intro y e
  by_cases h : Usage.device.streamOf e = y
  · simp [told, Handed.told, Handed.usage, h]
  · simp [told, Handed.told, Handed.usage, h]

theorem tells_handDeviceUsage (isBluetooth : Int32 → Bool) :
    Tells .device (handDeviceUsage isBluetooth) := by
  intro y e
  rw [← tells_deviceUsage y e]
  unfold handDeviceUsage
  split
  · exact (told_append y [.deviceUsage e] [.btUsage e]).trans (List.append_nil _)
  · rfl

theorem silent_handDeviceUsage (isBluetooth : Int32 → Bool) (hu : u ≠ .device) (e : EventBean) :
    Silent u (handDeviceUsage isBluetooth e) := by
  have hdevice : Silent u [.deviceUsage e] := silent_of_usage rfl hu.symm
  unfold handDeviceUsage
  split
  · exact fun x => (told_append x [.deviceUsage e] [.btUsage e]).trans
      (by rw [hdevice x]; rfl)
  · exact hdevice

end Silence

-- The handlers on their vectors

section Vectors

variable {s : EventAggregate} {event : Event} {cur : Stream → Current Condition} {last : Nat}
  (isBluetooth : Int32 → Bool)

theorem stream_playback : event.stream.playback = true ↔ event.bean.getIntValue .ISOUTPUT ≠ 0 :=
  bne_iff_ne

theorem stream_of_muted (hin : event.bean.getIntValue .ISOUTPUT = 0) :
    event.stream = ⟨false, event.bean.getIntValue .STREAMID⟩ := by
  unfold Event.stream
  rw [hin]
  rfl

theorem stream_of_volume (hout : event.bean.getIntValue .ISOUTPUT ≠ 0) :
    event.stream = ⟨true, event.bean.getIntValue .STREAMID⟩ := by
  unfold Event.stream
  rw [bne_iff_ne.mpr hout]

theorem addToDeviceUsage_follows (hT : Tracks .device s.deviceUsageVector cur last)
    (hle : last ≤ event.time.toNat)
    (hopen : ∀ e ∈ s.deviceUsageVector, Usage.device.streamOf e = event.stream →
      sameDeviceUsage event.bean e = true) :
    Follows .device (addToDeviceUsage isBluetooth event.bean event.time s).deviceUsageVector []
      cur event.stream
      ⟨event.time.toNat, some { deviceType := event.bean.getIntValue .DEVICETYPE }⟩ := by
  have hbean : ∀ b, b = deviceUsageBean isBluetooth event.bean event.time →
      Usage.device.streamOf b = event.stream ∧ Shaped .device b ∧
        b.getUint64Value .START_TIME = event.time ∧
        Usage.device.conditionOf b = { deviceType := event.bean.getIntValue .DEVICETYPE } := by
    rintro b rfl
    unfold deviceUsageBean
    dsimp only
    split
    · exact ⟨rfl, ⟨rfl, rfl, fun h => (nomatch h), rfl⟩, rfl, rfl⟩
    · exact ⟨rfl, ⟨rfl, rfl, fun h => (nomatch h), rfl⟩, rfl, rfl⟩
  have hsame : ∀ e, sameDeviceUsage event.bean e = true →
      Usage.device.streamOf e = event.stream ∧
        event.bean.getIntValue .DEVICETYPE = e.getIntValue .DEVICE_TYPE := by
    intro e he
    simp only [sameDeviceUsage, Bool.and_eq_true, beq_iff_eq] at he
    obtain ⟨⟨⟨⟨⟨⟨hout, hid⟩, -⟩, -⟩, -⟩, -⟩, hdevice⟩ := he
    refine ⟨?_, hdevice⟩
    simp only [Usage.streamOf, Event.stream, hout, hid]
  obtain ⟨hstream, hshape, hstart, hcond⟩ := hbean _ rfl
  refine startUsage_follows hT hle (fun e he => ⟨fun h => (hsame e h).1, hopen e he⟩) hstream
    hshape hstart (fun e he hex => ?_) fun _ => congrArg some hcond.symm
  rw [(hsame e (hopen e he hex)).2]
  rfl

theorem addToCaptureMuteUsage_follows (hT : Tracks .muted s.captureMutedVector cur last)
    (hle : last ≤ event.time.toNat) (hin : event.bean.getIntValue .ISOUTPUT = 0)
    (hopen : ∀ e ∈ s.captureMutedVector, Usage.muted.streamOf e = event.stream →
      event.bean.getIntValue .MUTED ≠ 0 ∧ sameCaptureMuted event.bean e = true) :
    Follows .muted (addToCaptureMuteUsage event.bean event.time s).captureMutedVector [] cur
      event.stream ⟨event.time.toNat, if event.bean.getIntValue .MUTED = 0 then none
        else some { deviceType := event.bean.getIntValue .DEVICETYPE }⟩ := by
  have hstream := stream_of_muted hin
  unfold addToCaptureMuteUsage
  rw [if_neg (not_not.mpr hin)]
  by_cases hmuted : event.bean.getIntValue .MUTED = 0
  · rw [if_pos hmuted, if_pos hmuted]
    refine follows_unchanged hT hle ?_
    rw [hT.cur_eq_none fun e he hex => (hopen e he hex).1 hmuted]
    rfl
  · rw [if_neg hmuted, if_neg hmuted]
    have hsame : ∀ e, sameCaptureMuted event.bean e = true →
        Usage.muted.streamOf e = event.stream ∧
          event.bean.getIntValue .DEVICETYPE = e.getIntValue .DEVICE_TYPE := by
      intro e he
      simp only [sameCaptureMuted, Bool.and_eq_true, beq_iff_eq] at he
      obtain ⟨⟨hid, -⟩, hdevice⟩ := he
      exact ⟨by rw [hstream, hid]; rfl, hdevice⟩
    refine startUsage_follows hT hle (fun e he => ⟨fun h => (hsame e h).1,
      fun h => (hopen e he h).2⟩) (hstream ▸ rfl) ⟨rfl, rfl, fun h => (nomatch h), rfl⟩ rfl
      (fun e he hex => ?_) fun _ => rfl
    rw [(hsame e (hopen e he hex).2).2]
    rfl

theorem addToVolumeVector_follows (hT : Tracks .volume s.volumeVector cur last)
    (hle : last ≤ event.time.toNat) (hout : event.bean.getIntValue .ISOUTPUT ≠ 0)
    (hopen : ∀ e ∈ s.volumeVector, Usage.volume.streamOf e = event.stream →
      e.getIntValue .DEVICE_TYPE = event.bean.getIntValue .DEVICETYPE) :
    Follows .volume (addToVolumeVector event.bean event.time s).volumeVector [] cur event.stream
      ⟨event.time.toNat, some ⟨event.bean.getIntValue .DEVICETYPE,
        (((cur event.stream).map Prod.fst).map Condition.level).getD s.systemVol⟩⟩ := by
  have hstream := stream_of_volume hout
  have hsame : ∀ e, sameStream event.bean e = true ↔ Usage.volume.streamOf e = event.stream := by
    intro e
    rw [hstream]
    simp only [sameStream, beq_iff_eq, Usage.streamOf, Stream.mk.injEq, true_and]
    exact eq_comm
  unfold addToVolumeVector
  rw [if_neg hout]
  refine startUsage_follows hT hle (fun e _ => hsame e) (hstream ▸ rfl)
    ⟨rfl, rfl, fun _ => rfl, rfl⟩ rfl (fun e he hex => ?_) fun hnone => ?_
  · obtain ⟨-, since, hcur, -⟩ := hT.bean e he
    rw [hex] at hcur
    rw [hcur, ← hopen e he hex]
    rfl
  · rw [hnone]
    rfl

theorem handleDeviceUsage_follows (hT : Tracks .device s.deviceUsageVector cur last)
    (hle : last ≤ event.time.toNat) (hnow : event.time.toNat < 2 ^ 63)
    (hopen : ∀ e ∈ s.deviceUsageVector, Usage.device.streamOf e = event.stream →
      endsDeviceUsage event.bean e = true ∧ NotTimed event.time e) :
    Follows .device (handleDeviceUsage isBluetooth event.bean event.time s).1.deviceUsageVector
      (handleDeviceUsage isBluetooth event.bean event.time s).2 cur event.stream
      ⟨event.time.toNat, none⟩ := by
  refine endUsage_follows hT hle hnow (fun e he => ⟨fun h => ?_, fun h => (hopen e he h).1⟩)
    (tells_handDeviceUsage isBluetooth) (fun _ _ => rfl)
    fun e he hex => ⟨(hopen e he hex).2, fun h => (nomatch h)⟩
  simp only [endsDeviceUsage, Bool.and_eq_true, beq_iff_eq] at h
  obtain ⟨⟨⟨⟨⟨hid, -⟩, -⟩, -⟩, -⟩, hout⟩ := h
  simp only [Usage.streamOf, Event.stream, hout, hid]

theorem muted_of_shaped (h : Shaped .muted e) :
    (e.getIntValue .MUTED != 0) = true := by
  unfold EventBean.getIntValue
  rw [h.muted]
  rfl

theorem handleCaptureMuted_follows (hT : Tracks .muted s.captureMutedVector cur last)
    (hle : last ≤ event.time.toNat) (hnow : event.time.toNat < 2 ^ 63)
    (hin : event.bean.getIntValue .ISOUTPUT = 0)
    (hopen : ∀ e ∈ s.captureMutedVector, Usage.muted.streamOf e = event.stream →
      sameCaptureMuted event.bean e = true ∧ NotTimed event.time e) :
    Follows .muted (handleCaptureMuted event.bean event.time s).1.captureMutedVector
      (handleCaptureMuted event.bean event.time s).2 cur event.stream
      ⟨event.time.toNat, none⟩ := by
  unfold handleCaptureMuted
  rw [if_neg (not_not.mpr hin)]
  refine endUsage_follows hT hle hnow (fun e he => ⟨fun h => ?_, fun h => (hopen e he h).1⟩)
    tells_captureMuted (fun _ => muted_of_shaped)
    fun e he hex => ⟨(hopen e he hex).2, fun h => (nomatch h)⟩
  simp only [sameCaptureMuted, Bool.and_eq_true, beq_iff_eq] at h
  rw [stream_of_muted hin, h.1.1]
  rfl

theorem handleStreamChangeForVolume_follows (hT : Tracks .volume s.volumeVector cur last)
    (hle : last ≤ event.time.toNat) (hnow : event.time.toNat < 2 ^ 63)
    (hout : event.bean.getIntValue .ISOUTPUT ≠ 0)
    (hopen : ∀ e ∈ s.volumeVector, Usage.volume.streamOf e = event.stream →
      endsVolume event.bean e = true ∧ NotTimed event.time e ∧ KnownLevel event.time e) :
    Follows .volume (handleStreamChangeForVolume event.bean event.time s).1.volumeVector
      (handleStreamChangeForVolume event.bean event.time s).2 cur event.stream
      ⟨event.time.toNat, none⟩ := by
  refine endUsage_follows hT hle hnow (fun e he => ⟨fun h => ?_, fun h => (hopen e he h).1⟩)
    tells_volume (fun _ _ => rfl)
    fun e he hex => ⟨(hopen e he hex).2.1, fun _ => (hopen e he hex).2.2⟩
  simp only [endsVolume, Bool.and_eq_true, beq_iff_eq] at h
  rw [stream_of_volume hout, h.1.1.2]
  rfl

theorem handleStreamChangeForVolume_capture (hin : event.bean.getIntValue .ISOUTPUT = 0) :
    handleStreamChangeForVolume event.bean event.time s = (s, []) := by
  have hnone : s.volumeVector.find? (endsVolume event.bean) = none := by
    rw [List.find?_eq_none]
    intro e _ h
    simp only [endsVolume, hin, bne_self_eq_false, Bool.false_and, Bool.false_eq_true] at h
  unfold handleStreamChangeForVolume endUsage
  rw [hnone]

theorem handleDeviceChangeForDeviceUsage_follows
    (hT : Tracks .device s.deviceUsageVector cur last)
    (hle : last ≤ event.time.toNat) (hnow : event.time.toNat < 2 ^ 63)
    (hopen : ∀ e ∈ s.deviceUsageVector, Usage.device.streamOf e = event.stream →
      movesDeviceUsage event.bean e = true ∧
        (event.bean.getIntValue .DEVICETYPE ≠ e.getIntValue .DEVICE_TYPE →
          NotTimed event.time e)) :
    Follows .device (handleDeviceChangeForDeviceUsage event.bean event.time s).1.deviceUsageVector
      (handleDeviceChangeForDeviceUsage event.bean event.time s).2 cur event.stream
      ⟨event.time.toNat, ((cur event.stream).map Prod.fst).map fun c =>
        c.onDevice (event.bean.getIntValue .DEVICETYPE)⟩ := by
  refine moveUsage_follows hT hle hnow (fun e he => ⟨fun h => ?_, fun h => (hopen e he h).1⟩)
    tells_deviceUsage (fun _ _ => rfl)
    fun e he hex hne => ⟨(hopen e he hex).2 hne, fun h => (nomatch h)⟩
  simp only [movesDeviceUsage, Bool.and_eq_true, beq_iff_eq] at h
  simp only [Usage.streamOf, Event.stream, h.1, h.2]

theorem handleDeviceChangeForCaptureMuted_follows
    (hT : Tracks .muted s.captureMutedVector cur last)
    (hle : last ≤ event.time.toNat) (hnow : event.time.toNat < 2 ^ 63)
    (hin : event.bean.getIntValue .ISOUTPUT = 0)
    (hopen : ∀ e ∈ s.captureMutedVector, Usage.muted.streamOf e = event.stream →
      event.bean.getIntValue .DEVICETYPE ≠ e.getIntValue .DEVICE_TYPE → NotTimed event.time e) :
    Follows .muted
      (handleDeviceChangeForCaptureMuted event.bean event.time s).1.captureMutedVector
      (handleDeviceChangeForCaptureMuted event.bean event.time s).2 cur event.stream
      ⟨event.time.toNat, ((cur event.stream).map Prod.fst).map fun c =>
        c.onDevice (event.bean.getIntValue .DEVICETYPE)⟩ := by
  have hsame : ∀ e, sameStream event.bean e = true ↔ Usage.muted.streamOf e = event.stream := by
    intro e
    rw [stream_of_muted hin]
    simp only [sameStream, beq_iff_eq, Usage.streamOf, Stream.mk.injEq, true_and]
    exact eq_comm
  unfold handleDeviceChangeForCaptureMuted
  rw [if_neg (not_not.mpr hin)]
  exact moveUsage_follows hT hle hnow (fun e _ => hsame e) tells_captureMuted
    (fun _ => muted_of_shaped) fun e he hex hne => ⟨hopen e he hex hne, fun h => (nomatch h)⟩

theorem handleDeviceChangeForVolume_follows (hT : Tracks .volume s.volumeVector cur last)
    (hle : last ≤ event.time.toNat) (hnow : event.time.toNat < 2 ^ 63)
    (hout : event.bean.getIntValue .ISOUTPUT ≠ 0)
    (hopen : ∀ e ∈ s.volumeVector, Usage.volume.streamOf e = event.stream →
      event.bean.getIntValue .DEVICETYPE ≠ e.getIntValue .DEVICE_TYPE →
        NotTimed event.time e ∧ KnownLevel event.time e) :
    Follows .volume (handleDeviceChangeForVolume event.bean event.time s).1.volumeVector
      (handleDeviceChangeForVolume event.bean event.time s).2 cur event.stream
      ⟨event.time.toNat, ((cur event.stream).map Prod.fst).map fun c =>
        c.onDevice (event.bean.getIntValue .DEVICETYPE)⟩ := by
  have hsame : ∀ e, sameStream event.bean e = true ↔ Usage.volume.streamOf e = event.stream := by
    intro e
    rw [stream_of_volume hout]
    simp only [sameStream, beq_iff_eq, Usage.streamOf, Stream.mk.injEq, true_and]
    exact eq_comm
  unfold handleDeviceChangeForVolume
  rw [if_neg hout]
  exact moveUsage_follows hT hle hnow (fun e _ => hsame e) tells_volume (fun _ _ => rfl)
    fun e he hex hne => ⟨(hopen e he hex hne).1, fun _ => (hopen e he hex hne).2⟩

end Vectors

end MediaFoundation.MediaMonitor
