import MediaFoundation.Lib.StableSort
import MediaFoundation.Lib.Words
import MediaFoundation.Demux.DemuxerFilter
import MediaFoundation.Plugin.PluginRegister

/-!
# TypeFinder

The order in which `TypeFinder` (`type_finder.cpp`) asks the demuxer plugins, and the reads that it
answers for their sniffers. `DemuxerFilter` has the reads over a packer; here the answers of
`checkRange_` and `peekRange_` are any.

Conventions:

* `extra[..]` of a key that is not there puts an empty value, which shows nowhere: it is `none`.
* A buffer is a value of any type, as `peekRange_` leaves it. A null pointer is `none`.
-/

namespace MediaFoundation.Demux.TypeFinder

open StableSort

-- SortPlugins

inductive ExtraValue where
  | empty
  | stringVector (value : List String)
  | other

/-- `Plugin::PluginInfo`, as far as `TypeFinder` looks at it. -/
structure PluginInfo where
  pluginType : Plugin.PluginType
  name : String
  rank : UInt32
  extra : List (String × ExtraValue)

def extraExtensions : String := "extensions"

def isPluginSupportedExtension (pluginInfo : PluginInfo) (extension : String) : Bool :=
  if pluginInfo.pluginType ≠ .demuxer then false
  else
    match Roster.find pluginInfo.extra extraExtensions with
    | some (.stringVector exts) => exts.contains extension
    | _ => false

def compares (uriSuffix : String) (lhs rhs : PluginInfo) : Bool :=
  if isPluginSupportedExtension lhs uriSuffix then
    decide (rhs.rank ≤ lhs.rank) || !isPluginSupportedExtension rhs uriSuffix
  else decide (rhs.rank ≤ lhs.rank) && !isPluginSupportedExtension rhs uriSuffix

/-- `r` is what `SortPlugins` may leave in `plugins_`. -/
def SortPlugins (uriSuffix : String) (plugins r : List PluginInfo) : Prop :=
  if uriSuffix = "" then r = plugins else Leaves (compares uriSuffix) plugins r

/-- The order of the candidates: those for the suffix first, then the higher rank. -/
def precedes (uriSuffix : String) (lhs rhs : PluginInfo) : Bool :=
  if isPluginSupportedExtension lhs uriSuffix = isPluginSupportedExtension rhs uriSuffix then
    decide (rhs.rank < lhs.rank)
  else isPluginSupportedExtension lhs uriSuffix

structure Ordered (uriSuffix : String) (plugins r : List PluginInfo) : Prop where
  perm : r.Perm plugins
  supportedFirst : r.Pairwise fun a b =>
    isPluginSupportedExtension b uriSuffix = true → isPluginSupportedExtension a uriSuffix = true
  descending : r.Pairwise fun a b =>
    isPluginSupportedExtension a uriSuffix = isPluginSupportedExtension b uriSuffix →
      b.rank ≤ a.rank
  keepsOrder : ∀ (supported : Bool) (rank : UInt32),
    (r.filter fun p => isPluginSupportedExtension p uriSuffix == supported && p.rank == rank) =
      plugins.filter fun p => isPluginSupportedExtension p uriSuffix == supported && p.rank == rank

def Sorts (uriSuffix : String) (plugins : List PluginInfo) : Prop :=
  StrictWeakOrderOn (compares uriSuffix) plugins ∧
    ∀ r, SortPlugins uriSuffix plugins r → Ordered uriSuffix plugins r

variable {s : String} {a b c : PluginInfo}

/-- The comparison of the code is the order turned round and negated. -/
theorem compares_eq_not_precedes (s : String) (a b : PluginInfo) :
    compares s a b = !precedes s b a := by
  unfold compares precedes
  by_cases ha : isPluginSupportedExtension a s <;> by_cases hb : isPluginSupportedExtension b s <;>
    simp [ha, hb, decide_not, ← UInt32.not_lt]

theorem precedes_self (s : String) (a : PluginInfo) : precedes s a a = false := by
  simp [precedes]

theorem compares_self (s : String) (a : PluginInfo) : compares s a a = true := by
  rw [compares_eq_not_precedes, precedes_self]
  rfl

theorem sorts_iff (uriSuffix : String) (plugins : List PluginInfo) :
    Sorts uriSuffix plugins ↔ plugins = [] := by
  constructor
  · intro h
    exact (strictWeakOrderOn_iff_nil (compares_self uriSuffix)).mp h.1
  · intro h
    rw [h]
    refine ⟨.nil _, ?_⟩
    intro r hr
    have hnil : r = [] := by
      unfold SortPlugins at hr
      split at hr
      · exact hr
      · exact leaves_nil hr
    rw [hnil]
    exact ⟨.nil, .nil, .nil, fun _ _ => rfl⟩

def mp3Demuxer : PluginInfo := ⟨.demuxer, "mp3", 100, [(extraExtensions, .stringVector ["mp3"])]⟩

theorem not_sorts_one : ¬ Sorts "mp3" [mp3Demuxer] := by
  intro h
  have hself := h.1.irrefl mp3Demuxer (by simp)
  rw [compares_self] at hself
  contradiction

-- ReadAt

section ReadAt

variable {β : Type}

structure Answers (β : Type) where
  /-- The answer to the check made after so many others. -/
  checkRange : Nat → Bool
  peekRange : β → Bool × β

inductive Asked where
  | checkRange (offset expectedLen : UInt64) (answer : Bool)
  | peekRange (offset expectedLen : UInt64) (answer : Bool)
deriving DecidableEq

def isOffsetValid (mediaDataSize : UInt64) (offset : Int64) : Bool :=
  decide (mediaDataSize = 0) || decide (offset < mediaDataSize.toInt64)

/-- The loop around `checkRange_`, with `left` tries left: what it asks, and `i` after it. -/
def tryCheckRange (answers : Answers β) (offset expectedLen : UInt64) :
    Nat → List Asked × Nat
  | 0 =>
    let answer := answers.checkRange maxTryTimes
    ([.checkRange offset expectedLen answer], if answer then maxTryTimes else maxTryTimes + 1)
  | left + 1 =>
    let i := maxTryTimes - (left + 1)
    if answers.checkRange i then ([.checkRange offset expectedLen true], i)
    else
      let r := tryCheckRange answers offset expectedLen left
      (.checkRange offset expectedLen false :: r.1, r.2)

structure ReadAtResult (β : Type) where
  status : PluginStatus
  buffer : Option β
  asked : List Asked

def readAt (mediaDataSize : UInt64) (answers : Answers β) (offset : Int64) (buffer : Option β)
    (expectedLen : UInt64) : ReadAtResult β :=
  match buffer with
  | none => ⟨.errorInvalidParameter, none, []⟩
  | some b =>
    if expectedLen = 0 ∨ !isOffsetValid mediaDataSize offset then
      ⟨.errorInvalidParameter, some b, []⟩
    else
      let tries := tryCheckRange answers offset.toUInt64 expectedLen maxTryTimes
      if tries.2 = maxTryTimes then ⟨.errorNotEnoughData, some b, tries.1⟩
      else
        -- the answer is only logged
        let peeked := answers.peekRange b
        ⟨.ok, some peeked.2,
          tries.1 ++ [.peekRange offset.toUInt64 expectedLen peeked.1]⟩

/-- The arguments name a buffer and a range that begins in the source, as far as its size is
known. -/
def ValidRead (mediaDataSize : UInt64) (offset : Int64) (buffer : Option β)
    (expectedLen : UInt64) : Prop :=
  buffer.isSome = true ∧ expectedLen ≠ 0 ∧ 0 ≤ offset.toInt ∧
    (mediaDataSize = 0 ∨ offset.toInt < mediaDataSize.toNat)

structure Honest (mediaDataSize : UInt64) (answers : Answers β) (offset : Int64)
    (buffer : Option β) (expectedLen : UInt64) (r : ReadAtResult β) : Prop where
  /-- `OK` is for a buffer that a successful peek has filled from the range. -/
  filled : r.status = .ok → ∃ b, buffer = some b ∧ answers.peekRange b = (true, r.buffer.getD b) ∧
    r.asked.getLast? = some (.peekRange offset.toUInt64 expectedLen true)
  /-- An error is for arguments that are none, or a range that was not there when last asked. -/
  error : r.status ≠ .ok → ¬ ValidRead mediaDataSize offset buffer expectedLen ∨
    r.asked.getLast? = some (.checkRange offset.toUInt64 expectedLen false)
  offsets : ∀ q ∈ r.asked, 0 ≤ offset.toInt

def FoundLast (answers : Answers β) : Prop :=
  answers.checkRange maxTryTimes = true ∧ ∀ k < maxTryTimes, answers.checkRange k = false

/-- The call is rejected rightly, or it asks from an offset that is not negative, the range does
not come with the last try, and the peek succeeds. -/
def HonestWhen (mediaDataSize : UInt64) (answers : Answers β) (offset : Int64)
    (buffer : Option β) (expectedLen : UInt64) : Prop :=
  ∀ b, buffer = some b → expectedLen ≠ 0 →
    if isOffsetValid mediaDataSize offset then
      0 ≤ offset.toInt ∧ ¬ FoundLast answers ∧ (answers.peekRange b).1 = true
    else ¬ ValidRead mediaDataSize offset buffer expectedLen

variable {mediaDataSize : UInt64} {answers : Answers β} {offset : Int64} {buffer : Option β}
  {expectedLen : UInt64}

theorem tryCheckRange_gives_up (offset : UInt64) {left : Nat} (hleft : left ≤ maxTryTimes) :
    (tryCheckRange answers offset expectedLen left).2 = maxTryTimes ↔
      answers.checkRange maxTryTimes = true ∧
        ∀ k < maxTryTimes, maxTryTimes ≤ k + left → answers.checkRange k = false := by
  induction left with
  | zero =>
    cases h : answers.checkRange maxTryTimes with
    | true => simp [tryCheckRange, h]; omega
    | false => simp [tryCheckRange, h]
  | succ left ih =>
    by_cases hi : answers.checkRange (maxTryTimes - (left + 1))
    · simp only [tryCheckRange, hi, if_pos]
      constructor
      · intro h
        omega
      · intro h
        have hfalse := h.2 (maxTryTimes - (left + 1)) (by omega) (by omega)
        rw [hi] at hfalse
        contradiction
    · simp only [tryCheckRange, hi]
      refine (ih (by omega)).trans (and_congr_right fun _ => ⟨?_, ?_⟩)
      · intro h k hk hle
        rcases Nat.eq_or_lt_of_le hle with heq | hlt
        · rw [show k = maxTryTimes - (left + 1) by omega]
          simpa using hi
        · exact h k hk (by omega)
      · intro h k hk hle
        exact h k hk (by omega)

theorem gives_up_iff (answers : Answers β) (offset expectedLen : UInt64) :
    (tryCheckRange answers offset expectedLen maxTryTimes).2 = maxTryTimes ↔
      FoundLast answers := by
  rw [tryCheckRange_gives_up offset (Nat.le_refl _)]
  refine and_congr_right fun _ => ⟨fun h k hk => h k hk (by omega), fun h k hk _ => h k hk⟩

theorem tryCheckRange_asks (answers : Answers β) (offset expectedLen : UInt64) (left : Nat) :
    (tryCheckRange answers offset expectedLen left).1 ≠ [] := by
  cases left with
  | zero => simp [tryCheckRange]
  | succ left =>
    simp only [tryCheckRange]
    split <;> simp

theorem tryCheckRange_last (offset : UInt64) {left : Nat}
    (h : (tryCheckRange answers offset expectedLen left).2 = maxTryTimes)
    (hleft : left ≤ maxTryTimes) :
    (tryCheckRange answers offset expectedLen left).1.getLast? =
      some (.checkRange offset expectedLen true) := by
  induction left with
  | zero =>
    have hfound := ((tryCheckRange_gives_up offset hleft).mp h).1
    simp [tryCheckRange, hfound]
  | succ left ih =>
    have hnot := ((tryCheckRange_gives_up offset hleft).mp h).2 (maxTryTimes - (left + 1))
      (by omega) (by omega)
    simp only [tryCheckRange, hnot] at h ⊢
    have hlast := ih h (by omega)
    obtain ⟨q, qs, hcons⟩ :=
      List.exists_cons_of_ne_nil (tryCheckRange_asks answers offset expectedLen left)
    simpa [hcons] using hlast

theorem validRead_of_isOffsetValid {b : β} (hvalid : isOffsetValid mediaDataSize offset = true)
    (hlen : expectedLen ≠ 0) (hoffset : 0 ≤ offset.toInt) :
    ValidRead mediaDataSize offset (some b) expectedLen := by
  refine ⟨rfl, hlen, hoffset, ?_⟩
  simp only [isOffsetValid, Bool.or_eq_true, decide_eq_true_eq] at hvalid
  rcases hvalid with hzero | hlt
  · exact Or.inl hzero
  · right
    have hle : mediaDataSize.toInt64.toInt ≤ mediaDataSize.toNat := by
      rw [Words.toInt_toInt64]
      split <;> omega
    rw [Int64.lt_iff_toInt_lt] at hlt
    omega

/-- A call that is turned away for its arguments. -/
theorem rejected_honest_iff {r : ReadAtResult β} (hstatus : r.status ≠ .ok) (hasked : r.asked = []) :
    Honest mediaDataSize answers offset buffer expectedLen r ↔
      ¬ ValidRead mediaDataSize offset buffer expectedLen := by
  constructor
  · intro h
    simpa [hasked] using h.error hstatus
  · intro h
    exact ⟨fun hok => absurd hok hstatus, fun _ => Or.inl h, by simp [hasked]⟩

theorem gave_up_not_honest {b : β} (hfound : FoundLast answers)
    (hvalid : isOffsetValid mediaDataSize offset = true) (hlen : expectedLen ≠ 0)
    {r : ReadAtResult β} (hstatus : r.status ≠ .ok)
    (hasked : r.asked =
      (tryCheckRange answers offset.toUInt64 expectedLen maxTryTimes).1) :
    ¬ Honest mediaDataSize answers offset (some b) expectedLen r := by
  intro h
  have hlast := tryCheckRange_last offset.toUInt64
    ((gives_up_iff answers offset.toUInt64 expectedLen).mpr hfound) (Nat.le_refl _)
  have hoffset := h.offsets _ (List.mem_of_getLast? (hasked ▸ hlast))
  rcases h.error hstatus with hnot | hunavailable
  · exact hnot (validRead_of_isOffsetValid hvalid hlen hoffset)
  · rw [hasked, hlast] at hunavailable
    simp at hunavailable

theorem readAt_honest_iff (mediaDataSize : UInt64) (answers : Answers β) (offset : Int64)
    (buffer : Option β) (expectedLen : UInt64) :
    Honest mediaDataSize answers offset buffer expectedLen
        (readAt mediaDataSize answers offset buffer expectedLen) ↔
      HonestWhen mediaDataSize answers offset buffer expectedLen := by
  cases buffer with
  | none =>
    refine (rejected_honest_iff (by simp [readAt]) (by simp [readAt])).trans ?_
    simp [ValidRead, HonestWhen]
  | some b =>
    by_cases hlen : expectedLen = 0
    · refine (rejected_honest_iff (by simp [readAt, hlen]) (by simp [readAt, hlen])).trans ?_
      simp [ValidRead, HonestWhen, hlen]
    by_cases hvalid : isOffsetValid mediaDataSize offset
    · by_cases hfound : FoundLast answers
      · have hup := (gives_up_iff answers offset.toUInt64 expectedLen).mpr hfound
        have hnot := gave_up_not_honest (b := b) hfound hvalid hlen
          (r := readAt mediaDataSize answers offset (some b) expectedLen)
          (by simp [readAt, hlen, hvalid, hup]) (by simp [readAt, hlen, hvalid, hup])
        simp [hnot, HonestWhen, hlen, hvalid, hfound]
      · have hnup := mt (gives_up_iff answers offset.toUInt64 expectedLen).mp hfound
        have heq : readAt mediaDataSize answers offset (some b) expectedLen =
            ⟨.ok, some (answers.peekRange b).2,
              (tryCheckRange answers offset.toUInt64 expectedLen maxTryTimes).1 ++
                [.peekRange offset.toUInt64 expectedLen (answers.peekRange b).1]⟩ := by
          simp [readAt, hlen, hvalid, hnup]
        rw [heq]
        constructor
        · intro h b' hb' _
          cases hb'
          obtain ⟨b', hb', hpeek, -⟩ := h.filled rfl
          cases hb'
          rw [if_pos hvalid]
          exact ⟨h.offsets _ (List.mem_append_right _ (List.mem_singleton.mpr rfl)), hfound,
            by rw [hpeek]⟩
        · intro h
          have hw := h b rfl hlen
          rw [if_pos hvalid] at hw
          exact ⟨fun _ => ⟨b, rfl, by simp [← hw.2.2], by simp [hw.2.2]⟩, fun h => absurd rfl h,
            fun _ _ => hw.1⟩
    · refine (rejected_honest_iff (by simp [readAt, hvalid]) (by simp [readAt, hvalid])).trans ?_
      simp [HonestWhen, hlen, hvalid]

/-- Four bytes that have come when they are looked for the fourth time. -/
def lateBytes : Answers (List UInt8) where
  checkRange := fun k => decide (k = maxTryTimes)
  peekRange := fun _ => (true, [0x49, 0x44, 0x33, 0x04])

theorem late_not_honest : ¬ Honest 0 lateBytes 0 (some []) 4 (readAt 0 lateBytes 0 (some []) 4) := by
  have hfound : FoundLast lateBytes := by
    refine ⟨by decide, ?_⟩
    intro k hk
    exact decide_eq_false (by omega)
  exact gave_up_not_honest hfound (by decide) (by decide) (by decide) (by decide)

end ReadAt

end MediaFoundation.Demux.TypeFinder
