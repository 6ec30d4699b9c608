import MediaFoundation.Sink.OutputSink

/-!
# The recorded file

Four layers keep a position: the context of the callbacks, the end of what it
wrote, the sink filter and the descriptor. `FileFdSinkPlugin::Write` drops what
`write` returns, and the port between muxer and sink drops what `PushData`
returns, so no failure on the way to the file reaches the library.
-/

namespace MediaFoundation.Sink

open Sink.Recorder

-- The library and the system

/-- What the library asks for: blocks of some bytes, and positions of a file. -/
def InDomain (s : Recorder) : Callback → Prop
  | .ioWrite buf _ => buf ≠ [] ∧ buf.length < 2 ^ 31
  | .ioSeek offset .seekSet => 0 ≤ offset ∧ offset < 2 ^ 63
  | .ioSeek offset .seekCur => 0 ≤ s.pos + offset ∧ s.pos + offset < 2 ^ 63
  | .ioSeek offset .seekEnd => 0 ≤ s.end_ + offset ∧ s.end_ + offset < 2 ^ 63
  | .ioSeek offset .avseekSize => -2 ^ 63 ≤ offset ∧ offset < 2 ^ 63
  | .ioSeek _ .unexpected => False

/-- The calls that a block needs succeed in full, and the size is asked for without an offset. -/
def Served (s : Recorder) : Callback → Prop
  | .ioWrite buf r => r.memory = true →
    (s.pos ≠ s.sink.currentPos → r.lseek = true) ∧
      buf.length ≤ r.write.getD 0 ∧ s.pos + buf.length ≤ maxFileSize
  | .ioSeek offset .avseekSize => offset = 0
  | .ioSeek _ _ => True

instance (s : Recorder) : ∀ c, Decidable (InDomain s c)
  | .ioWrite _ _ => inferInstanceAs (Decidable (_ ∧ _))
  | .ioSeek _ .seekSet => inferInstanceAs (Decidable (_ ∧ _))
  | .ioSeek _ .seekCur => inferInstanceAs (Decidable (_ ∧ _))
  | .ioSeek _ .seekEnd => inferInstanceAs (Decidable (_ ∧ _))
  | .ioSeek _ .avseekSize => inferInstanceAs (Decidable (_ ∧ _))
  | .ioSeek _ .unexpected => inferInstanceAs (Decidable False)

-- The promise

structure Kept (s : Recorder) (c : Callback) : Prop where
  position : (s.perform c).1.sink.currentPos = (s.perform c).1.sink.fd.pos
  largest : (s.perform c).1.end_ = (s.perform c).1.sink.fd.top
  size : ∀ offset, c = .ioSeek offset .avseekSize → s.perform c = (s, s.end_)
  put : ∀ buf r, c = .ioWrite buf r → (s.perform c).2 = buf.length →
    (s.perform c).1.sink.fd.file = writeAt s.sink.fd.file s.pos.toNat buf
  reported : ∀ buf r, c = .ioWrite buf r →
    (s.perform c).1.sink.fd.faults ≠ s.sink.fd.faults → (s.perform c).2 ≠ buf.length

/-- The blocks that were reported as written, with their positions. -/
def writes (s : Recorder) : List Callback → List (Nat × List UInt8)
  | [] => []
  | .ioWrite buf r :: cs =>
    (if (s.ioWrite buf r).2 = buf.length then [(s.pos.toNat, buf)] else []) ++
      writes (s.ioWrite buf r).1 cs
  | .ioSeek offset whence :: cs => writes (s.ioSeek offset whence).1 cs

/-- The blocks put into a file, one after the other. -/
def replay (file : List UInt8) (ws : List (Nat × List UInt8)) : List UInt8 :=
  ws.foldl (fun file w => writeAt file w.1 w.2) file

def Recorded (s : Recorder) (cs : List Callback) : Prop :=
  Runs.Along step Kept s cs ∧ ∀ t, Runs.run step s cs = some t →
    t.sink.fd.file = replay s.sink.fd.file (writes s cs)

-- One block

theorem wrap64_eq {n : Int} (hlo : -2 ^ 63 ≤ n) (hhi : n < 2 ^ 63) : wrap64 n = n :=
  Int.bmod_eq_of_le (by norm_num; omega) (by norm_num; omega)

theorem wrap64_add_eq {n offset : Int} (hn : 0 ≤ n) (hn' : n < 2 ^ 63) (hlo : -2 ^ 63 ≤ offset)
    (hhi : offset < 2 ^ 63) : wrap64 (n + offset) = n ↔ offset = 0 := by
  rw [wrap64, Int.bmod_def]
  constructor
  · intro h
    split at h <;> omega
  · rintro rfl
    split <;> omega

structure Agrees (s : Recorder) : Prop where
  position : s.sink.currentPos = s.sink.fd.pos
  largest : s.end_ = s.sink.fd.top
  pos_nonneg : 0 ≤ s.pos
  pos_lt : s.pos < 2 ^ 63
  fd_lt : s.sink.fd.pos < 2 ^ 63
  top_lt : s.sink.fd.top < 2 ^ 63

def OutputSinkFilter.standingAt (f : OutputSinkFilter) (pos : Int) : OutputSinkFilter :=
  { f with fd := { f.fd with pos := pos.toNat }, currentPos := pos }

/-- The recorder once a block is in the file. -/
def Recorder.wrote (s : Recorder) (buf : List UInt8) : Recorder :=
  { pos := s.pos + buf.length
    end_ := max s.end_ (s.pos + buf.length)
    sink :=
      { s.sink with
        fd :=
          { s.sink.fd with
            file := Sink.writeAt s.sink.fd.file s.pos.toNat buf
            pos := s.pos.toNat + buf.length
            top := max s.sink.fd.top (s.pos.toNat + buf.length) }
        currentPos := s.pos + buf.length } }

section Blocks

variable {s : Recorder} {buf : List UInt8} {r : Results}

theorem Descriptor.write_full {fd : Descriptor} {result : Option Nat} (hbuf : buf ≠ [])
    (hresult : buf.length ≤ result.getD 0) (hroom : fd.pos + buf.length ≤ maxFileSize) :
    fd.write result buf =
      { fd with
        file := Sink.writeAt fd.file fd.pos buf
        pos := fd.pos + buf.length
        top := max fd.top (fd.pos + buf.length) } := by
  have htaken : fd.taken result buf = buf := List.take_of_length_le (by omega)
  have hsome : buf.isEmpty = false := List.isEmpty_eq_false_iff.mpr hbuf
  unfold Descriptor.write
  simp only [htaken, hsome, Bool.false_eq_true, if_false, if_true]

theorem Descriptor.write_faults {fd : Descriptor} {result : Option Nat}
    (h : ¬ (buf.length ≤ result.getD 0 ∧ fd.pos + buf.length ≤ maxFileSize)) (hbuf : buf ≠ []) :
    (fd.write result buf).faults = fd.faults + 1 := by
  have hpos := List.length_pos_of_ne_nil hbuf
  have hshort : (fd.taken result buf).length ≠ buf.length := by
    rw [Descriptor.taken, List.length_take]
    omega
  exact if_neg hshort

theorem pushMemory_some (f : OutputSinkFilter) :
    f.pushMemory r { memory := some buf, eos := false } =
      ({ fd := f.fd.write r.write buf
         currentPos := wrap64 (f.currentPos + buf.length)
         bufferEos := f.bufferEos }, .success) := by
  simp only [OutputSinkFilter.pushMemory, Sink.write, translatePluginStatus, ne_eq,
    not_true_eq_false, if_false, Bool.or_false]

/-- The seek leaves the descriptor at the position of the block, or it was there already. -/
theorem pushData_seeks (h : Agrees s) (buffer : Buffer)
    (hseek : s.pos ≠ s.sink.currentPos → r.lseek = true) :
    s.sink.pushData r buffer s.pos =
      (s.sink.standingAt s.pos).pushMemory r buffer := by
  unfold OutputSinkFilter.pushData
  split
  next hmoves =>
    unfold seekTo Descriptor.lseek
    rw [hseek hmoves.2]
    rfl
  next hstays =>
    have hsame : s.pos = s.sink.currentPos := by
      by_contra hne
      exact hstays ⟨h.pos_nonneg, hne⟩
    have hfd : s.pos.toNat = s.sink.fd.pos := by
      rw [hsame, h.position, Int.toNat_natCast]
    rw [OutputSinkFilter.standingAt, hfd, hsame]

/-- **A block whose calls succeed** is in the file, and every position has moved past it. -/
theorem ioWrite_served (h : Agrees s) (hbuf : buf ≠ []) (hmem : r.memory = true)
    (hserved : Served s (.ioWrite buf r)) :
    s.ioWrite buf r = (s.wrote buf, (buf.length : Int)) := by
  obtain ⟨hseek, hresult, hroom⟩ := hserved hmem
  have hnonneg := h.pos_nonneg
  have hlt : s.pos + buf.length < 2 ^ 63 := by
    unfold maxFileSize at hroom
    omega
  have hnat : s.pos.toNat + buf.length ≤ maxFileSize := by omega
  have hwrap : wrap64 (s.pos + buf.length) = s.pos + buf.length := wrap64_eq (by omega) hlt
  have hmax : (if s.end_ < s.pos + buf.length then s.pos + buf.length else s.end_) =
      max s.end_ (s.pos + buf.length) := by
    rw [Int.max_def]
    split <;> split <;> omega
  have hwrite := @Descriptor.write_full buf { s.sink.fd with pos := s.pos.toNat } r.write hbuf
    hresult hnat
  unfold Recorder.ioWrite Recorder.writeAt
  rw [if_neg (not_not_intro hmem), pushData_seeks h _ hseek]
  simp only [OutputSinkFilter.standingAt, OutputSinkFilter.pushMemory, Sink.write, hwrite, hwrap,
    translatePluginStatus, ne_eq, not_true_eq_false, if_false, hmax, Bool.or_false, Recorder.wrote]

/-- Every block that finds memory is reported as written. -/
theorem ioWrite_reply (hmem : r.memory = true) : (s.ioWrite buf r).2 = buf.length := by
  unfold Recorder.ioWrite
  rw [if_neg (not_not_intro hmem)]
  rfl

/-- **A block of which a call fails** or is short. -/
theorem ioWrite_faults (h : Agrees s) (hbuf : buf ≠ []) (hmem : r.memory = true)
    (hfails : ¬ Served s (.ioWrite buf r)) :
    (s.ioWrite buf r).1.sink.fd.faults = s.sink.fd.faults + 1 := by
  have hsink : (s.ioWrite buf r).1.sink =
      (s.sink.pushData r { memory := some buf, eos := false } s.pos).1 := by
    unfold Recorder.ioWrite
    rw [if_neg (not_not_intro hmem)]
    rfl
  rw [hsink]
  by_cases hseek : s.pos ≠ s.sink.currentPos → r.lseek = true
  · have hnonneg := h.pos_nonneg
    have hshort : ¬ (buf.length ≤ r.write.getD 0 ∧ s.pos.toNat + buf.length ≤ maxFileSize) :=
      fun hfull => hfails fun _ => ⟨hseek, hfull.1, by omega⟩
    rw [pushData_seeks h _ hseek]
    exact @Descriptor.write_faults buf { s.sink.fd with pos := s.pos.toNat } r.write hshort hbuf
  · obtain ⟨hmoves, hlseek⟩ := Classical.not_imp.mp hseek
    unfold OutputSinkFilter.pushData seekTo Descriptor.lseek
    rw [if_pos ⟨h.pos_nonneg, hmoves⟩, if_neg hlseek]
    rfl

end Blocks

-- One callback

section Callbacks

variable {s : Recorder} {c : Callback}

theorem Agrees.seek (h : Agrees s) {pos : Int} (hlo : 0 ≤ pos) (hhi : pos < 2 ^ 63) :
    Agrees { s with pos } :=
  ⟨h.position, h.largest, hlo, hhi, h.fd_lt, h.top_lt⟩

theorem Agrees.wrote {buf : List UInt8} (h : Agrees s)
    (hroom : s.pos + buf.length ≤ maxFileSize) : Agrees (s.wrote buf) := by
  have hnonneg := h.pos_nonneg
  have hlargest := h.largest
  have htop := h.top_lt
  unfold maxFileSize at hroom
  refine ⟨?_, ?_, ?_, ?_, ?_, ?_⟩
  · show s.pos + buf.length = ((s.pos.toNat + buf.length : Nat) : Int)
    omega
  · show max s.end_ (s.pos + buf.length) =
      ((max s.sink.fd.top (s.pos.toNat + buf.length) : Nat) : Int)
    omega
  · show 0 ≤ s.pos + buf.length
    omega
  · show s.pos + buf.length < 2 ^ 63
    omega
  · show s.pos.toNat + buf.length < 2 ^ 63
    omega
  · show max s.sink.fd.top (s.pos.toNat + buf.length) < 2 ^ 63
    omega

theorem kept_ioWrite {buf : List UInt8} {r : Results} (h : Agrees s)
    (hd : InDomain s (.ioWrite buf r)) :
    (Kept s (.ioWrite buf r) ↔ Served s (.ioWrite buf r)) ∧
      (Served s (.ioWrite buf r) → Agrees (s.ioWrite buf r).1) := by
  by_cases hmem : r.memory = true
  · by_cases hserved : Served s (.ioWrite buf r)
    · have hwrote := ioWrite_served h hd.1 hmem hserved
      have hagrees := h.wrote (hserved hmem).2.2
      refine ⟨⟨fun _ => hserved, fun _ => ?_⟩, fun _ => hwrote ▸ hagrees⟩
      have hperform : s.perform (.ioWrite buf r) = (s.wrote buf, (buf.length : Int)) := hwrote
      refine ⟨?_, ?_, fun _ hc => Callback.noConfusion hc, fun buf' r' hc _ => ?_,
        fun buf' r' _ hfaults => ?_⟩
      · rw [hperform]
        exact hagrees.position
      · rw [hperform]
        exact hagrees.largest
      · cases hc
        rw [hperform]
        rfl
      · rw [hperform] at hfaults
        exact absurd rfl hfaults
    · refine ⟨⟨fun hkept => ?_, fun hs => absurd hs hserved⟩, fun hs => absurd hs hserved⟩
      refine absurd (ioWrite_reply hmem) (hkept.reported buf r rfl ?_)
      show (s.ioWrite buf r).1.sink.fd.faults ≠ _
      rw [ioWrite_faults h hd.1 hmem hserved]
      omega
  · have hnone : s.ioWrite buf r = (s, -1) := by
      unfold Recorder.ioWrite
      exact if_pos hmem
    have hperform : s.perform (.ioWrite buf r) = (s, -1) := hnone
    refine ⟨⟨fun _ hmem' => absurd hmem' hmem, fun _ => ?_⟩, fun _ => hnone ▸ h⟩
    refine ⟨?_, ?_, fun _ hc => Callback.noConfusion hc, fun buf' r' _ hreply => ?_,
      fun buf' r' _ hfaults => ?_⟩
    · rw [hperform]
      exact h.position
    · rw [hperform]
      exact h.largest
    · rw [hperform] at hreply
      exact absurd hreply (by show (-1 : Int) ≠ _; omega)
    · rw [hperform] at hfaults
      exact absurd rfl hfaults

theorem Kept.of_seek {offset pos reply : Int} {whence : Whence} (h : Agrees s)
    (hw : whence ≠ .avseekSize) (hs : s.ioSeek offset whence = ({ s with pos }, reply)) :
    Kept s (.ioSeek offset whence) := by
  have hperform : s.perform (.ioSeek offset whence) = ({ s with pos }, reply) := hs
  refine ⟨?_, ?_, fun offset' hc => ?_, fun _ _ hc => Callback.noConfusion hc,
    fun _ _ hc => Callback.noConfusion hc⟩
  · rw [hperform]
    exact h.position
  · rw [hperform]
    exact h.largest
  · cases hc
    exact absurd rfl hw

theorem kept_ioSeek {offset : Int} {whence : Whence} (h : Agrees s)
    (hd : InDomain s (.ioSeek offset whence)) :
    (Kept s (.ioSeek offset whence) ↔ Served s (.ioSeek offset whence)) ∧
      (Served s (.ioSeek offset whence) → Agrees (s.ioSeek offset whence).1) := by
  cases whence with
  | seekSet =>
    have hkept := Kept.of_seek h (by decide) (rfl : s.ioSeek offset .seekSet = _)
    exact ⟨⟨fun _ => trivial, fun _ => hkept⟩, fun _ => h.seek hd.1 hd.2⟩
  | seekCur =>
    have hwrap : wrap64 (s.pos + offset) = s.pos + offset :=
      wrap64_eq (by have := hd.1; omega) hd.2
    have hkept := Kept.of_seek h (by decide) (rfl : s.ioSeek offset .seekCur = _)
    refine ⟨⟨fun _ => trivial, fun _ => hkept⟩, fun _ => ?_⟩
    unfold Recorder.ioSeek
    rw [hwrap]
    exact h.seek hd.1 hd.2
  | seekEnd =>
    have hwrap : wrap64 (s.end_ + offset) = s.end_ + offset :=
      wrap64_eq (by have := hd.1; omega) hd.2
    have hkept := Kept.of_seek h (by decide) (rfl : s.ioSeek offset .seekEnd = _)
    refine ⟨⟨fun _ => trivial, fun _ => hkept⟩, fun _ => ?_⟩
    unfold Recorder.ioSeek
    rw [hwrap]
    exact h.seek hd.1 hd.2
  | avseekSize =>
    have hend := h.largest
    have htop := h.top_lt
    have hwrap : wrap64 (s.end_ + offset) = s.end_ ↔ offset = 0 :=
      wrap64_add_eq (by omega) (by omega) hd.1 hd.2
    refine ⟨⟨fun hkept => ?_, fun hzero => ?_⟩, fun _ => h⟩
    · exact hwrap.mp (congrArg Prod.snd (hkept.size offset rfl))
    · refine ⟨h.position, h.largest, fun offset' hc => ?_, fun _ _ hc => Callback.noConfusion hc,
        fun _ _ hc => Callback.noConfusion hc⟩
      cases hc
      exact congrArg (Prod.mk s) (hwrap.mpr hzero)
  | unexpected => exact hd.elim

/-- **One callback** keeps the promise exactly when it is served, and the positions agree again. -/
theorem kept_iff (h : Agrees s) (hd : InDomain s c) :
    (Kept s c ↔ Served s c) ∧ (Served s c → Agrees (s.perform c).1) := by
  cases c with
  | ioWrite buf r => exact kept_ioWrite h hd
  | ioSeek offset whence => exact kept_ioSeek h hd

/-- A descriptor that does not stand at the start is never where the filter takes it to be. -/
theorem not_kept_of_start {file : List UInt8} {pos : Nat} (hpos : pos ≠ 0)
    (hd : InDomain (start file pos) c) : ¬ Kept (start file pos) c := by
  intro hkept
  have hposition := hkept.position
  cases c with
  | ioSeek offset whence =>
    have hsink : ((start file pos).perform (.ioSeek offset whence)).1.sink =
        (start file pos).sink := by
      cases whence <;> rfl
    rw [hsink] at hposition
    have hzero : (0 : Int) = pos := hposition
    omega
  | ioWrite buf r =>
    by_cases hmem : r.memory = true
    · have hsink : ((start file pos).perform (.ioWrite buf r)).1.sink =
          ((start file pos).sink.pushMemory r { memory := some buf, eos := false }).1 := by
        show ((start file pos).ioWrite buf r).1.sink = _
        unfold Recorder.ioWrite
        rw [if_neg (not_not_intro hmem)]
        rfl
      have hwrap : wrap64 (0 + buf.length) = buf.length := by
        have hlt := hd.2
        rw [Int.zero_add]
        exact wrap64_eq (by omega) (by omega)
      rw [hsink, pushMemory_some] at hposition
      simp only [Recorder.start, hwrap] at hposition
      have hmoved : (buf.length : Int) =
          ((pos + (({ file, pos } : Descriptor).taken r.write buf).length : Nat) : Int) := hposition
      -- the write was short, and the block was reported all the same
      refine hkept.reported buf r rfl ?_ (ioWrite_reply hmem)
      rw [hsink, pushMemory_some]
      have hshort : (({ file, pos } : Descriptor).taken r.write buf).length ≠ buf.length := by
        omega
      exact (if_neg hshort).trans_ne Nat.one_ne_zero
    · have hnone : (start file pos).perform (.ioWrite buf r) = (start file pos, -1) := if_pos hmem
      rw [hnone] at hposition
      have hzero : (0 : Int) = pos := hposition
      omega

end Callbacks

-- Every recording

theorem along_kept_iff {cs : List Callback} {s : Recorder} (h : Agrees s)
    (hd : Runs.Along step InDomain s cs) :
    Runs.Along step Kept s cs ↔ Runs.Along step Served s cs := by
  induction cs generalizing s with
  | nil => exact Iff.rfl
  | cons c cs ih =>
    obtain ⟨hkept, hagrees⟩ := kept_iff h hd.1
    constructor
    · rintro ⟨hc, hcs⟩
      exact ⟨hkept.mp hc, (ih (hagrees (hkept.mp hc)) hd.2).mp hcs⟩
    · rintro ⟨hc, hcs⟩
      exact ⟨hkept.mpr hc, (ih (hagrees hc) hd.2).mpr hcs⟩

theorem file_of_unreported {s : Recorder} {buf : List UInt8} {r : Results}
    (h : (s.ioWrite buf r).2 ≠ buf.length) : (s.ioWrite buf r).1 = s := by
  have hmem : ¬ r.memory = true := fun hmem => h (ioWrite_reply hmem)
  unfold Recorder.ioWrite
  rw [if_pos hmem]

/-- **The finished file** is what was reported as written. -/
theorem file_eq_replay {cs : List Callback} {s t : Recorder}
    (hkept : Runs.Along step Kept s cs) (hrun : Runs.run step s cs = some t) :
    t.sink.fd.file = replay s.sink.fd.file (writes s cs) := by
  induction cs generalizing s with
  | nil =>
    cases hrun
    rfl
  | cons c cs ih =>
    have hrest := ih hkept.2 hrun
    cases c with
    | ioWrite buf r =>
      rw [hrest, writes, replay, replay, List.foldl_append]
      congr 1
      split
      next hreply => exact hkept.1.put buf r rfl hreply
      next hreply =>
        show (s.ioWrite buf r).1.sink.fd.file = _
        rw [file_of_unreported hreply]
        rfl
    | ioSeek offset whence =>
      have hsink : (s.ioSeek offset whence).1.sink = s.sink := by
        cases whence <;> rfl
      rw [hrest, writes]
      exact congrArg (fun sink => replay sink.fd.file _) hsink

theorem Agrees.start (file : List UInt8) : Agrees (start file 0) :=
  ⟨rfl, rfl, le_refl _, by norm_num [Recorder.start], by norm_num [Recorder.start],
    by norm_num [Recorder.start]⟩

/-- **The recorded file.** A recording keeps every promise, and its file is
what the library wrote, exactly when the descriptor stands at the start before
the first callback, every block that finds memory gets all its calls served in
full, and the size is asked for without an offset. -/
theorem recorded_file {file : List UInt8} {pos : Nat} {cs : List Callback}
    (hd : Runs.Along step InDomain (start file pos) cs) :
    Recorded (start file pos) cs ↔
      (cs = [] ∨ pos = 0) ∧ Runs.Along step Served (start file pos) cs := by
  constructor
  · rintro ⟨hkept, -⟩
    cases cs with
    | nil => exact ⟨.inl rfl, trivial⟩
    | cons c cs =>
      have hpos : pos = 0 := by
        by_contra hne
        exact not_kept_of_start hne hd.1 hkept.1
      subst hpos
      exact ⟨.inr rfl, (along_kept_iff (.start file) hd).mp hkept⟩
  · rintro ⟨rfl | rfl, hserved⟩
    · exact ⟨trivial, fun t hrun => file_eq_replay trivial hrun⟩
    · have hkept := (along_kept_iff (.start file) hd).mpr hserved
      exact ⟨hkept, fun t hrun => file_eq_replay hkept hrun⟩

def allServed : Results := { memory := true, lseek := true, write := some 4096 }

def rewriteHeader : List Callback :=
  [.ioWrite [0, 0] allServed, .ioWrite [5, 6, 7] allServed, .ioSeek 0 .avseekSize,
    .ioSeek 0 .seekSet, .ioWrite [5, 2] allServed, .ioSeek 0 .seekEnd, .ioWrite [8] allServed]

theorem recorded_file_rewriteHeader :
    Recorded (start [] 0) rewriteHeader ∧
      replay [] (writes (start [] 0) rewriteHeader) = [5, 2, 5, 6, 7, 8] := by
  refine ⟨(recorded_file (by decide)).mpr ⟨.inr rfl, ?_⟩, by decide⟩
  exact ⟨fun _ => by decide, fun _ => by decide, rfl, trivial, fun _ => by decide, trivial,
    fun _ => by decide, trivial⟩

def diskFull : Results := { memory := true, lseek := true, write := some 1 }

/-- The short write is reported as a whole one, and the filter is past where the descriptor is. -/
theorem short_write_unreported :
    Runs.Along step InDomain (start [] 0) [.ioWrite [1, 2] diskFull] ∧
      ((start [] 0).ioWrite [1, 2] diskFull).2 = 2 ∧
      ((start [] 0).ioWrite [1, 2] diskFull).1.sink.fd.file = [1] ∧
      ((start [] 0).ioWrite [1, 2] diskFull).1.sink.currentPos = 2 ∧
      ((start [] 0).ioWrite [1, 2] diskFull).1.sink.fd.pos = 1 ∧
      ¬ Recorded (start [] 0) [.ioWrite [1, 2] diskFull] := by
  refine ⟨by decide, by decide, by decide, by decide, by decide, ?_⟩
  rintro ⟨⟨hkept, -⟩, -⟩
  exact absurd hkept.position (by decide)

end MediaFoundation.Sink
