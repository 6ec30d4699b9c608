import MediaFoundation.Source.FdWindow
import MediaFoundation.Source.MediaSourceFilter

/-!
# What PullData delivers

The filter and its plugin each keep a position, and a seek is left out when they agree. The
positions stay the one that the file has, and each pull gets its bytes, as long as what the C
library refuses is not taken for data.
-/

namespace MediaFoundation.Source

open Demux (Memory Buffer PluginStatus PullCode Seekable allocMemory)

-- Calls

structure PullCall where
  lib : Library
  offset : UInt64
  size : UInt64
  data : Option Buffer
  capacity_lt : ∀ buffer ∈ data, buffer.memory.capacity.toNat < 2 ^ 63

namespace MediaSourceFilter

def perform (f : MediaSourceFilter) (c : PullCall) : MediaSourceFilter × PullReply :=
  f.pullData c.lib c.offset c.size c.data

def step (f : MediaSourceFilter) (c : PullCall) : Option MediaSourceFilter := some (f.perform c).1

def transcript (f : MediaSourceFilter) : List PullCall → List (PullCall × PullReply)
  | [] => []
  | c :: cs => (c, (f.perform c).2) :: (f.perform c).1.transcript cs

end MediaSourceFilter

/-- What the caller is to get: data of the file from the offset on, some if there is room for
it, and the end of the stream at the end of the file. -/
def Answers (content : List UInt8) (c : PullCall) : PullReply → Prop
  | .crashed => False
  | .returns err data =>
    (err = .success → ∃ out, data = some out ∧ contents out <+: content.drop c.offset.toNat ∧
      (contents out).length ≤ room c.data c.size ∧
      (0 < room c.data c.size → contents out ≠ [])) ∧
    (content ≠ [] → content.length ≤ c.offset.toNat → err = .endOfStream)

def AllAnswered (content : List UInt8) (replies : List (PullCall × PullReply)) : Prop :=
  ∀ x ∈ replies, Answers content x.1 x.2

inductive Opened (content : List UInt8) : SourcePlugin → Prop where
  | file (f : OpenFile) : f.content = content → Opened content (.file (.openFile f))
  | fd (files : Int32 → Option OpenFile) (p : FileFdSourcePlugin) (fd : List Char)
    (f : OpenFile) : Decimal fd → Hls.digitsValue fd < 2 ^ 31 →
    files (Int32.ofInt (Hls.digitsValue fd)) = some f → f.content = content →
    Opened content (.fd (p.setSource files (FdUri.whole fd).text false).1)

def SourcePlugin.readOffset : SourcePlugin → Option Nat
  | file p => some p.fp.file.offset
  | fd p => p.file.map OpenFile.offset

-- The condition

def Allocates (c : PullCall) : Prop := c.data = none → c.offset.toNat + c.size.toNat < 2 ^ 64

/-- `fread` delivers something if there is room. -/
def SaneForFile (p : FileSourcePlugin) (position : UInt64) (c : PullCall) : Prop :=
  c.offset < p.fileSize → (position = c.offset ∨ c.lib.seekFails = false) →
    Allocates c ∧ (0 < room c.data c.size → c.lib.fread ≠ .failsAfter 0)

def SaneForFd (p : FileFdSourcePlugin) (position : UInt64) (c : PullCall) : Prop :=
  (c.offset < p.size ∨ p.size = 0) →
    (position = c.offset ∨ c.lib.seekFails = false ∧ c.offset.toNat < 2 ^ 63) →
    (position = c.offset ∨ c.offset.toUInt32 ≠ -1) ∧
      (p.size = 0 → room c.data c.size = 0) ∧
      (p.size ≠ 0 → Allocates c ∧ (0 < room c.data c.size → c.lib.read ≠ .fails))

def Sane (f : MediaSourceFilter) (c : PullCall) : Prop :=
  match f.plugin with
  | .file p => SaneForFile p f.position c
  | .fd p => SaneForFd p f.position c

-- Reads of the plugins

section Pulls

variable {content : List UInt8} {pos : Nat} {f f' : MediaSourceFilter} {c : PullCall}
  {calls : List PullCall} {data : Option Buffer} {n : UInt64}

structure ReadsFile (content : List UInt8) (p : FileSourcePlugin) (pos : Nat) : Prop where
  bytes : p.fp.file.content = content
  size : p.fileSize.toNat = content.length
  position : p.position.toNat = pos
  offset : p.fp.file.offset = pos
  eof : p.fp.eof = false
  le : pos ≤ content.length

theorem fread_eq (fp : Stream) (count : Nat) (outcome : FreadOutcome)
    (hcount : count ≤ fp.file.content.length - fp.file.offset) :
    ∃ k ≤ count, fp.fread count outcome =
        (⟨{ fp.file with offset := fp.file.offset + k }, fp.eof⟩,
          (fp.file.content.drop fp.file.offset).take k) ∧
      (outcome ≠ .failsAfter 0 → 0 < count → 0 < k) := by
  have hlen : ∀ k ≤ count, ((fp.file.content.drop fp.file.offset).take k).length = k := by
    intro k hk
    rw [List.length_take, List.length_drop]
    omega
  cases outcome with
  | succeeds =>
    refine ⟨count, le_rfl, ?_, fun _ hpos => hpos⟩
    simp only [Stream.fread, hlen count le_rfl, decide_eq_false (Nat.lt_irrefl count),
      Bool.or_false]
  | failsAfter most =>
    refine ⟨min count most, Nat.min_le_left _ _, ?_, fun hmost hpos => ?_⟩
    · simp only [Stream.fread, hlen _ (Nat.min_le_left count most)]
    · have hne : most ≠ 0 := fun hzero => hmost (hzero ▸ rfl)
      omega

theorem ReadsFile.read {p : FileSourcePlugin} (h : ReadsFile content p pos)
    (hlt : pos < content.length) (hnew : data = none → n.toNat < 2 ^ 63)
    (outcome : FreadOutcome) :
    ∃ p' out, p.read data n outcome = some (p', .ok, some out) ∧
      ReadsFile content p' (pos + (contents out).length) ∧
      p'.position = p.position + out.memory.size ∧ contents out <+: content.drop pos ∧
      (contents out).length ≤ room data n ∧
      (outcome ≠ .failsAfter 0 → 0 < room data n → contents out ≠ []) := by
  obtain ⟨b, hb, hroom⟩ := newMemory_room hnew
  have hsize := h.size
  have hposition := h.position
  have hlength := p.fp.file.length_lt
  rw [h.bytes] at hlength
  have hmore : ¬ (p.fp.eof = true ∨ p.fileSize = p.position) := by
    rintro (heof | hend)
    · exact Bool.noConfusion (heof.symm.trans h.eof)
    · rw [hend] at hsize
      omega
  have hle : min b.memory.capacity (min (p.fileSize - p.position) n) ≤ b.memory.capacity := by
    rw [UInt64.le_iff_toNat_le, Words.toNat_min]
    exact Nat.min_le_left _ _
  obtain ⟨m, hgot, hm⟩ : ∃ m, b.memory.getWritableAddr
      (min b.memory.capacity (min (p.fileSize - p.position) n)) = some m ∧
        m.capacity = b.memory.capacity := ⟨_, dif_neg (UInt64.not_lt.mpr hle), rfl⟩
  have hcount : (min b.memory.capacity (min (p.fileSize - p.position) n)).toNat =
      min (room data n) (content.length - pos) := by
    rw [Words.toNat_min, Words.toNat_min, Words.toNat_diff (by omega), ← hroom]
    omega
  obtain ⟨k, hk, hfread, hsome⟩ := fread_eq p.fp
    (min b.memory.capacity (min (p.fileSize - p.position) n)).toNat outcome
    (by rw [hcount, h.bytes, h.offset]; omega)
  rw [h.bytes, h.offset] at hfread
  have hlen : ((content.drop pos).take k).length = k := by
    rw [List.length_take, List.length_drop]
    omega
  have hcap : ((content.drop pos).take k).length ≤ m.capacity.toNat := by
    rw [UInt64.le_iff_toNat_le] at hle
    rw [hm]
    omega
  obtain ⟨hcontents, hrsize⟩ := contents_received (b := b) (m := m) hcap
  have hread : p.read data n outcome = some ({ p with
      fp := ⟨{ p.fp.file with offset := pos + k }, p.fp.eof⟩
      position := p.position + (received m (some ((content.drop pos).take k))).size }, .ok,
      some { b with memory := received m (some ((content.drop pos).take k)) }) := by
    rw [FileSourcePlugin.read, if_neg hmore, hb]
    simp only [hgot, hfread]
  have hmoved : (p.position + (received m (some ((content.drop pos).take k))).size).toNat =
      pos + k := by
    rw [Words.toNat_sum (by omega), hposition, hrsize, hlen]
  refine ⟨_, _, hread, ?_, rfl, ?_, ?_, fun hok hpos hnil => ?_⟩
  · rw [hcontents, hlen]
    exact ⟨h.bytes, h.size, hmoved, rfl, h.eof, by omega⟩
  · rw [hcontents]
    exact List.take_prefix _ _
  · rw [hcontents, hlen]
    omega
  · have hk0 := hsome hok (by omega)
    rw [hcontents] at hnil
    rw [hnil, List.length_nil] at hlen
    omega

inductive At (content : List UInt8) : SourcePlugin → Nat → Prop where
  | file {p : FileSourcePlugin} {pos : Nat} : ReadsFile content p pos → At content (.file p) pos
  | fd {p : FileFdSourcePlugin} {pos : Nat} : Reads content p pos → At content (.fd p) pos

def SourcePlugin.isFd : SourcePlugin → Bool
  | file _ => false
  | fd _ => true

def Delivers (lib : Library) (isFd : Bool) : Prop :=
  if isFd then lib.read ≠ .fails else lib.fread ≠ .failsAfter 0

variable {plugin : SourcePlugin} {lib : Library} {offset : UInt64}

theorem At.getSize (h : At content plugin pos) : plugin.getSize.toNat = content.length := by
  cases h with
  | file h | fd h => exact h.size

theorem At.position (h : At content plugin pos) : plugin.position.toNat = pos := by
  cases h with
  | file h | fd h => exact h.position

theorem At.readOffset (h : At content plugin pos) : plugin.readOffset = some pos := by
  cases h with
  | file h => exact congrArg some h.offset
  | fd h =>
    obtain ⟨f, hfile, -, hpos⟩ := h.file
    rw [SourcePlugin.readOffset, hfile, Option.map_some, hpos]

theorem At.length_lt (h : At content plugin pos) : content.length < 2 ^ 63 := by
  cases h with
  | file h => exact h.bytes ▸ OpenFile.length_lt _
  | fd h =>
    obtain ⟨f, -, rfl, -⟩ := h.file
    exact f.length_lt

-- Seeks

theorem At.seekTo (h : At content plugin pos) (hne : plugin.position ≠ offset)
    (hlow : ∀ p, plugin = .fd p → lib.seekFails = false → offset.toNat < 2 ^ 63 →
      offset.toUInt32 ≠ -1) :
    (∃ plugin' ret, plugin.seekTo lib offset = (plugin', ret) ∧ ret ≠ .ok ∧
      At content plugin' pos) ∨
    (lib.seekFails = false ∧ offset.toNat < 2 ^ 63) ∧
      ∃ plugin', plugin.seekTo lib offset = (plugin', .ok) ∧ At content plugin' offset.toNat ∧
        plugin'.isFd = plugin.isFd := by
  have hlength := h.length_lt
  cases h with
  | @file p pos h =>
    rw [SourcePlugin.seekTo, FileSourcePlugin.seekTo]
    by_cases hbeyond : p.fileSize < offset
    · rw [if_pos (.inl hbeyond)]
      exact .inl ⟨_, _, rfl, by decide, .file h⟩
    · have hin : ¬ (p.fileSize < offset ∨ p.position = offset) := not_or.mpr ⟨hbeyond, hne⟩
      rw [UInt64.lt_iff_toNat_lt, Nat.not_lt, h.size] at hbeyond
      rw [if_neg hin]
      cases hfails : lib.seekFails with
      | true =>
        exact .inl ⟨_, _, rfl, by decide,
          .file ⟨h.bytes, h.size, h.position, h.offset, rfl, h.le⟩⟩
      | false =>
        refine .inr ⟨⟨rfl, by omega⟩, _, rfl, .file ⟨h.bytes, h.size, rfl, ?_, rfl, hbeyond⟩, rfl⟩
        exact Words.toNatClampNeg_toInt64 (by omega)
  | @fd p pos h =>
    obtain ⟨file, hfile, rfl, hpos⟩ := h.file
    rw [SourcePlugin.seekTo, seekTo_eq h.fd h.seekable h.offset hfile]
    by_cases hrefused : lib.seekFails = true ∨ 2 ^ 63 ≤ offset.toNat
    · rw [if_pos hrefused]
      exact .inl ⟨_, _, rfl, by decide, .fd h⟩
    · rw [if_neg hrefused]
      rw [not_or, Bool.not_eq_true, Nat.not_le] at hrefused
      rw [if_neg (hlow p rfl hrefused.1 hrefused.2)]
      exact .inr ⟨hrefused, _, rfl,
        .fd ⟨h.fd, h.seekable, h.offset, h.size, rfl, _, rfl, rfl, rfl⟩, rfl⟩

-- Reads

/-- Without room, a read of a descriptor does nothing, whatever the kernel says. -/
theorem Reads.read_nothing {p : FileFdSourcePlugin} (h : Reads content p pos)
    (hroom : room data n = 0) (hcap : ∀ buffer ∈ data, buffer.memory.capacity.toNat < 2 ^ 63)
    (outcome : ReadOutcome) :
    ∃ p' out, p.read data n outcome = some (p', .ok, out) ∧ Reads content p' pos ∧
      contents out = [] := by
  obtain ⟨file, hfile, rfl, hpos⟩ := h.file
  have hnew : data = none → n.toNat < 2 ^ 63 := by
    rintro rfl
    have hzero : n.toNat = 0 := hroom
    omega
  obtain ⟨b, hb, hmin⟩ := newMemory_room hnew
  have hlt : b.memory.capacity.toNat < 2 ^ 63 := by
    cases data with
    | none =>
      obtain rfl := Option.some.inj ((if_pos (hnew rfl)).symm.trans hb)
      exact hnew rfl
    | some b' => exact hcap b (Option.mem_some.mpr (Option.some.inj hb))
  have hcount : min b.memory.capacity (min (p.size + p.offset.toUInt64 - p.position) n) = 0 := by
    refine UInt64.toNat_inj.mp ?_
    rw [Words.toNat_min, Words.toNat_min]
    show _ = 0
    omega
  obtain ⟨m, hgot, hm, hsize⟩ : ∃ m, b.memory.getWritableAddr 0 = some m ∧
      m.capacity = b.memory.capacity ∧ m.size = 0 :=
    ⟨_, dif_neg (UInt64.not_lt.mpr UInt64.zero_le), rfl, rfl⟩
  have hlast : ∀ result, result = none ∨ result = some [] → (received m result).size = 0 := by
    rintro result (rfl | rfl)
    · have hbig : m.capacity < -1 := by
        rw [UInt64.lt_iff_toNat_lt, hm]
        show _ < 2 ^ 64 - 1
        omega
      rw [received, Memory.updateDataSize, dif_pos hbig, hsize]
    · exact UInt64.toNat_inj.mp (contents_received (b := b) (Nat.zero_le _)).2
  have hempty : ∀ result, result = none ∨ result = some [] →
      contents { b with memory := received m result } = [] := by
    intro result hresult
    rw [contents, hlast result hresult]
    rfl
  have hstays : ∀ result, result = none ∨ result = some [] →
      Reads file.content { p with
        file := some file
        position := p.position + (received m result).size } pos := by
    intro result hresult
    rw [hlast result hresult]
    exact ⟨h.fd, h.seekable, h.offset, h.size, (congrArg UInt64.toNat (UInt64.add_zero _)).trans
      h.position, _, rfl, rfl, hpos⟩
  rw [FileFdSourcePlugin.read, hb]
  simp only [hfile, hcount, hgot]
  cases outcome with
  | fails => exact ⟨_, _, rfl, hstays none (.inl rfl), hempty none (.inl rfl)⟩
  | upTo more =>
    have hnil : (file.content.drop file.offset).take (min (0 : UInt64).toNat (more + 1)) = [] := by
      rw [show (0 : UInt64).toNat = 0 from rfl, Nat.zero_min, List.take_zero]
    simp only [OpenFile.read, hnil]
    exact ⟨_, _, rfl, hstays (some []) (.inr rfl), hempty (some []) (.inr rfl)⟩

/-- **A read of the plugin** at a position inside the file. -/
theorem At.read (h : At content plugin pos) (hlt : pos < content.length)
    (hnew : data = none → n.toNat < 2 ^ 63) (hok : 0 < room data n → Delivers lib plugin.isFd)
    (hcap : ∀ buffer ∈ data, buffer.memory.capacity.toNat < 2 ^ 63) :
    ∃ plugin' out, plugin.read lib data n = some (plugin', .ok, some out) ∧
      At content plugin' (pos + (contents out).length) ∧ contents out <+: content.drop pos ∧
      (contents out).length ≤ room data n ∧ (0 < room data n → contents out ≠ []) := by
  cases h with
  | @file p pos h =>
    obtain ⟨p', out, hread, hreads, -, hprefix, hle, hsome⟩ := h.read hlt hnew lib.fread
    refine ⟨_, out, ?_, .file hreads, hprefix, hle, fun hpos => hsome (hok hpos) hpos⟩
    rw [SourcePlugin.read, hread]
    rfl
  | @fd p pos h =>
    rcases Nat.eq_zero_or_pos (room data n) with hzero | hpos
    · obtain ⟨p', out, hread, hreads, hnil⟩ := h.read_nothing hzero hcap lib.read
      refine ⟨.fd p', out, ?_, ?_, hnil ▸ List.nil_prefix, ?_, fun hpos => by omega⟩
      · rw [SourcePlugin.read, hread]
        rfl
      · rw [hnil]
        exact .fd hreads
      · rw [hnil]
        exact Nat.zero_le _
    · cases hread : lib.read with
      | fails => exact absurd hread (hok hpos)
      | upTo more =>
        obtain ⟨p', out, hread', hreads, hprefix, hle, hsome⟩ := h.read hlt.le hnew more
        refine ⟨_, out, ?_, .fd hreads, hprefix, hle, hsome hlt⟩
        rw [SourcePlugin.read, hread, hread']
        rfl

-- PullData

structure InStep (content : List UInt8) (f : MediaSourceFilter) : Prop where
  seekable : f.seekable = .seekable
  at_position : At content f.plugin f.position.toNat

theorem InStep.position_eq (h : InStep content f) : f.plugin.position = f.position :=
  UInt64.toNat_inj.mp h.at_position.position

theorem contents_length (b : Buffer) : (contents b).length = b.memory.size.toNat := by
  simp [contents, Ring.load]

theorem translate_ne {ret : PluginStatus} (h : ret ≠ .ok) :
    translatePluginStatus ret ≠ .success := by
  cases ret with
  | ok => exact absurd rfl h
  | endOfStream | errorUnknown | errorWrongState | errorInvalidParameter => exact nofun
  | errorNotEnoughData => exact nofun

theorem readSize_room (data : Option Buffer) (size : UInt64) {total : UInt64}
    (hlt : offset.toNat < total.toNat) :
    room data (MediaSourceFilter.readSize offset size total data) ≤ room data size ∧
      (0 < room data size → 0 < room data (MediaSourceFilter.readSize offset size total data)) := by
  have htotal := total.toNat_lt
  have hsize := size.toNat_lt
  have hclip : (if total < offset + size then total - offset else size).toNat ≤ size.toNat ∧
      (0 < size.toNat → 0 < (if total < offset + size then total - offset else size).toNat) := by
    by_cases hbeyond : total < offset + size
    · rw [if_pos hbeyond, Words.toNat_diff hlt.le]
      rw [UInt64.lt_iff_toNat_lt, UInt64.toNat_add] at hbeyond
      have hmod := Nat.mod_le (offset.toNat + size.toNat) (2 ^ 64)
      omega
    · rw [if_neg hbeyond]
      exact ⟨le_rfl, id⟩
  cases data with
  | none => exact hclip
  | some b =>
    simp only [MediaSourceFilter.readSize, room]
    generalize (if total < offset + size then total - offset else size) = left at hclip
    split
    next hcap =>
      rw [UInt64.lt_iff_toNat_lt] at hcap
      omega
    next hcap =>
      rw [UInt64.lt_iff_toNat_lt] at hcap
      omega

theorem readSize_lt {size total : UInt64} (hlt : offset.toNat < total.toNat)
    (hnowrap : offset.toNat + size.toNat < 2 ^ 64) :
    (MediaSourceFilter.readSize offset size total none).toNat ≤ total.toNat - offset.toNat := by
  simp only [MediaSourceFilter.readSize]
  split
  next hbeyond => rw [Words.toNat_diff hlt.le]
  next hin =>
    rw [UInt64.lt_iff_toNat_lt, Words.toNat_sum hnowrap] at hin
    omega

theorem InStep.readData (h : InStep content f) (hlt : f.position.toNat < content.length)
    (hnew : data = none → n.toNat < 2 ^ 63) (hok : 0 < room data n → Delivers lib f.plugin.isFd)
    (hcap : ∀ buffer ∈ data, buffer.memory.capacity.toNat < 2 ^ 63) :
    ∃ f' out, f.readData lib n data = (f', .returns .success (some out)) ∧ InStep content f' ∧
      contents out <+: content.drop f.position.toNat ∧ (contents out).length ≤ room data n ∧
      (0 < room data n → contents out ≠ []) := by
  obtain ⟨plugin', out, hread, hat, hprefix, hle, hsome⟩ := h.at_position.read hlt hnew hok hcap
  have hlength := h.at_position.length_lt
  have hfit : (contents out).length ≤ content.length - f.position.toNat := by
    have := hprefix.length_le
    rwa [List.length_drop] at this
  refine ⟨{ f with plugin := plugin', position := f.position + out.memory.size }, out, ?_,
    ⟨h.seekable, ?_⟩, hprefix, hle, hsome⟩
  · rw [MediaSourceFilter.readData, hread]
  · show At content plugin' (f.position + out.memory.size).toNat
    rw [Words.toNat_sum (by rw [← contents_length]; omega), ← contents_length]
    exact hat

theorem InStep.readData_empty (lib : Library) (h : InStep [] f)
    (hroom : f.plugin.isFd = true → room data n = 0)
    (hcap : ∀ buffer ∈ data, buffer.memory.capacity.toNat < 2 ^ 63) :
    ∃ f' err data', f.readData lib n data = (f', .returns err data') ∧ InStep [] f' ∧
      (err = .success → ∃ out, data' = some out ∧ contents out = [] ∧ room data n = 0) := by
  obtain ⟨hseekable, hat⟩ := h
  obtain ⟨plugin, seek, position⟩ := f
  cases hat with
  | @file p pos hreads =>
    have hend : p.fileSize = p.position := by
      refine UInt64.toNat_inj.mp ?_
      have hle := hreads.le
      rw [hreads.size, hreads.position]
      exact (Nat.le_zero.mp hle).symm
    refine ⟨_, .endOfStream, data, ?_, ⟨hseekable, .file hreads⟩, nofun⟩
    rw [MediaSourceFilter.readData, SourcePlugin.read, FileSourcePlugin.read, if_pos (.inr hend)]
    rfl
  | @fd p pos hreads =>
    obtain ⟨p', out, hread, hreads', hnil⟩ :=
      hreads.read_nothing (hroom rfl) hcap lib.read
    have hzero : out.memory.size = 0 := by
      refine UInt64.toNat_inj.mp ?_
      rw [← contents_length, hnil]
      rfl
    refine ⟨⟨.fd p', seek, position + out.memory.size⟩, .success, some out, ?_,
      ⟨hseekable, ?_⟩, fun _ => ⟨out, rfl, hnil, hroom rfl⟩⟩
    · simp only [MediaSourceFilter.readData, SourcePlugin.read, hread, Option.map_some]
    · rw [hzero]
      show At [] (.fd p') (position + 0).toNat
      rw [UInt64.add_zero]
      exact .fd hreads'

theorem InStep.sane_read (h : InStep content f) (hsane : Sane f c)
    (hin : c.offset.toNat < content.length ∨ content = [])
    (hseek : f.position = c.offset ∨ c.lib.seekFails = false ∧ c.offset.toNat < 2 ^ 63) :
    (f.plugin.isFd = true → f.position = c.offset ∨ c.offset.toUInt32 ≠ -1) ∧
      (content = [] → f.plugin.isFd = true → room c.data c.size = 0) ∧
      (content ≠ [] → Allocates c ∧ (0 < room c.data c.size → Delivers c.lib f.plugin.isFd)) := by
  have hsize := h.at_position.getSize
  have hzero : ∀ total : UInt64, total.toNat = content.length → (total = 0 ↔ content = []) := by
    intro total htotal
    rw [← List.length_eq_zero_iff, ← htotal]
    exact UInt64.toNat_inj.symm
  unfold Sane at hsane
  cases hplugin : f.plugin with
  | file p =>
    rw [hplugin] at hsane hsize
    refine ⟨nofun, fun _ => nofun, fun hne => hsane ?_ (hseek.imp id And.left)⟩
    rw [UInt64.lt_iff_toNat_lt]
    exact hsize.symm ▸ hin.resolve_right hne
  | fd p =>
    rw [hplugin] at hsane hsize
    have hreach : c.offset < p.size ∨ p.size = 0 := by
      refine hin.imp (fun hlt => ?_) (hzero _ hsize).mpr
      rw [UInt64.lt_iff_toNat_lt]
      exact hsize.symm ▸ hlt
    obtain ⟨hlow, hempty, hsome⟩ := hsane hreach hseek
    exact ⟨fun _ => hlow, fun hnil _ => hempty ((hzero _ hsize).mpr hnil),
      fun hne => hsome fun heq => hne ((hzero _ hsize).mp heq)⟩

theorem InStep.pull_read (h : InStep content f) (hpos : f.position = c.offset)
    {total : UInt64} (htotal : total.toNat = content.length)
    (hin : c.offset.toNat < content.length ∨ content = [])
    (hempty : content = [] → f.plugin.isFd = true → room c.data c.size = 0)
    (hsome : content ≠ [] →
      Allocates c ∧ (0 < room c.data c.size → Delivers c.lib f.plugin.isFd)) :
    Answers content c (f.readData c.lib (if total ≠ 0 then
        MediaSourceFilter.readSize c.offset c.size total c.data else c.size) c.data).2 ∧
      InStep content (f.readData c.lib (if total ≠ 0 then
        MediaSourceFilter.readSize c.offset c.size total c.data else c.size) c.data).1 := by
  by_cases hnil : content = []
  · subst hnil
    have hzero : total = 0 := UInt64.toNat_inj.mp htotal
    rw [if_neg (not_not_intro hzero)]
    obtain ⟨f', err, data', hread, hstep, hok⟩ :=
      h.readData_empty c.lib (hempty rfl) c.capacity_lt
    rw [hread]
    refine ⟨⟨fun herr => ?_, fun hne => absurd rfl hne⟩, hstep⟩
    obtain ⟨out, hout, hnone, hroom⟩ := hok herr
    refine ⟨out, hout, hnone ▸ List.nil_prefix, ?_, fun hpos => by omega⟩
    rw [hnone]
    exact Nat.zero_le _
  · obtain ⟨halloc, hok⟩ := hsome hnil
    have hlt := hin.resolve_right hnil
    have hlength := h.at_position.length_lt
    have htot : c.offset.toNat < total.toNat := htotal.symm ▸ hlt
    have hne : total ≠ 0 := fun hzero => by
      rw [hzero] at htot
      exact absurd htot (Nat.not_lt_zero _)
    rw [if_pos hne]
    obtain ⟨hle, hpos'⟩ := readSize_room c.data c.size htot
    have hnew : c.data = none →
        (MediaSourceFilter.readSize c.offset c.size total c.data).toNat < 2 ^ 63 := by
      intro hnone
      have hsmall := readSize_lt htot (halloc hnone)
      rw [hnone]
      omega
    have hdelivers : 0 < room c.data (MediaSourceFilter.readSize c.offset c.size total c.data) →
        Delivers c.lib f.plugin.isFd := fun hroom => hok (by omega)
    rw [← hpos] at hlt
    obtain ⟨f', out, hread, hstep, hprefix, hlen, hne'⟩ :=
      h.readData hlt hnew hdelivers c.capacity_lt
    rw [hread]
    refine ⟨⟨fun _ => ⟨out, rfl, hpos ▸ hprefix, by omega, fun hroom => hne' (hpos' hroom)⟩,
      fun _ hbeyond => ?_⟩, hstep⟩
    rw [hpos] at hlt
    omega

/-- **One pull** gets what it should, and leaves the positions in step. -/
theorem InStep.pull (h : InStep content f) (hsane : Sane f c) :
    Answers content c (f.perform c).2 ∧ InStep content (f.perform c).1 := by
  have hsize := h.at_position.getSize
  rw [MediaSourceFilter.perform, MediaSourceFilter.pullData, if_pos h.seekable]
  by_cases hend : f.plugin.getSize ≠ 0 ∧ f.plugin.getSize ≤ c.offset
  · rw [if_pos hend]
    exact ⟨⟨nofun, fun _ _ => rfl⟩, h⟩
  · rw [if_neg hend]
    have hin : c.offset.toNat < content.length ∨ content = [] := by
      rw [not_and_or, not_not, UInt64.le_iff_toNat_le, Nat.not_le, hsize] at hend
      refine hend.symm.imp id fun hzero => ?_
      rw [hzero] at hsize
      exact List.length_eq_zero_iff.mp hsize.symm
    by_cases hpos : f.position = c.offset
    · obtain ⟨-, hempty, hsome⟩ := h.sane_read hsane hin (.inl hpos)
      simp only [hpos, ne_eq, not_true_eq_false, if_false]
      exact h.pull_read hpos hsize hin hempty hsome
    · have hne : f.plugin.position ≠ c.offset := fun heq => hpos (h.position_eq ▸ heq)
      simp only [ne_eq, hpos, not_false_eq_true, if_true]
      have hlow : ∀ p, f.plugin = .fd p → c.lib.seekFails = false → c.offset.toNat < 2 ^ 63 →
          c.offset.toUInt32 ≠ -1 := fun p hp hfails hsmall =>
        ((h.sane_read hsane hin (.inr ⟨hfails, hsmall⟩)).1 (hp ▸ rfl)).resolve_left hpos
      rcases h.at_position.seekTo hne hlow with
        ⟨plugin', ret, hseek, hret, hat⟩ | ⟨hsought, plugin', hseek, hat, hkind⟩
      · have hreply : Answers content c (.returns (translatePluginStatus ret) c.data) := by
          refine ⟨fun hok => absurd hok (translate_ne hret), fun hsome hle => ?_⟩
          rcases hin with hlt | hnil
          · omega
          · exact absurd hnil hsome
        have hstep : InStep content { f with plugin := plugin' } := ⟨h.seekable, hat⟩
        rw [hseek]
        cases ret with
        | ok => exact absurd rfl hret
        | endOfStream | errorUnknown | errorWrongState => exact ⟨hreply, hstep⟩
        | errorInvalidParameter | errorNotEnoughData => exact ⟨hreply, hstep⟩
      · rw [hseek]
        obtain ⟨-, hempty, hsome⟩ := h.sane_read hsane hin (.inr hsought)
        rw [← hkind] at hempty hsome
        have hstep : InStep content { f with plugin := plugin', position := c.offset } :=
          ⟨h.seekable, hat⟩
        exact hstep.pull_read rfl hsize hin hempty hsome

-- Runs

theorem Opened.inStep {plugin : SourcePlugin} (h : Opened content plugin) :
    InStep content (.setSource plugin) := by
  cases h with
  | file f hf => exact ⟨rfl, .file ⟨hf, hf ▸ f.size_toNat, rfl, rfl, rfl, Nat.zero_le _⟩⟩
  | fd files p fd f hfd hlt hfile hf =>
    have hreads := (setSource_whole (p := p) (FdUri.WellFormed.eq_1 fd ▸ hfd) hlt hfile false).2 rfl
    exact ⟨hreads.seekable, .fd (hf ▸ hreads)⟩

theorem InStep.transcript (h : InStep content f)
    (hrun : Runs.Along MediaSourceFilter.step Sane f calls) :
    AllAnswered content (f.transcript calls) := by
  induction calls generalizing f with
  | nil => exact fun x hx => absurd hx List.not_mem_nil
  | cons c calls ih =>
    obtain ⟨hanswers, hstep⟩ := h.pull hrun.1
    intro x hx
    rcases List.mem_cons.mp hx with rfl | hx
    · exact hanswers
    · exact ih hstep (Runs.along_tail hrun rfl) x hx

/-- **Pulls through the source filter.** Every sane pull gets what it should, and afterwards the
filter, its plugin and the file are at one position. -/
theorem pulls_right {plugin : SourcePlugin} (hopened : Opened content plugin)
    (hrun : Runs.Along MediaSourceFilter.step Sane (.setSource plugin) calls)
    (hf : Runs.run MediaSourceFilter.step (.setSource plugin) calls = some f) :
    AllAnswered content ((MediaSourceFilter.setSource plugin).transcript calls) ∧
      f.plugin.position = f.position ∧ f.plugin.readOffset = some f.position.toNat := by
  have hstep : InStep content f := Runs.run_invariant
    (fun _ c _ hs hsane ht => Option.some.inj ht ▸ (hs.pull hsane).2) hopened.inStep hrun hf
  exact ⟨hopened.inStep.transcript hrun, hstep.position_eq, hstep.at_position.readOffset⟩

end Pulls

-- A source of four bytes

def pullFour (offset size : UInt64) (read : ReadOutcome) : PullCall where
  lib := { seekFails := false, read, fread := .succeeds }
  offset
  size
  data := none
  capacity_lt := nofun

def openFour : SourcePlugin :=
  .fd (FileFdSourcePlugin.setSource fourBytes {} (FdUri.whole ['5']).text false).1

theorem openFour_opened : Opened [10, 20, 30, 40] openFour :=
  .fd fourBytes {} ['5'] ⟨[10, 20, 30, 40], 0, by decide⟩
    ⟨by decide, List.forall_mem_singleton.mpr (by decide)⟩ (by decide +kernel)
    (if_pos (by decide)) rfl

/-- A pull in the middle, one that is cut short by the kernel, and one at the end. -/
def threePulls : List PullCall :=
  [pullFour 2 9 (.upTo 7), pullFour 0 3 (.upTo 0), pullFour 4 1 .fails]

theorem pulls_right_four : ∃ f,
    Runs.run MediaSourceFilter.step (.setSource openFour) threePulls = some f ∧
      AllAnswered [10, 20, 30, 40] ((MediaSourceFilter.setSource openFour).transcript threePulls) ∧
      f.position = 1 := by
  have hrun : Runs.Along MediaSourceFilter.step Sane (.setSource openFour) threePulls := by
    refine ⟨fun _ _ => ⟨.inr (by decide), fun h => ?_, fun _ => ⟨fun _ => by decide, fun _ => nofun⟩⟩,
      fun _ _ => ⟨.inr (by decide), fun h => ?_, fun _ => ⟨fun _ => by decide, fun _ => nofun⟩⟩,
      fun h _ => ?_, trivial⟩
    · exact absurd h (by decide +kernel)
    · exact absurd h (by decide +kernel)
    · exact absurd h (by decide +kernel)
  exact ⟨_, rfl, (pulls_right openFour_opened hrun rfl).1, by decide +kernel⟩

theorem failed_read_pulled :
    ¬ Answers [10, 20, 30, 40] (pullFour 0 2 .fails)
        ((MediaSourceFilter.setSource openFour).perform (pullFour 0 2 .fails)).2 ∧
      ((MediaSourceFilter.setSource openFour).perform (pullFour 0 2 .fails)).1.position = 2 ∧
      ((MediaSourceFilter.setSource openFour).perform (pullFour 0 2 .fails)).1.plugin.readOffset =
        some 0 := by
  refine ⟨fun h => ?_, by decide +kernel, by decide +kernel⟩
  obtain ⟨out, hout, hprefix, -⟩ := h.1 rfl
  cases hout
  exact absurd hprefix (by decide +kernel)

end MediaFoundation.Source
