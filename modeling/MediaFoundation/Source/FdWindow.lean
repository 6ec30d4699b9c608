import MediaFoundation.Lib.Runs
import MediaFoundation.Lib.Words
import MediaFoundation.Source.FileFdSourcePlugin

/-!
# The window of a file descriptor

What a reader of a window is to see, and when `FileFdSourcePlugin` shows it.
-/

namespace MediaFoundation.Source

open Demux (Memory Buffer PluginStatus Seekable allocMemory)
open Hls (isDigit digitsValue)

-- A reader of a window

inductive FdCall where
  | seekTo (offset : UInt64) (fails : Bool)
  | read (buffer : Option Buffer) (expectedLen : UInt64) (outcome : ReadOutcome)

inductive FdReply where
  | crashed
  | sought (ret : PluginStatus)
  | hasRead (ret : PluginStatus) (buffer : Buffer)

def contents (b : Buffer) : List UInt8 := Ring.load b.memory.addr 0 b.memory.size.toNat

def room (buffer : Option Buffer) (expectedLen : UInt64) : Nat :=
  match buffer with
  | none => expectedLen.toNat
  | some buffer => min buffer.memory.capacity.toNat expectedLen.toNat

inductive Allows (window : List UInt8) (pos : Nat) : FdCall → FdReply → Nat → Prop where
  | sought {offset : UInt64} {fails : Bool} : offset.toNat ≤ window.length →
    Allows window pos (.seekTo offset fails) (.sought .ok) offset.toNat
  | refused {offset : UInt64} {fails : Bool} {ret : PluginStatus} : ret ≠ .ok →
    (window.length < offset.toNat ∨ fails = true) →
    Allows window pos (.seekTo offset fails) (.sought ret) pos
  | delivered {buffer : Option Buffer} {n : UInt64} {more : Nat} {out : Buffer} :
    pos < window.length → contents out <+: window.drop pos →
    (contents out).length ≤ room buffer n → (0 < room buffer n → contents out ≠ []) →
    Allows window pos (.read buffer n (.upTo more)) (.hasRead .ok out)
      (pos + (contents out).length)
  | ended {buffer : Option Buffer} {n : UInt64} {more : Nat} {out : Buffer} :
    pos = window.length →
    Allows window pos (.read buffer n (.upTo more)) (.hasRead .endOfStream out) pos
  | failed {buffer : Option Buffer} {n : UInt64} {ret : PluginStatus} {out : Buffer} :
    ret ≠ .ok → contents out = [] →
    Allows window pos (.read buffer n .fails) (.hasRead ret out) pos

/-- All the replies are those of a reader of the window, from a position on. -/
def Follows (window : List UInt8) : Nat → List (FdCall × FdReply) → Prop
  | _, [] => True
  | pos, (c, r) :: rest => ∃ pos', Allows window pos c r pos' ∧ Follows window pos' rest

-- Runs of the plugin

namespace FileFdSourcePlugin

def perform (p : FileFdSourcePlugin) : FdCall → FileFdSourcePlugin × FdReply
  | .seekTo offset fails => ((p.seekTo offset fails).1, .sought (p.seekTo offset fails).2)
  | .read buffer expectedLen outcome =>
    match p.read buffer expectedLen outcome with
    | none => (p, .crashed)
    | some (p, ret, buffer) => (p, .hasRead ret buffer)

def step (p : FileFdSourcePlugin) (c : FdCall) : Option FileFdSourcePlugin := some (p.perform c).1

def transcript (p : FileFdSourcePlugin) : List FdCall → List (FdCall × FdReply)
  | [] => []
  | c :: cs => (c, (p.perform c).2) :: (p.perform c).1.transcript cs

end FileFdSourcePlugin

-- The condition

inductive FdUri where
  | whole (fd : List Char)
  | window (fd offset size : List Char)

def FdUri.text : FdUri → List Char
  | whole fd => "fd://".toList ++ fd
  | window fd offset size =>
    "fd://".toList ++ (fd ++ "?offset=".toList ++ offset ++ "&size=".toList ++ size)

def FdUri.fd : FdUri → List Char
  | whole fd => fd
  | window fd _ _ => fd

def Decimal (str : List Char) : Prop := str ≠ [] ∧ ∀ c ∈ str, isDigit c = true

def FdUri.WellFormed : FdUri → Prop
  | whole fd => Decimal fd
  | window fd offset size => Decimal fd ∧ Decimal offset ∧ Decimal size

/-- Where the window begins and ends, in a file of this length. -/
def FdUri.bounds (length : Nat) : FdUri → Nat × Nat
  | whole _ => (0, length)
  | window _ offset size =>
    (min (digitsValue offset) length, min (digitsValue offset + digitsValue size) length)

def TakesWindow (length : Nat) (u : FdUri) (opened : FileFdSourcePlugin × PluginStatus) : Prop :=
  opened.2 = .ok ∧ opened.1.offset.toInt = (u.bounds length).1 ∧
    opened.1.offset.toInt + opened.1.size.toNat = (u.bounds length).2

/-- A seek that `lseek` refuses, or one inside the window whose low 32 bits are not `-1`; a read
before the end of the window, for which `read` and the allocation of the memory succeed. -/
def StaysInside (p : FileFdSourcePlugin) : FdCall → Prop
  | .seekTo offset fails =>
    (fails = true ∨ 2 ^ 63 ≤ offset.toNat) ∨ offset ≤ p.size ∧ offset.toUInt32 ≠ -1
  | .read buffer expectedLen outcome =>
    p.position < p.size ∧ outcome ≠ .fails ∧ (buffer = none → expectedLen.toNat < 2 ^ 63)

-- The uri

section Uri

variable {str fd offset size : List Char} {sep : List Char} {c : Char}

theorem Decimal.notMem (h : Decimal str) (hc : isDigit c = false) : c ∉ str :=
  fun hmem => Bool.noConfusion ((h.2 c hmem).symm.trans hc)

theorem splitLast_append (front : List Char) {rest a b : List Char}
    (h : splitLast sep rest = some (a, b)) :
    splitLast sep (front ++ rest) = some (front ++ a, b) := by
  induction front with
  | nil => exact h
  | cons c front ih =>
    rw [List.cons_append, splitLast, ih]
    rfl

theorem splitLast_none (h : c ∉ str) : splitLast (c :: sep) str = none := by
  induction str with
  | nil => rfl
  | cons d str ih =>
    rw [List.mem_cons, not_or] at h
    rw [splitLast, ih h.2]
    have hne : (c :: sep).isPrefixOf (d :: str) = false := by
      rw [List.isPrefixOf, beq_eq_false_iff_ne.mpr h.1, Bool.false_and]
    simp only [hne, Bool.false_eq_true, if_false]

theorem matchWindow_append (front : List Char) {rest a : List Char} {w : List Char × List Char}
    (h : matchWindow rest = some (a, w)) : matchWindow (front ++ rest) = some (front ++ a, w) := by
  induction front with
  | nil => exact h
  | cons c front ih =>
    rw [List.cons_append, matchWindow, ih]
    rfl

theorem matchWindow_none (h : 'o' ∉ str) : matchWindow str = none := by
  induction str with
  | nil => rfl
  | cons d str ih =>
    rw [List.mem_cons, not_or] at h
    rw [matchWindow, ih h.2]
    have hne : "offset=".toList.isPrefixOf (d :: str) = false := by
      show ('o' :: "ffset=".toList).isPrefixOf (d :: str) = false
      rw [List.isPrefixOf, beq_eq_false_iff_ne.mpr h.1, Bool.false_and]
    simp only [hne, Bool.false_eq_true, if_false]

/-- The group of the descriptor takes the question mark too. -/
theorem matchWindow_window (hoffset : Decimal offset) (hsize : Decimal size) :
    matchWindow (fd ++ "?offset=".toList ++ offset ++ "&size=".toList ++ size) =
      some (fd ++ ['?'], offset, size) := by
  have hsplit : splitLast "&size=".toList (offset ++ ("&size=".toList ++ size)) =
      some (offset, size) := by
    have hhere : splitLast "&size=".toList ("&size=".toList ++ size) = some ([], size) := by
      have hlater : splitLast "&size=".toList ("size=".toList ++ size) = none := by
        refine splitLast_none ?_
        rw [List.mem_append, not_or]
        exact ⟨by decide, hsize.notMem (by decide)⟩
      show splitLast "&size=".toList ('&' :: ("size=".toList ++ size)) = _
      rw [splitLast, hlater]
      rfl
    rw [splitLast_append offset hhere, List.append_nil]
  have hhere : matchWindow ("offset=".toList ++ (offset ++ ("&size=".toList ++ size))) =
      some ([], offset, size) := by
    have hlater : matchWindow ("ffset=".toList ++ (offset ++ ("&size=".toList ++ size))) = none := by
      refine matchWindow_none ?_
      rw [List.mem_append, List.mem_append, List.mem_append, not_or, not_or, not_or]
      exact ⟨by decide, hoffset.notMem (by decide), by decide, hsize.notMem (by decide)⟩
    show matchWindow ('o' :: ("ffset=".toList ++ (offset ++ ("&size=".toList ++ size)))) = _
    rw [matchWindow, hlater]
    show (splitLast "&size=".toList (offset ++ ("&size=".toList ++ size))).map ([], ·) = _
    rw [hsplit]
    rfl
  have heq : fd ++ "?offset=".toList ++ offset ++ "&size=".toList ++ size =
      (fd ++ ['?']) ++ ("offset=".toList ++ (offset ++ ("&size=".toList ++ size))) := by
    show fd ++ ('?' :: "offset=".toList) ++ offset ++ "&size=".toList ++ size = _
    simp only [List.append_assoc, List.cons_append, List.nil_append]
  rw [heq, matchWindow_append _ hhere, List.append_nil]

theorem matchUri_fd {rest : List Char} (hn : '\n' ∉ rest) (hr : '\r' ∉ rest) :
    matchUri ("fd://".toList ++ rest) =
      match matchWindow rest with
      | some (fd, window) => some (fd, some window)
      | none => some (rest, none) := by
  have hscheme : "fd://".toList.isPrefixOf ("fd://".toList ++ rest) = true :=
    List.isPrefixOf_iff_prefix.mpr (List.prefix_append _ _)
  have hn' : '\n' ∉ "fd://".toList ++ rest := by
    rw [List.mem_append, not_or]
    exact ⟨by decide, hn⟩
  have hr' : '\r' ∉ "fd://".toList ++ rest := by
    rw [List.mem_append, not_or]
    exact ⟨by decide, hr⟩
  rw [matchUri, if_pos ⟨hscheme, hn', hr'⟩]
  rfl

theorem Decimal.takeWhile_eq (h : Decimal str) : str.takeWhile isDigit = str :=
  List.takeWhile_eq_self_iff.mpr h.2

theorem startsNumber_append (h : Decimal str) (rest : List Char) :
    startsNumber (str ++ rest) = true := by
  cases str with
  | nil => exact absurd rfl h.1
  | cons c str =>
    show (isDigit c || c == '-') = true
    rw [h.2 c List.mem_cons_self, Bool.true_or]

theorem head_ne_minus (h : Decimal str) (rest : List Char) : (str ++ rest).head? ≠ some '-' := by
  cases str with
  | nil => exact absurd rfl h.1
  | cons c str =>
    intro heq
    have hc := h.2 c List.mem_cons_self
    rw [Option.some.inj heq] at hc
    cases hc

theorem strtoll_more (h : Decimal str) (hc : isDigit c = false) (hnul : c ≠ '\x00') :
    strtoll (str ++ [c]) = none := by
  have hall : ∀ d ∈ str ++ [c], decide (d ≠ '\x00') = true := by
    intro d hd
    rw [decide_eq_true_iff]
    rintro rfl
    rcases List.mem_append.mp hd with hd | hd
    · exact h.notMem (by decide) hd
    · exact hnul (List.mem_singleton.mp hd).symm
  have hfield : (str ++ [c]).takeWhile (· ≠ '\x00') = str ++ [c] :=
    List.takeWhile_eq_self_iff.mpr hall
  have hrest : (str ++ [c]).dropWhile isDigit = [c] := by
    rw [List.dropWhile_append_of_pos h.2, List.dropWhile_cons, hc]
    rfl
  rw [strtoll]
  simp only [if_neg (head_ne_minus h [c]), hfield, hrest]
  rw [if_pos (.inr (List.cons_ne_nil _ _))]

theorem strtoll_decimal (h : Decimal str) (hlt : digitsValue str < 2 ^ 63) :
    strtoll str = some (digitsValue str : Int) := by
  have hall : ∀ d ∈ str, decide (d ≠ '\x00') = true := by
    intro d hd
    rw [decide_eq_true_iff]
    rintro rfl
    exact h.notMem (by decide) hd
  have hfield : str.takeWhile (· ≠ '\x00') = str := List.takeWhile_eq_self_iff.mpr hall
  have hrest : str.dropWhile isDigit = [] := List.dropWhile_eq_nil_iff.mpr h.2
  have hhead : str.head? ≠ some '-' := List.append_nil str ▸ head_ne_minus h []
  rw [strtoll]
  simp only [if_neg hhead, hfield, hrest, h.takeWhile_eq]
  rw [if_neg (by simpa using h.1), if_neg (by omega)]

theorem strToInt_decimal (h : Decimal str) (hlt : digitsValue str < 2 ^ 31) :
    strToInt str = some (Int32.ofInt (digitsValue str)) := by
  have hstart := startsNumber_append h []
  rw [List.append_nil] at hstart
  rw [strToInt, if_pos hstart, strtoll_decimal h (by omega), Option.bind_some,
    if_pos ⟨by omega, by omega⟩]

theorem strToInt_more (h : Decimal str) (hc : isDigit c = false) (hnul : c ≠ '\x00') :
    strToInt (str ++ [c]) = none := by
  rw [strToInt, if_pos (startsNumber_append h [c]), strtoll_more h hc hnul]
  rfl

end Uri

-- SetSource

section Run

variable {files : Int32 → Option OpenFile} {p p' : FileFdSourcePlugin} {file : OpenFile}
  {content : List UInt8} {pos : Nat} {c : FdCall} {calls : List FdCall}

/-- **A uri with a window** is refused. -/
theorem setSource_window {fd offset size : List Char} (h : (FdUri.window fd offset size).WellFormed)
    (seekFails : Bool) :
    p.setSource files (FdUri.window fd offset size).text seekFails = (p, .errorInvalidParameter) := by
  obtain ⟨hfd, hoffset, hsize⟩ := h
  have hplain : ∀ c : Char, isDigit c = false → c ∉ "?offset=".toList → c ∉ "&size=".toList →
      c ∉ fd ++ "?offset=".toList ++ offset ++ "&size=".toList ++ size := by
    intro c hc h1 h2
    simp only [List.mem_append, not_or]
    exact ⟨⟨⟨⟨hfd.notMem hc, h1⟩, hoffset.notMem hc⟩, h2⟩, hsize.notMem hc⟩
  have hn := hplain '\n' (by decide) (by decide) (by decide)
  have hr := hplain '\r' (by decide) (by decide) (by decide)
  rw [FileFdSourcePlugin.setSource, FdUri.text, matchUri_fd hn hr, matchWindow_window hoffset hsize]
  simp only [strToInt_more hfd (show isDigit '?' = false by decide) (by decide)]

structure Reads (content : List UInt8) (p : FileFdSourcePlugin) (pos : Nat) : Prop where
  fd : p.fd ≠ -1
  seekable : p.seekable = .seekable
  offset : p.offset = 0
  size : p.size.toNat = content.length
  position : p.position.toNat = pos
  file : ∃ f, p.file = some f ∧ f.content = content ∧ f.offset = pos

theorem fd_ne (n : Nat) (h : n < 2 ^ 31) : Int32.ofInt n ≠ -1 := by
  intro heq
  have hint : (Int32.ofInt n).toInt = -1 := by
    rw [heq]
    decide
  rw [Int32.toInt_ofInt_of_le (by omega) (by omega)] at hint
  omega

theorem OpenFile.size_toNat (f : OpenFile) : f.size.toNat = f.content.length :=
  UInt64.toNat_ofNat_of_lt (by have := f.length_lt; show _ < 2 ^ 64; omega)

theorem lseek_eq (file : OpenFile) (offset : UInt64) (fails : Bool) :
    file.lseek offset.toInt64 fails =
      if fails = true ∨ 2 ^ 63 ≤ offset.toNat then (file, -1)
      else ({ file with offset := offset.toNat }, offset.toInt64) := by
  rw [OpenFile.lseek]
  by_cases h : fails = true ∨ 2 ^ 63 ≤ offset.toNat
  · rw [if_pos h, if_pos (h.imp id Words.toInt64_neg.mpr)]
  · rw [if_neg h, if_neg fun h' => h (h'.imp id Words.toInt64_neg.mp)]
    rw [not_or, Nat.not_le] at h
    rw [Words.toNatClampNeg_toInt64 h.2]

theorem seekTo_eq (hfd : p.fd ≠ -1) (hseekable : p.seekable = .seekable) (hoffset : p.offset = 0)
    (hfile : p.file = some file) (offset : UInt64) (fails : Bool) :
    p.seekTo offset fails =
      if fails = true ∨ 2 ^ 63 ≤ offset.toNat then (p, .errorUnknown)
      else if offset.toUInt32 = -1 then
        ({ p with file := some { file with offset := offset.toNat } }, .errorUnknown)
      else ({ p with
        file := some { file with offset := offset.toNat }
        position := offset }, .ok) := by
  have hsum : offset + p.offset.toUInt64 = offset := by
    rw [hoffset]
    exact UInt64.add_zero offset
  rw [FileFdSourcePlugin.seekTo, if_neg (not_or.mpr ⟨hfd, not_not_intro hseekable⟩), hfile]
  simp only [hsum, lseek_eq]
  split
  · rw [if_pos (show (-1 : Int64).toInt32 = -1 by decide)]
    cases p
    simp only at hfile
    rw [hfile]
  · by_cases hlow : offset.toUInt32 = -1
    · rw [if_pos ((Words.toInt32_toInt64_eq offset).mpr hlow), if_pos hlow]
    · rw [if_neg fun h => hlow ((Words.toInt32_toInt64_eq offset).mp h), if_neg hlow]

/-- **A uri without a window** opens the whole file. -/
theorem setSource_whole {fd : List Char} (h : (FdUri.whole fd).WellFormed)
    (hlt : digitsValue fd < 2 ^ 31) (hfile : files (Int32.ofInt (digitsValue fd)) = some file)
    (seekFails : Bool) :
    TakesWindow file.content.length (.whole fd)
        (p.setSource files (FdUri.whole fd).text seekFails) ∧
      (seekFails = false →
        Reads file.content (p.setSource files (FdUri.whole fd).text seekFails).1 0) := by
  have hn : ∀ c : Char, isDigit c = false → c ∉ fd := fun c hc => Decimal.notMem h hc
  have hne := fd_ne _ hlt
  have hseek := seekTo_eq (p := { p with
    fd := Int32.ofInt (digitsValue fd), file := some file, fileSize := file.size
    size := file.size, offset := 0, position := 0, seekable := .seekable }) hne rfl rfl rfl 0
    seekFails
  have hopened : p.setSource files (FdUri.whole fd).text seekFails =
      ((FileFdSourcePlugin.seekTo { p with
        fd := Int32.ofInt (digitsValue fd), file := some file, fileSize := file.size
        size := file.size, offset := 0, position := 0, seekable := .seekable } 0 seekFails).1,
        .ok) := by
    rw [FileFdSourcePlugin.setSource, FdUri.text, matchUri_fd (hn _ (by decide))
      (hn _ (by decide)), matchWindow_none (hn _ (by decide))]
    simp only [strToInt_decimal h hlt, if_neg hne, hfile, FileFdSourcePlugin.parseWindow]
    rfl
  rw [hopened, hseek]
  have hsize := file.size_toNat
  constructor
  · refine ⟨rfl, ?_, ?_⟩
    · split
      · rfl
      · split
        · rfl
        · rfl
    · split
      · exact (Int.zero_add _).trans (congrArg Int.ofNat hsize)
      · split
        · exact (Int.zero_add _).trans (congrArg Int.ofNat hsize)
        · exact (Int.zero_add _).trans (congrArg Int.ofNat hsize)
  · rintro rfl
    exact ⟨hne, rfl, rfl, hsize, rfl, _, rfl, rfl, rfl⟩

-- Read

theorem contents_received {b : Buffer} {m : Memory} {bytes : List UInt8}
    (hle : bytes.length ≤ m.capacity.toNat) :
    contents { b with memory := received m (some bytes) } = bytes ∧
      (received m (some bytes)).size.toNat = bytes.length := by
  have hword : bytes.length.toUInt64.toNat = bytes.length :=
    UInt64.toNat_ofNat_of_lt (by have := m.capacity.toNat_lt; show _ < 2 ^ 64; omega)
  have hfit : bytes.length.toUInt64 ≤ m.capacity := by
    rw [UInt64.le_iff_toNat_le, hword]
    exact hle
  have hnot : ¬ (m.copyIn 0 bytes.length fun i => bytes.getD i 0).capacity <
      bytes.length.toUInt64 := UInt64.not_lt.mpr hfit
  have hsize : (received m (some bytes)).size.toNat = bytes.length := by
    rw [received, Memory.updateDataSize, dif_neg hnot]
    exact hword
  have haddr : (received m (some bytes)).addr =
      Ring.store m.addr 0 bytes.length fun i => bytes.getD i 0 := by
    rw [received, Memory.updateDataSize, dif_neg hnot]
    rfl
  refine ⟨?_, hsize⟩
  show Ring.load (received m (some bytes)).addr 0 (received m (some bytes)).size.toNat = bytes
  rw [hsize, haddr]
  refine List.ext_getElem (by simp [Ring.load]) fun i hi hi' => ?_
  simp only [Ring.load, List.getElem_map, List.getElem_range]
  rw [Ring.store_of_mem (by omega) (by omega), Nat.add_sub_cancel_left,
    List.getD_eq_getElem _ _ hi']

theorem newMemory_room {buffer : Option Buffer} {n : UInt64}
    (hnew : buffer = none → n.toNat < 2 ^ 63) :
    ∃ b, buffer.or (newMemory n) = some b ∧ min b.memory.capacity.toNat n.toNat = room buffer n := by
  cases buffer with
  | none =>
    refine ⟨allocMemory n, if_pos (hnew rfl), ?_⟩
    exact Nat.min_self _
  | some b => exact ⟨b, rfl, rfl⟩

theorem read_eq {buffer : Option Buffer} {n : UInt64} {b : Buffer} (hfile : p.file = some file)
    (hb : buffer.or (newMemory n) = some b) (more : Nat) :
    ∃ out, p.read buffer n (.upTo more) = some ({ p with
        file := some { file with offset := file.offset + (contents out).length }
        position := p.position + out.memory.size }, .ok, out) ∧
      out.memory.size.toNat = (contents out).length ∧
      contents out = (file.content.drop file.offset).take
        (min (min b.memory.capacity (min (p.size + p.offset.toUInt64 - p.position) n)).toNat
          (more + 1)) := by
  have hle : min b.memory.capacity (min (p.size + p.offset.toUInt64 - p.position) n) ≤
      b.memory.capacity := by
    rw [UInt64.le_iff_toNat_le, Words.toNat_min]
    exact Nat.min_le_left _ _
  have hbytes : ((file.content.drop file.offset).take
      (min (min b.memory.capacity (min (p.size + p.offset.toUInt64 - p.position) n)).toNat
        (more + 1))).length ≤ b.memory.capacity.toNat := by
    rw [UInt64.le_iff_toNat_le] at hle
    rw [List.length_take]
    omega
  have hgot : b.memory.getWritableAddr
      (min b.memory.capacity (min (p.size + p.offset.toUInt64 - p.position) n)) =
        some { b.memory with size := _, size_le := hle } := dif_neg (UInt64.not_lt.mpr hle)
  obtain ⟨hcontents, hsize⟩ := contents_received (b := b) (m := { b.memory with
    size := min b.memory.capacity (min (p.size + p.offset.toUInt64 - p.position) n),
    size_le := hle }) hbytes
  refine ⟨_, ?_, ?_, hcontents⟩
  · rw [FileFdSourcePlugin.read, hb]
    simp only [hfile, hgot]
    rw [hcontents]
    rfl
  · rw [hcontents]
    exact hsize

theorem Reads.read {buffer : Option Buffer} {n : UInt64} (h : Reads content p pos)
    (hle : pos ≤ content.length) (hnew : buffer = none → n.toNat < 2 ^ 63) (more : Nat) :
    ∃ p' out, p.read buffer n (.upTo more) = some (p', .ok, out) ∧
      Reads content p' (pos + (contents out).length) ∧ contents out <+: content.drop pos ∧
      (contents out).length ≤ room buffer n ∧
      (pos < content.length → 0 < room buffer n → contents out ≠ []) := by
  obtain ⟨file, hfile, rfl, hpos⟩ := h.file
  obtain ⟨b, hb, hroom⟩ := newMemory_room hnew
  obtain ⟨out, hread, hsize, hout⟩ := read_eq hfile hb more
  have hposition := h.position
  have hwhole := h.size
  have hcount : (min b.memory.capacity (min (p.size + p.offset.toUInt64 - p.position) n)).toNat =
      min (room buffer n) (file.content.length - pos) := by
    have hsum : p.size + p.offset.toUInt64 = p.size := by
      rw [h.offset]
      exact UInt64.add_zero p.size
    rw [Words.toNat_min, Words.toNat_min, hsum, Words.toNat_diff (by omega), ← hroom]
    omega
  rw [hcount, hpos] at hout
  have hlen : (contents out).length =
      min (min (min (room buffer n) (file.content.length - pos)) (more + 1))
        (file.content.length - pos) := by
    rw [hout, List.length_take, List.length_drop]
  refine ⟨_, out, hread, ⟨h.fd, h.seekable, h.offset, h.size, ?_, _, rfl, rfl, ?_⟩, ?_,
    by omega, fun hlt hsome hnil => ?_⟩
  · have hlt := file.length_lt
    show (p.position + out.memory.size).toNat = _
    rw [Words.toNat_sum (by omega), hposition, hsize]
  · show file.offset + _ = _
    rw [hpos]
  · rw [hout]
    exact List.take_prefix _ _
  · rw [hnil] at hlen
    simp only [List.length_nil] at hlen
    omega

/-- **One call** inside the window. -/
theorem Reads.step (h : Reads content p pos) (hstays : StaysInside p c) :
    ∃ pos', Allows content pos c (p.perform c).2 pos' ∧ Reads content (p.perform c).1 pos' := by
  cases c with
  | seekTo offset fails =>
    obtain ⟨file, hfile, rfl, hpos⟩ := h.file
    have hseek := seekTo_eq h.fd h.seekable h.offset hfile offset fails
    rw [FileFdSourcePlugin.perform, hseek]
    by_cases hrefused : fails = true ∨ 2 ^ 63 ≤ offset.toNat
    · rw [if_pos hrefused]
      refine ⟨pos, .refused (show PluginStatus.errorUnknown ≠ .ok by decide) ?_, h⟩
      have hlt := file.length_lt
      exact hrefused.symm.imp (fun hbig => by omega) id
    · obtain ⟨hle, hlow⟩ := hstays.resolve_left hrefused
      rw [if_neg hrefused, if_neg hlow]
      rw [UInt64.le_iff_toNat_le, h.size] at hle
      exact ⟨_, .sought hle, h.fd, h.seekable, h.offset, h.size, rfl, _, rfl, rfl, rfl⟩
  | read buffer n outcome =>
    obtain ⟨hbefore, hok, hnew⟩ := hstays
    cases outcome with
    | fails => exact absurd rfl hok
    | upTo more =>
      rw [UInt64.lt_iff_toNat_lt, h.position, h.size] at hbefore
      obtain ⟨p', out, hread, hreads, hprefix, hle, hsome⟩ := h.read hbefore.le hnew more
      rw [FileFdSourcePlugin.perform, hread]
      exact ⟨_, .delivered hbefore hprefix hle (hsome hbefore), hreads⟩

theorem Reads.follows (h : Reads content p pos)
    (hrun : Runs.Along FileFdSourcePlugin.step StaysInside p calls) :
    Follows content pos (p.transcript calls) := by
  induction calls generalizing p pos with
  | nil => trivial
  | cons c calls ih =>
    obtain ⟨pos', hallows, hreads⟩ := h.step hrun.1
    exact ⟨pos', hallows, ih hreads (Runs.along_tail hrun rfl)⟩

-- The property

/-- **A source for a file descriptor** takes the window exactly if the uri has none. It then
answers as a reader of the whole file, as long as the calls stay inside. -/
theorem confined_to_window (u : FdUri) (hu : u.WellFormed) (hlt : digitsValue u.fd < 2 ^ 31)
    (hfile : files (Int32.ofInt (digitsValue u.fd)) = some file) (seekFails : Bool) :
    (TakesWindow file.content.length u (p.setSource files u.text seekFails) ↔ u = .whole u.fd) ∧
      (u = .whole u.fd → seekFails = false →
        Runs.Along FileFdSourcePlugin.step StaysInside (p.setSource files u.text seekFails).1
          calls →
        Follows file.content 0 ((p.setSource files u.text seekFails).1.transcript calls)) := by
  cases u with
  | whole fd =>
    obtain ⟨htakes, hreads⟩ := setSource_whole (p := p) hu hlt hfile seekFails
    exact ⟨⟨fun _ => rfl, fun _ => htakes⟩, fun _ hseek hrun => (hreads hseek).follows hrun⟩
  | window fd offset size =>
    refine ⟨⟨fun htakes => ?_, nofun⟩, nofun⟩
    rw [setSource_window hu] at htakes
    cases htakes.1

end Run

-- Inside the window, and outside

def fourBytes (fd : Int32) : Option OpenFile :=
  if fd = 5 then some ⟨[10, 20, 30, 40], 0, by decide⟩ else none

def seekThenRead : List FdCall := [.seekTo 1 false, .read none 2 (.upTo 0), .read none 8 (.upTo 7)]

theorem confined_to_window_four :
    Follows [10, 20, 30, 40] 0
      ((FileFdSourcePlugin.setSource fourBytes {} (FdUri.whole ['5']).text false).1.transcript
        seekThenRead) := by
  have hfile : fourBytes (Int32.ofInt (digitsValue ['5'])) =
      some ⟨[10, 20, 30, 40], 0, by decide⟩ := if_pos (by decide)
  refine (confined_to_window (p := {}) (.whole ['5'])
    ⟨by decide, List.forall_mem_singleton.mpr (by decide)⟩ (by decide +kernel) hfile false).2
      rfl rfl ?_
  exact ⟨.inr ⟨by decide +kernel, by decide⟩, ⟨by decide +kernel, by decide, fun _ => by decide⟩,
    ⟨by decide +kernel, by decide, fun _ => by decide⟩, trivial⟩

/-- The documented form of a uri is refused, though the descriptor is a regular file. -/
theorem window_refused :
    (FileFdSourcePlugin.setSource fourBytes {} "fd://5?offset=1&size=2".toList false).2 =
      .errorInvalidParameter := by
  decide +kernel

end MediaFoundation.Source
