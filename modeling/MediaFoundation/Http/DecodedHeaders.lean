import MediaFoundation.Http.ResponseHeaders

/-!
# What is left of the headers

The header lines of a response against the record that `RxHeaderData` fills.
`fileLen` is not initialised and `sscanf_s` never assigns it, so that the length
of the file is whatever the stack held; the 32 bytes of a content type reach
beyond the line that told it; and names and codings are compared by their
beginnings.
-/

namespace MediaFoundation.Http

open Hls (Text isSpace isDigit digitsValue)

variable {info : Headers}

-- What the lines say

def fieldValue (names : List Text) (line : Text) : Option Text :=
  if ':' ∈ line ∧ line.takeWhile (· ≠ ':') ∈ names then
    some (stringTrim (line.dropWhile (· ≠ ':')).tail)
  else none

/-- A row of digits that tells a number a `long` can hold. -/
structure IsNumber (text : Text) (n : Nat) : Prop where
  ne_nil : text ≠ []
  digits : ∀ c ∈ text, isDigit c
  value : digitsValue text = n
  lt : n < 2 ^ 63

/-- The header lines of a response: every content length is a number, and one of them is the
content range `bytes s-e/t`. -/
structure HeaderBlock where
  lines : List Text
  text : ∀ line ∈ lines, '\x00' ∉ line
  lengths : ∀ line ∈ lines, ∀ value, fieldValue Headers.lengthNames line = some value →
    ∃ n, IsNumber value n
  start : Nat
  last : Nat
  total : Nat
  start_le : start ≤ last
  last_lt : last < total
  range : ∃ line ∈ lines, ∃ s e t, IsNumber s start ∧ IsNumber e last ∧ IsNumber t total ∧
    fieldValue Headers.rangeNames line = some ("bytes ".toList ++ s ++ '-' :: e ++ '/' :: t)

def lengthOf (line : Text) : Option Int :=
  (fieldValue Headers.lengthNames line).map fun value => (digitsValue value : Int)

/-- Names of codings are the same in small and capital letters. -/
def Announces (line : Text) : Prop :=
  ∃ value ∈ fieldValue Headers.encodingNames line,
    ∃ coding ∈ value.splitOn ',', (stringTrim coding).map Char.toLower = "chunked".toList

/-- **The headers are decoded**, whatever is in memory beside them. -/
structure Decoded (r : HeaderBlock) (info : Headers) : Prop where
  fileContentLen : info.fileContentLen = 0 →
    ∀ m, (Headers.rxHeaders m info r.lines).fileContentLen = r.total
  contentLen : ∀ m, (Headers.rxHeaders m info r.lines).contentLen =
    (r.lines.filterMap lengthOf).getLast?.getD info.contentLen
  isChunked : ∀ m, (Headers.rxHeaders m info r.lines).isChunked ↔
    info.isChunked ∨ ∃ line ∈ r.lines, Announces line
  fromText : ∀ lines, lines <+: r.lines → ∀ m m',
    Headers.rxHeaders m info lines = Headers.rxHeaders m' info lines

-- Fields and tokens

theorem mem_dropWhile {p : Char → Bool} {c : Char} {s : Text} (h : c ∈ s) (hc : p c = false) :
    c ∈ s.dropWhile p := by
  rw [← List.takeWhile_append_dropWhile (p := p) (l := s), List.mem_append] at h
  rcases h with htake | hdrop
  · exact absurd (List.mem_takeWhile_imp htake) (by rw [hc]; exact Bool.false_ne_true)
  · exact hdrop

theorem mem_stringTrim {c : Char} {s : Text} (h : c ∈ s) (hc : isSpace c = false) :
    c ∈ stringTrim s := by
  rw [stringTrim, List.rdropWhile, List.mem_reverse]
  exact mem_dropWhile (List.mem_reverse.mpr (mem_dropWhile h hc)) hc

theorem dropWhile_colon {s : Text} (h : ':' ∈ s) : ∃ v, s.dropWhile (· ≠ ':') = ':' :: v := by
  induction s with
  | nil => exact absurd h List.not_mem_nil
  | cons c s ih =>
    by_cases hc : c = ':'
    · exact ⟨s, by rw [List.dropWhile_cons_of_neg (by simpa using hc), hc]⟩
    · rw [List.dropWhile_cons_of_pos (by simpa using hc)]
      exact ih ((List.mem_cons.mp h).resolve_left fun heq => hc heq.symm)

/-- No colon is skipped, and none ends the token. -/
theorem strtok_of_not_mem {s : Text} (h : ':' ∉ s) (hs : s ≠ []) : strtok s = some (s, []) := by
  have hdrop : s.dropWhile (· = ':') = s := by
    cases s with
    | nil => rfl
    | cons c s =>
      have hc : c ≠ ':' := fun heq => h (heq ▸ List.mem_cons_self)
      rw [List.dropWhile_cons_of_neg (by simpa using hc)]
  have hall : ∀ c ∈ s, (decide (c ≠ ':')) = true := fun c hc =>
    decide_eq_true fun heq => h (heq ▸ hc)
  simp only [strtok, hdrop, if_neg hs]
  rw [List.takeWhile_eq_self_iff.mpr hall, List.dropWhile_eq_nil_iff.mpr hall]

theorem strtok_colon (s : Text) : strtok (':' :: s) = strtok s := by
  rw [strtok, strtok, List.dropWhile_cons_of_pos (by simp)]

theorem strtok_key {key v : Text} (h : ':' ∉ key) (hkey : key ≠ []) :
    strtok (key ++ ':' :: v) = some (key, ':' :: v) := by
  have hall : ∀ c ∈ key, (decide (c ≠ ':')) = true := fun c hc =>
    decide_eq_true fun heq => h (heq ▸ hc)
  have hdrop : (key ++ ':' :: v).dropWhile (· = ':') = key ++ ':' :: v := by
    cases key with
    | nil => exact absurd rfl hkey
    | cons c key =>
      have hc : c ≠ ':' := fun heq => h (heq ▸ List.mem_cons_self)
      rw [List.cons_append, List.dropWhile_cons_of_neg (by simpa using hc)]
  have hne : key ++ ':' :: v ≠ [] := by simp
  simp only [strtok, hdrop, if_neg hne]
  rw [List.takeWhile_append_of_pos hall, List.dropWhile_append_of_pos hall]
  simp

theorem secondToken_of_fieldValue {names : List Text} (hnames : [] ∉ names) {line value : Text}
    (h : fieldValue names line = some value) (hvalue : value ≠ []) (hcolon : ':' ∉ value) :
    ∃ s, secondToken names line = some s ∧ stringTrim s.1 = value := by
  rw [fieldValue] at h
  split at h
  next hfield =>
    obtain ⟨hmem, hname⟩ := hfield
    cases h
    generalize hkey : line.takeWhile (· ≠ ':') = key at hname
    obtain ⟨v, hv⟩ := dropWhile_colon hmem
    rw [hv, List.tail_cons] at hvalue hcolon ⊢
    have hline : line = key ++ ':' :: v := by
      rw [← hkey, ← hv, List.takeWhile_append_dropWhile]
    have hkeyColon : ':' ∉ key := by
      rw [← hkey]
      intro hin
      simpa using List.mem_takeWhile_imp hin
    have hkeyNe : key ≠ [] := fun heq => hnames (heq ▸ hname)
    have hvColon : ':' ∉ v := fun hin => hcolon (mem_stringTrim hin (by decide))
    have hvNe : v ≠ [] := by
      rintro rfl
      exact hvalue rfl
    have hstarts : startsWith names key = true :=
      List.any_eq_true.mpr ⟨key, hname, List.isPrefixOf_iff_prefix.mpr List.prefix_rfl⟩
    refine ⟨(v, []), ?_, rfl⟩
    rw [hline, secondToken, strtok_key hkeyColon hkeyNe]
    show (if startsWith names key = true then strtok (':' :: v) else none) = some (v, [])
    rw [if_pos hstarts, strtok_colon, strtok_of_not_mem hvColon hvNe]
  next => cases h

-- The numbers

theorem isSpace_of_isDigit {c : Char} (h : isDigit c = true) : isSpace c = false := by
  simp only [isDigit, decide_eq_true_eq, Char.le_def, UInt32.le_iff_toNat_le] at h
  have h0 : '0'.val.toNat = 48 := rfl
  have hr : '\r'.val.toNat = 13 := rfl
  have hc : c ≠ ' ' := by
    rintro rfl
    exact absurd h.1 (by decide)
  simp only [isSpace, decide_eq_false_iff_not, not_or, not_and, Char.le_def,
    UInt32.le_iff_toNat_le]
  exact ⟨hc, fun _ => by omega⟩

namespace IsNumber

theorem atol_eq {text : Text} {n : Nat} (h : IsNumber text n) : atol text = n := by
  obtain ⟨hne, hdigits, hvalue, hlt⟩ := h
  cases text with
  | nil => exact absurd rfl hne
  | cons c text =>
    have hc := hdigits c List.mem_cons_self
    have hdrop : (c :: text).dropWhile isSpace = c :: text :=
      List.dropWhile_cons_of_neg (by rw [isSpace_of_isDigit hc]; exact Bool.false_ne_true)
    have hminus : c ≠ '-' := by
      rintro rfl
      exact absurd hc (by decide)
    have hplus : c ≠ '+' := by
      rintro rfl
      exact absurd hc (by decide)
    have htake : (c :: text).takeWhile isDigit = c :: text :=
      List.takeWhile_eq_self_iff.mpr hdigits
    simp only [atol, hdrop, List.head?_cons, Option.some.injEq, hminus, hplus, or_self, if_false,
      htake, hvalue]
    omega

theorem colon_not_mem {text : Text} {n : Nat} (h : IsNumber text n) : ':' ∉ text := fun hmem =>
  absurd (h.digits ':' hmem) (by decide)

theorem letter_not_mem {text : Text} {n : Nat} (h : IsNumber text n) : 'l' ∉ text := fun hmem =>
  absurd (h.digits 'l' hmem) (by decide)

end IsNumber

/-- **The length of a content range** is never assigned. -/
theorem fileLen_range {s e t : Text} {start last total : Nat} (hs : IsNumber s start)
    (he : IsNumber e last) (ht : IsNumber t total) (leftover : Nat) :
    fileLen ("bytes ".toList ++ s ++ '-' :: e ++ '/' :: t) leftover = leftover := by
  refine fileLen_eq_leftover ?_ leftover
  simp [hs.letter_not_mem, he.letter_not_mem, ht.letter_not_mem]

namespace Headers

def takenLength (line : Text) : Option Int :=
  (secondToken lengthNames line).map fun s => atol (stringTrim s.1)

def SaysChunked (line : Text) : Prop :=
  ∃ s ∈ secondToken encodingNames line, saysChunked (stringTrim s.1) = true

theorem takenLength_of_lengthOf {r : HeaderBlock} {line : Text} (hline : line ∈ r.lines) {n : Int}
    (h : lengthOf line = some n) : takenLength line = some n := by
  obtain ⟨value, hvalue, rfl⟩ := Option.map_eq_some_iff.mp h
  obtain ⟨k, hnumber⟩ := r.lengths line hline value hvalue
  obtain ⟨s, hs, htrim⟩ :=
    secondToken_of_fieldValue (by decide) hvalue hnumber.ne_nil hnumber.colon_not_mem
  rw [takenLength, hs, Option.map_some, htrim, hnumber.atol_eq, hnumber.value]

theorem range_taken (r : HeaderBlock) :
    ∃ line ∈ r.lines, ∃ s, secondToken rangeNames line = some s ∧
    ∀ leftover, fileLen (stringTrim s.1) leftover = leftover := by
  obtain ⟨line, hline, s, e, t, hs, he, ht, hvalue⟩ := r.range
  have hcolon : ':' ∉ "bytes ".toList ++ s ++ '-' :: e ++ '/' :: t := by
    simp [hs.colon_not_mem, he.colon_not_mem, ht.colon_not_mem]
  obtain ⟨token, htoken, htrim⟩ :=
    secondToken_of_fieldValue (by decide) hvalue (by simp) hcolon
  refine ⟨line, hline, token, htoken, fun leftover => ?_⟩
  rw [htrim, fileLen_range hs he ht]

-- Runs over the lines

theorem rxHeaders_append (m : Nat → Memory) (info : Headers) (before after : List Text) :
    rxHeaders m info (before ++ after) =
      rxHeaders (fun n => m (n + before.length)) (rxHeaders m info before) after := by
  induction before generalizing m info with
  | nil => rfl
  | cons line before ih =>
    rw [List.cons_append, rxHeaders, ih, rxHeaders]
    rfl

theorem contentLen_rxHeaders (m : Nat → Memory) (info : Headers) (lines : List Text) :
    (rxHeaders m info lines).contentLen =
      (lines.filterMap takenLength).getLast?.getD info.contentLen := by
  induction lines using List.reverseRecOn with
  | nil => rfl
  | append_singleton lines line ih =>
    rw [rxHeaders_append, List.filterMap_append]
    have hline := (reads_rxHeaderData (m lines.length) (rxHeaders m info lines) line).contentLen
    show (rxHeaderData (m (0 + lines.length)) (rxHeaders m info lines) line).contentLen = _
    rw [Nat.zero_add, hline]
    cases hs : secondToken lengthNames line with
    | none =>
      have hnone : takenLength line = none := by rw [takenLength, hs]; rfl
      simp [hnone, ih]
    | some s =>
      have hsome : takenLength line = some (atol (stringTrim s.1)) := by rw [takenLength, hs]; rfl
      simp [hsome]

theorem isChunked_rxHeaders (m : Nat → Memory) (info : Headers) (lines : List Text) :
    (rxHeaders m info lines).isChunked ↔ info.isChunked ∨ ∃ line ∈ lines, SaysChunked line := by
  induction lines generalizing m info with
  | nil => simp [rxHeaders]
  | cons line lines ih =>
    have hline := (reads_rxHeaderData (m 0) info line).isChunked
    have hstep : (rxHeaderData (m 0) info line).isChunked ↔ info.isChunked ∨ SaysChunked line := by
      rw [hline, SaysChunked]
      cases secondToken encodingNames line with
      | none | some s => simp
    rw [rxHeaders, ih, hstep, or_assoc]
    simp

theorem fileContentLen_rxHeaders (h : info.fileContentLen ≠ 0) (m : Nat → Memory)
    (lines : List Text) : (rxHeaders m info lines).fileContentLen = info.fileContentLen := by
  induction lines generalizing m info with
  | nil => rfl
  | cons line lines ih =>
    have hline := (reads_rxHeaderData (m 0) info line).fileContentLen
    have hkeep : (rxHeaderData (m 0) info line).fileContentLen = info.fileContentLen := by
      rw [hline]
      cases secondToken rangeNames line with
      | none => rfl
      | some s => exact if_neg h
    rw [rxHeaders, ih (hkeep ▸ h), hkeep]

theorem fileLen_upper (strRange : List Char) (leftover : Nat) :
    fileLen strRange leftover / 2 ^ 32 = leftover / 2 ^ 32 := by
  rw [fileLen]
  split
  · omega
  · rfl

/-- The length comes out of the memory, where none was known: with the upper half of what
was there. -/
theorem fileContentLen_of_unknown {u : Nat} (hu : u ≠ 0) {m : Nat → Memory}
    (hm : ∀ n, (m n).fileLen.toNat / 2 ^ 32 = u) (h : info.fileContentLen = 0)
    {lines : List Text} (hlines : ∃ line ∈ lines, ∃ s, secondToken rangeNames line = some s) :
    (rxHeaders m info lines).fileContentLen / 2 ^ 32 = u := by
  induction lines generalizing m info with
  | nil =>
    obtain ⟨line, hmem, -⟩ := hlines
    exact absurd hmem List.not_mem_nil
  | cons line lines ih =>
    have hline := (reads_rxHeaderData (m 0) info line).fileContentLen
    rw [rxHeaders]
    cases hs : secondToken rangeNames line with
    | none =>
      simp only [hs] at hline
      refine ih (fun n => hm (n + 1)) (hline.trans h) ?_
      obtain ⟨other, hmem, s, hother⟩ := hlines
      rcases List.mem_cons.mp hmem with rfl | hmem
      · rw [hs] at hother
        exact absurd hother nofun
      · exact ⟨other, hmem, s, hother⟩
    | some s =>
      simp only [hs, if_pos h] at hline
      have hupper : (rxHeaderData (m 0) info line).fileContentLen / 2 ^ 32 = u := by
        rw [hline, fileLen_upper, hm 0]
      have hne : (rxHeaderData (m 0) info line).fileContentLen ≠ 0 := by
        intro hzero
        rw [hzero] at hupper
        exact hu (by omega)
      rw [fileContentLen_rxHeaders hne, hupper]

end Headers

-- The headers that are decoded

theorem last_eq_iff {f g : Text → Option Int} {lines : List Text}
    (h : ∀ line ∈ lines, ∀ n, g line = some n → f line = some n) (c : Int) :
    (lines.filterMap f).getLast?.getD c = (lines.filterMap g).getLast?.getD c ↔
      ∀ before line after n, lines = before ++ line :: after → f line = some n → g line = none →
        (∀ other ∈ after, f other = none) → n = (before.filterMap g).getLast?.getD c := by
  constructor
  · rintro hlast before line after n rfl hf hg hafter
    have hfAfter : after.filterMap f = [] := List.filterMap_eq_nil_iff.mpr hafter
    have hgAfter : after.filterMap g = [] := by
      refine List.filterMap_eq_nil_iff.mpr fun other hmem => ?_
      cases hother : g other with
      | none => rfl
      | some k =>
        have hfound := h other (List.mem_append_right _ (List.mem_cons_of_mem _ hmem)) k hother
        rw [hafter other hmem] at hfound
        exact absurd hfound nofun
    simpa [hf, hg, hfAfter, hgAfter] using hlast
  · induction lines using List.reverseRecOn with
    | nil => exact fun _ => rfl
    | append_singleton lines line ih =>
      intro hcond
      have hline := h line (by simp)
      rw [List.filterMap_append, List.filterMap_append]
      cases hf : f line with
      | none =>
        have hg : g line = none := by
          cases hg : g line with
          | none => rfl
          | some n =>
            rw [hf] at hline
            exact absurd (hline n hg) nofun
        have hrest := ih (fun other hmem => h other (List.mem_append_left _ hmem))
          fun before other after n heq hother hnot hafter => by
            refine hcond before other (after ++ [line]) n (by rw [heq]; simp) hother hnot ?_
            intro last hmem
            rcases List.mem_append.mp hmem with hmem | hmem
            · exact hafter last hmem
            · rw [List.mem_singleton.mp hmem, hf]
        simpa [hf, hg] using hrest
      | some n =>
        cases hg : g line with
        | none =>
          have hlast := hcond lines line [] n rfl hf hg (by simp)
          simpa [hf, hg] using hlast
        | some k =>
          have hfound := hline k hg
          rw [hf] at hfound
          cases hfound
          simp [hf, hg]

namespace Headers

theorem memcpy_of_le {n : Nat} {bytes : Text} (h : n ≤ bytes.length) (beyond : Nat → Char) :
    memcpy n bytes beyond = bytes.take n := by
  rw [memcpy, Nat.sub_eq_zero_of_le h]
  simp

theorem memcpy_ne {n : Nat} {bytes : Text} (h : bytes.length < n) :
    memcpy n bytes (fun _ => 'a') ≠ memcpy n bytes (fun _ => 'b') := by
  obtain ⟨k, hk⟩ : ∃ k, n - bytes.length = k + 1 := ⟨n - bytes.length - 1, by omega⟩
  rw [memcpy, memcpy, hk]
  intro heq
  have htail := List.append_cancel_left heq
  rw [List.range_succ_eq_map, List.map_cons, List.map_cons] at htail
  exact absurd (List.cons.inj htail).1 (by decide)

theorem rxHeaderData_congr (hknown : info.fileContentLen ≠ 0) {line : Text}
    (htype : ∀ s, secondToken typeNames line = some s → 32 ≤ (bytesFrom s.1 s.2).length)
    (m m' : Memory) : rxHeaderData m info line = rxHeaderData m' info line := by
  obtain ⟨htype₁, hlen₁, hchunked₁, hfile₁, hclosed₁, hupdated₁⟩ := reads_rxHeaderData m info line
  obtain ⟨htype₂, hlen₂, hchunked₂, hfile₂, hclosed₂, hupdated₂⟩ := reads_rxHeaderData m' info line
  have hfile : (rxHeaderData m info line).fileContentLen =
      (rxHeaderData m' info line).fileContentLen := by
    rw [hfile₁, hfile₂]
    cases secondToken rangeNames line with
    | none => rfl
    | some s => simp only [if_neg hknown]
  have hcontent : (rxHeaderData m info line).contentType =
      (rxHeaderData m' info line).contentType := by
    rw [htype₁, htype₂]
    cases hs : secondToken typeNames line with
    | none => rfl
    | some s => exact (memcpy_of_le (htype s hs) _).trans (memcpy_of_le (htype s hs) _).symm
  rw [← hlen₂] at hlen₁
  rw [← hchunked₂] at hchunked₁
  rw [← hclosed₂] at hclosed₁
  rw [← hupdated₂] at hupdated₁
  generalize rxHeaderData m info line = a at *
  generalize rxHeaderData m' info line = b at *
  obtain ⟨⟨_, _, _, _⟩, _, _⟩ := a
  obtain ⟨⟨_, _, _, _⟩, _, _⟩ := b
  simp_all

theorem rxHeaders_congr (hknown : info.fileContentLen ≠ 0) {lines : List Text}
    (htypes : ∀ line ∈ lines, ∀ s, secondToken typeNames line = some s →
      32 ≤ (bytesFrom s.1 s.2).length) (m m' : Nat → Memory) :
    rxHeaders m info lines = rxHeaders m' info lines := by
  induction lines generalizing m m' info with
  | nil => rfl
  | cons line lines ih =>
    have hline := rxHeaderData_congr hknown (htypes line List.mem_cons_self) (m 0) (m' 0)
    have hkeep := fileContentLen_rxHeaders hknown m [line]
    rw [rxHeaders, rxHeaders, ← hline]
    have hnext : (rxHeaderData (m 0) info line).fileContentLen ≠ 0 := by
      rw [show (rxHeaderData (m 0) info line).fileContentLen = info.fileContentLen from hkeep]
      exact hknown
    exact ih hnext (fun other hmem => htypes other (List.mem_cons_of_mem _ hmem)) _ _

/-- A content type that is too short brings in the memory. -/
theorem types_of_fromText {lines : List Text}
    (h : ∀ before, before <+: lines → ∀ m m', rxHeaders m info before = rxHeaders m' info before)
    {line : Text} (hline : line ∈ lines) {s : Text × Text}
    (hs : secondToken typeNames line = some s) : 32 ≤ (bytesFrom s.1 s.2).length := by
  by_contra hlt
  rw [not_le] at hlt
  obtain ⟨before, after, rfl⟩ := List.append_of_mem hline
  have hsame := h (before ++ [line]) ⟨after, by simp⟩ (fun _ => ⟨0, fun _ => 'a'⟩)
    (fun _ => ⟨0, fun _ => 'b'⟩)
  have htype (beyond : Nat → Char) : (rxHeaders (fun _ => ⟨0, beyond⟩) info
      (before ++ [line])).contentType = memcpy 32 (bytesFrom s.1 s.2) beyond := by
    have hread := (reads_rxHeaderData ⟨0, beyond⟩ (rxHeaders (fun _ => ⟨0, beyond⟩) info before)
      line).contentType
    simp only [hs] at hread
    rw [rxHeaders_append]
    exact hread
  have hcontent := congrArg Headers.contentType hsame
  rw [htype, htype] at hcontent
  exact memcpy_ne hlt hcontent

def upper (u : UInt64) : Nat → Memory := fun _ => ⟨u * 2 ^ 32, fun _ => '\x00'⟩

end Headers

open Headers

/-- The lines and the record before them that the callback decodes. -/
structure Decodable (r : HeaderBlock) (info : Headers) : Prop where
  known : info.fileContentLen ≠ 0
  /-- A last line that only begins like a content length tells what the last content length
  does. -/
  lengths : ∀ before line after n, r.lines = before ++ line :: after → takenLength line = some n →
    lengthOf line = none → (∀ other ∈ after, takenLength other = none) →
      n = (before.filterMap lengthOf).getLast?.getD info.contentLen
  heard : ∀ line ∈ r.lines, Announces line → info.isChunked ∨ ∃ other ∈ r.lines, SaysChunked other
  /-- A coding that only begins like it comes with one that is announced. -/
  announced : ∀ line ∈ r.lines, SaysChunked line →
    info.isChunked ∨ ∃ other ∈ r.lines, Announces other
  /-- The content types are long enough. -/
  types : ∀ line ∈ r.lines, ∀ s, secondToken typeNames line = some s →
    32 ≤ (bytesFrom s.1 s.2).length

/-- No length is read where none was known: two memories give two. -/
theorem Decoded.known {r : HeaderBlock} (h : Decoded r info) :
    info.fileContentLen ≠ 0 := by
  intro hzero
  obtain ⟨line, hline, s, hs, -⟩ := range_taken r
  have hread (u : UInt64) (hu : u.toNat ≠ 0) (hup : (u * 2 ^ 32).toNat / 2 ^ 32 = u.toNat) :
      r.total / 2 ^ 32 = u.toNat := by
    rw [← h.fileContentLen hzero (upper u)]
    exact fileContentLen_of_unknown hu (fun _ => hup) hzero ⟨line, hline, s, hs⟩
  have hone := hread 1 (by decide) (by decide)
  have htwo := hread 2 (by decide) (by decide)
  rw [hone] at htwo
  exact absurd htwo (by decide)

/-- **Response headers** are decoded exactly for these lines and records. -/
theorem decoded_iff (r : HeaderBlock) (info : Headers) : Decoded r info ↔ Decodable r info := by
  have hlengths : ∀ line ∈ r.lines, ∀ n, lengthOf line = some n → takenLength line = some n :=
    fun line hline n hn => takenLength_of_lengthOf hline hn
  have hlast := last_eq_iff hlengths info.contentLen
  constructor
  · intro h
    have hm : Nat → Memory := upper 0
    refine ⟨h.known, ?_, ?_, ?_, ?_⟩
    · refine hlast.mp ?_
      rw [← contentLen_rxHeaders hm, h.contentLen]
    · intro line hline hannounces
      exact (isChunked_rxHeaders hm info r.lines).mp
        ((h.isChunked hm).mpr (.inr ⟨line, hline, hannounces⟩))
    · intro line hline hsays
      exact (h.isChunked hm).mp
        ((isChunked_rxHeaders hm info r.lines).mpr (.inr ⟨line, hline, hsays⟩))
    · intro line hline s hs
      exact types_of_fromText h.fromText hline hs
  · intro h
    refine ⟨fun hzero => absurd hzero h.known, fun m => ?_, fun m => ?_,
      fun lines hlines m m' => ?_⟩
    · rw [contentLen_rxHeaders, hlast.mpr h.lengths]
    · rw [isChunked_rxHeaders]
      constructor
      · rintro (hbefore | ⟨line, hline, hsays⟩)
        · exact .inl hbefore
        · exact h.announced line hline hsays
      · rintro (hbefore | ⟨line, hline, hannounces⟩)
        · exact .inl hbefore
        · exact h.heard line hline hannounces
    · exact rxHeaders_congr h.known (fun line hline => h.types line (hlines.subset hline)) m m'

def oneByte : HeaderBlock where
  lines := ["Content-Range: bytes 0-0/1\r\n".toList]
  text := by decide
  lengths := by
    intro line hline value hvalue
    have hnone : fieldValue lengthNames "Content-Range: bytes 0-0/1\r\n".toList = none := by decide
    rw [List.mem_singleton.mp hline, hnone] at hvalue
    exact absurd hvalue nofun
  start := 0
  last := 0
  total := 1
  start_le := le_rfl
  last_lt := Nat.zero_lt_one
  range := by
    have hzero : IsNumber ['0'] 0 := ⟨by decide, by simp [isDigit], rfl, by norm_num⟩
    have hone : IsNumber ['1'] 1 := ⟨by decide, by simp [isDigit], rfl, by norm_num⟩
    exact ⟨_, List.mem_singleton_self _, ['0'], ['0'], ['1'], hzero, hzero, hone, by decide⟩

def newHeaders : Headers where
  contentType := List.replicate 32 '\x00'
  isHeaderUpdated := false

theorem length_from_stack :
    (∀ m, (rxHeaders m newHeaders oneByte.lines).fileContentLen = (m 0).fileLen.toNat) ∧
      ¬ Decoded oneByte newHeaders := by
  refine ⟨fun m => ?_, fun h => h.known rfl⟩
  obtain ⟨line, hline, s, hs, hfile⟩ := range_taken oneByte
  have hread := (reads_rxHeaderData (m 0) newHeaders line).fileContentLen
  simp only [hs, hfile] at hread
  rw [List.mem_singleton.mp hline] at hread
  exact hread

end MediaFoundation.Http
