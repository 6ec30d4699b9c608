import MediaFoundation.Lib.Runs
import MediaFoundation.Hls.M3U8
import MediaFoundation.Hls.PlaylistText

/-!
# Reading a media playlist

What the fragments of a media playlist are, line by line, and that `Update`
yields them.

`Readable` says where the code reads another text than the line has: a value
with a second colon is dropped, an EXTINF value without a comma has no title to
read, and one that holds an attribute named DURATION or TITLE is read from it.
-/

namespace MediaFoundation.Hls

open Narrow (narrow)

-- What the lines say

def HlsTag.name (type : HlsTag) : Text :=
  ((exttagmapping.find? fun entry => entry.2 = type).map fun entry => entry.1.toList).getD []

namespace Line

def extInf : Line → Option (Text × Text)
  | tag name (some value) =>
    if name = HlsTag.extinf.name then
      some (value.takeWhile (· ≠ ','), (value.dropWhile (· ≠ ',')).tail)
    else none
  | _ => none

def mediaSequence : Line → Option (Option Nat)
  | tag name (some value) =>
    if name = HlsTag.extxmediasequence.name then some (Attribute.decimal ⟨[], value⟩) else none
  | _ => none

def uriText : Line → Option Text
  | uri text => some text
  | _ => none

def Discontinuity : Line → Prop
  | tag name _ => name = HlsTag.extxdiscontinuity.name ∨ name = HlsTag.extxdiscontinuitysequence.name
  | _ => False

/-- `Update` reads the line as it is. -/
def Readable (base : Text) : Line → Prop
  | tag name value =>
    (name = HlsTag.extinf.name → ∃ text, value = some text ∧ ':' ∉ text ∧ ',' ∈ text ∧
      ∀ attr ∈ AttributesTag.parseAttributes text,
        attr.name ≠ "DURATION".toList ∧ attr.name ≠ "TITLE".toList) ∧
    (name = HlsTag.extxmediasequence.name → ∃ text, value = some text ∧ ':' ∉ text)
  | uri text => '/' ∈ base ∨ Attribute.quotedString ⟨[], text⟩ ≠ []
  | _ => True

end Line

def lastOf {β : Type*} (f : Line → Option β) (block : List Line) : Option β :=
  (block.filterMap f).getLast?

def number (c : Option Nat) (block : List Line) : Option Nat := (lastOf Line.mediaSequence block).getD c

structure Segment where
  block : List Line
  uri : Text
  number : Option Nat

def segments (c : Option Nat) (block : List Line) : List Line → List Segment
  | [] => []
  | .uri text :: lines =>
    ⟨block, text, number c block⟩ :: segments ((number c block).map (· + 1)) [] lines
  | l :: lines => segments c (block ++ [l]) lines

section Fragments

variable {δ : Type*} [Zero δ] (readDouble : Text → δ)

def durationOf : Option (Text × Text) → Option δ
  | some (duration, _) => Attribute.floatingPoint readDouble ⟨[], duration⟩
  | none => some 0

/-- The title is the text from the comma on. -/
def titleOf : Option (Text × Text) → Text
  | some (_, text) => ',' :: text
  | none => []

structure Segment.Reads (base : Text) (g : Segment) (f : M3U8Fragment δ) : Prop where
  uri : f.uri = uriJoin base (Attribute.quotedString ⟨[], g.uri⟩)
  duration : f.duration = durationOf readDouble (lastOf Line.extInf g.block)
  title : f.title = titleOf (lastOf Line.extInf g.block)
  discont : f.discont = true ↔ ∃ l ∈ g.block, l.Discontinuity
  sequence : ∀ n : Nat, g.number = some n → n < 2 ^ 31 → f.sequence = some (n : Int)

end Fragments

theorem segments_uri (lines : List Line) : ∀ (c : Option Nat) (block : List Line),
    (segments c block lines).map Segment.uri = lines.filterMap Line.uriText := by
  induction lines with
  | nil => intro c block; rfl
  | cons l lines ih =>
    intro c block
    cases l with
    | uri text =>
      have huri : (Line.uri text).uriText = some text := rfl
      rw [segments, List.map_cons, ih, List.filterMap_cons_some huri]
    | blank | comment text | tag name value => exact ih c _

theorem lastOf_concat {β : Type*} (f : Line → Option β) (block : List Line) (l : Line) :
    lastOf f (block ++ [l]) = (f l).or (lastOf f block) := by
  unfold lastOf
  rw [List.filterMap_append]
  cases hl : f l with
  | none =>
    rw [List.filterMap_cons_none hl]
    simp
  | some b =>
    rw [List.filterMap_cons_some hl]
    simp

theorem number_concat_of_none {c : Option Nat} {block : List Line} {l : Line}
    (h : l.mediaSequence = none) :
    number c (block ++ [l]) = number c block := by
  unfold number
  rw [lastOf_concat, h]
  rfl

-- Names

theorem hlsTagOf_name (type : HlsTag) : hlsTagOf type.name = some type := by
  cases type <;> decide +kernel

theorem hlsTagOf_eq_some {name : Text} {type : HlsTag} : hlsTagOf name = some type ↔ name = type.name := by
  constructor
  · intro h
    obtain ⟨entry, hentry, rfl⟩ := Option.map_eq_some_iff.mp h
    have hname : name = entry.1.toList := by simpa using List.find?_some hentry
    have htable : ∀ entry ∈ exttagmapping, entry.1.toList = entry.2.name := by decide +kernel
    rw [hname]
    exact htable entry (List.mem_of_find?_eq_some hentry)
  · rintro rfl
    exact hlsTagOf_name type

-- One line

namespace M3U8

variable {δ : Type*} [Zero δ] {readDouble : Text → δ} {base : Text} {c : Option Nat}
  {block : List Line} {s : M3U8 δ × M3U8Info δ}

def SameCounter (a b : Option Nat) : Prop := a.map (· % 2 ^ 64) = b.map (· % 2 ^ 64)

/-- The state of `UpdateFromTags` after the lines of a block. -/
structure Between (readDouble : Text → δ) (base : Text) (c : Option Nat) (block : List Line)
    (s : M3U8 δ × M3U8Info δ) : Prop where
  base : s.1.uri = base
  uri : s.2.uri = []
  duration : s.2.duration = durationOf readDouble (lastOf Line.extInf block)
  title : s.2.title = titleOf (lastOf Line.extInf block)
  discont : s.2.discontinuity = true ↔ ∃ l ∈ block, l.Discontinuity
  sequence : SameCounter s.1.sequence (number c block)

theorem exists_concat {P : Line → Prop} {l : Line} :
    (∃ k ∈ block ++ [l], P k) ↔ (∃ k ∈ block, P k) ∨ P l := by
  simp [or_and_right, exists_or]

/-- A line that says nothing about fragments. -/
theorem Between.silent (h : Between readDouble base c block s) {l : Line} (hinf : l.extInf = none)
    (hsequence : l.mediaSequence = none) (hdiscont : ¬ l.Discontinuity) {m : M3U8 δ}
    (huri : m.uri = s.1.uri) (hm : m.sequence = s.1.sequence) :
    Between readDouble base c (block ++ [l]) (m, s.2) where
  base := huri.trans h.base
  uri := h.uri
  duration := by
    rw [lastOf_concat, hinf]
    exact h.duration
  title := by
    rw [lastOf_concat, hinf]
    exact h.title
  discont := by
    rw [exists_concat, or_iff_left hdiscont]
    exact h.discont
  sequence := by
    rw [number_concat_of_none hsequence]
    show SameCounter m.sequence _
    rw [hm]
    exact h.sequence

theorem Between.discontinuity (h : Between readDouble base c block s) {l : Line} (hinf : l.extInf = none)
    (hsequence : l.mediaSequence = none) (hdiscont : l.Discontinuity) {m : M3U8 δ}
    (huri : m.uri = s.1.uri) (hm : m.sequence = s.1.sequence) :
    Between readDouble base c (block ++ [l]) (m, { s.2 with discontinuity := true }) where
  base := huri.trans h.base
  uri := h.uri
  duration := by
    rw [lastOf_concat, hinf]
    exact h.duration
  title := by
    rw [lastOf_concat, hinf]
    exact h.title
  discont := by
    rw [exists_concat]
    exact iff_of_true rfl (.inr hdiscont)
  sequence := by
    rw [number_concat_of_none hsequence]
    show SameCounter m.sequence _
    rw [hm]
    exact h.sequence

theorem updateTag_of_uri_nil {tag : Tag} {m : M3U8 δ} {info : M3U8Info δ}
    (h : updater readDouble s.1 s.2 tag = some (m, info)) (huri : info.uri = []) :
    updateTag readDouble s tag = some (m, info) := by
  unfold updateTag
  rw [h]
  show some (addFragment m info) = _
  unfold addFragment
  rw [if_neg (not_not_intro huri)]

omit [Zero δ] in
theorem updater_silent (readDouble : Text → δ) (s : M3U8 δ × M3U8Info δ) {type : HlsTag} (value : Text)
    (hinf : type ≠ .extinf) (huri : type ≠ .uri) (hsequence : type ≠ .extxmediasequence)
    (hdiscont : type ≠ .extxdiscontinuity ∧ type ≠ .extxdiscontinuitysequence) :
    ∃ m : M3U8 δ, updater readDouble s.1 s.2 (createTag type value) = some (m, s.2) ∧
      m.uri = s.1.uri ∧ m.files = s.1.files ∧ m.sequence = s.1.sequence := by
  cases type with
  | extinf => exact absurd rfl hinf
  | uri => exact absurd rfl huri
  | extxmediasequence => exact absurd rfl hsequence
  | extxdiscontinuity => exact absurd rfl hdiscont.1
  | extxdiscontinuitysequence => exact absurd rfl hdiscont.2
  | _ => exact ⟨_, rfl, rfl, rfl, rfl⟩

theorem dropWhile_eq_cons {c : Char} {s : Text} (h : c ∈ s) :
    s.dropWhile (· ≠ c) = c :: (s.dropWhile (· ≠ c)).tail := by
  induction s with
  | nil => cases h
  | cons d s ih =>
    by_cases hd : d = c
    · rw [List.dropWhile_cons_of_neg (by simpa using hd), hd]
      rfl
    · rw [List.dropWhile_cons_of_pos (by simpa using hd)]
      exact ih ((List.mem_cons.mp h).resolve_left (Ne.symm hd))

theorem quotedString_comma (name text : Text) :
    Attribute.quotedString ⟨name, ',' :: text⟩ = ',' :: text := by
  unfold Attribute.quotedString
  simp only
  rw [if_pos (by decide)]

omit [Zero δ] in
theorem getExtInf_valuesListTag {value : Text} (hcomma : ',' ∈ value)
    (hattrs : ∀ attr ∈ AttributesTag.parseAttributes value,
      attr.name ≠ "DURATION".toList ∧ attr.name ≠ "TITLE".toList) :
    getExtInf readDouble (newValuesListTag .extinf value) =
      some (Attribute.floatingPoint readDouble ⟨[], value.takeWhile (· ≠ ',')⟩,
        ',' :: (value.dropWhile (· ≠ ',')).tail) := by
  have hfind : ∀ name : String, (name = "DURATION" ∨ name = "TITLE") →
      (newValuesListTag .extinf value).getAttributeByName name =
        [(⟨"DURATION".toList, value.takeWhile (· ≠ ',')⟩ : Attribute),
          ⟨"TITLE".toList, value.dropWhile (· ≠ ',')⟩].find? fun attr => attr.name = name.toList := by
    intro name hname
    have hnone :
        (AttributesTag.parseAttributes value).find? (fun attr => attr.name = name.toList) = none := by
      rw [List.find?_eq_none]
      intro attr hattr hmatch
      have hmatch : attr.name = name.toList := of_decide_eq_true hmatch
      rcases hname with rfl | rfl
      · exact (hattrs attr hattr).1 hmatch
      · exact (hattrs attr hattr).2 hmatch
    show (AttributesTag.parseAttributes value ++ ValuesListTag.parseAttributes value).find? _ = _
    rw [List.find?_append, hnone]
    unfold ValuesListTag.parseAttributes
    rw [if_pos hcomma]
    rfl
  have hduration : (newValuesListTag .extinf value).getAttributeByName "DURATION" =
      some ⟨"DURATION".toList, value.takeWhile (· ≠ ',')⟩ := by
    rw [hfind _ (.inl rfl), List.find?_cons_of_pos (by simp)]
  have htitle : (newValuesListTag .extinf value).getAttributeByName "TITLE" =
      some ⟨"TITLE".toList, value.dropWhile (· ≠ ',')⟩ := by
    rw [hfind _ (.inr rfl), List.find?_cons_of_neg (by simp), List.find?_cons_of_pos (by simp)]
  unfold getExtInf
  rw [hduration, htitle]
  show some (_, Attribute.quotedString ⟨"TITLE".toList, value.dropWhile (· ≠ ',')⟩) = _
  rw [dropWhile_eq_cons hcomma, quotedString_comma]
  rfl

theorem name_inj {type other : HlsTag} (h : type.name = other.name) : type = other := by
  have htype := hlsTagOf_name type
  rw [h, hlsTagOf_name] at htype
  exact (Option.some.inj htype).symm

theorem foldlM_tags {type : HlsTag} {value : Option Text} {t : M3U8 δ × M3U8Info δ}
    (h : updateTag readDouble s (createTag type (tagValue value)) = some t) :
    (Line.tag type.name value).tags.foldlM (updateTag readDouble) s = some t := by
  have htags : (Line.tag type.name value).tags = [createTag type (tagValue value)] := by
    unfold Line.tags createTagByName
    simp only [hlsTagOf_name]
    rfl
  rw [htags, List.foldlM_cons, h]
  rfl

theorem extInf_tag (name text : Text) : (Line.tag name (some text)).extInf =
    if name = HlsTag.extinf.name then
      some (text.takeWhile (· ≠ ','), (text.dropWhile (· ≠ ',')).tail)
    else none := rfl

theorem mediaSequence_tag (name text : Text) : (Line.tag name (some text)).mediaSequence =
    if name = HlsTag.extxmediasequence.name then some (Attribute.decimal ⟨[], text⟩) else none := rfl

theorem foldlM_extInf (h : Between readDouble base c block s) {text : Text} (hcolon : ':' ∉ text)
    (hcomma : ',' ∈ text) (hattrs : ∀ attr ∈ AttributesTag.parseAttributes text,
      attr.name ≠ "DURATION".toList ∧ attr.name ≠ "TITLE".toList) :
    ∃ t, (Line.tag HlsTag.extinf.name (some text)).tags.foldlM (updateTag readDouble) s = some t ∧
      Between readDouble base c (block ++ [.tag HlsTag.extinf.name (some text)]) t ∧
      t.1.files = s.1.files := by
  have hupdate : updater readDouble s.1 s.2 (createTag .extinf (tagValue (some text))) =
      some (s.1, { s.2 with
        duration := Attribute.floatingPoint readDouble ⟨[], text.takeWhile (· ≠ ',')⟩
        title := ',' :: (text.dropWhile (· ≠ ',')).tail }) := by
    rw [tagValue_of_not_mem hcolon]
    show (getExtInf readDouble (newValuesListTag .extinf text)).map _ = _
    rw [getExtInf_valuesListTag hcomma hattrs]
    rfl
  have hline : (Line.tag HlsTag.extinf.name (some text)).extInf =
      some (text.takeWhile (· ≠ ','), (text.dropWhile (· ≠ ',')).tail) := by
    rw [extInf_tag, if_pos rfl]
  have hsequence : (Line.tag HlsTag.extinf.name (some text)).mediaSequence = none := by
    rw [mediaSequence_tag, if_neg (fun h => absurd (name_inj h) (by decide))]
  refine ⟨_, foldlM_tags (updateTag_of_uri_nil hupdate h.uri), ?_, rfl⟩
  constructor
  · exact h.base
  · exact h.uri
  · rw [lastOf_concat, hline]
    rfl
  · rw [lastOf_concat, hline]
    rfl
  · rw [exists_concat, or_iff_left]
    · exact h.discont
    · rintro (hd | hd)
      · exact nomatch name_inj hd
      · exact nomatch name_inj hd
  · rw [number_concat_of_none hsequence]
    exact h.sequence

theorem foldlM_mediaSequence (h : Between readDouble base c block s) {text : Text} (hcolon : ':' ∉ text) :
    ∃ t, (Line.tag HlsTag.extxmediasequence.name (some text)).tags.foldlM (updateTag readDouble) s = some t ∧
      Between readDouble base c (block ++ [.tag HlsTag.extxmediasequence.name (some text)]) t ∧
      t.1.files = s.1.files := by
  have hupdate : updater readDouble s.1 s.2 (createTag .extxmediasequence (tagValue (some text))) =
      some ({ s.1 with sequence := Attribute.decimal ⟨[], text⟩ }, s.2) := by
    rw [tagValue_of_not_mem hcolon]
    rfl
  have hline : (Line.tag HlsTag.extxmediasequence.name (some text)).mediaSequence =
      some (Attribute.decimal ⟨[], text⟩) := by
    rw [mediaSequence_tag, if_pos rfl]
  have hinf : (Line.tag HlsTag.extxmediasequence.name (some text)).extInf = none := by
    rw [extInf_tag, if_neg (fun h => absurd (name_inj h) (by decide))]
  refine ⟨_, foldlM_tags (updateTag_of_uri_nil hupdate h.uri), ?_, rfl⟩
  constructor
  · exact h.base
  · exact h.uri
  · rw [lastOf_concat, hinf]
    exact h.duration
  · rw [lastOf_concat, hinf]
    exact h.title
  · rw [exists_concat, or_iff_left]
    · exact h.discont
    · rintro (hd | hd)
      · exact nomatch name_inj hd
      · exact nomatch name_inj hd
  · unfold number
    rw [lastOf_concat, hline]
    rfl

theorem foldlM_tag (h : Between readDouble base c block s) {name : Text} {value : Option Text}
    (hvalid : (Line.tag name value).Valid) (hreadable : (Line.tag name value).Readable base) :
    ∃ t, (Line.tag name value).tags.foldlM (updateTag readDouble) s = some t ∧
      Between readDouble base c (block ++ [.tag name value]) t ∧ t.1.files = s.1.files := by
  by_cases hinf : name = HlsTag.extinf.name
  · obtain ⟨text, rfl, hcolon, hcomma, hattrs⟩ := hreadable.1 hinf
    subst hinf
    exact foldlM_extInf h hcolon hcomma hattrs
  by_cases hsequence : name = HlsTag.extxmediasequence.name
  · obtain ⟨text, rfl, hcolon⟩ := hreadable.2 hsequence
    subst hsequence
    exact foldlM_mediaSequence h hcolon
  have hlineInf : (Line.tag name value).extInf = none := by
    cases value with
    | none => rfl
    | some value => exact if_neg hinf
  have hlineSequence : (Line.tag name value).mediaSequence = none := by
    cases value with
    | none => rfl
    | some value => exact if_neg hsequence
  cases htype : hlsTagOf name with
  | none =>
    -- an unknown tag is dropped
    have hne : ∀ type : HlsTag, name ≠ type.name := by
      rintro type rfl
      rw [hlsTagOf_name] at htype
      cases htype
    have htags : (Line.tag name value).tags = [] := by
      unfold Line.tags createTagByName
      simp only [htype]
      rfl
    rw [htags]
    exact ⟨s, rfl, h.silent hlineInf hlineSequence (fun hd => hd.elim (hne _) (hne _)) rfl rfl, rfl⟩
  | some type =>
    obtain rfl := hlsTagOf_eq_some.mp htype
    by_cases hdiscont : (Line.tag type.name value).Discontinuity
    · have hupdate : ∃ m : M3U8 δ, updater readDouble s.1 s.2 (createTag type (tagValue value)) =
          some (m, { s.2 with discontinuity := true }) ∧
            m.uri = s.1.uri ∧ m.files = s.1.files ∧ m.sequence = s.1.sequence := by
        rcases hdiscont with hd | hd
        · obtain rfl := name_inj hd
          exact ⟨_, rfl, rfl, rfl, rfl⟩
        · obtain rfl := name_inj hd
          exact ⟨_, rfl, rfl, rfl, rfl⟩
      obtain ⟨m, hupdate, huri, hfiles, hm⟩ := hupdate
      exact ⟨_, foldlM_tags (updateTag_of_uri_nil hupdate h.uri),
        h.discontinuity hlineInf hlineSequence hdiscont huri hm, hfiles⟩
    · have htypeUri : type ≠ .uri := by
        rintro rfl
        exact absurd hvalid.1 (by decide +kernel)
      have htypeDiscont : type ≠ .extxdiscontinuity ∧ type ≠ .extxdiscontinuitysequence :=
        ⟨fun ht => hdiscont (.inl (ht ▸ rfl)), fun ht => hdiscont (.inr (ht ▸ rfl))⟩
      obtain ⟨m, hupdate, huri, hfiles, hm⟩ := updater_silent readDouble s (tagValue value)
        (fun ht => hinf (ht ▸ rfl)) htypeUri (fun ht => hsequence (ht ▸ rfl)) htypeDiscont
      exact ⟨_, foldlM_tags (updateTag_of_uri_nil hupdate h.uri),
        h.silent hlineInf hlineSequence hdiscont huri hm, hfiles⟩

theorem uriJoin_ne_nil {uri : Text} (h : '/' ∈ base ∨ uri ≠ []) : uriJoin base uri ≠ [] := by
  by_cases huri : uri = []
  · -- what is left of the base ends in its last slash
    subst huri
    have hslash : '/' ∈ base := h.resolve_right (not_not_intro rfl)
    unfold uriJoin
    rw [if_neg (by decide +kernel), if_neg (by decide +kernel), List.append_nil]
    intro hnil
    have hall := List.dropWhile_eq_nil_iff.mp (List.reverse_eq_nil_iff.mp hnil) '/' (by simpa using hslash)
    exact absurd hall (by decide)
  · unfold uriJoin
    split_ifs
    · exact huri
    · exact List.append_ne_nil_of_right_ne_nil _ huri
    · exact List.append_ne_nil_of_right_ne_nil _ huri

theorem SameCounter.succ {a b : Option Nat} (h : SameCounter a b) :
    SameCounter (a.map fun n => (n + 1) % 2 ^ 64) (b.map (· + 1)) := by
  unfold SameCounter at *
  cases a with
  | none =>
    cases b with
    | none => rfl
    | some n => cases h
  | some k =>
    cases b with
    | none => cases h
    | some n =>
      simp only [Option.map_some, Option.some.injEq] at *
      omega

theorem SameCounter.fragment {a b : Option Nat} (h : SameCounter a b) {n : Nat} (hb : b = some n)
    (hn : n < 2 ^ 31) : (a.map fun (k : Nat) => narrow k) = some (n : Int) := by
  subst hb
  cases a with
  | none => cases h
  | some k =>
    have hk : k % 2 ^ 64 = n % 2 ^ 64 := Option.some.inj h
    have hcut : narrow (k : Int) = n := by
      rw [Narrow.narrow_eq]
      split <;> omega
    show some (narrow (k : Int)) = some (n : Int)
    rw [hcut]

theorem updateTag_uri (h : Between readDouble base c block s) {text : Text}
    (hreadable : (Line.uri text).Readable base) :
    ∃ t f, updateTag readDouble s (newSingleValueTag .uri text) = some t ∧
      t.1.files = s.1.files ++ [f] ∧ Segment.Reads readDouble base ⟨block, text, number c block⟩ f ∧
      Between readDouble base ((number c block).map (· + 1)) [] t := by
  have huri : uriJoin s.1.uri (Attribute.quotedString ⟨[], text⟩) ≠ [] :=
    uriJoin_ne_nil (h.base ▸ hreadable)
  have hupdate : updateTag readDouble s (newSingleValueTag .uri text) =
      some (addFragment s.1 { s.2 with uri := uriJoin s.1.uri (Attribute.quotedString ⟨[], text⟩) }) := rfl
  unfold addFragment at hupdate
  rw [if_pos huri] at hupdate
  refine ⟨_, _, hupdate, rfl, ?_, ?_⟩
  · constructor
    · exact h.base ▸ rfl
    · exact h.duration
    · exact h.title
    · exact h.discont
    · intro n hn hlt
      exact h.sequence.fragment hn hlt
  · constructor
    · exact h.base
    · rfl
    · rfl
    · rfl
    · exact iff_of_false Bool.false_ne_true (by rintro ⟨l, hl, -⟩; cases hl)
    · exact h.sequence.succ

theorem foldlM_lines (lines : List Line) (hlines : ∀ l ∈ lines, l.Valid ∧ l.Readable base) :
    ∀ (c : Option Nat) (block : List Line) (s : M3U8 δ × M3U8Info δ), Between readDouble base c block s →
      ∃ t files, (lines.flatMap Line.tags).foldlM (updateTag readDouble) s = some t ∧
        t.1.uri = base ∧ t.1.files = s.1.files ++ files ∧
        List.Forall₂ (Segment.Reads readDouble base) (segments c block lines) files := by
  induction lines with
  | nil =>
    intro c block s h
    exact ⟨s, [], rfl, h.base, (List.append_nil _).symm, .nil⟩
  | cons l lines ih =>
    intro c block s h
    have ih := ih (fun l hl => hlines l (List.mem_cons_of_mem _ hl))
    obtain ⟨hvalid, hreadable⟩ := hlines l List.mem_cons_self
    have hfold : ∀ t, l.tags.foldlM (updateTag readDouble) s = some t →
        ((l :: lines).flatMap Line.tags).foldlM (updateTag readDouble) s =
          (lines.flatMap Line.tags).foldlM (updateTag readDouble) t := by
      intro t ht
      rw [List.flatMap_cons, List.foldlM_append, ht]
      rfl
    have hsilent : ∀ {l : Line}, l.extInf = none → l.mediaSequence = none → ¬ l.Discontinuity →
        Between readDouble base c (block ++ [l]) s := by
      intro l hinf hsequence hdiscont
      exact h.silent hinf hsequence hdiscont rfl rfl
    cases l with
    | blank | comment text =>
      rw [hfold s rfl]
      exact ih c _ s (hsilent rfl rfl id)
    | tag name value =>
      obtain ⟨t, ht, hbetween, hfiles⟩ := foldlM_tag h hvalid hreadable
      rw [hfold t ht, ← hfiles]
      exact ih c _ t hbetween
    | uri text =>
      obtain ⟨t, f, ht, hfiles, hreads, hbetween⟩ := updateTag_uri h hreadable
      have hone : (Line.uri text).tags.foldlM (updateTag readDouble) s = some t := by
        show [newSingleValueTag .uri text].foldlM (updateTag readDouble) s = some t
        rw [List.foldlM_cons, ht]
        rfl
      obtain ⟨u, files, hu, hbase, hall, hrest⟩ := ih _ [] t hbetween
      refine ⟨u, f :: files, (hfold t hone).trans hu, hbase, ?_, .cons hreads hrest⟩
      rw [hall, hfiles, List.append_assoc]
      rfl

-- Every Update

structure PlainPlaylist (base : Text) (e : LineEnd) (lines : List Line) : Prop
    extends MediaPlaylist lines where
  separable : Separable lines e
  telling : Telling lines
  readable : ∀ l ∈ lines, l.Readable base

theorem MediaPlaylist.header_render {lines : List Line} (h : MediaPlaylist lines) (e : LineEnd) :
    "#EXTM3U".toList <+: render e lines := by
  obtain ⟨first, rest, rfl, hfirst⟩ := h.header
  rw [render, List.flatMap_cons, List.append_assoc]
  exact hfirst.trans (List.prefix_append first.text _)

theorem updateFromTags_lines (readDouble : Text → δ) (m : M3U8 δ) {lines : List Line}
    (hlines : ∀ l ∈ lines, l.Valid ∧ l.Readable m.uri) :
    ∃ m' files, updateFromTags readDouble m (lines.flatMap Line.tags) = some m' ∧ m'.uri = m.uri ∧
      m'.files = m.files ++ files ∧
      List.Forall₂ (Segment.Reads readDouble m.uri) (segments m.sequence [] lines) files := by
  have hstart : ∀ bVod, Between readDouble m.uri m.sequence [] (startTags m bVod) := by
    intro bVod
    constructor
    · rfl
    · rfl
    · rfl
    · rfl
    · exact iff_of_false Bool.false_ne_true (by rintro ⟨l, hl, -⟩; cases hl)
    · rfl
  obtain ⟨t, files, hfold, hbase, hfiles, hall⟩ :=
    foldlM_lines lines hlines m.sequence [] _ (hstart (endsInEndList (lines.flatMap Line.tags)))
  refine ⟨t.1, files, ?_, hbase, hfiles, hall⟩
  unfold updateFromTags
  rw [hfold]
  rfl

theorem update_render (readDouble : Text → δ) (m : M3U8 δ) {e : LineEnd} {lines : List Line}
    (h : PlainPlaylist m.uri e lines) (hnew : m.playList ≠ render e lines) :
    ∃ m', update readDouble m (render e lines) = some (m', true) ∧ m'.playList = render e lines ∧
      List.Forall₂ (Segment.Reads readDouble m.uri) (segments m.sequence [] lines) m'.files := by
  have hmedia := not_streamInf_infix_render e h.valid h.oneLine h.media
  obtain ⟨m', files, hupdate, -, hfiles, hall⟩ := updateFromTags_lines readDouble
    ({ m with files := [] } : M3U8 δ) (fun l hl => ⟨h.valid l hl, h.readable l hl⟩)
  unfold update
  rw [if_neg hnew, if_neg (not_not_intro (MediaPlaylist.header_render h.toMediaPlaylist e)), if_neg hmedia,
    parseEntries_render h.toMediaPlaylist h.separable h.telling, hupdate]
  refine ⟨{ m' with playList := render e lines }, rfl, rfl, ?_⟩
  show List.Forall₂ _ _ m'.files
  rw [hfiles]
  exact hall

omit [Zero δ] in
theorem uri_of_map {α : Type*} {o : Option α} {f : α → M3U8 δ × M3U8Info δ} {r : M3U8 δ × M3U8Info δ}
    {uri : Text} (ho : o.map f = some r) (hf : ∀ a, (f a).1.uri = uri) : r.1.uri = uri := by
  obtain ⟨a, -, rfl⟩ := Option.map_eq_some_iff.mp ho
  exact hf a

theorem updateTag_base {t : M3U8 δ × M3U8Info δ} {tag : Tag} (h : updateTag readDouble s tag = some t) :
    t.1.uri = s.1.uri := by
  obtain ⟨⟨m, info⟩, hupdate, rfl⟩ := Option.map_eq_some_iff.mp h
  have hm : m.uri = s.1.uri := by
    unfold updater at hupdate
    split at hupdate
    · exact uri_of_map hupdate (fun _ => rfl)
    · exact uri_of_map hupdate (fun _ => rfl)
    · exact uri_of_map hupdate (fun _ => rfl)
    · exact uri_of_map hupdate (fun _ => rfl)
    · exact uri_of_map hupdate (fun _ => rfl)
    · exact uri_of_map hupdate (fun _ => rfl)
    · exact (congrArg (fun r => r.1.uri) (Option.some.inj hupdate)).symm
    · exact (congrArg (fun r => r.1.uri) (Option.some.inj hupdate)).symm
  show (addFragment m info).1.uri = s.1.uri
  unfold addFragment
  split
  · exact hm
  · exact hm

theorem updateFromTags_base {m m' : M3U8 δ} {tags : List Tag}
    (h : updateFromTags readDouble m tags = some m') : m'.uri = m.uri := by
  obtain ⟨t, hfold, rfl⟩ := Option.map_eq_some_iff.mp h
  have hkeeps : ∀ (tags : List Tag) (s t : M3U8 δ × M3U8Info δ),
      tags.foldlM (updateTag readDouble) s = some t → t.1.uri = s.1.uri := by
    intro tags
    induction tags with
    | nil =>
      intro s t h
      rw [Option.some.inj h]
    | cons tag tags ih =>
      intro s t h
      rw [List.foldlM_cons] at h
      obtain ⟨u, hu, h⟩ := Option.bind_eq_some_iff.mp h
      exact (ih u t h).trans (updateTag_base hu)
  exact hkeeps tags _ t hfold

def step (readDouble : Text → δ) (m : M3U8 δ) (playList : Text) : Option (M3U8 δ) :=
  (update readDouble m playList).map Prod.fst

structure Current (readDouble : Text → δ) (base : Text) (m : M3U8 δ) : Prop where
  address : m.uri = base
  files : ∀ e lines, PlainPlaylist base e lines → m.playList = render e lines →
    ∃ c, List.Forall₂ (Segment.Reads readDouble base) (segments c [] lines) m.files

theorem current_new (base : Text) : Current readDouble base (new base : M3U8 δ) where
  address := rfl
  files := by
    intro e lines h hnil
    exact absurd hnil.symm (h.render_ne_nil e)

theorem current_step {m m' : M3U8 δ} {playList : Text} (h : Current readDouble base m)
    (hstep : step readDouble m playList = some m') : Current readDouble base m' := by
  obtain ⟨⟨n, changed⟩, hread, rfl⟩ := Option.map_eq_some_iff.mp hstep
  have hupdate := hread
  unfold update at hupdate
  by_cases hsame : m.playList = playList
  · rw [if_pos hsame] at hupdate
    obtain ⟨rfl, -⟩ := Prod.mk.inj (Option.some.inj hupdate)
    exact h
  rw [if_neg hsame] at hupdate
  by_cases hheader : ¬ "#EXTM3U".toList <+: playList
  · rw [if_pos hheader] at hupdate
    obtain ⟨rfl, -⟩ := Prod.mk.inj (Option.some.inj hupdate)
    exact h
  rw [if_neg hheader] at hupdate
  by_cases hmaster : "\n#EXT-X-STREAM-INF:".toList <:+: playList
  · rw [if_pos hmaster] at hupdate
    obtain ⟨rfl, -⟩ := Prod.mk.inj (Option.some.inj hupdate)
    exact h
  rw [if_neg hmaster] at hupdate
  obtain ⟨k, hk, hpair⟩ := Option.map_eq_some_iff.mp hupdate
  obtain ⟨rfl, -⟩ := Prod.mk.inj hpair
  refine ⟨(updateFromTags_base hk).trans h.address, ?_⟩
  intro e lines hplain hrender
  -- the same text, as the lines of a playlist
  have htext : playList = render e lines := hrender
  rw [htext] at hread hsame
  obtain ⟨m', hm', -, hall⟩ := update_render readDouble m (h.address ▸ hplain) hsame
  obtain ⟨rfl, -⟩ := Prod.mk.inj (Option.some.inj (hread.symm.trans hm'))
  rw [h.address] at hall
  exact ⟨_, hall⟩

/--
**A media playlist**, on the first and on every later `Update`: one fragment for
each URI line, in order, as the lines since the one before say it. Without an
EXT-X-MEDIA-SEQUENCE line the numbers go on from the counter of the playlist.
-/
theorem media_playlist {base : Text} {texts : List Text} {m : M3U8 δ}
    (hrun : Runs.run (step readDouble) (new base) texts = some m) {e : LineEnd} {lines : List Line}
    (h : PlainPlaylist base e lines) :
    ∃ m', update readDouble m (render e lines) = some (m', true) ∧
      ∃ c, (m.playList ≠ render e lines → c = m.sequence) ∧
        (segments c [] lines).map Segment.uri = lines.filterMap Line.uriText ∧
        List.Forall₂ (Segment.Reads readDouble base) (segments c [] lines) m'.files := by
  have hcurrent : Current readDouble base m :=
    Runs.run_keeps (fun _ _ _ hc hs => current_step hc hs) (current_new base) hrun
  by_cases hsame : m.playList = render e lines
  · obtain ⟨c, hall⟩ := hcurrent.files e lines h hsame
    exact ⟨m, if_pos hsame, c, fun hne => absurd hsame hne, segments_uri lines c [], hall⟩
  · obtain ⟨m', hupdate, -, hall⟩ := update_render readDouble m (hcurrent.address ▸ h) hsame
    rw [hcurrent.address] at hall
    exact ⟨m', hupdate, _, fun _ => rfl, segments_uri lines _ [], hall⟩

def readDigits (field : Text) : Nat := digitsValue (field.takeWhile isDigit)

def exampleBase : Text := "http://h/live/index.m3u8".toList

def exampleLines : List Line :=
  [.tag "EXTM3U".toList none, .tag "EXT-X-MEDIA-SEQUENCE".toList (some "7".toList), .blank,
    .tag "EXTINF".toList (some "5,first".toList), .uri "a.ts".toList, .comment " later".toList,
    .tag "EXT-X-DISCONTINUITY".toList none, .tag "EXTINF".toList (some "6,".toList), .uri "b.ts".toList]

theorem plainPlaylist_exampleLines : PlainPlaylist exampleBase .crlf exampleLines where
  valid := by
    simp only [exampleLines, List.forall_mem_cons, List.not_mem_nil, false_imp_iff, implies_true]
    unfold Line.Valid
    decide +kernel
  oneLine := by decide +kernel
  header := ⟨_, _, rfl, by decide +kernel⟩
  media := by
    have hnames : exampleLines.all (fun l => match l with
        | .tag name _ => name ≠ streamInf
        | _ => true) := by decide +kernel
    intro value hmem
    exact absurd rfl (of_decide_eq_true (List.all_eq_true.mp hnames _ hmem))
  separable := by
    show 2 ≤ _
    decide +kernel
  telling := by
    have hcolons : exampleLines.all (fun l => match l with
        | .comment text => text.head? ≠ some ':'
        | _ => true) := by decide +kernel
    intro text hmem hcolon
    exact absurd hcolon (of_decide_eq_true (List.all_eq_true.mp hcolons _ hmem))
  readable := by
    have hother : ∀ {name : Text} {value : Option Text}, name ≠ HlsTag.extinf.name →
        name ≠ HlsTag.extxmediasequence.name → (Line.tag name value).Readable exampleBase :=
      fun hinf hsequence => ⟨fun h => absurd h hinf, fun h => absurd h hsequence⟩
    have hsequence : (Line.tag "EXT-X-MEDIA-SEQUENCE".toList (some "7".toList)).Readable exampleBase :=
      ⟨fun h => absurd h (by decide +kernel), fun _ => ⟨_, rfl, by decide +kernel⟩⟩
    have hextInf : ∀ text : Text, ':' ∉ text → ',' ∈ text →
        (∀ attr ∈ AttributesTag.parseAttributes text,
          attr.name ≠ "DURATION".toList ∧ attr.name ≠ "TITLE".toList) →
        (Line.tag "EXTINF".toList (some text)).Readable exampleBase :=
      fun text hcolon hcomma hattrs =>
        ⟨fun _ => ⟨text, rfl, hcolon, hcomma, hattrs⟩, fun h => absurd h (by decide +kernel)⟩
    have huri : ∀ text, (Line.uri text).Readable exampleBase := fun _ => .inl (by decide +kernel)
    simp only [exampleLines, List.forall_mem_cons, List.not_mem_nil, false_imp_iff, implies_true, and_true]
    exact ⟨hother (by decide +kernel) (by decide +kernel), hsequence, trivial,
      hextInf _ (by decide +kernel) (by decide +kernel) (by decide +kernel), huri _, trivial,
      hother (by decide +kernel) (by decide +kernel),
      hextInf _ (by decide +kernel) (by decide +kernel) (by decide +kernel), huri _⟩

theorem media_playlist_exampleLines :
    ∃ m', update readDigits (new exampleBase) (render .crlf exampleLines) =
      some (m', true) ∧
    ∃ c, (segments c [] exampleLines).map Segment.uri = ["a.ts".toList, "b.ts".toList] ∧
      List.Forall₂ (Segment.Reads readDigits exampleBase) (segments c [] exampleLines) m'.files := by
  have hrun : Runs.run (step readDigits) (new exampleBase) [] = some (new exampleBase) := rfl
  obtain ⟨m', hupdate, c, -, huris, hall⟩ := media_playlist hrun plainPlaylist_exampleLines
  exact ⟨m', hupdate, c, huris.trans (by decide +kernel), hall⟩

def filesAfter (texts : List String) : Option (List (M3U8Fragment Nat)) :=
  (Runs.run (step readDigits) (new exampleBase) (texts.map String.toList)).map M3U8.files

/--
Where a playlist is read otherwise: an EXTINF line without a comma, and one with
a second colon, dereference a missing attribute; a title starts with its comma;
a CRLF in a text of LF lines joins the lines before it; the numbers of a
playlist that gives none start at 1, and go on from there in the next one.
-/
theorem playlist_misread :
    filesAfter ["#EXTM3U\n#EXTINF:5\na.ts\n"] = none ∧
    filesAfter ["#EXTM3U\n#EXTINF:5,a:b\na.ts\n"] = none ∧
    filesAfter ["#EXTM3U\n#EXT-X-MEDIA-SEQUENCE:0\n#EXTINF:5,first\na.ts\n"] =
      some [⟨"http://h/live/a.ts".toList, ",first".toList, some 5, some 0, false⟩] ∧
    filesAfter ["#EXTM3U\n#EXT-X-MEDIA-SEQUENCE:0\n#EXTINF:5,\r\na.ts\n"] =
      some [⟨"http://h/live/a.ts\n".toList, [], some 0, some 1, false⟩] ∧
    filesAfter ["#EXTM3U\na.ts\n"] =
      some [⟨"http://h/live/a.ts".toList, [], some 0, some 1, false⟩] ∧
    filesAfter ["#EXTM3U\na.ts\n", "#EXTM3U\nb.ts\n"] =
      some [⟨"http://h/live/b.ts".toList, [], some 0, some 2, false⟩] := by
  and_intros <;> decide +kernel

end M3U8

end MediaFoundation.Hls
