import MediaFoundation.Hls.HlsTags

/-!
# The text of a media playlist

A playlist as a list of lines, and what `ParseEntries` makes of its text: the
tags of its lines, in order.
-/

namespace MediaFoundation.Hls

-- Lines

inductive Line where
  | blank
  | comment (text : Text)
  /-- A tag line, with the text behind its first colon. -/
  | tag (name : Text) (value : Option Text)
  | uri (text : Text)

inductive LineEnd where
  | lf
  | crlf

def LineEnd.text : LineEnd → Text
  | lf => ['\n']
  | crlf => ['\r', '\n']

namespace Line

def text : Line → Text
  | blank => []
  | comment text => '#' :: text
  | tag name none => '#' :: name
  | tag name (some value) => '#' :: (name ++ ':' :: value)
  | uri text => text

def Valid : Line → Prop
  | blank => True
  | comment text => ¬ "EXT".toList <+: text
  | tag name _ => "EXT".toList <+: name ∧ ':' ∉ name
  | uri text => text ≠ [] ∧ text.head? ≠ some '#'

end Line

def render (e : LineEnd) (lines : List Line) : Text := lines.flatMap fun l => l.text ++ e.text

def streamInf : Text := "EXT-X-STREAM-INF".toList

structure MediaPlaylist (lines : List Line) : Prop where
  valid : ∀ l ∈ lines, l.Valid
  oneLine : ∀ l ∈ lines, '\n' ∉ l.text
  header : ∃ first rest, lines = first :: rest ∧ "#EXTM3U".toList <+: first.text
  media : ∀ value, Line.tag streamInf value ∉ lines

/-- The lines can be told apart: the text has one kind of line ends, and if it is
CRLF there is more than one line with a text. -/
def Separable (lines : List Line) : LineEnd → Prop
  | .lf => ∀ l ∈ lines, l.text.getLast? ≠ some '\r'
  | .crlf => 2 ≤ ((lines.map Line.text).filter (· ≠ [])).length

def Telling (lines : List Line) : Prop :=
  ∀ text, Line.comment text ∈ lines → text.head? = some ':' → ¬ "#EXT".toList <:+: '#' :: text

-- Splitting

theorem split_of_ne_nil {s delim : Text} (h : s ≠ []) :
    split s delim = (Pieces.pieces delim s).filter (· ≠ []) := if_neg h

theorem render_eq (e : LineEnd) (lines : List Line) :
    render e lines = (lines.map Line.text).flatMap (· ++ e.text) := by
  unfold render
  rw [List.flatMap_map]

section Render

variable {lines : List Line}

theorem MediaPlaylist.render_ne_nil (h : MediaPlaylist lines) (e : LineEnd) : render e lines ≠ [] := by
  obtain ⟨first, rest, rfl, hfirst⟩ := h.header
  intro hnil
  rw [render, List.flatMap_cons, List.append_eq_nil_iff, List.append_eq_nil_iff] at hnil
  rw [hnil.1.1] at hfirst
  exact absurd (List.prefix_nil.mp hfirst) (by decide)

theorem split_render (h : MediaPlaylist lines) (e : LineEnd) (init : Text)
    (he : e.text = init ++ ['\n']) (hinit : '\n' ∉ init) :
    split (render e lines) e.text = (lines.map Line.text).filter (· ≠ []) := by
  rw [split_of_ne_nil (h.render_ne_nil e), render_eq, he,
    Pieces.pieces_flatMap hinit _ (by simpa using h.oneLine), List.filter_append]
  exact List.append_nil _

theorem not_crlf_infix_render (hline : ∀ l ∈ lines, '\n' ∉ l.text)
    (hlast : ∀ l ∈ lines, l.text.getLast? ≠ some '\r') : ¬ ['\r', '\n'] <:+: render .lf lines := by
  induction lines with
  | nil =>
    intro h
    exact absurd (List.infix_nil.mp h) (by decide)
  | cons l lines ih =>
    intro h
    have htext : render .lf (l :: lines) = l.text ++ '\n' :: render .lf lines := by
      rw [render, List.flatMap_cons]
      simp [render, LineEnd.text]
    rw [htext] at h
    rcases Pieces.infix_of_append_cons ['\r'] (by decide) (hline l List.mem_cons_self) h with h | h
    · obtain ⟨t, ht⟩ := h
      exact hlast l List.mem_cons_self (by rw [← ht]; simp)
    · exact ih (fun l hl => hline l (List.mem_cons_of_mem _ hl))
        (fun l hl => hlast l (List.mem_cons_of_mem _ hl)) h

theorem splitLines_render (h : MediaPlaylist lines) {e : LineEnd} (hseparable : Separable lines e) :
    splitLines (render e lines) = (lines.map Line.text).filter (· ≠ []) := by
  unfold splitLines
  cases e with
  | lf =>
    have hone : split (render .lf lines) "\r\n".toList = [render .lf lines] := by
      rw [split_of_ne_nil (h.render_ne_nil .lf)]
      show (Pieces.pieces ['\r', '\n'] (render .lf lines)).filter _ = _
      rw [Pieces.pieces_of_absent (not_crlf_infix_render h.oneLine hseparable)]
      simp [h.render_ne_nil .lf]
    have hlines := split_render h .lf [] rfl (by decide)
    simp only [hone]
    exact hlines
  | crlf =>
    have hlines : split (render .crlf lines) "\r\n".toList = (lines.map Line.text).filter (· ≠ []) :=
      split_render h .crlf ['\r'] rfl (by decide)
    simp only [hlines]
    rw [if_neg]
    intro hone
    have htwo : 2 ≤ ((lines.map Line.text).filter (· ≠ [])).length := hseparable
    omega

theorem render_cons (e : LineEnd) (l : Line) (lines : List Line) :
    ∃ init, (init = [] ∨ init = ['\r']) ∧
      render e (l :: lines) = (l.text ++ init) ++ '\n' :: render e lines := by
  cases e with
  | lf => exact ⟨[], .inl rfl, by simp [render, LineEnd.text]⟩
  | crlf => exact ⟨['\r'], .inr rfl, by simp [render, LineEnd.text]⟩

theorem streamInf_eq : streamInf =
    ['E', 'X', 'T', '-', 'X', '-', 'S', 'T', 'R', 'E', 'A', 'M', '-', 'I', 'N', 'F'] := by
  unfold streamInf
  simp

/-- What `Update` looks for. -/
theorem streamInf_pattern :
    "\n#EXT-X-STREAM-INF:".toList = '\n' :: '#' :: (streamInf ++ [':']) := by
  simp [streamInf_eq]

theorem eq_tag_of_start {l : Line} (h : l.Valid) (hl : '#' :: (streamInf ++ [':']) <+: l.text) :
    ∃ value, l = .tag streamInf value := by
  cases l with
  | blank => exact absurd (List.prefix_nil.mp hl) (List.cons_ne_nil _ _)
  | comment text =>
    have htext : streamInf ++ [':'] <+: text := (List.prefix_cons_inj '#').mp hl
    have hext : "EXT".toList <+: streamInf ++ [':'] := by simp [streamInf_eq]
    exact absurd (hext.trans htext) h
  | uri text =>
    obtain ⟨t, rfl⟩ := hl
    exact absurd rfl h.2
  | tag name value =>
    refine ⟨value, ?_⟩
    cases value with
    | none =>
      have hname : streamInf ++ [':'] <+: name := (List.prefix_cons_inj '#').mp hl
      exact absurd (hname.subset (by simp)) h.2
    | some value =>
      have hname : streamInf ++ [':'] <+: name ++ ':' :: value := (List.prefix_cons_inj '#').mp hl
      obtain ⟨t, ht⟩ := hname
      -- the first colon is behind the name on both sides
      have hcut : name ++ ':' :: value = streamInf ++ ':' :: t := by
        rw [← ht]
        simp
      have hcolon : ':' ∉ streamInf := by simp [streamInf_eq]
      rcases Pieces.append_cons_cases hcolon hcut with ⟨rfl, -⟩ | ⟨c, rfl, -⟩
      · rfl
      · exact absurd (by simp) h.2

theorem not_streamInf_infix_render (e : LineEnd) (hvalid : ∀ l ∈ lines, l.Valid)
    (hline : ∀ l ∈ lines, '\n' ∉ l.text) (hmedia : ∀ value, Line.tag streamInf value ∉ lines) :
    ¬ "\n#EXT-X-STREAM-INF:".toList <:+: render e lines := by
  rw [streamInf_pattern]
  have hlf : '\n' ∉ '#' :: (streamInf ++ [':']) := by simp [streamInf_eq]
  have hcr : '\r' ∉ '#' :: (streamInf ++ [':']) := by simp [streamInf_eq]
  induction lines with
  | nil =>
    intro h
    exact absurd (List.infix_nil.mp h) (List.cons_ne_nil _ _)
  | cons l lines ih =>
    have hvalid' : ∀ l ∈ lines, l.Valid := fun l hl => hvalid l (List.mem_cons_of_mem _ hl)
    have hmedia' : ∀ value, Line.tag streamInf value ∉ lines :=
      fun value hv => hmedia value (List.mem_cons_of_mem _ hv)
    intro h
    obtain ⟨init, hinit, hrender⟩ := render_cons e l lines
    have hend : '\n' ∉ l.text ++ init := by
      have hl := hline l List.mem_cons_self
      rcases hinit with rfl | rfl
      · simpa using hl
      · simpa using hl
    rw [hrender] at h
    rcases Pieces.infix_cons_of_append_cons hend h with h | h
    · -- the next line starts with the tag
      cases lines with
      | nil => exact absurd (List.prefix_nil.mp h) (List.cons_ne_nil _ _)
      | cons next lines =>
        obtain ⟨init', hinit', hrender'⟩ := render_cons e next lines
        rw [hrender'] at h
        have hnext : '#' :: (streamInf ++ [':']) <+: next.text := by
          have hq := Pieces.prefix_of_append_cons hlf h
          rcases hinit' with rfl | rfl
          · rw [List.append_nil] at hq
            exact hq
          · exact Pieces.prefix_of_append_cons hcr hq
        obtain ⟨value, rfl⟩ := eq_tag_of_start (hvalid' next List.mem_cons_self) hnext
        exact hmedia' value List.mem_cons_self
    · exact ih hvalid' (fun l hl => hline l (List.mem_cons_of_mem _ hl)) hmedia' h

end Render

-- The tags of a line

/-- The value that `ParseTag` reads: the only text between colons behind the name,
and none if there are several. -/
def tagValue : Option Text → Text
  | none => []
  | some value => valueOf ((Pieces.pieces ":".toList value).filter (· ≠ []))

def Line.tags : Line → List Tag
  | blank => []
  | comment _ => []
  | tag name value => (createTagByName name (tagValue value)).toList
  | uri text => [newSingleValueTag .uri text]

theorem tagValue_of_not_mem {value : Text} (h : ':' ∉ value) : tagValue (some value) = value := by
  have hpieces : Pieces.pieces ":".toList value = [value] := by
    refine Pieces.pieces_of_absent ?_
    intro hpart
    exact h (hpart.subset (by decide))
  unfold tagValue
  simp only
  rw [hpieces]
  cases value with
  | nil | cons c value => rfl

theorem hlsTagOf_ext {name : Text} {type : HlsTag} (h : hlsTagOf name = some type) :
    name = [] ∨ "EXT".toList <+: name := by
  obtain ⟨entry, hentry, -⟩ := Option.map_eq_some_iff.mp h
  have hname : name = entry.1.toList := by simpa using List.find?_some hentry
  have htable : ∀ entry ∈ exttagmapping, entry.1.toList = [] ∨ "EXT".toList <+: entry.1.toList := by
    unfold exttagmapping
    simp
  rw [hname]
  exact htable entry (List.mem_of_find?_eq_some hentry)

theorem split_tag {name : Text} (hname : name ≠ []) (hcolon : ':' ∉ name) (value : Option Text) :
    ∃ values, split ((Line.tag name value).text.drop 1) ":".toList = name :: values ∧
      valueOf values = tagValue value := by
  cases value with
  | none =>
    refine ⟨[], ?_, rfl⟩
    show split name [':'] = [name]
    rw [split_of_ne_nil hname, Pieces.pieces_of_absent (fun h => hcolon (h.subset (by simp)))]
    simp [hname]
  | some value =>
    refine ⟨(Pieces.pieces ":".toList value).filter (· ≠ []), ?_, rfl⟩
    show split (name ++ ':' :: value) ([] ++ [':']) = _
    rw [split_of_ne_nil (by simp), show name ++ ':' :: value = name ++ ([] ++ [':']) ++ value by simp,
      Pieces.pieces_append (by decide) hcolon, List.filter_cons_of_pos (by simpa using hname)]
    rfl

/-- The last tag is none that takes a URI line. -/
def Entries.Media (e : Entries) : Prop := ∀ tag, e.lastTag = some tag → tag.getType ≠ .extxstreaminf

theorem createTagByName_getType {name value : Text} {tag : Tag}
    (h : createTagByName name value = some tag) :
    hlsTagOf name = some tag.getType := by
  obtain ⟨type, htype, rfl⟩ := Option.map_eq_some_iff.mp h
  rw [htype]
  cases type <;> rfl

theorem hlsTagOf_streaminf {name : Text} (h : hlsTagOf name = some .extxstreaminf) : name = streamInf := by
  obtain ⟨entry, hentry, hsnd⟩ := Option.map_eq_some_iff.mp h
  have hname : name = entry.1.toList := by simpa using List.find?_some hentry
  have htable : ∀ entry ∈ exttagmapping, entry.2 = .extxstreaminf → entry.1.toList = streamInf := by
    unfold exttagmapping
    simp [streamInf_eq]
  rw [hname]
  exact htable entry (List.mem_of_find?_eq_some hentry) hsnd

section ParseLine

variable {e : Entries}

theorem parseTag_comment (hmedia : e.Media) {text : Text} (hvalid : (Line.comment text).Valid)
    (htelling : text.head? = some ':' → ¬ "#EXT".toList <:+: '#' :: text) :
    (parseTag e ('#' :: text)).list = e.list ∧ (parseTag e ('#' :: text)).Media := by
  unfold parseTag
  by_cases hext : "#EXT".toList <:+: '#' :: text
  · rw [if_pos hext]
    have hne : text ≠ [] := by
      rintro rfl
      exact absurd hext.length_le (by simp)
    have hcolon : ¬ ":".toList <+: text := by
      rintro ⟨t, rfl⟩
      exact htelling rfl hext
    obtain ⟨key, rest, hpieces, hstart, hkey⟩ := Pieces.pieces_cons ":".toList text
    have hkey : key ≠ [] := hkey hcolon hne
    have hsplit : split (('#' :: text).drop 1) ":".toList = key :: rest.filter (· ≠ []) := by
      show split text ":".toList = _
      rw [split_of_ne_nil hne, hpieces, List.filter_cons_of_pos (by simpa using hkey)]
    have hnone : ∀ value, createTagByName key value = none := by
      intro value
      cases htag : createTagByName key value with
      | none => rfl
      | some tag =>
        -- a tag's name would make the comment a tag line
        rcases hlsTagOf_ext (createTagByName_getType htag) with h | h
        · exact absurd h hkey
        · exact absurd (h.trans hstart) hvalid
    rw [hsplit]
    simp only [hnone]
    rw [if_pos hkey]
    exact ⟨List.append_nil _, nofun⟩
  · rw [if_neg hext]
    exact ⟨rfl, hmedia⟩

theorem parseTag_tag {name : Text} {value : Option Text} (hvalid : (Line.tag name value).Valid)
    (hmedia : name ≠ streamInf) :
    (parseTag e (Line.tag name value).text).list = e.list ++ (Line.tag name value).tags ∧
      (parseTag e (Line.tag name value).text).Media := by
  obtain ⟨hext, hcolon⟩ := hvalid
  have hne : name ≠ [] := by
    rintro rfl
    exact absurd (List.prefix_nil.mp hext) (by simp)
  have hhash : "#EXT".toList <:+: (Line.tag name value).text := by
    have hpattern : "#EXT".toList = '#' :: "EXT".toList := by simp
    rw [hpattern]
    refine List.IsPrefix.isInfix ?_
    cases value with
    | none => exact (List.prefix_cons_inj '#').mpr hext
    | some value => exact (List.prefix_cons_inj '#').mpr (hext.trans (List.prefix_append name _))
  obtain ⟨values, hsplit, hvalue⟩ := split_tag hne hcolon value
  unfold parseTag
  rw [if_pos hhash, hsplit]
  simp only [hvalue]
  rw [if_pos hne]
  refine ⟨rfl, ?_⟩
  intro tag htag hstream
  exact hmedia (hlsTagOf_streaminf (hstream ▸ createTagByName_getType htag))

theorem parseURI_uri (hmedia : e.Media) (text : Text) :
    (parseURI e text).list = e.list ++ [newSingleValueTag .uri text] ∧ (parseURI e text).Media := by
  have huri : createTagByName [] text = some (newSingleValueTag .uri text) := by
    have hname : hlsTagOf [] = some .uri := by
      unfold hlsTagOf exttagmapping
      simp
    unfold createTagByName
    rw [hname]
    rfl
  unfold parseURI
  cases hlast : e.lastTag with
  | none =>
    simp only [huri]
    exact ⟨rfl, nofun⟩
  | some lastTag =>
    simp only [huri]
    rw [if_neg (hmedia lastTag hlast)]
    exact ⟨rfl, nofun⟩

theorem parseLine_line (hmedia : e.Media) {l : Line} (hvalid : l.Valid) (htext : l.text ≠ [])
    (htelling : ∀ text, l = .comment text → text.head? = some ':' → ¬ "#EXT".toList <:+: '#' :: text)
    (hstream : ∀ value, l ≠ .tag streamInf value) :
    (parseLine e l.text).list = e.list ++ l.tags ∧ (parseLine e l.text).Media := by
  unfold parseLine
  cases l with
  | blank => exact absurd rfl htext
  | comment text =>
    have hhash : (Line.comment text).text.head? = some '#' := rfl
    rw [if_pos hhash]
    obtain ⟨hlist, hlast⟩ := parseTag_comment hmedia hvalid (htelling text rfl)
    exact ⟨hlist.trans (List.append_nil _).symm, hlast⟩
  | tag name value =>
    have hhash : (Line.tag name value).text.head? = some '#' := by cases value <;> rfl
    rw [if_pos hhash]
    exact parseTag_tag hvalid (fun h => hstream value (h ▸ rfl))
  | uri text =>
    have hhash : (Line.uri text).text.head? ≠ some '#' := hvalid.2
    rw [if_neg hhash, if_pos htext]
    exact parseURI_uri hmedia text

end ParseLine

theorem foldl_parseLine {lines : List Line} (hvalid : ∀ l ∈ lines, l.Valid) (htelling : Telling lines)
    (hstream : ∀ value, Line.tag streamInf value ∉ lines) :
    ∀ e : Entries, e.Media →
      (((lines.map Line.text).filter (· ≠ [])).foldl parseLine e).list =
        e.list ++ lines.flatMap Line.tags := by
  induction lines with
  | nil => intro e _; exact (List.append_nil _).symm
  | cons l lines ih =>
    intro e hmedia
    have ih := ih (fun l hl => hvalid l (List.mem_cons_of_mem _ hl))
      (fun text hl => htelling text (List.mem_cons_of_mem _ hl))
      (fun value hl => hstream value (List.mem_cons_of_mem _ hl))
    rw [List.map_cons, List.flatMap_cons]
    by_cases htext : l.text = []
    · -- only a blank line has no text
      have hblank : l.tags = [] := by
        cases l with
        | blank => rfl
        | comment text => exact absurd htext (List.cons_ne_nil _ _)
        | tag name value => cases value <;> exact absurd htext (List.cons_ne_nil _ _)
        | uri text => exact absurd htext (hvalid _ List.mem_cons_self).1
      rw [List.filter_cons_of_neg (by simpa using htext), hblank, List.nil_append]
      exact ih e hmedia
    · obtain ⟨hlist, hlast⟩ := parseLine_line hmedia (hvalid l List.mem_cons_self) htext
        (fun text hl => htelling text (hl ▸ List.mem_cons_self))
        (fun value hl => hstream value (hl ▸ List.mem_cons_self))
      rw [List.filter_cons_of_pos (by simpa using htext), List.foldl_cons, ih _ hlast, hlist,
        List.append_assoc]

theorem parseEntries_render {lines : List Line} (h : MediaPlaylist lines) {e : LineEnd}
    (hseparable : Separable lines e) (htelling : Telling lines) :
    parseEntries (render e lines) = lines.flatMap Line.tags := by
  unfold parseEntries
  rw [splitLines_render h hseparable, foldl_parseLine h.valid htelling h.media {} nofun]
  exact List.nil_append _

end MediaFoundation.Hls
