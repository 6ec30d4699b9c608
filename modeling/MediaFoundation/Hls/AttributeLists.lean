import MediaFoundation.Hls.HlsTags

/-!
# HLS attribute lists

An `AttributesTag` of the text `NAME=VALUE,NAME=VALUE,…` (`hls_tags.cpp`). The
scanner of names takes capital letters and hyphens and passes over all else, so
that a name loses its digits.

Convention: `static_cast<char>` of `EOF` is the byte 255, which no test of the
scanners takes for one of theirs.
-/

namespace MediaFoundation.Hls

-- The text of a list

def NameChar (c : Char) : Prop := ('A' ≤ c ∧ c ≤ 'Z') ∨ isDigit c ∨ c = '-'

inductive AttributeValue where
  | word (text : Text) (h : ∀ c ∈ text, '-' ≤ c ∧ c ≤ 'z' ∧ c ≠ '\\')
  | quoted (text : Text) (h : ∀ c ∈ text, c ≠ '"' ∧ c ≠ '\\' ∧ c ≠ '\r' ∧ c ≠ '\n')

/-- As it stands in the list. -/
def AttributeValue.text : AttributeValue → Text
  | word text _ => text
  | quoted text _ => '"' :: text ++ ['"']

structure NameValue where
  name : Text
  name_ne : name ≠ []
  name_mem : ∀ c ∈ name, NameChar c
  value : AttributeValue

namespace NameValue

def toAttribute (p : NameValue) : Attribute := ⟨p.name, p.value.text⟩

def text (p : NameValue) : Text := p.name ++ '=' :: p.value.text

def kept (p : NameValue) : Attribute := ⟨p.name.filter (! isDigit ·), p.value.text⟩

def HasDigit (p : NameValue) : Prop := ∃ c ∈ p.name, isDigit c

end NameValue

def renderList : List NameValue → Text
  | [] => []
  | [p] => p.text
  | p :: ps => p.text ++ ',' :: renderList ps

-- Scanning a pair

theorem not_capital_of_isDigit {c : Char} (h : isDigit c) :
    ¬ (('A' ≤ c ∧ c ≤ 'Z') ∨ c = '-') ∧ c ≠ '=' := by
  simp only [isDigit, decide_eq_true_eq, Char.le_def] at h
  have h0 : '0'.val.toNat = 48 := rfl
  have h9 : '9'.val.toNat = 57 := rfl
  have hA : 'A'.val.toNat = 65 := rfl
  simp only [UInt32.le_iff_toNat_le, h0, h9] at h
  refine ⟨?_, ?_⟩
  · rintro (⟨hle, -⟩ | rfl)
    · simp only [Char.le_def, UInt32.le_iff_toNat_le, hA] at hle
      omega
    · exact absurd h.1 (by decide)
  · rintro rfl
    exact absurd h.2 (by decide)

theorem not_isDigit_of_capital {c : Char} (h : ('A' ≤ c ∧ c ≤ 'Z') ∨ c = '-') :
    isDigit c = false := by
  cases hdigit : isDigit c with
  | false => rfl
  | true => exact absurd h (not_capital_of_isDigit hdigit).1

theorem parseAttributeName_name {name : Text} (h : ∀ c ∈ name, NameChar c) (s : Text) :
    parseAttributeName (name ++ '=' :: s) = (name.filter (! isDigit ·), s) := by
  induction name with
  | nil => rfl
  | cons c name ih =>
    have hrest := ih fun d hd => h d (List.mem_cons_of_mem c hd)
    rw [List.cons_append, parseAttributeName]
    rcases h c List.mem_cons_self with hcapital | hdigit | hhyphen
    · rw [if_pos (.inl hcapital), hrest]
      simp [not_isDigit_of_capital (.inl hcapital)]
    · obtain ⟨hnot, hne⟩ := not_capital_of_isDigit hdigit
      rw [if_neg hnot, if_neg hne, hrest]
      simp [hdigit]
    · rw [if_pos (.inr hhyphen), hrest]
      simp [not_isDigit_of_capital (.inr hhyphen)]

theorem parseAttributeName_comma (s : Text) :
    parseAttributeName (',' :: s) = parseAttributeName s := by
  rw [parseAttributeName]
  rfl

theorem parseAttributeValue_comma (s : Text) : parseAttributeValue false (',' :: s) = ([], s) := by
  unfold parseAttributeValue
  simp

theorem parseAttributeValue_plain {c : Char} {bQuoted : Bool} (hslash : ¬ (c = '\\' ∧ bQuoted))
    (hcomma : ¬ (c = ',' ∧ ¬ bQuoted)) (hquote : c ≠ '"')
    (hrange : ¬ (¬ bQuoted ∧ (c < '-' ∨ 'z' < c))) (s : Text) :
    parseAttributeValue bQuoted (c :: s) =
      (c :: (parseAttributeValue bQuoted s).1, (parseAttributeValue bQuoted s).2) := by
  rw [parseAttributeValue.eq_def]
  simp only [if_neg hslash, if_neg hcomma, if_neg hquote, if_neg hrange]

theorem parseAttributeValue_word {text : Text} (h : ∀ c ∈ text, '-' ≤ c ∧ c ≤ 'z' ∧ c ≠ '\\') :
    parseAttributeValue false text = (text, []) ∧
      ∀ s, parseAttributeValue false (text ++ ',' :: s) = (text, s) := by
  induction text with
  | nil => exact ⟨rfl, parseAttributeValue_comma⟩
  | cons c text ih =>
    obtain ⟨hend, hcomma⟩ := ih fun d hd => h d (List.mem_cons_of_mem c hd)
    obtain ⟨hlo, hhi, -⟩ := h c List.mem_cons_self
    have hne : c ≠ ',' := by
      rintro rfl
      exact absurd hlo (by decide)
    have hquote : c ≠ '"' := by
      rintro rfl
      exact absurd hlo (by decide)
    have hrange : ¬ (c < '-' ∨ 'z' < c) := by
      rintro (hlt | hlt)
      · exact absurd hlt (Char.not_lt.mpr hlo)
      · exact absurd hlt (Char.not_lt.mpr hhi)
    have hplain := @parseAttributeValue_plain c false (by simp) (by simp [hne]) hquote
      (by simpa using hrange)
    refine ⟨?_, fun s => ?_⟩
    · rw [hplain, hend]
    · rw [List.cons_append, hplain, hcomma]

/-- The closing quote ends the value; what follows it is left alone. -/
theorem parseAttributeValue_inside {text : Text}
    (h : ∀ c ∈ text, c ≠ '"' ∧ c ≠ '\\' ∧ c ≠ '\r' ∧ c ≠ '\n') (s : Text) :
    parseAttributeValue true (text ++ '"' :: s) = (text ++ ['"'], s) := by
  induction text with
  | nil =>
    rw [List.nil_append, parseAttributeValue.eq_def]
    simp
  | cons c text ih =>
    obtain ⟨hquote, hslash, -⟩ := h c List.mem_cons_self
    have hrest := ih fun d hd => h d (List.mem_cons_of_mem c hd)
    rw [List.cons_append, parseAttributeValue_plain (by simp [hslash]) (by simp) hquote (by simp),
      hrest]
    rfl

theorem parseAttributeValue_quoted {text : Text}
    (h : ∀ c ∈ text, c ≠ '"' ∧ c ≠ '\\' ∧ c ≠ '\r' ∧ c ≠ '\n') (s : Text) :
    parseAttributeValue false ('"' :: text ++ '"' :: s) = ('"' :: text ++ ['"'], s) := by
  rw [List.cons_append, parseAttributeValue.eq_def]
  simp [parseAttributeValue_inside h s]

-- Scanning a list

theorem parseAttributes_of_ne {s : Text} (h : s ≠ []) :
    AttributesTag.parseAttributes s =
      [(⟨(parseAttributeName s).1,
          (parseAttributeValue false (parseAttributeName s).2).1⟩ : Attribute)].filter
            (·.name ≠ []) ++
        AttributesTag.parseAttributes (parseAttributeValue false (parseAttributeName s).2).2 := by
  cases s with
  | nil => exact absurd rfl h
  | cons c s =>
    rw [AttributesTag.parseAttributes]
    by_cases hname : (parseAttributeName (c :: s)).1 = [] <;> simp [hname]

theorem parseAttributes_comma {s : Text} (h : s ≠ []) :
    AttributesTag.parseAttributes (',' :: s) = AttributesTag.parseAttributes s := by
  rw [parseAttributes_of_ne (List.cons_ne_nil ',' s), parseAttributeName_comma,
    parseAttributes_of_ne h]

theorem renderList_ne {p : NameValue} {ps : List NameValue} : renderList (p :: ps) ≠ [] := by
  have hname := p.name_ne
  cases ps with
  | nil | cons q ps => simp [renderList, NameValue.text, hname]

theorem parseAttributes_pair (p : NameValue) (ps : List NameValue) :
    AttributesTag.parseAttributes (renderList (p :: ps)) =
      [p.kept].filter (·.name ≠ []) ++ AttributesTag.parseAttributes (renderList ps) := by
  rw [parseAttributes_of_ne renderList_ne]
  have hname (s : Text) : parseAttributeName (p.text ++ s) =
      (p.kept.name, p.value.text ++ s) := by
    rw [NameValue.text, List.append_assoc, List.cons_append,
      parseAttributeName_name p.name_mem]
    rfl
  cases ps with
  | nil =>
    have hlast := hname []
    rw [List.append_nil, List.append_nil] at hlast
    have hrender : renderList [p] = p.text := rfl
    rw [hrender, hlast]
    cases hvalue : p.value with
    | word text h =>
      simp only [AttributeValue.text, (parseAttributeValue_word h).1, NameValue.kept, hvalue]
      rfl
    | quoted text h =>
      have hscan := parseAttributeValue_quoted h []
      simp only [AttributeValue.text, hscan, NameValue.kept, hvalue]
      rfl
  | cons q ps =>
    have hrender : renderList (p :: q :: ps) = p.text ++ ',' :: renderList (q :: ps) := rfl
    rw [hrender, hname]
    cases hvalue : p.value with
    | word text h =>
      simp only [AttributeValue.text, (parseAttributeValue_word h).2, NameValue.kept, hvalue]
    | quoted text h =>
      have hscan := parseAttributeValue_quoted h (',' :: renderList (q :: ps))
      have htext : '"' :: text ++ ['"'] ++ ',' :: renderList (q :: ps) =
          '"' :: text ++ '"' :: ',' :: renderList (q :: ps) := by simp
      simp only [AttributeValue.text, htext, hscan, NameValue.kept, hvalue,
        parseAttributes_comma renderList_ne]

/-- **What is left** of a list: the pairs without the digits of their names, and none
without a name. -/
theorem parseAttributes_render (ps : List NameValue) :
    AttributesTag.parseAttributes (renderList ps) =
      (ps.map NameValue.kept).filter (·.name ≠ []) := by
  induction ps with
  | nil => rw [renderList, AttributesTag.parseAttributes]; rfl
  | cons p ps ih =>
    rw [parseAttributes_pair, ih, ← List.filter_append]
    rfl

/-- **A list parses back**: the tag holds its pairs, a name gives the first value that was
given for it, and a quoted value is given without its quotes. -/
structure ParsesBack (ps : List NameValue) : Prop where
  attributes : ∀ type, newAttributesTag type (renderList ps) =
    .attributes type (ps.map NameValue.toAttribute)
  first : ∀ type (name : String), (newAttributesTag type (renderList ps)).getAttributeByName name =
    (ps.find? fun p => p.name = name.toList).map NameValue.toAttribute
  unquoted : ∀ p ∈ ps, ∀ text h, p.value = .quoted text h → p.toAttribute.quotedString = text

theorem unescape_eq {text : Text} (h : ∀ c ∈ text, c ≠ '\\') : unescape text = text := by
  induction text with
  | nil => rfl
  | cons c text ih =>
    have hc := h c List.mem_cons_self
    have hrest := ih fun d hd => h d (List.mem_cons_of_mem c hd)
    rw [unescape.eq_def]
    split
    next heq => cases heq
    next heq => cases heq; exact absurd rfl hc
    next heq => cases heq; exact absurd rfl hc
    next heq => cases heq; rw [hrest]

theorem quotedString_quoted {name text : Text}
    (h : ∀ c ∈ text, c ≠ '"' ∧ c ≠ '\\' ∧ c ≠ '\r' ∧ c ≠ '\n') :
    (⟨name, '"' :: text ++ ['"']⟩ : Attribute).quotedString = text := by
  rw [Attribute.quotedString, List.cons_append]
  simp [unescape_eq fun c hc => (h c hc).2.1]

theorem kept_eq_iff (p : NameValue) : p.kept = p.toAttribute ↔ ¬ p.HasDigit := by
  rw [NameValue.kept, NameValue.toAttribute, Attribute.mk.injEq,
    List.filter_eq_self, NameValue.HasDigit]
  simp

/-- Nothing is dropped of pairs that stay as they are. -/
theorem filter_kept {ps : List NameValue} (h : ∀ p ∈ ps, ¬ p.HasDigit) :
    (ps.map NameValue.kept).filter (·.name ≠ []) = ps.map NameValue.toAttribute := by
  have hmap : ps.map NameValue.kept = ps.map NameValue.toAttribute :=
    List.map_congr_left fun p hp => (kept_eq_iff p).mpr (h p hp)
  rw [hmap, List.filter_eq_self]
  intro a ha
  obtain ⟨p, -, rfl⟩ := List.mem_map.mp ha
  exact decide_eq_true p.name_ne

theorem no_digit_of_filter {ps : List NameValue}
    (h : (ps.map NameValue.kept).filter (·.name ≠ []) = ps.map NameValue.toAttribute) :
    ∀ p ∈ ps, ¬ p.HasDigit := by
  -- as many are left as there are, so that none has been dropped
  have hlength := congrArg List.length h
  rw [List.length_map, ← List.length_map (f := NameValue.kept),
    List.length_filter_eq_length_iff] at hlength
  rw [List.filter_eq_self.mpr hlength, List.map_inj_left] at h
  exact fun p hp => (kept_eq_iff p).mp (h p hp)

theorem parsesBack_iff (ps : List NameValue) : ParsesBack ps ↔ ∀ p ∈ ps, ¬ p.HasDigit := by
  constructor
  · intro h
    have htag := h.attributes .extxmedia
    rw [newAttributesTag, parseAttributes_render, Tag.attributes.injEq] at htag
    exact no_digit_of_filter htag.2
  · intro h
    have htag (type : HlsTag) : newAttributesTag type (renderList ps) =
        .attributes type (ps.map NameValue.toAttribute) := by
      rw [newAttributesTag, parseAttributes_render, filter_kept h]
    refine ⟨htag, fun type name => ?_, fun p _ text hquoted hvalue => ?_⟩
    · rw [htag, Tag.getAttributeByName, List.find?_map]
      rfl
    · rw [NameValue.toAttribute, hvalue]
      exact quotedString_quoted hquoted

-- The loops over the stream

/-- An `std::istringstream`: what is left of it, and `eofbit`, which is set by the first
look beyond the end. -/
structure IStream where
  rest : Text
  eof : Bool := false

/-- `static_cast<char>` of what `peek` and `get` return beyond the end. -/
def eofChar : Char := Char.ofNat 255

namespace IStream

def peek (iss : IStream) : Char × IStream :=
  match iss.rest with
  | [] => (eofChar, { iss with eof := true })
  | c :: _ => (c, iss)

def get (iss : IStream) : Char × IStream :=
  match iss.rest with
  | [] => (eofChar, { iss with eof := true })
  | c :: rest => (c, { iss with rest })

end IStream

/-- `ParseAttributeName`, for so many rounds. -/
def nameLoop : Nat → IStream → Text → Option (Text × IStream)
  | 0, _, _ => none
  | fuel + 1, iss, oss =>
    if iss.eof then some (oss, iss)
    else
      let (c, iss) := iss.peek
      if ('A' ≤ c ∧ c ≤ 'Z') ∨ c = '-' then
        let (d, iss) := iss.get
        nameLoop fuel iss (oss ++ [d])
      else if c = '=' then
        let (_, iss) := iss.get
        some (oss, iss)
      else
        let (_, iss) := iss.get
        nameLoop fuel iss oss

def putNext (iss : IStream) (oss : Text) : Text × IStream :=
  if iss.eof then (oss, iss)
  else
    let (c, iss) := iss.get
    (oss ++ [c], iss)

/-- `ParseAttributeValue`, for so many rounds. -/
def valueLoop : Nat → Bool → IStream → Text → Option (Text × IStream)
  | 0, _, _, _ => none
  | fuel + 1, bQuoted, iss, oss =>
    if iss.eof then some (oss, iss)
    else
      let (c, iss) := iss.peek
      if c = '\\' ∧ bQuoted then
        let (_, iss) := iss.get
        let (oss, iss) := putNext iss oss
        valueLoop fuel bQuoted iss oss
      else if c = ',' ∧ ¬ bQuoted then
        let (_, iss) := iss.get
        some (oss, iss)
      else if c = '"' then
        if bQuoted then
          let (c, iss) := iss.get
          some (oss ++ [c], iss)
        else
          let (oss, iss) := putNext iss oss
          valueLoop fuel true iss oss
      else if ¬ bQuoted ∧ (c < '-' ∨ 'z' < c) then
        let (_, iss) := iss.get
        valueLoop fuel bQuoted iss oss
      else
        let (oss, iss) := putNext iss oss
        valueLoop fuel bQuoted iss oss

/-- `ParseAttributes`, where no loop goes round more often than this. -/
def attributesLoop (rounds : Nat) : Nat → IStream → List Attribute → Option (List Attribute)
  | 0, _, _ => none
  | fuel + 1, iss, attributes =>
    if iss.eof then some attributes
    else do
      let (attrName, iss) ← nameLoop rounds iss []
      let (attrValue, iss) ← valueLoop rounds false iss []
      attributesLoop rounds fuel iss
        (attributes ++ if attrName ≠ [] then [⟨attrName, attrValue⟩] else [])

/-- Only a stream with nothing left has ended. -/
def IStream.Right (iss : IStream) : Prop := iss.eof → iss.rest = []

theorem nameLoop_eq (s : Text) : ∀ {fuel : Nat} (oss : Text), s.length + 2 ≤ fuel →
    ∃ iss, nameLoop fuel ⟨s, false⟩ oss = some (oss ++ (parseAttributeName s).1, iss) ∧
      iss.rest = (parseAttributeName s).2 ∧ iss.Right := by
  induction s with
  | nil =>
    intro fuel oss hfuel
    obtain ⟨fuel, rfl⟩ : ∃ k, fuel = k + 2 := ⟨fuel - 2, by simp at hfuel; omega⟩
    refine ⟨⟨[], true⟩, ?_, rfl, fun _ => rfl⟩
    simp [nameLoop, IStream.peek, IStream.get, eofChar, parseAttributeName]
  | cons c s ih =>
    intro fuel oss hfuel
    rw [List.length_cons] at hfuel
    obtain ⟨fuel, rfl⟩ : ∃ k, fuel = k + 1 := ⟨fuel - 1, by omega⟩
    rw [parseAttributeName]
    by_cases hname : ('A' ≤ c ∧ c ≤ 'Z') ∨ c = '-'
    · obtain ⟨iss, hloop, hrest⟩ := @ih fuel (oss ++ [c]) (by omega)
      rw [if_pos hname]
      refine ⟨iss, ?_, hrest⟩
      simp only [nameLoop, IStream.peek, IStream.get, hname, hloop, List.append_assoc]
      rfl
    · rw [if_neg hname]
      by_cases hequal : c = '='
      · rw [if_pos hequal]
        refine ⟨⟨s, false⟩, ?_, rfl, nofun⟩
        simp [nameLoop, IStream.peek, IStream.get, hequal]
      · obtain ⟨iss, hloop, hrest⟩ := @ih fuel oss (by omega)
        rw [if_neg hequal]
        refine ⟨iss, ?_, hrest⟩
        simp only [nameLoop, IStream.peek, IStream.get, hname, hequal, hloop]
        rfl

/-- At the end of the stream nothing more is put. -/
theorem valueLoop_nil {fuel : Nat} (bQuoted : Bool) (oss : Text) (h : 2 ≤ fuel) :
    valueLoop fuel bQuoted ⟨[], false⟩ oss = some (oss, ⟨[], true⟩) := by
  obtain ⟨fuel, rfl⟩ : ∃ k, fuel = k + 2 := ⟨fuel - 2, by omega⟩
  cases bQuoted <;> simp [valueLoop, IStream.peek, IStream.get, putNext, eofChar]

theorem valueLoop_eq : ∀ (s : Text) (fuel : Nat) (bQuoted : Bool) (oss : Text),
    s.length + 2 ≤ fuel → ∃ iss, valueLoop fuel bQuoted ⟨s, false⟩ oss =
        some (oss ++ (parseAttributeValue bQuoted s).1, iss) ∧
      iss.rest = (parseAttributeValue bQuoted s).2 ∧ iss.Right := by
  intro s fuel
  induction fuel generalizing s with
  | zero =>
    intro bQuoted oss hfuel
    omega
  | succ fuel ih =>
    intro bQuoted oss hfuel
    cases s with
    | nil =>
      refine ⟨⟨[], true⟩, ?_, by simp [parseAttributeValue], fun _ => rfl⟩
      rw [valueLoop_nil bQuoted oss (by simpa using hfuel)]
      simp [parseAttributeValue]
    | cons c s =>
      rw [List.length_cons] at hfuel
      have hput (q : Bool) : ∃ iss, valueLoop fuel q ⟨s, false⟩ (oss ++ [c]) =
          some (oss ++ c :: (parseAttributeValue q s).1, iss) ∧
            iss.rest = (parseAttributeValue q s).2 ∧ iss.Right := by
        obtain ⟨iss, hloop, hrest⟩ := ih s q (oss ++ [c]) (by omega)
        exact ⟨iss, by rw [hloop, List.append_assoc]; rfl, hrest⟩
      rw [parseAttributeValue.eq_def]
      unfold valueLoop
      simp only [Bool.false_eq_true, if_false, IStream.peek, IStream.get, putNext]
      by_cases hslash : c = '\\' ∧ bQuoted
      · simp only [if_pos hslash]
        cases s with
        | nil =>
          refine ⟨⟨[], true⟩, ?_, rfl, fun _ => rfl⟩
          obtain ⟨fuel, rfl⟩ : ∃ k, fuel = k + 1 := ⟨fuel - 1, by simp at hfuel; omega⟩
          simp [valueLoop, eofChar]
        | cons d s =>
          rw [List.length_cons] at hfuel
          obtain ⟨iss, hloop, hrest⟩ := ih s bQuoted (oss ++ [d]) (by omega)
          exact ⟨iss, by simp only [hloop, List.append_assoc]; rfl, hrest⟩
      · simp only [if_neg hslash]
        by_cases hcomma : c = ',' ∧ ¬ bQuoted
        · simp only [if_pos hcomma]
          exact ⟨⟨s, false⟩, by rw [List.append_nil], rfl, fun heof => by cases heof⟩
        · simp only [if_neg hcomma]
          by_cases hquote : c = '"'
          · simp only [if_pos hquote]
            cases bQuoted with
            | true => exact ⟨⟨s, false⟩, rfl, rfl, fun heof => by cases heof⟩
            | false => exact hput true
          · simp only [if_neg hquote]
            by_cases hrange : ¬ bQuoted ∧ (c < '-' ∨ 'z' < c)
            · simp only [if_pos hrange]
              exact ih s bQuoted oss (by omega)
            · simp only [if_neg hrange]
              exact hput bQuoted

theorem valueLoop_right {fuel : Nat} {iss : IStream} (hiss : iss.Right)
    (hfuel : iss.rest.length + 2 ≤ fuel) :
    ∃ iss', valueLoop fuel false iss [] = some ((parseAttributeValue false iss.rest).1, iss') ∧
      iss'.rest = (parseAttributeValue false iss.rest).2 ∧ iss'.Right := by
  obtain ⟨s, eof⟩ := iss
  cases eof with
  | false =>
    obtain ⟨iss', hloop, hrest⟩ := valueLoop_eq s fuel false [] hfuel
    exact ⟨iss', hloop, hrest⟩
  | true =>
    obtain rfl : s = [] := hiss rfl
    obtain ⟨fuel, rfl⟩ : ∃ k, fuel = k + 1 := ⟨fuel - 1, by omega⟩
    refine ⟨⟨[], true⟩, ?_, ?_, fun _ => rfl⟩
    · simp [valueLoop, parseAttributeValue]
    · simp [parseAttributeValue]

theorem attributesLoop_round {rounds : Nat} {s : Text} (hrounds : s.length + 2 ≤ rounds)
    (fuel : Nat) (attributes : List Attribute) :
    ∃ iss, attributesLoop rounds (fuel + 1) ⟨s, false⟩ attributes =
        attributesLoop rounds fuel iss (attributes ++
          [(⟨(parseAttributeName s).1,
            (parseAttributeValue false (parseAttributeName s).2).1⟩ : Attribute)].filter
            (·.name ≠ [])) ∧
      iss.rest = (parseAttributeValue false (parseAttributeName s).2).2 ∧ iss.Right := by
  obtain ⟨iss₁, hname, hrest₁, hright₁⟩ := nameLoop_eq s [] hrounds
  have hlength := parseAttributeName_length s
  obtain ⟨iss₂, hvalue, hrest₂, hright₂⟩ := valueLoop_right hright₁
    (show iss₁.rest.length + 2 ≤ rounds by rw [hrest₁]; omega)
  rw [hrest₁] at hvalue hrest₂
  refine ⟨iss₂, ?_, hrest₂, hright₂⟩
  rw [attributesLoop, hname]
  simp only [Bool.false_eq_true, if_false, Option.bind_eq_bind, Option.bind_some, hvalue,
    List.nil_append]
  by_cases hempty : (parseAttributeName s).1 = []
  · simp [hempty]
  · simp [hempty]

/-- The induction is on the bound of the rounds: each of them leaves less of the stream, or,
with nothing left, finds its end. -/
theorem attributesLoop_right {rounds : Nat} : ∀ {fuel : Nat} {iss : IStream}, iss.Right →
    iss.rest.length + 2 ≤ rounds → iss.rest.length + 2 ≤ fuel → ∀ attributes,
    attributesLoop rounds fuel iss attributes =
      some (attributes ++ AttributesTag.parseAttributes iss.rest)
  | 0, iss, _, _, hfuel, _ => by omega
  | fuel + 1, ⟨[], true⟩, _, _, _, attributes => by
    simp [attributesLoop, AttributesTag.parseAttributes]
  | fuel + 1, ⟨c :: s, true⟩, hiss, _, _, _ => absurd (hiss rfl) (List.cons_ne_nil c s)
  | fuel + 2, ⟨[], false⟩, _, hrounds, _, attributes => by
    obtain ⟨rounds, rfl⟩ : ∃ k, rounds = k + 2 := ⟨rounds - 2, by simp at hrounds; omega⟩
    simp [attributesLoop, nameLoop, valueLoop, IStream.peek, IStream.get, eofChar,
      AttributesTag.parseAttributes]
  | fuel + 1, ⟨c :: s, false⟩, _, hrounds, hfuel, attributes => by
    obtain ⟨iss, hround, hrest, hright⟩ :=
      attributesLoop_round (s := c :: s) hrounds fuel attributes
    have hname := parseAttributeName_cons_length c s
    have hvalue := parseAttributeValue_length (parseAttributeName (c :: s)).2 false
    simp only [List.length_cons] at hrounds hfuel hname
    rw [hround, attributesLoop_right hright (by rw [hrest]; omega) (by rw [hrest]; omega), hrest,
      parseAttributes_of_ne (List.cons_ne_nil c s), List.append_assoc]

/-- **The parsing loop ends** for every string, with the attributes of the tag. -/
theorem attributesLoop_eq (field : Text) (more : Nat) :
    attributesLoop (field.length + 2 + more) (field.length + 2 + more) ⟨field, false⟩ [] =
      some (AttributesTag.parseAttributes field) := by
  have hright : IStream.Right ⟨field, false⟩ := nofun
  exact attributesLoop_right hright (Nat.le_add_right _ more) (Nat.le_add_right _ more) []

-- Lists that parse back

/-- **Attribute lists.** A list parses back exactly when no name has a digit; and the
parsing ends for every string. -/
theorem attribute_lists (ps : List NameValue) (type : HlsTag) (field : Text) (more : Nat) :
    (ParsesBack ps ↔ ∀ p ∈ ps, ¬ p.HasDigit) ∧
      ∃ attributes, newAttributesTag type field = .attributes type attributes ∧
        attributesLoop (field.length + 2 + more) (field.length + 2 + more) ⟨field, false⟩ [] =
          some attributes := by
  refine ⟨parsesBack_iff ps, ?_⟩
  exact ⟨AttributesTag.parseAttributes field, rfl, attributesLoop_eq field more⟩

def numberedKey : NameValue :=
  ⟨['K', 'E', 'Y', '2'], List.cons_ne_nil _ _, by simp [NameChar, isDigit], .word ['a'] (by simp)⟩

/-- The pair `KEY2=a` is read as `KEY=a`. -/
theorem digit_lost : renderList [numberedKey] = "KEY2=a".toList ∧ ¬ ParsesBack [numberedKey] := by
  refine ⟨rfl, fun h => ?_⟩
  have htag := h.attributes .extxmedia
  rw [newAttributesTag, parseAttributes_render, Tag.attributes.injEq] at htag
  exact absurd htag.2 (by decide)

end MediaFoundation.Hls
