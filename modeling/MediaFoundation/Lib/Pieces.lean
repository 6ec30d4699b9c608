import Mathlib

/-!
# The pieces of a list between separators

A list is cut, from the left, at every occurrence of a separator. Where the last
element of the separator occurs neither before it in the separator nor in what
is between two separators, the cut finds exactly the separators that were put
there.
-/

namespace Pieces

variable {α : Type*} [DecidableEq α]

/-- The pieces of a list that starts with `skip` elements of a separator. -/
def cut (sep : List α) : Nat → List α → List (List α)
  | _, [] => [[]]
  | skip + 1, _ :: s => cut sep skip s
  | 0, c :: s =>
    if sep <+: c :: s then [] :: cut sep (sep.length - 1) s
    else
      match cut sep 0 s with
      | [] => [[c]]
      | piece :: rest => (c :: piece) :: rest

def pieces (sep s : List α) : List (List α) := cut sep 0 s

theorem cut_append (sep : List α) : ∀ a s : List α, cut sep a.length (a ++ s) = cut sep 0 s := by
  intro a
  induction a with
  | nil => intro s; rfl
  | cons c a ih =>
    intro s
    show cut sep (a.length + 1) (c :: (a ++ s)) = cut sep 0 s
    exact ih s

omit [DecidableEq α] in
/-- A separator is no prefix of a piece with a separator behind it. -/
theorem not_prefix_append {init a : List α} {e c : α} (hinit : e ∉ init) (ha : e ∉ c :: a) (s : List α) :
    ¬ init ++ [e] <+: c :: (a ++ (init ++ [e]) ++ s) := by
  rintro ⟨t, ht⟩
  have hget : (c :: (a ++ (init ++ [e]) ++ s))[init.length]? = some e := by
    rw [← ht]
    simp
  rcases Nat.lt_or_ge init.length (c :: a).length with hlt | hge
  · -- the last element of the separator would be in the piece
    rw [show c :: (a ++ (init ++ [e]) ++ s) = (c :: a) ++ ((init ++ [e]) ++ s) by simp,
      List.getElem?_append_left hlt] at hget
    exact ha (List.mem_of_getElem? hget)
  · -- or before the end of the next separator
    have hpos : init.length - (c :: a).length < init.length := by
      have hcons : 0 < (c :: a).length := Nat.succ_pos _
      omega
    rw [show c :: (a ++ (init ++ [e]) ++ s) = (c :: a) ++ (init ++ ([e] ++ s)) by simp,
      List.getElem?_append_right hge, List.getElem?_append_left hpos] at hget
    exact hinit (List.mem_of_getElem? hget)

theorem pieces_append {init : List α} {e : α} (hinit : e ∉ init) :
    ∀ {a : List α}, e ∉ a → ∀ s, pieces (init ++ [e]) (a ++ (init ++ [e]) ++ s) =
      a :: pieces (init ++ [e]) s := by
  intro a
  induction a with
  | nil =>
    intro _ s
    unfold pieces
    obtain ⟨c, tail, htail⟩ : ∃ c tail, init ++ [e] = c :: tail := by
      cases init with
      | nil => exact ⟨e, [], rfl⟩
      | cons c init => exact ⟨c, init ++ [e], rfl⟩
    rw [htail]
    show cut (c :: tail) 0 (c :: (tail ++ s)) = [] :: cut (c :: tail) 0 s
    rw [cut, if_pos (by simp)]
    show [] :: cut (c :: tail) tail.length (tail ++ s) = _
    rw [cut_append]
  | cons c a ih =>
    intro ha s
    have hrest := ih (fun h => ha (List.mem_cons_of_mem _ h)) s
    unfold pieces at *
    show cut (init ++ [e]) 0 (c :: (a ++ (init ++ [e]) ++ s)) = _
    rw [cut, if_neg (not_prefix_append hinit ha s), hrest]

theorem pieces_of_absent {sep : List α} : ∀ {s : List α}, ¬ sep <:+: s → pieces sep s = [s] := by
  intro s
  induction s with
  | nil => intro _; rfl
  | cons c s ih =>
    intro h
    have hrest := ih (fun hs => h (hs.trans (List.suffix_cons c s).isInfix))
    unfold pieces at *
    rw [cut, if_neg (fun hp => h hp.isInfix), hrest]

/-- Pieces with the separator behind each, and an empty one at the end. -/
theorem pieces_flatMap {init : List α} {e : α} (hinit : e ∉ init) (lines : List (List α))
    (h : ∀ l ∈ lines, e ∉ l) :
    pieces (init ++ [e]) (lines.flatMap (· ++ (init ++ [e]))) = lines ++ [[]] := by
  induction lines with
  | nil => rfl
  | cons l lines ih =>
    rw [List.flatMap_cons, pieces_append hinit (h l List.mem_cons_self),
      ih (fun l hl => h l (List.mem_cons_of_mem _ hl))]
    rfl

/-- The first piece is what the list starts with, up to the first separator. -/
theorem pieces_cons (sep : List α) :
    ∀ s : List α, ∃ piece rest, pieces sep s = piece :: rest ∧ piece <+: s ∧
      (¬ sep <+: s → s ≠ [] → piece ≠ []) := by
  intro s
  unfold pieces
  cases s with
  | nil => exact ⟨[], [], rfl, List.nil_prefix, fun _ h => absurd rfl h⟩
  | cons c s =>
    rw [cut]
    by_cases hsep : sep <+: c :: s
    · rw [if_pos hsep]
      exact ⟨[], _, rfl, List.nil_prefix, fun h => absurd hsep h⟩
    · rw [if_neg hsep]
      obtain ⟨piece, rest, hrest, hpiece, -⟩ := pieces_cons sep s
      unfold pieces at hrest
      rw [hrest]
      exact ⟨c :: piece, rest, rfl, (List.prefix_cons_inj c).mpr hpiece, fun _ _ => List.cons_ne_nil _ _⟩

-- Patterns and line ends

omit [DecidableEq α]

theorem append_cons_cases {a b l s : List α} {e : α} (hl : e ∉ l) (h : a ++ e :: b = l ++ e :: s) :
    a = l ∧ b = s ∨ ∃ c, a = l ++ e :: c ∧ s = c ++ e :: b := by
  rcases List.append_eq_append_iff.mp h with ⟨c, hc, hb⟩ | ⟨c, hc, hs⟩
  · cases c with
    | nil => simp_all
    | cons x c =>
      rw [List.cons_append, List.cons.injEq] at hb
      refine absurd ?_ hl
      rw [hc, hb.1]
      simp
  · cases c with
    | nil => simp_all
    | cons x c =>
      rw [List.cons_append, List.cons.injEq] at hs
      obtain ⟨rfl, hs⟩ := hs
      exact .inr ⟨c, hc, hs⟩

/-- A pattern that ends in a line end: it ends the line, or lies behind it. -/
theorem infix_of_append_cons (init : List α) {l s : List α} {e : α} (hinit : e ∉ init) (hl : e ∉ l)
    (h : init ++ [e] <:+: l ++ e :: s) : init <:+ l ∨ init ++ [e] <:+: s := by
  obtain ⟨a, b, hab⟩ := h
  have hcut : (a ++ init) ++ e :: b = l ++ e :: s := by
    rw [← hab]
    simp
  rcases append_cons_cases hl hcut with ⟨rfl, -⟩ | ⟨c, hc, rfl⟩
  · exact .inl (List.suffix_append a init)
  · refine .inr ?_
    have hinitSuffix : init <:+ l ++ e :: c := hc ▸ List.suffix_append a init
    rcases Nat.lt_or_ge c.length init.length with hlt | hge
    · -- the line end would be in the pattern before its own
      have hmem : e :: c <:+ init :=
        List.suffix_of_suffix_length_le (List.suffix_append l (e :: c)) hinitSuffix (by simpa using hlt)
      exact absurd (hmem.subset List.mem_cons_self) hinit
    · have hsuffix : init <:+ c :=
        List.suffix_of_suffix_length_le hinitSuffix
          ((List.suffix_cons e c).trans (List.suffix_append l (e :: c))) hge
      obtain ⟨d, rfl⟩ := hsuffix
      exact ⟨d, b, by simp⟩

/-- A pattern that starts with a line end: it starts at the end of the line, or
lies behind it. -/
theorem infix_cons_of_append_cons {q l s : List α} {e : α} (hl : e ∉ l)
    (h : e :: q <:+: l ++ e :: s) : q <+: s ∨ e :: q <:+: s := by
  obtain ⟨a, b, hab⟩ := h
  have hcut : a ++ e :: (q ++ b) = l ++ e :: s := by
    rw [← hab]
    simp
  rcases append_cons_cases hl hcut with ⟨-, rfl⟩ | ⟨c, -, rfl⟩
  · exact .inl (List.prefix_append q b)
  · exact .inr ⟨c, b, by simp⟩

theorem prefix_of_append_cons {q l s : List α} {e : α} (hq : e ∉ q) (h : q <+: l ++ e :: s) :
    q <+: l := by
  rcases Nat.lt_or_ge l.length q.length with hlt | hge
  · have hline : l ++ [e] <+: q :=
      List.prefix_of_prefix_length_le ⟨s, by simp⟩ h (by simpa using hlt)
    exact absurd (hline.subset (by simp)) hq
  · exact List.prefix_of_prefix_length_le h (List.prefix_append l (e :: s)) hge

end Pieces
