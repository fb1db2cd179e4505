import DaqSwitch.Lib.Text

/-!
# Patterns with greedy repetition

Regular expressions that are a sequence of items: one letter of a class, or any number of
letters of a class.  A repetition takes as many letters as it can and gives letters back when
the rest of the pattern fails.  Where the rest of the pattern rejects the letters that could
be given back, the match is forced and can be computed piece by piece.
-/

namespace Lib.Pattern

open Text

inductive Item
  | one (p : Char → Bool)
  | star (p : Char → Bool)

/-- `p+`. -/
def plus (p : Char → Bool) : List Item := [.one p, .star p]

/-- The letters of a word. -/
def lit (w : Str) : List Item := w.map fun c => .one (· == c)

/-- A repetition with the rest of the match `k`: the letters it takes, and the result of
`k`. -/
def matchStar {β : Type*} (p : Char → Bool) (k : Str → Option β) : Str → Option (Str × β)
  | [] => (k []).map fun b => ([], b)
  | c :: s =>
    if p c then
      ((matchStar p k s).map fun x => (c :: x.1, x.2)).or ((k (c :: s)).map fun b => ([], b))
    else (k (c :: s)).map fun b => ([], b)

/-- Put the parts of the text that the first items match before the others. -/
def pushParts (us : List Str) (x : List Str × Str) : List Str × Str := (us ++ x.1, x.2)

/-- Match the items at the front of a text: the part of each item, and the rest of the text. -/
def matchItems : List Item → Str → Option (List Str × Str)
  | [], s => some ([], s)
  | .one _ :: _, [] => none
  | .one p :: items, c :: s => if p c then (matchItems items s).map (pushParts [[c]]) else none
  | .star p :: items, s =>
    (matchStar p (matchItems items) s).map fun x => pushParts [x.1] x.2

/-- The search of `finditer`, after `k` letters that belong to the last match. -/
def findFrom (items : List Item) : ℕ → Str → List (List Str)
  | _, [] => []
  | k + 1, _ :: s => findFrom items k s
  | 0, c :: s =>
    match matchItems items (c :: s) with
    | some (parts, rest) => parts :: findFrom items (s.length - rest.length) s
    | none => findFrom items 0 s

/-- All matches from left to right that do not overlap, for patterns that match no empty
text. -/
def finditer (items : List Item) (s : Str) : List (List Str) := findFrom items 0 s

/-! ## Repetitions -/

section Star

variable {β : Type*} {p : Char → Bool} {k : Str → Option β} {u v s : Str}

lemma matchStar_cons_of_neg {c : Char} (hc : p c = false) :
    matchStar p k (c :: s) = (k (c :: s)).map fun b => ([], b) := by
  rw [matchStar, if_neg (by simp [hc])]

/-- The repetition ends where the letters of its class end. -/
lemma matchStar_of_takeWhile_eq_nil (h : v.takeWhile p = []) :
    matchStar p k v = (k v).map fun b => ([], b) := by
  cases v with
  | nil => rfl
  | cons c v =>
    refine matchStar_cons_of_neg ?_
    by_contra hc
    rw [List.takeWhile_cons, if_pos (by simpa using hc)] at h
    cases h

/-- The greedy choice. -/
lemma matchStar_append_of_some {b : β} (hu : ∀ c ∈ u, p c = true) (hv : v.takeWhile p = [])
    (hk : k v = some b) : matchStar p k (u ++ v) = some (u, b) := by
  induction u with
  | nil => rw [List.nil_append, matchStar_of_takeWhile_eq_nil hv, hk, Option.map_some]
  | cons c u ih =>
    rw [List.cons_append, matchStar, if_pos (hu c List.mem_cons_self),
      ih fun d hd => hu d (List.mem_cons_of_mem _ hd), Option.map_some, Option.some_or]

/-- What a repetition has matched. -/
lemma of_matchStar_eq_some {b : β} (h : matchStar p k s = some (u, b)) :
    ∃ v, s = u ++ v ∧ (∀ c ∈ u, p c = true) ∧ k v = some b := by
  induction s generalizing u with
  | nil =>
    obtain ⟨b', hb', heq⟩ := Option.map_eq_some_iff.mp h
    obtain ⟨rfl, rfl⟩ := Prod.mk.inj heq
    exact ⟨[], rfl, by simp, hb'⟩
  | cons c s ih =>
    have hgive : (k (c :: s)).map (fun b => (([] : Str), b)) = some (u, b) →
        ∃ v, c :: s = u ++ v ∧ (∀ c ∈ u, p c = true) ∧ k v = some b := by
      intro h
      obtain ⟨b', hb', heq⟩ := Option.map_eq_some_iff.mp h
      obtain ⟨rfl, rfl⟩ := Prod.mk.inj heq
      exact ⟨c :: s, rfl, by simp, hb'⟩
    rw [matchStar] at h
    split at h
    · next hc =>
      rcases Option.or_eq_some_iff.mp h with h | ⟨-, h⟩
      · obtain ⟨⟨u', b'⟩, hrest, heq⟩ := Option.map_eq_some_iff.mp h
        obtain ⟨rfl, rfl⟩ := Prod.mk.inj heq
        obtain ⟨v, rfl, hu', hv⟩ := ih hrest
        exact ⟨v, rfl, List.forall_mem_cons.mpr ⟨hc, hu'⟩, hv⟩
      · exact hgive h
    · exact hgive h

/-- Giving letters back finds a match when there is one. -/
lemma exists_matchStar {b : β} (hu : ∀ c ∈ u, p c = true) (hk : k v = some b) :
    ∃ x, matchStar p k (u ++ v) = some x := by
  induction u with
  | nil =>
    cases v with
    | nil => exact ⟨([], b), by rw [List.append_nil, matchStar, hk, Option.map_some]⟩
    | cons c v =>
      rw [List.nil_append, matchStar, hk, Option.map_some]
      split
      · cases (matchStar p k v).map fun x => (c :: x.1, x.2) with
        | none => exact ⟨([], b), rfl⟩
        | some x => exact ⟨x, rfl⟩
      · exact ⟨([], b), rfl⟩
  | cons c u ih =>
    obtain ⟨x, hx⟩ := ih fun d hd => hu d (List.mem_cons_of_mem _ hd)
    rw [List.cons_append, matchStar, if_pos (hu c List.mem_cons_self), hx, Option.map_some,
      Option.some_or]
    exact ⟨_, rfl⟩

lemma matchStar_eq_none (h : ∀ u v, s = u ++ v → (∀ c ∈ u, p c = true) → k v = none) :
    matchStar p k s = none := by
  rw [Option.eq_none_iff_forall_not_mem]
  rintro ⟨u, b⟩ hub
  obtain ⟨v, hs, hu, hv⟩ := of_matchStar_eq_some hub
  rw [h u v hs hu] at hv
  cases hv

/-- A repetition that cannot give letters back. -/
lemma matchStar_append (hu : ∀ c ∈ u, p c = true) (hv : v.takeWhile p = [])
    (hk : ∀ w, w ≠ [] → w <:+ u → k (w ++ v) = none) :
    matchStar p k (u ++ v) = (k v).map fun b => (u, b) := by
  cases hkv : k v with
  | some b => exact matchStar_append_of_some hu hv hkv
  | none =>
    refine matchStar_eq_none ?_
    intro u' v' hs hu'
    -- the letters taken end inside `u`, or at its end
    rcases List.append_eq_append_iff.mp hs with ⟨w, rfl, rfl⟩ | ⟨w, rfl, rfl⟩
    · rw [List.takeWhile_append_of_pos fun c hc => hu' c (List.mem_append_right _ hc)] at hv
      rw [List.append_eq_nil_iff.mp hv |>.1] at hkv
      exact hkv
    · by_cases hw : w = []
      · rw [hw]
        exact hkv
      · exact hk w hw (List.suffix_append u' w)

end Star

/-! ## Forced items -/

section Items

variable {p q : Char → Bool} {items : List Item} {u v w s : Str}

/-- The items match no text that begins with a letter of the class. -/
def Rejects (p : Char → Bool) (items : List Item) : Prop :=
  ∀ c s, p c = true → matchItems items (c :: s) = none

lemma rejects_one (h : ∀ c, p c = true → q c = false) : Rejects p (.one q :: items) := by
  intro c s hc
  rw [matchItems, if_neg (by simp [h c hc])]

/-- The parts of `p+`. -/
def plusParts (u : Str) : List Str := [u.take 1, u.drop 1]

@[simp] lemma flatten_plusParts (u : Str) : (plusParts u).flatten = u := by
  rw [plusParts, List.flatten_cons, List.flatten_cons, List.flatten_nil, List.append_nil,
    List.take_append_drop]

lemma pushParts_pushParts (us vs : List Str) (x : List Str × Str) :
    pushParts us (pushParts vs x) = pushParts (us ++ vs) x := by
  simp [pushParts]

lemma matchItems_star (hu : ∀ c ∈ u, p c = true) (hv : v.takeWhile p = [])
    (hrest : ∀ w, w ≠ [] → w <:+ u → matchItems items (w ++ v) = none) :
    matchItems (.star p :: items) (u ++ v) = (matchItems items v).map (pushParts [u]) := by
  rw [matchItems, matchStar_append hu hv hrest, Option.map_map]
  rfl

/-- A repetition that has nothing to take. -/
lemma matchItems_star_nil (hv : v.takeWhile p = []) :
    matchItems (.star p :: items) v = (matchItems items v).map (pushParts [[]]) := by
  rw [matchItems, matchStar_of_takeWhile_eq_nil hv, Option.map_map]
  rfl

lemma Rejects.append (h : Rejects p items) (hu : ∀ c ∈ u, p c = true) :
    ∀ w, w ≠ [] → w <:+ u → matchItems items (w ++ v) = none := by
  intro w hw hsuffix
  obtain ⟨c, w, rfl⟩ := List.exists_cons_of_ne_nil hw
  exact h c _ (hu c (hsuffix.subset List.mem_cons_self))

lemma takeWhile_dropWhile (p : Char → Bool) (s : Str) : (s.dropWhile p).takeWhile p = [] := by
  induction s with
  | nil => rfl
  | cons c s ih =>
    rw [List.dropWhile_cons]
    split
    · exact ih
    · next hc => rw [List.takeWhile_cons, if_neg hc]

/-- `p+` before something that rejects the class takes all letters of the class. -/
lemma matchItems_plus (hrest : Rejects p items) (s : Str) :
    matchItems (plus p ++ items) s =
      if s.takeWhile p = [] then none
      else (matchItems items (s.dropWhile p)).map (pushParts (plusParts (s.takeWhile p))) := by
  cases s with
  | nil => rfl
  | cons c s =>
    show matchItems (.one p :: .star p :: items) (c :: s) = _
    rw [matchItems, List.takeWhile_cons, List.dropWhile_cons]
    split
    · have hu : ∀ d ∈ s.takeWhile p, p d = true := fun d hd => List.mem_takeWhile_imp hd
      have hstar := matchItems_star hu (takeWhile_dropWhile p s) (hrest.append hu)
      rw [List.takeWhile_append_dropWhile] at hstar
      rw [hstar, Option.map_map, if_neg (List.cons_ne_nil _ _)]
      rfl
    · rw [if_pos rfl]

/-- On a text that begins with all the letters of the class. -/
lemma matchItems_plus_append (hrest : Rejects p items) (hu : ∀ c ∈ u, p c = true) (hne : u ≠ [])
    (hv : v.takeWhile p = []) :
    matchItems (plus p ++ items) (u ++ v) = (matchItems items v).map (pushParts (plusParts u)) := by
  have htake : (u ++ v).takeWhile p = u := by
    rw [List.takeWhile_append_of_pos hu, hv, List.append_nil]
  have hdrop : (u ++ v).dropWhile p = v := by
    have hsplit := List.takeWhile_append_dropWhile (p := p) (l := u ++ v)
    rw [htake] at hsplit
    exact List.append_cancel_left hsplit
  rw [matchItems_plus hrest, htake, hdrop, if_neg hne]

/-- A word matches itself. -/
lemma matchItems_lit (w : Str) : matchItems (lit w ++ items) (w ++ s) =
    (matchItems items s).map (pushParts (w.map fun c => [c])) := by
  induction w with
  | nil =>
    show matchItems items s = (matchItems items s).map fun x => x
    rw [Option.map_id']
  | cons c w ih =>
    show matchItems (.one (· == c) :: (lit w ++ items)) (c :: (w ++ s)) = _
    rw [matchItems, if_pos (by simp), ih, Option.map_map]
    rfl

lemma matchItems_lit_eq_none (h : ¬ w <+: s) : matchItems (lit w ++ items) s = none := by
  induction w generalizing s with
  | nil => exact absurd List.nil_prefix h
  | cons c w ih =>
    show matchItems (.one (· == c) :: (lit w ++ items)) s = _
    cases s with
    | nil => rfl
    | cons d s =>
      rw [List.cons_prefix_cons, not_and] at h
      rw [matchItems]
      split
      · next hd =>
        obtain rfl : d = c := by simpa using hd
        rw [ih (h rfl), Option.map_none]
      · rfl

/-- A word somewhere in the first part of a text, and then the whole part. -/
lemma exists_matchItems_search (hw : ∀ c ∈ w, q c = true) (h : w <:+: s.takeWhile q) :
    ∃ parts, matchItems (.star q :: (lit w ++ [.star q])) s = some (parts, s.dropWhile q) := by
  have hlast (v : Str) : matchItems [.star q] v = some ([v.takeWhile q], v.dropWhile q) := by
    have hu : ∀ c ∈ v.takeWhile q, q c = true := fun c hc => List.mem_takeWhile_imp hc
    have hstar := matchStar_append_of_some (k := matchItems []) hu (takeWhile_dropWhile q v) rfl
    rw [List.takeWhile_append_dropWhile] at hstar
    rw [matchItems, hstar]
    rfl
  -- some split of the text matches, so the search finds one
  obtain ⟨u, v, huv⟩ := h
  have hs : s = (u ++ w) ++ (v ++ s.dropWhile q) := by
    rw [← List.append_assoc, huv, List.takeWhile_append_dropWhile]
  have hu : ∀ c ∈ u, q c = true := fun c hc =>
    List.mem_takeWhile_imp (huv ▸ List.mem_append_left v (List.mem_append_left w hc))
  obtain ⟨⟨u', b⟩, hx⟩ := exists_matchStar (k := matchItems (lit w ++ [.star q])) hu
    (v := w ++ (v ++ s.dropWhile q)) (by rw [matchItems_lit, hlast, Option.map_some])
  rw [← List.append_assoc, ← hs] at hx
  -- and whichever it is, the last item takes the rest of the first part
  obtain ⟨v', hs', hu', hb⟩ := of_matchStar_eq_some hx
  obtain ⟨v', rfl⟩ : w <+: v' := by
    by_contra hnot
    rw [matchItems_lit_eq_none hnot] at hb
    cases hb
  rw [matchItems_lit, hlast, Option.map_some, Option.some_inj] at hb
  have hdrop : s.dropWhile q = v'.dropWhile q := by
    rw [hs', List.dropWhile_append_of_pos hu', List.dropWhile_append_of_pos hw]
  rw [matchItems, hx, Option.map_some, ← hb, hdrop]
  exact ⟨_, rfl⟩

lemma matchItems_search_eq_none (hw : ∀ c ∈ w, q c = true) (h : ¬ w <:+: s.takeWhile q) :
    matchItems (.star q :: (lit w ++ [.star q])) s = none := by
  rw [matchItems, Option.map_eq_none_iff]
  refine matchStar_eq_none fun u v hs hu => matchItems_lit_eq_none fun hpre => h ?_
  obtain ⟨v, rfl⟩ := hpre
  rw [hs, List.takeWhile_append_of_pos hu, List.takeWhile_append_of_pos hw]
  exact ⟨u, v.takeWhile q, List.append_assoc u w _⟩

end Items

/-! ## Searching -/

section Search

variable {items : List Item} {s t r : Str}

lemma findFrom_eq_drop (k : ℕ) : findFrom items k s = findFrom items 0 (s.drop k) := by
  induction k generalizing s with
  | zero => rfl
  | succ k ih =>
    cases s with
    | nil => rw [List.drop_nil, findFrom, findFrom]
    | cons c s => rw [findFrom, ih, List.drop_succ_cons]

lemma finditer_nil : finditer items [] = [] := by rw [finditer, findFrom]

lemma finditer_cons_of_none {c : Char} (h : matchItems items (c :: s) = none) :
    finditer items (c :: s) = finditer items s := by
  rw [finditer, findFrom, h]
  rfl

/-- No match begins in the first part of the text. -/
lemma finditer_append (h : ∀ t, t ≠ [] → t <:+ s → matchItems items (t ++ r) = none) :
    finditer items (s ++ r) = finditer items r := by
  induction s with
  | nil => rfl
  | cons c s ih =>
    rw [← ih fun t ht hsuffix => h t ht (hsuffix.trans (List.suffix_cons c s))]
    have hnone := h (c :: s) (List.cons_ne_nil c s) List.suffix_rfl
    exact finditer_cons_of_none hnone

/-- The first part of the text is a match. -/
lemma finditer_of_match {parts : List Str} (hs : s ≠ [])
    (h : matchItems items (s ++ r) = some (parts, r)) :
    finditer items (s ++ r) = parts :: finditer items r := by
  obtain ⟨c, s, rfl⟩ := List.exists_cons_of_ne_nil hs
  rw [List.cons_append] at h
  rw [finditer, List.cons_append, findFrom, h]
  simp only
  rw [findFrom_eq_drop, List.length_append, Nat.add_sub_cancel, List.drop_left]
  rfl

end Search

end Lib.Pattern
