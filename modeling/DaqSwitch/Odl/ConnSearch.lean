import DaqSwitch.Odl.ScanDcms

/-!
# The search in a listing

The regular expression for a process matches the lines of a listing whose process id begins
with the digits it looks for, each from its first column to its end, and nothing else.  A
match begins three columns before an address that is followed by another address, and in a
listing only the first column of a line is such a place.
-/

namespace DaqSwitch.Odl.Ss

open Lib Lib.Text Lib.Pattern

/-! ## Classes of letters -/

lemma nonSpace_eq_false {c : Char} (h : isSpace c = true) : nonSpace c = false := by
  rw [nonSpace, h]
  rfl

lemma isSpace_eq_false {c : Char} (h : nonSpace c = true) : isSpace c = false := by
  simpa [nonSpace] using h

lemma toNat_of_isDigit {c : Char} (h : c.isDigit = true) : 48 ≤ c.toNat ∧ c.toNat ≤ 57 := by
  simpa [Char.isDigit, UInt32.le_iff_toNat_le] using h

lemma isDigit_eq_false_of_isSpace {c : Char} (h : isSpace c = true) : c.isDigit = false := by
  simp only [isSpace, Char.isWhitespace, Bool.or_eq_true, decide_eq_true_eq, beq_iff_eq] at h
  rcases h with ((((rfl | rfl) | rfl) | rfl) | h) | h
  · rfl
  · rfl
  · rfl
  · rfl
  all_goals
    by_contra hd
    have := toNat_of_isDigit (by simpa using hd)
    omega

lemma isSpace_eq_false_of_isDigit {c : Char} (h : c.isDigit = true) : isSpace c = false := by
  by_contra hs
  rw [isDigit_eq_false_of_isSpace (by simpa using hs)] at h
  cases h

lemma nonSpace_of_isDigit {c : Char} (h : c.isDigit = true) : nonSpace c = true := by
  rw [nonSpace, isSpace_eq_false_of_isDigit h]
  rfl

lemma nonSpace_of_mem_str {n : ℕ} {c : Char} (h : c ∈ str n) : nonSpace c = true :=
  nonSpace_of_isDigit (isDigit_of_mem_str h)

lemma isSpace_of_mem_blanks {n : ℕ} {c : Char} (h : c ∈ blanks n) : isSpace c = true := by
  rw [List.eq_of_mem_replicate h]
  rfl

lemma blanks_ne_nil (n : ℕ) : blanks n ≠ [] := List.cons_ne_nil _ _

lemma takeWhile_eq_nil_of_head {p : Char → Bool} {c : Char} (hc : p c = false) (s : Str) :
    (c :: s).takeWhile p = [] := by
  rw [List.takeWhile_cons, if_neg (by simp [hc])]

lemma takeWhile_append_eq_nil {p : Char → Bool} {s : Str} (hne : s ≠ []) (hs : s.takeWhile p = [])
    (t : Str) : (s ++ t).takeWhile p = [] := by
  obtain ⟨c, s, rfl⟩ := List.exists_cons_of_ne_nil hne
  refine takeWhile_eq_nil_of_head ?_ _
  by_contra hc
  rw [List.takeWhile_cons_of_pos (by simpa using hc)] at hs
  cases hs

lemma dropWhile_eq_self {p : Char → Bool} {s : Str} (h : s.takeWhile p = []) :
    s.dropWhile p = s := by
  have hsplit := List.takeWhile_append_dropWhile (p := p) (l := s)
  rwa [h] at hsplit

/-- Gaps have no digits. -/
lemma takeWhile_isDigit_blanks (n : ℕ) (s : Str) :
    (blanks n ++ s).takeWhile Char.isDigit = [] := takeWhile_eq_nil_of_head rfl _

/-- Numbers have no blanks. -/
lemma takeWhile_isSpace_str (n : ℕ) (s : Str) : (str n ++ s).takeWhile isSpace = [] := by
  obtain ⟨c, ds, hc⟩ := List.exists_cons_of_ne_nil (str_ne_nil n)
  rw [hc, List.cons_append]
  refine takeWhile_eq_nil_of_head (isSpace_eq_false_of_isDigit ?_) _
  exact isDigit_of_mem_str (hc ▸ List.mem_cons_self)

/-! ## Columns -/

/-- What is behind a column and the gap after it. -/
def dropField (s : Str) : Str := (s.dropWhile nonSpace).dropWhile isSpace

lemma dropField_append {u b v : Str} (hu : ∀ c ∈ u, nonSpace c = true)
    (hb : ∀ c ∈ b, isSpace c = true) (hne : b ≠ []) (hv : v.takeWhile isSpace = []) :
    dropField (u ++ (b ++ v)) = v := by
  obtain ⟨c, b, rfl⟩ := List.exists_cons_of_ne_nil hne
  have hc := nonSpace_eq_false (hb c List.mem_cons_self)
  rw [dropField, List.dropWhile_append_of_pos hu, List.cons_append,
    List.dropWhile_cons_of_neg (by simp [hc]), ← List.cons_append,
    List.dropWhile_append_of_pos hb, dropWhile_eq_self hv]

variable {items : List Item} {p : ℕ}

/-- A column and a gap reject nothing but what follows them. -/
lemma matchItems_field_eq_none (hrest : Rejects isSpace items) {s : Str}
    (h : matchItems items (dropField s) = none) : matchItems (field ++ items) s = none := by
  have hspace : Rejects nonSpace (plus isSpace ++ items) := rejects_one fun _ => isSpace_eq_false
  rw [field, List.append_assoc, matchItems_plus hspace]
  split
  · rfl
  · rw [matchItems_plus hrest]
    split
    · rfl
    · rw [← dropField, h]
      rfl

lemma matchItems_field (hrest : Rejects isSpace items) {u b v : Str}
    (hu : ∀ c ∈ u, nonSpace c = true) (hune : u ≠ []) (hb : ∀ c ∈ b, isSpace c = true)
    (hbne : b ≠ []) (hv : v.takeWhile isSpace = []) :
    matchItems (field ++ items) (u ++ (b ++ v)) =
      (matchItems items v).map (pushParts (plusParts u ++ plusParts b)) := by
  have hbv : (b ++ v).takeWhile nonSpace = [] := by
    obtain ⟨c, b, rfl⟩ := List.exists_cons_of_ne_nil hbne
    exact takeWhile_eq_nil_of_head (nonSpace_eq_false (hb c List.mem_cons_self)) _
  have hspace : Rejects nonSpace (plus isSpace ++ items) := rejects_one fun _ => isSpace_eq_false
  rw [field, List.append_assoc, matchItems_plus_append hspace hu hune hbv,
    matchItems_plus_append hrest hb hbne hv, Option.map_map]
  exact congrArg (fun f => (matchItems items v).map f) (funext fun x => pushParts_pushParts _ _ x)

lemma rejects_ippat : Rejects isSpace (ippat ++ items) :=
  rejects_one fun _ => isDigit_eq_false_of_isSpace

lemma rejects_field : Rejects isSpace (field ++ items) :=
  rejects_one fun _ => nonSpace_eq_false

/-- Where no match begins: three columns further on there is no address that is followed by
another one. -/
lemma matchItems_pattern_eq_none {s : Str}
    (h : matchItems (localPattern p) (dropField (dropField (dropField s))) = none) :
    matchItems (pattern p) s = none :=
  matchItems_field_eq_none rejects_field <| matchItems_field_eq_none rejects_field <|
    matchItems_field_eq_none rejects_ippat h

/-- A column in which no match begins. -/
lemma finditer_field {u b v : Str} (hu : ∀ c ∈ u, nonSpace c = true)
    (hb : ∀ c ∈ b, isSpace c = true) (hbne : b ≠ []) (hv : v.takeWhile isSpace = [])
    (h : matchItems (localPattern p) (dropField (dropField v)) = none) :
    finditer (pattern p) (u ++ (b ++ v)) = finditer (pattern p) v := by
  rw [finditer_append, finditer_append]
  · intro t ht hsuffix
    obtain ⟨c, t, rfl⟩ := List.exists_cons_of_ne_nil ht
    exact rejects_field c _ (hb c (hsuffix.subset List.mem_cons_self))
  · intro t _ hsuffix
    refine matchItems_pattern_eq_none ?_
    rw [dropField_append (fun c hc => hu c (hsuffix.subset hc)) hb hbne hv, h]

/-! ## Addresses -/

/-- The parts of an address. -/
def ipParts (ip : Ipv4) : List Str :=
  plusParts (str ip.a) ++ (['.'] :: (plusParts (str ip.b) ++ (['.'] :: (plusParts (str ip.c) ++
    (['.'] :: plusParts (str ip.d))))))

lemma flatten_ipParts (ip : Ipv4) : (ipParts ip).flatten = ip.text := by
  simp [ipParts, Ipv4.text]

lemma rejects_dot : Rejects Char.isDigit (lit ['.'] ++ items) := by
  refine rejects_one ?_
  intro c hc
  by_contra h
  obtain rfl : c = '.' := by simpa using h
  cases hc

lemma rejects_colon : Rejects Char.isDigit (lit [':'] ++ items) := by
  refine rejects_one ?_
  intro c hc
  by_contra h
  obtain rfl : c = ':' := by simpa using h
  cases hc

/-- A number and a letter after it. -/
lemma matchItems_number {c : Char} (hc : c.isDigit = false)
    (hrest : Rejects Char.isDigit (lit [c] ++ items)) (n : ℕ) (v : Str) :
    matchItems (plus Char.isDigit ++ (lit [c] ++ items)) (str n ++ c :: v) =
      (matchItems items v).map (pushParts (plusParts (str n) ++ [[c]])) := by
  have hlit : matchItems (lit [c] ++ items) (c :: v) = (matchItems items v).map (pushParts [[c]]) :=
    matchItems_lit [c]
  rw [matchItems_plus_append hrest (fun d hd => isDigit_of_mem_str hd) (str_ne_nil n)
    (takeWhile_isDigit_cons hc v), hlit, Option.map_map]
  exact congrArg (fun f => (matchItems items v).map f) (funext fun x => pushParts_pushParts _ _ x)

/-- An address and a letter after it. -/
lemma matchItems_ippat (ip : Ipv4) (v : Str) :
    matchItems (ippat ++ (lit [':'] ++ items)) (ip.text ++ ':' :: v) =
      (matchItems items v).map (pushParts (ipParts ip ++ [[':']])) := by
  simp only [ippat, Ipv4.text, List.append_assoc, List.cons_append]
  rw [matchItems_number rfl rejects_dot, matchItems_number rfl rejects_dot,
    matchItems_number rfl rejects_dot, matchItems_number rfl rejects_colon]
  simp only [Option.map_map]
  refine congrArg (fun f => (matchItems items v).map f) (funext ?_)
  intro x
  simp [Function.comp_def, pushParts_pushParts, ipParts]

/-- What does not begin with a number that is followed by a dot is not an address. -/
lemma matchItems_ippat_eq_none {s : Str}
    (h : s.takeWhile Char.isDigit ≠ [] → ¬ ['.'] <+: s.dropWhile Char.isDigit) :
    matchItems (ippat ++ items) s = none := by
  simp only [ippat, List.append_assoc]
  rw [matchItems_plus rejects_dot]
  split
  · rfl
  · next hne =>
    rw [matchItems_lit_eq_none (h hne)]
    rfl

lemma matchItems_ippat_number {w v : Str} (hw : ∀ c ∈ w, c.isDigit = true) (n : ℕ) :
    matchItems (ippat ++ items) (w ++ (blanks n ++ v)) = none := by
  refine matchItems_ippat_eq_none ?_
  intro _ hdot
  rw [List.dropWhile_append_of_pos hw, dropWhile_eq_self (takeWhile_isDigit_blanks n v)] at hdot
  exact absurd (List.cons_prefix_cons.mp hdot).1 (by decide)

lemma matchItems_ippat_of_head {s : Str} (h : s.takeWhile Char.isDigit = []) :
    matchItems (ippat ++ items) s = none := matchItems_ippat_eq_none fun hne => absurd h hne

/-- An address with a port, before a gap. -/
lemma matchItems_localPattern (ip : Ipv4) (port n : ℕ) {v : Str} (hv : v.takeWhile isSpace = []) :
    matchItems (localPattern p) (Conn.endpoint ip port ++ (blanks n ++ v)) =
      (matchItems (peerPattern p) v).map
        (pushParts (ipParts ip ++ [[':'], str port, blanks n])) := by
  have hdigit : ∀ c ∈ str port, c.isDigit = true := fun c hc => isDigit_of_mem_str hc
  have hblank : ∀ c ∈ blanks n, isSpace c = true := fun c hc => isSpace_of_mem_blanks hc
  have hpeer : Rejects isSpace (peerPattern p) := rejects_ippat
  -- digits of the port that are given back begin no address
  have hback : ∀ w, w ≠ [] → w <:+ str port →
      matchItems (.star isSpace :: peerPattern p) (w ++ (blanks n ++ v)) = none := by
    intro w hw hsuffix
    have hwdigit : ∀ c ∈ w, c.isDigit = true := fun c hc => hdigit c (hsuffix.subset hc)
    obtain ⟨c, w, rfl⟩ := List.exists_cons_of_ne_nil hw
    have hstart : ((c :: w) ++ (blanks n ++ v)).takeWhile isSpace = [] :=
      takeWhile_eq_nil_of_head (isSpace_eq_false_of_isDigit (hwdigit c List.mem_cons_self)) _
    rw [matchItems_star_nil hstart, peerPattern, matchItems_ippat_number hwdigit]
    rfl
  rw [localPattern, Conn.endpoint, List.append_assoc, List.cons_append, matchItems_ippat,
    matchItems_star hdigit (takeWhile_isDigit_blanks n v) hback,
    matchItems_star hblank hv (hpeer.append hblank), Option.map_map, Option.map_map]
  refine congrArg (fun f => (matchItems (peerPattern p) v).map f) (funext ?_)
  intro x
  simp [Function.comp_def, pushParts_pushParts]

/-! ## The owner of a line -/

lemma notNewline_of_isDigit {c : Char} (h : c.isDigit = true) : notNewline c = true := by
  refine bne_iff_ne.mpr ?_
  intro heq
  rw [heq] at h
  cases h

lemma notNewline_of_mem_blanks {n : ℕ} {c : Char} (h : c ∈ blanks n) : notNewline c = true := by
  rw [List.eq_of_mem_replicate h]
  rfl

lemma notNewline_of_mem_str {n : ℕ} {c : Char} (h : c ∈ str n) : notNewline c = true :=
  notNewline_of_isDigit (isDigit_of_mem_str h)

lemma notNewline_needle (p : ℕ) : ∀ c ∈ needle p, notNewline c = true :=
  List.forall_mem_append.mpr ⟨by simp [notNewline], fun _ => notNewline_of_mem_str⟩

lemma Conn.users_def (x : Conn) : x.users =
    "users:((\"dcm_main\",".toList ++ (str x.pid ++ ',' :: (str x.fd ++ "))".toList)) := rfl

lemma Conn.notNewline_users (x : Conn) : ∀ c ∈ x.users, notNewline c = true := by
  rw [users_def]
  refine List.forall_mem_append.mpr ⟨by simp [notNewline], List.forall_mem_append.mpr
    ⟨fun _ => notNewline_of_mem_str, List.forall_mem_cons.mpr ⟨rfl, ?_⟩⟩⟩
  exact List.forall_mem_append.mpr ⟨fun _ => notNewline_of_mem_str, by simp [notNewline]⟩

/-- A number begins with the digits of another one, also when something else follows. -/
lemma str_prefix_append_cons_iff {m n : ℕ} {c : Char} (hc : c.isDigit = false) (s : Str) :
    str m <+: str n ++ c :: s ↔ str m <+: str n := by
  refine ⟨?_, fun h => h.trans (List.prefix_append _ _)⟩
  intro h
  rcases List.prefix_or_prefix_of_prefix h (List.prefix_append (str n) (c :: s)) with h' | h'
  · exact h'
  · obtain ⟨u, hu⟩ := h'
    rw [← hu, List.prefix_append_right_inj] at h
    -- no digit of `m` is left for the letter
    cases u with
    | nil => exact ⟨[], by rw [List.append_nil, ← hu, List.append_nil]⟩
    | cons d u =>
      obtain rfl := (List.cons_prefix_cons.mp h).1
      rw [isDigit_of_mem_str (hu ▸ List.mem_append_right _ List.mem_cons_self)] at hc
      cases hc

/-- Where the word for a process occurs at the end of a line. -/
lemma needle_infix_iff {x : Conn} {w : Str} (hw : ∀ c ∈ w, c.isDigit = true) (n : ℕ) :
    needle p <:+: w ++ (blanks n ++ x.users) ↔ str p <+: str x.pid := by
  have hneedle : needle p = '"' :: ("dcm_main\",".toList ++ str p) := rfl
  have husers : x.users = "users:((".toList ++ ('"' :: ("dcm_main\",".toList ++
      (str x.pid ++ ',' :: (str x.fd ++ "))".toList)))) := rfl
  have hquote : "dcm_main\",".toList ++ (str x.pid ++ ',' :: (str x.fd ++ "))".toList)) =
      "dcm_main".toList ++ ('"' :: ',' :: (str x.pid ++ ',' :: (str x.fd ++ "))".toList))) := rfl
  have hdigits : '"' ∉ w := fun h => by cases hw _ h
  have hblanks : '"' ∉ blanks n := fun h => by cases List.eq_of_mem_replicate h
  rw [hneedle, husers, cons_infix_append_iff hdigits, cons_infix_append_iff hblanks,
    cons_infix_append_iff (by decide), List.infix_cons_iff, List.cons_prefix_cons]
  -- the second quote of the line is not followed by the name
  have hsecond : ¬ '"' :: ("dcm_main\",".toList ++ str p) <:+:
      "dcm_main\",".toList ++ (str x.pid ++ ',' :: (str x.fd ++ "))".toList)) := by
    rw [hquote, cons_infix_append_iff (by decide), List.infix_cons_iff, List.cons_prefix_cons]
    rintro (⟨-, h⟩ | h)
    · exact absurd (List.cons_prefix_cons.mp h).1 (by decide)
    · refine not_infix_of_mem (a := '"') List.mem_cons_self ?_ h
      simp [not_mem_str]
  rw [or_iff_left hsecond, List.prefix_append_right_inj, str_prefix_append_cons_iff rfl]
  exact and_iff_right rfl

section Peer

variable {x : Conn} {r : Str}

/-- The rest of a line. -/
lemma lineRest (hr : r.takeWhile notNewline = []) {w : Str} (hw : ∀ c ∈ w, notNewline c = true) :
    (w ++ (x.users ++ r)).takeWhile notNewline = w ++ x.users ∧
      (w ++ (x.users ++ r)).dropWhile notNewline = r := by
  rw [List.takeWhile_append_of_pos hw, List.takeWhile_append_of_pos x.notNewline_users, hr,
    List.append_nil, List.dropWhile_append_of_pos hw,
    List.dropWhile_append_of_pos x.notNewline_users, dropWhile_eq_self hr]
  exact ⟨rfl, rfl⟩

/-- The line of a process whose id begins with the digits matches to its end. -/
lemma exists_matchItems_peerPattern (ip : Ipv4) (port n : ℕ) (hr : r.takeWhile notNewline = [])
    (hpid : str p <+: str x.pid) : ∃ parts,
    matchItems (peerPattern p) (Conn.endpoint ip port ++ (blanks n ++ (x.users ++ r))) =
      some (ipParts ip ++ [[':'], str port] ++ parts, r) := by
  obtain ⟨htake, hdrop⟩ := lineRest (x := x) hr fun c hc => notNewline_of_mem_blanks (n := n) hc
  have hinfix : needle p <:+: (blanks n ++ (x.users ++ r)).takeWhile notNewline := by
    rw [htake]
    exact (needle_infix_iff (w := []) (by simp) n).mpr hpid
  obtain ⟨parts, hparts⟩ := exists_matchItems_search (notNewline_needle p) hinfix
  rw [hdrop] at hparts
  refine ⟨parts, ?_⟩
  have hport := matchStar_append_of_some (fun c hc => isDigit_of_mem_str (n := port) hc)
    (takeWhile_isDigit_blanks n _) hparts
  rw [peerPattern, Conn.endpoint, List.append_assoc, List.cons_append, matchItems_ippat,
    matchItems, hport]
  simp [pushParts]

/-- The line of another process does not match. -/
lemma matchItems_peerPattern_eq_none (ip : Ipv4) (port n : ℕ) (hr : r.takeWhile notNewline = [])
    (hpid : ¬ str p <+: str x.pid) :
    matchItems (peerPattern p) (Conn.endpoint ip port ++ (blanks n ++ (x.users ++ r))) = none := by
  rw [peerPattern, Conn.endpoint, List.append_assoc, List.cons_append, matchItems_ippat, matchItems]
  rw [matchStar_eq_none]
  · rfl
  · intro u v huv hu
    refine matchItems_search_eq_none (notNewline_needle p) fun hinfix => hpid ?_
    refine (needle_infix_iff (fun _ hc => isDigit_of_mem_str (n := port) hc) n).mp ?_
    -- what is left of the line is a part of it
    have hw : ∀ c ∈ str port ++ blanks n, notNewline c = true :=
      List.forall_mem_append.mpr ⟨fun _ => notNewline_of_mem_str, fun _ => notNewline_of_mem_blanks⟩
    have htake := (lineRest (x := x) hr hw).1
    rw [List.append_assoc, List.append_assoc, huv,
      List.takeWhile_append_of_pos fun c hc => notNewline_of_isDigit (hu c hc)] at htake
    rw [← htake]
    exact hinfix.trans (List.suffix_append u _).isInfix

end Peer

/-! ## The columns of a line -/

namespace Conn

variable (x : Conn) (r : Str)

/-- A line from one of its columns on, with what follows the line. -/
def atUsers : Str := x.users ++ r
def atPeer : Str := endpoint x.peerIp x.peerPort ++ (blanks (x.gap 4) ++ x.atUsers r)
def atLocal : Str := endpoint x.localIp x.localPort ++ (blanks (x.gap 3) ++ x.atPeer r)
def atSendQ : Str := str x.sendQ ++ (blanks (x.gap 2) ++ x.atLocal r)
def atRecvQ : Str := str x.recvQ ++ (blanks (x.gap 1) ++ x.atSendQ r)

lemma text_append : x.text ++ r = "ESTAB".toList ++ (blanks (x.gap 0) ++ x.atRecvQ r) := by
  simp only [text, atRecvQ, atSendQ, atLocal, atPeer, atUsers, List.append_assoc]

lemma users_eq_cons : ∃ s, x.users = 'u' :: s := ⟨_, rfl⟩

lemma takeWhile_isSpace_users : (x.atUsers r).takeWhile isSpace = [] := by
  obtain ⟨s, hs⟩ := x.users_eq_cons
  rw [atUsers, hs]
  exact takeWhile_eq_nil_of_head rfl _

lemma takeWhile_isDigit_users : (x.atUsers r).takeWhile Char.isDigit = [] := by
  obtain ⟨s, hs⟩ := x.users_eq_cons
  rw [atUsers, hs]
  exact takeWhile_eq_nil_of_head rfl _

lemma takeWhile_isSpace_endpoint (ip : Ipv4) (port : ℕ) (s : Str) :
    (endpoint ip port ++ s).takeWhile isSpace = [] := by
  rw [endpoint, Ipv4.text, List.append_assoc, List.append_assoc]
  exact takeWhile_isSpace_str _ _

lemma text_eq_cons : ∃ s, x.text = 'E' :: s := ⟨_, rfl⟩

lemma takeWhile_text {q : Char → Bool} (hq : q 'E' = false) : (x.text ++ r).takeWhile q = [] := by
  obtain ⟨s, hs⟩ := x.text_eq_cons
  rw [hs]
  exact takeWhile_eq_nil_of_head hq _

lemma nonSpace_endpoint (ip : Ipv4) (port : ℕ) : ∀ c ∈ endpoint ip port, nonSpace c = true := by
  have hstr (n : ℕ) : ∀ c ∈ str n, nonSpace c = true := fun _ => nonSpace_of_mem_str
  have hcons (c : Char) (hc : nonSpace c = true) (n : ℕ) (s : Str)
      (hs : ∀ c ∈ s, nonSpace c = true) : ∀ d ∈ str n ++ c :: s, nonSpace d = true :=
    List.forall_mem_append.mpr ⟨hstr n, List.forall_mem_cons.mpr ⟨hc, hs⟩⟩
  rw [endpoint, Ipv4.text]
  simp only [List.append_assoc, List.cons_append]
  exact hcons _ rfl _ _ <| hcons _ rfl _ _ <| hcons _ rfl _ _ <| hcons _ rfl _ _ (hstr port)

lemma nonSpace_users : ∀ c ∈ x.users, nonSpace c = true := by
  rw [users_def]
  refine List.forall_mem_append.mpr ⟨by simp [nonSpace, isSpace], List.forall_mem_append.mpr
    ⟨fun _ => nonSpace_of_mem_str, List.forall_mem_cons.mpr ⟨rfl, ?_⟩⟩⟩
  exact List.forall_mem_append.mpr
    ⟨fun _ => nonSpace_of_mem_str, by simp [nonSpace, isSpace]⟩

lemma nonSpace_state : ∀ c ∈ "ESTAB".toList, nonSpace c = true := by simp [nonSpace, isSpace]

lemma takeWhile_isSpace_recvQ : (x.atRecvQ r).takeWhile isSpace = [] := takeWhile_isSpace_str _ _

lemma takeWhile_isSpace_sendQ : (x.atSendQ r).takeWhile isSpace = [] := takeWhile_isSpace_str _ _

lemma takeWhile_isSpace_local : (x.atLocal r).takeWhile isSpace = [] :=
  takeWhile_isSpace_endpoint _ _ _

lemma takeWhile_isSpace_peer : (x.atPeer r).takeWhile isSpace = [] :=
  takeWhile_isSpace_endpoint _ _ _

variable {x r}

lemma dropField_text : dropField (x.text ++ r) = x.atRecvQ r := by
  rw [text_append]
  exact dropField_append nonSpace_state (fun _ => isSpace_of_mem_blanks) (blanks_ne_nil _)
    (x.takeWhile_isSpace_recvQ r)

lemma dropField_atRecvQ : dropField (x.atRecvQ r) = x.atSendQ r :=
  dropField_append (fun _ => nonSpace_of_mem_str) (fun _ => isSpace_of_mem_blanks)
    (blanks_ne_nil _) (x.takeWhile_isSpace_sendQ r)

lemma dropField_atSendQ : dropField (x.atSendQ r) = x.atLocal r :=
  dropField_append (fun _ => nonSpace_of_mem_str) (fun _ => isSpace_of_mem_blanks)
    (blanks_ne_nil _) (x.takeWhile_isSpace_local r)

lemma dropField_atLocal : dropField (x.atLocal r) = x.atPeer r :=
  dropField_append (nonSpace_endpoint _ _) (fun _ => isSpace_of_mem_blanks) (blanks_ne_nil _)
    (x.takeWhile_isSpace_peer r)

lemma dropField_atPeer : dropField (x.atPeer r) = x.atUsers r :=
  dropField_append (nonSpace_endpoint _ _) (fun _ => isSpace_of_mem_blanks) (blanks_ne_nil _)
    (x.takeWhile_isSpace_users r)

/-- No column of numbers begins with an address. -/
lemma localPattern_text : matchItems (localPattern p) (x.text ++ r) = none :=
  matchItems_ippat_of_head (x.takeWhile_text r rfl)

lemma localPattern_atRecvQ : matchItems (localPattern p) (x.atRecvQ r) = none :=
  matchItems_ippat_number (fun _ => isDigit_of_mem_str) _

lemma localPattern_atSendQ : matchItems (localPattern p) (x.atSendQ r) = none :=
  matchItems_ippat_number (fun _ => isDigit_of_mem_str) _

lemma localPattern_atUsers : matchItems (localPattern p) (x.atUsers r) = none :=
  matchItems_ippat_of_head (x.takeWhile_isDigit_users r)

/-- No address follows the peer address. -/
lemma localPattern_atPeer : matchItems (localPattern p) (x.atPeer r) = none := by
  rw [atPeer, matchItems_localPattern _ _ _ (x.takeWhile_isSpace_users r), peerPattern,
    matchItems_ippat_of_head (x.takeWhile_isDigit_users r)]
  rfl

end Conn

/-! ## The lines of a listing -/

variable {conns : List Conn}

/-- The lines from the first letter of the first one on. -/
def firstLine (conns : List Conn) : Str := (linesText conns).dropWhile isSpace

lemma linesText_cons (x : Conn) (conns : List Conn) :
    linesText (x :: conns) = '\n' :: (x.text ++ linesText conns) := List.flatMap_cons ..

lemma firstLine_cons (x : Conn) (conns : List Conn) :
    firstLine (x :: conns) = x.text ++ linesText conns := by
  rw [firstLine, linesText_cons, List.dropWhile_cons_of_pos rfl,
    dropWhile_eq_self (x.takeWhile_text _ rfl)]

lemma takeWhile_linesText (conns : List Conn) {q : Char → Bool} (hq : q '\n' = false) :
    (linesText conns).takeWhile q = [] := by
  cases conns with
  | nil => rfl
  | cons x conns =>
    rw [linesText_cons]
    exact takeWhile_eq_nil_of_head hq _

lemma dropField_append_linesText {u : Str} (hu : ∀ c ∈ u, nonSpace c = true) :
    dropField (u ++ linesText conns) = firstLine conns := by
  rw [dropField, List.dropWhile_append_of_pos hu, dropWhile_eq_self (takeWhile_linesText _ rfl),
    firstLine]

/-- No match begins so close before the next line that its address would be reached too
early. -/
lemma localPattern_firstLine {m : ℕ} (hm : m ≤ 2) :
    matchItems (localPattern p) (dropField^[m] (firstLine conns)) = none := by
  cases conns with
  | nil =>
    have hnil : dropField^[m] (firstLine []) = [] := Function.iterate_fixed rfl m
    rw [hnil]
    exact matchItems_ippat_of_head rfl
  | cons x conns =>
    rw [firstLine_cons]
    have hcases : m = 0 ∨ m = 1 ∨ m = 2 := by omega
    rcases hcases with rfl | rfl | rfl
    · exact Conn.localPattern_text
    · exact (congrArg _ Conn.dropField_text).trans Conn.localPattern_atRecvQ
    · rw [Function.iterate_succ_apply, Conn.dropField_text, Function.iterate_one,
        Conn.dropField_atRecvQ]
      exact Conn.localPattern_atSendQ

/-- The local address of a line begins a match when its peer address does. -/
lemma Conn.localPattern_atLocal (x : Conn) (r : Str) :
    matchItems (localPattern p) (x.atLocal r) = (matchItems (peerPattern p) (x.atPeer r)).map
      (pushParts (ipParts x.localIp ++ [[':'], str x.localPort, blanks (x.gap 3)])) :=
  matchItems_localPattern _ _ _ (x.takeWhile_isSpace_peer r)

/-- The line of another process is passed over. -/
lemma finditer_line_of_other_digits {x : Conn} (hpid : ¬ str p <+: str x.pid) :
    finditer (pattern p) (x.text ++ linesText conns) = finditer (pattern p) (linesText conns) := by
  have hlocal : matchItems (localPattern p) (x.atLocal (linesText conns)) = none := by
    rw [Conn.localPattern_atLocal, Conn.atPeer, Conn.atUsers,
      matchItems_peerPattern_eq_none _ _ _ (takeWhile_linesText _ rfl) hpid]
    rfl
  have husers : dropField (x.atUsers (linesText conns)) = firstLine conns :=
    dropField_append_linesText x.nonSpace_users
  have hblank (n : ℕ) : ∀ c ∈ blanks n, isSpace c = true := fun _ => isSpace_of_mem_blanks
  calc finditer (pattern p) (x.text ++ linesText conns)
    _ = finditer (pattern p) (x.atRecvQ (linesText conns)) := by
      rw [Conn.text_append]
      refine finditer_field Conn.nonSpace_state (hblank _) (blanks_ne_nil _)
        (x.takeWhile_isSpace_recvQ _) ?_
      rw [Conn.dropField_atRecvQ, Conn.dropField_atSendQ, hlocal]
    _ = finditer (pattern p) (x.atSendQ (linesText conns)) := by
      refine finditer_field (fun _ => nonSpace_of_mem_str) (hblank _) (blanks_ne_nil _)
        (x.takeWhile_isSpace_sendQ _) ?_
      rw [Conn.dropField_atSendQ, Conn.dropField_atLocal, Conn.localPattern_atPeer]
    _ = finditer (pattern p) (x.atLocal (linesText conns)) := by
      refine finditer_field (fun _ => nonSpace_of_mem_str) (hblank _) (blanks_ne_nil _)
        (x.takeWhile_isSpace_local _) ?_
      rw [Conn.dropField_atLocal, Conn.dropField_atPeer, Conn.localPattern_atUsers]
    _ = finditer (pattern p) (x.atPeer (linesText conns)) := by
      refine finditer_field (Conn.nonSpace_endpoint _ _) (hblank _) (blanks_ne_nil _)
        (x.takeWhile_isSpace_peer _) ?_
      rw [Conn.dropField_atPeer, husers]
      exact localPattern_firstLine (m := 0) (by omega)
    _ = finditer (pattern p) (x.atUsers (linesText conns)) := by
      refine finditer_field (Conn.nonSpace_endpoint _ _) (hblank _) (blanks_ne_nil _)
        (x.takeWhile_isSpace_users _) ?_
      rw [husers]
      exact localPattern_firstLine (m := 1) (by omega)
    _ = finditer (pattern p) (linesText conns) := by
      refine finditer_append fun t _ hsuffix => matchItems_pattern_eq_none ?_
      rw [dropField_append_linesText fun c hc => x.nonSpace_users c (hsuffix.subset hc)]
      exact localPattern_firstLine (m := 2) le_rfl

/-- The groups of the match of a line. -/
def Conn.groups (x : Conn) : MatchObject :=
  ⟨x.localIp.text, str x.localPort, x.peerIp.text, str x.peerPort⟩

/-- The line of a process with the digits is a match. -/
lemma exists_finditer_line_of_digits (conns : List Conn) {x : Conn} (hpid : str p <+: str x.pid) :
    ∃ parts, finditer (pattern p) (x.text ++ linesText conns) =
      parts :: finditer (pattern p) (linesText conns) ∧ MatchObject.ofParts parts = x.groups := by
  have hblank (n : ℕ) : ∀ c ∈ blanks n, isSpace c = true := fun _ => isSpace_of_mem_blanks
  obtain ⟨parts, hparts⟩ := exists_matchItems_peerPattern (x := x) x.peerIp x.peerPort (x.gap 4)
    (takeWhile_linesText conns rfl) hpid
  have hreject : Rejects isSpace (localPattern p) := rejects_ippat
  have hsome : matchItems (pattern p) (x.text ++ linesText conns) =
      some (plusParts "ESTAB".toList ++ plusParts (blanks (x.gap 0)) ++
        (plusParts (str x.recvQ) ++ plusParts (blanks (x.gap 1)) ++
          (plusParts (str x.sendQ) ++ plusParts (blanks (x.gap 2)) ++
            (ipParts x.localIp ++ [[':'], str x.localPort, blanks (x.gap 3)] ++
              (ipParts x.peerIp ++ [[':'], str x.peerPort] ++ parts)))), linesText conns) := by
    rw [pattern, Conn.text_append, matchItems_field rejects_field Conn.nonSpace_state (by simp)
      (hblank _) (blanks_ne_nil _) (x.takeWhile_isSpace_recvQ _), Conn.atRecvQ,
      matchItems_field rejects_field (fun _ => nonSpace_of_mem_str) (str_ne_nil _)
      (hblank _) (blanks_ne_nil _) (x.takeWhile_isSpace_sendQ _), Conn.atSendQ,
      matchItems_field hreject (fun _ => nonSpace_of_mem_str) (str_ne_nil _)
      (hblank _) (blanks_ne_nil _) (x.takeWhile_isSpace_local _), Conn.localPattern_atLocal,
      Conn.atPeer, Conn.atUsers, hparts]
    rfl
  refine ⟨_, finditer_of_match (List.cons_ne_nil _ _) hsome, ?_⟩
  calc MatchObject.ofParts _
    _ = ⟨(ipParts x.localIp).flatten, [str x.localPort].flatten, (ipParts x.peerIp).flatten,
          [str x.peerPort].flatten⟩ := rfl
    _ = x.groups := by
      rw [flatten_ipParts, flatten_ipParts, List.flatten_singleton, List.flatten_singleton]
      rfl

/-- **The search in the lines.**  The matches are the lines whose process id begins with the
digits of `p`. -/
lemma finditer_lines (conns : List Conn) :
    (finditer (pattern p) (linesText conns)).map MatchObject.ofParts =
      (conns.filter fun x => decide (str p <+: str x.pid)).map Conn.groups := by
  induction conns with
  | nil =>
    rw [linesText, List.flatMap_nil, finditer_nil]
    rfl
  | cons x conns ih =>
    have hnewline : finditer (pattern p) (linesText (x :: conns)) =
        finditer (pattern p) (x.text ++ linesText conns) :=
      finditer_cons_of_none (rejects_field '\n' _ rfl)
    rw [hnewline]
    by_cases hpid : str p <+: str x.pid
    · obtain ⟨parts, hparts, hgroups⟩ := exists_finditer_line_of_digits conns hpid
      rw [hparts, List.map_cons, hgroups, ih, List.filter_cons_of_pos (by simpa using hpid),
        List.map_cons]
    · rw [finditer_line_of_other_digits hpid, ih, List.filter_cons_of_neg (by simpa using hpid)]

/-! ## The header -/

/-- Dropping a column of a text without digits leads to another such text, or to the first
line. -/
lemma dropField_header (conns : List Conn) {h : Str} (hh : ∀ c ∈ h, c.isDigit = false) :
    (∃ h', (∀ c ∈ h', c.isDigit = false) ∧
        dropField (h ++ linesText conns) = h' ++ linesText conns) ∨
      dropField (h ++ linesText conns) = firstLine conns := by
  rw [dropField, List.dropWhile_append]
  split
  · rw [dropWhile_eq_self (takeWhile_linesText _ rfl)]
    exact Or.inr rfl
  · rw [List.dropWhile_append]
    split
    · exact Or.inr rfl
    · refine Or.inl ⟨_, fun c hc => hh c ?_, rfl⟩
      exact (List.dropWhile_sublist _).subset ((List.dropWhile_sublist _).subset hc)

lemma iterate_dropField_header (conns : List Conn) (m : ℕ) {h : Str}
    (hh : ∀ c ∈ h, c.isDigit = false) :
    (∃ h', (∀ c ∈ h', c.isDigit = false) ∧
        dropField^[m] (h ++ linesText conns) = h' ++ linesText conns) ∨
      ∃ k < m, dropField^[m] (h ++ linesText conns) = dropField^[k] (firstLine conns) := by
  induction m generalizing h with
  | zero => exact Or.inl ⟨h, hh, rfl⟩
  | succ m ih =>
    rw [Function.iterate_succ_apply]
    rcases dropField_header conns hh with ⟨h', hh', heq⟩ | heq
    · rw [heq]
      rcases ih hh' with hleft | ⟨k, hk, heq'⟩
      · exact Or.inl hleft
      · exact Or.inr ⟨k, by omega, heq'⟩
    · rw [heq]
      exact Or.inr ⟨m, by omega, rfl⟩

/-- No match begins in a header. -/
lemma finditer_header (conns : List Conn) {h : Str} (hh : ∀ c ∈ h, c.isDigit = false) :
    finditer (pattern p) (h ++ linesText conns) = finditer (pattern p) (linesText conns) := by
  refine finditer_append fun t _ hsuffix => matchItems_pattern_eq_none ?_
  have ht : ∀ c ∈ t, c.isDigit = false := fun c hc => hh c (hsuffix.subset hc)
  show matchItems (localPattern p) (dropField^[3] (t ++ linesText conns)) = none
  rcases iterate_dropField_header conns 3 ht with ⟨h', hh', heq⟩ | ⟨k, hk, heq⟩
  · rw [heq]
    refine matchItems_ippat_of_head ?_
    cases h' with
    | nil => exact takeWhile_linesText _ rfl
    | cons c h' => exact takeWhile_eq_nil_of_head (hh' c List.mem_cons_self) _
  · rw [heq]
    exact localPattern_firstLine (by omega)

/-! ## The whole listing -/

/-- `strip` takes only blanks away. -/
lemma mem_of_mem_strip {s : Str} {c : Char} (h : c ∈ strip s) : c ∈ s := by
  rw [strip, List.mem_reverse] at h
  have hrev := (List.dropWhile_sublist _).subset h
  exact (List.dropWhile_sublist _).subset (List.mem_reverse.mp hrev)

/-- It takes the last line end away. -/
lemma strip_append_newline {s : Str} {c : Char} (hne : s ≠ []) (hs : s.takeWhile isSpace = [])
    (hc : isSpace c = false) : strip (s ++ [c] ++ ['\n']) = s ++ [c] := by
  have hstart : (s ++ [c] ++ ['\n']).dropWhile isSpace = s ++ [c] ++ ['\n'] := by
    rw [List.append_assoc]
    exact dropWhile_eq_self (takeWhile_append_eq_nil hne hs _)
  rw [strip, hstart, List.reverse_append, List.reverse_append, List.reverse_singleton,
    List.reverse_singleton, List.singleton_append, List.dropWhile_cons_of_pos rfl,
    List.singleton_append, List.dropWhile_cons_of_neg (by simp [hc]), List.reverse_cons,
    List.reverse_reverse]

lemma Conn.text_eq_concat (x : Conn) : ∃ t, x.text = t ++ [')'] := by
  have hend : "))".toList = [')'] ++ [')'] := rfl
  rw [text, users_def, hend]
  simp only [← List.append_assoc, ← List.cons_append]
  exact ⟨_, rfl⟩

/-- The flows that are found for a process in a listing. -/
lemma finditer_listing (L : Listing) (p : ℕ) :
    (finditer (pattern p) (strip L.text)).map MatchObject.ofParts =
      (L.conns.filter fun x => decide (str p <+: str x.pid)).map Conn.groups := by
  rw [← finditer_lines]
  rcases List.eq_nil_or_concat L.conns with hconns | ⟨conns, x, hconns⟩
  · -- without connections there are no digits
    have hdigits : ∀ c ∈ strip L.text, c.isDigit = false := by
      intro c hc
      have hmem := mem_of_mem_strip hc
      rw [Listing.text, hconns] at hmem
      rcases List.mem_append.mp hmem with h | h
      · exact L.header_digits c h
      · obtain rfl := List.mem_singleton.mp h
        rfl
    have hheader := finditer_header (p := p) [] hdigits
    rw [linesText, List.flatMap_nil, List.append_nil] at hheader
    rw [hheader, hconns]
    rfl
  · have hstrip : strip L.text = L.header ++ linesText L.conns := by
      obtain ⟨t, ht⟩ := x.text_eq_concat
      have hlines : linesText L.conns = linesText conns ++ ('\n' :: t) ++ [')'] := by
        rw [hconns, List.concat_eq_append, linesText, List.flatMap_append, List.flatMap_singleton,
          ht, ← linesText, ← List.cons_append, List.append_assoc]
      rw [Listing.text, hlines, ← List.append_assoc, ← List.append_assoc]
      exact strip_append_newline (by simp [L.header_ne])
        (takeWhile_append_eq_nil L.header_ne L.header_start _) rfl
    rw [hstrip, finditer_header L.conns L.header_digits]

end DaqSwitch.Odl.Ss
