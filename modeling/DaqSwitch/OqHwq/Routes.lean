import DaqSwitch.OqHwq.Init
import DaqSwitch.OqHwq.ProcessPacket

/-!
# The routes of the output-queued data path

`dp_configure` of `dp_oq_hwq.c` makes a lookup table for each socket that has an lcore, and
`add_ipv4_rule` writes a rule into these tables one after the other, up to the first that refuses
it.  The tables before this one keep the rule, so the tables of two sockets can differ: what the
one of the higher socket has taken is a part of what the one of the lower socket has taken.
-/

namespace DaqSwitch.OqHwq

open Lib.Machine
open VoqHwq (Platform)

def nbSockets : ℕ := 8

/-! ## Tables -/

/-- The library of the tables: a new table, and a table with one more rule of depth 32. -/
structure LpmLibrary where
  create : Lpm
  add : Lpm → BitVec 32 → BitVec 8 → Lpm

/-- A table with rules for single addresses finds the last rule for an address. -/
structure LpmLibrary.Lawful (lib : LpmLibrary) : Prop where
  create : ∀ ip, lib.create.lookup ip = none
  add : ∀ lpm ip port ip',
    (lib.add lpm ip port).lookup ip' = if ip' = ip then some port else lpm.lookup ip'
  createX4 : lib.create.AgreesX4
  addX4 : ∀ lpm ip port, lpm.AgreesX4 → (lib.add lpm ip port).AgreesX4

/-- The array `ipv4_lookup_struct`, the socket whose table an lcore's pointer of this name leads
to, and `nb_ip_routes`. -/
structure Tables where
  ipv4LookupStruct : ℕ → Option Lpm
  lcoreLookup : ℕ → Option ℕ
  nbIpRoutes : BitVec 32

structure Rule where
  ipv4 : BitVec 32
  portOutId : BitVec 8
deriving DecidableEq, Repr

namespace Tables

/-- Static storage. -/
def zero : Tables := ⟨fun _ => none, fun _ => none, 0⟩

/-- The table that an lcore looks up in. -/
def lpm (t : Tables) (lcoreId : ℕ) : Option Lpm := (t.lcoreLookup lcoreId).bind t.ipv4LookupStruct

/-- The sockets with a table. -/
def present (t : Tables) (socketid : ℕ) : Bool := (t.ipv4LookupStruct socketid).isSome

/-- `setup_lpm`, when `rte_lpm_create` returns a table or not. -/
def setupLpm (lib : LpmLibrary) (created : Bool) (socketid : ℕ) (t : Tables) : Tables :=
  { t with ipv4LookupStruct :=
      Function.update t.ipv4LookupStruct socketid (if created then some lib.create else none) }

/-- `qconf->ipv4_lookup_struct = ipv4_lookup_struct[socketid]`. -/
def setLookup (lcoreId socketid : ℕ) (t : Tables) : Tables :=
  let found := if t.present socketid then some socketid else none
  { t with lcoreLookup := Function.update t.lcoreLookup lcoreId found }

lemma setLookup_lcoreLookup (lcoreId socketid : ℕ) (t : Tables) (l : ℕ) :
    (t.setLookup lcoreId socketid).lcoreLookup l =
      if l = lcoreId then if t.present socketid then some socketid else none
      else t.lcoreLookup l :=
  Function.update_apply _ _ _ _

end Tables

/-! ## The functions -/

/-- The local `socketid` of an lcore. -/
def socketId (P : Platform) (numaOn : Bool) (lcoreId : ℕ) : ℕ :=
  if numaOn then P.lcoreSocket lcoreId % 2 ^ 8 else 0

/-- The body of the loops of `dp_configure`.  The result of `setup_lpm` is not looked at, and
nothing compares the socket with the length of the array. -/
def configureLpm (lib : LpmLibrary) (P : Platform) (numaOn : Bool) (created : ℕ → ℕ → Bool)
    (portid lcoreId : ℕ) (t : Tables) : Option Tables :=
  let socketid := socketId P numaOn lcoreId
  if nbSockets ≤ socketid then none
  else
    let t := if t.present socketid then t else t.setupLpm lib (created portid lcoreId) socketid
    some (t.setLookup lcoreId socketid)

/-- `dp_configure`, with the answers of `rte_lpm_create` by port and lcore. -/
def dpConfigure (lib : LpmLibrary) (P : Platform) (numaOn : Bool) (created : ℕ → ℕ → Bool) :
    Option Tables :=
  run (fun portid => run (configureLpm lib P numaOn created portid) P.lcores)
    (List.range P.nbPorts) .zero

/-- The loop over the sockets, with the answers of `rte_lpm_add` by socket. -/
def addRuleLoop (lib : LpmLibrary) (rets : ℕ → ℤ) (rule : Rule) :
    List ℕ → ℤ × (ℕ → Option Lpm) → ℤ × (ℕ → Option Lpm)
  | [], s => s
  | socketid :: rest, s =>
    match s.2 socketid with
    | none => addRuleLoop lib rets rule rest s
    | some lpm =>
      let ret := rets socketid
      if ret < 0 then (ret, s.2)
      else addRuleLoop lib rets rule rest (ret,
        Function.update s.2 socketid (some (lib.add lpm rule.ipv4 rule.portOutId)))

/-- `add_ipv4_rule`. -/
def Tables.addIpv4Rule (lib : LpmLibrary) (rets : ℕ → ℤ) (rule : Rule) (t : Tables) :
    ℤ × Tables :=
  let r := addRuleLoop lib rets rule (List.range nbSockets) (0, t.ipv4LookupStruct)
  (r.1, { t with ipv4LookupStruct := r.2, nbIpRoutes := t.nbIpRoutes + 1 })

/-- A call of `add_ipv4_rule`, with the answers of the tables. -/
structure AddCall where
  rule : Rule
  rets : ℕ → ℤ

/-- Calls of `add_ipv4_rule`: their results, and the tables after them. -/
def Tables.addIpv4Rules (lib : LpmLibrary) : List AddCall → Tables → List ℤ × Tables
  | [], t => ([], t)
  | c :: cs, t =>
    let (ret, t) := t.addIpv4Rule lib c.rets c.rule
    let rest := t.addIpv4Rules lib cs
    (ret :: rest.1, rest.2)

/-- The routes of `dp_install_default_tables`. -/
def defaultRules : List Rule :=
  [⟨0x14010101, 9⟩, ⟨0x14010201, 8⟩, ⟨0x14010301, 6⟩, ⟨0x14010401, 7⟩, ⟨0x14010501, 2⟩,
    ⟨0x14010601, 3⟩, ⟨0x14010701, 0⟩, ⟨0x14010801, 1⟩, ⟨0x14010901, 4⟩, ⟨0x14010a01, 5⟩,
    ⟨0x14010b01, 10⟩, ⟨0x14010c01, 11⟩]

/-- `dp_install_default_tables`, whose result is a success whatever the calls return. -/
def Tables.dpInstallDefaultTables (lib : LpmLibrary) (rets : ℕ → ℕ → ℤ) (t : Tables) : Tables :=
  (t.addIpv4Rules lib (defaultRules.mapIdx fun i rule => ⟨rule, rets i⟩)).2

/-! ## Which table takes a rule -/

/-- The port that a list of rules gives for an address: that of the last rule for it. -/
def route (rules : List Rule) (ip : BitVec 32) : Option (BitVec 8) :=
  rules.foldl (fun found rule => if ip = rule.ipv4 then some rule.portOutId else found) none

lemma route_append_singleton (rules : List Rule) (rule : Rule) (ip : BitVec 32) :
    route (rules ++ [rule]) ip =
      if ip = rule.ipv4 then some rule.portOutId else route rules ip := by
  rw [route, List.foldl_append]
  rfl

/-- A table after some rules. -/
def LpmLibrary.addAll (lib : LpmLibrary) (rules : List Rule) (lpm : Lpm) : Lpm :=
  rules.foldl (fun lpm rule => lib.add lpm rule.ipv4 rule.portOutId) lpm

/-- A new table finds the last of the rules that were added to it. -/
lemma LpmLibrary.Lawful.lookup_addAll {lib : LpmLibrary} (hlib : lib.Lawful) (rules : List Rule)
    (ip : BitVec 32) : (lib.addAll rules lib.create).lookup ip = route rules ip := by
  have hall : ∀ (rules : List Rule) (lpm : Lpm), (lib.addAll rules lpm).lookup ip = rules.foldl
      (fun found rule => if ip = rule.ipv4 then some rule.portOutId else found)
      (lpm.lookup ip) := by
    intro rules
    induction rules with
    | nil => exact fun lpm => rfl
    | cons rule rules ih =>
      intro lpm
      rw [List.foldl_cons, ← hlib.add]
      exact ih _
  rw [hall, hlib.create, route]

lemma LpmLibrary.Lawful.agreesX4_addAll {lib : LpmLibrary} (hlib : lib.Lawful)
    (rules : List Rule) : (lib.addAll rules lib.create).AgreesX4 :=
  List.foldlRecOn rules _ hlib.createX4 fun lpm h _ _ => hlib.addX4 lpm _ _ h

/-- The loop breaks at a table that refuses the rule. -/
def breaksAt (present : ℕ → Bool) (rets : ℕ → ℤ) (socketid : ℕ) : Bool :=
  present socketid && decide (rets socketid < 0)

/-- The loop comes to a socket and does not break there. -/
def takes (present : ℕ → Bool) (rets : ℕ → ℤ) (socketid : ℕ) : Bool :=
  (List.range (socketid + 1)).all fun s => !breaksAt present rets s

lemma takes_iff {present : ℕ → Bool} {rets : ℕ → ℤ} {socketid : ℕ} :
    takes present rets socketid = true ↔ ∀ s ≤ socketid, breaksAt present rets s = false := by
  simp [takes]

lemma takes_mono {present : ℕ → Bool} {rets : ℕ → ℤ} {s s' : ℕ} (hle : s ≤ s')
    (h : takes present rets s' = true) : takes present rets s = true :=
  takes_iff.mpr fun i hi => takes_iff.mp h i (hi.trans hle)

/-- The rules that the table of a socket takes. -/
def taken (present : ℕ → Bool) (calls : List AddCall) (socketid : ℕ) : List Rule :=
  (calls.filter fun c => takes present c.rets socketid).map AddCall.rule

/-- The table of a higher socket takes no more. -/
lemma taken_sublist (present : ℕ → Bool) (calls : List AddCall) {s s' : ℕ} (hle : s ≤ s') :
    (taken present calls s').Sublist (taken present calls s) := by
  refine List.Sublist.map _ (List.monotone_filter_right calls ?_)
  intro c hc
  exact takes_mono hle hc

lemma taken_cons (present : ℕ → Bool) (c : AddCall) (calls : List AddCall) (s : ℕ) :
    taken present (c :: calls) s =
      if takes present c.rets s then c.rule :: taken present calls s
      else taken present calls s := by
  rw [taken, List.filter_cons]
  split <;> rfl

/-! ## One call -/

/-- No socket from `a` on and below `b` breaks the loop. -/
def NoBreak (present : ℕ → Bool) (rets : ℕ → ℤ) (a b : ℕ) : Prop :=
  ∀ s < b, a ≤ s → breaksAt present rets s = false

instance (present : ℕ → Bool) (rets : ℕ → ℤ) (a b : ℕ) : Decidable (NoBreak present rets a b) :=
  inferInstanceAs (Decidable (∀ s < b, a ≤ s → breaksAt present rets s = false))

lemma noBreak_succ {present : ℕ → Bool} {rets : ℕ → ℤ} {a : ℕ}
    (h : breaksAt present rets a = false) (b : ℕ) :
    NoBreak present rets a b ↔ NoBreak present rets (a + 1) b := by
  constructor
  · intro hall s hb hs
    exact hall s hb (by omega)
  · intro hall s hb hs
    rcases Nat.eq_or_lt_of_le hs with rfl | hs
    · exact h
    · exact hall s hb hs

lemma not_noBreak {present : ℕ → Bool} {rets : ℕ → ℤ} {a b : ℕ}
    (h : breaksAt present rets a = true) (hab : a < b) : ¬ NoBreak present rets a b := by
  intro hall
  rw [hall a hab le_rfl] at h
  cases h

lemma takes_iff_noBreak {present : ℕ → Bool} {rets : ℕ → ℤ} {s : ℕ} :
    takes present rets s = true ↔ NoBreak present rets 0 (s + 1) := by
  rw [takes_iff]
  exact ⟨fun h i hi _ => h i (Nat.lt_succ_iff.mp hi),
    fun h i hi => h i (Nat.lt_succ_iff.mpr hi) (Nat.zero_le i)⟩

section Calls

variable {lib : LpmLibrary} {rets : ℕ → ℤ} {rule : Rule} {t : Tables}

/-- The loop after a round that does not break, at a socket with or without a table. -/
lemma addRuleLoop_cons (lib : LpmLibrary) (rule : Rule) {a : ℕ} (rest : List ℕ)
    {s : ℤ × (ℕ → Option Lpm)} (hret : 0 ≤ s.1)
    (h : breaksAt (fun i => (s.2 i).isSome) rets a = false) :
    ∃ ret, 0 ≤ ret ∧ addRuleLoop lib rets rule (a :: rest) s =
      addRuleLoop lib rets rule rest (ret, Function.update s.2 a
        ((s.2 a).map fun lpm => lib.add lpm rule.ipv4 rule.portOutId)) := by
  cases htable : s.2 a with
  | none =>
    have hsame : Function.update s.2 a none = s.2 := by rw [← htable, Function.update_eq_self]
    refine ⟨s.1, hret, ?_⟩
    rw [Option.map_none, hsame]
    simp only [addRuleLoop, htable]
  | some lpm =>
    have hpos : ¬ rets a < 0 := by simpa [breaksAt, htable] using h
    refine ⟨rets a, not_lt.mp hpos, ?_⟩
    simp only [addRuleLoop, htable, if_neg hpos, Option.map_some]

/-- The loop at a table that refuses the rule. -/
lemma addRuleLoop_break (lib : LpmLibrary) (rule : Rule) {a : ℕ} (rest : List ℕ)
    {s : ℤ × (ℕ → Option Lpm)} (h : breaksAt (fun i => (s.2 i).isSome) rets a = true) :
    addRuleLoop lib rets rule (a :: rest) s = (rets a, s.2) ∧ rets a < 0 := by
  obtain ⟨hsome, hneg⟩ := (Bool.and_eq_true _ _).mp h
  obtain ⟨lpm, hlpm⟩ := Option.isSome_iff_exists.mp hsome
  have hneg := of_decide_eq_true hneg
  rw [addRuleLoop, hlpm]
  exact ⟨if_pos hneg, hneg⟩

/-- What the loop does from socket `a` on. -/
lemma addRuleLoop_range' (lib : LpmLibrary) (rets : ℕ → ℤ) (rule : Rule) (a n : ℕ) {ret : ℤ}
    (hret : 0 ≤ ret) (T : ℕ → Option Lpm) :
    (∀ s, (addRuleLoop lib rets rule (List.range' a n) (ret, T)).2 s =
      if a ≤ s ∧ s < a + n ∧ NoBreak (fun i => (T i).isSome) rets a (s + 1)
      then (T s).map fun lpm => lib.add lpm rule.ipv4 rule.portOutId else T s) ∧
    (0 ≤ (addRuleLoop lib rets rule (List.range' a n) (ret, T)).1 ↔
      NoBreak (fun i => (T i).isSome) rets a (a + n)) := by
  induction n generalizing a ret T with
  | zero =>
    refine ⟨fun s => ?_, iff_of_true hret fun s hs hs' => absurd hs (by omega)⟩
    rw [if_neg (by omega)]
    rfl
  | succ n ih =>
    rw [List.range'_succ]
    cases hbreak : breaksAt (fun i => (T i).isSome) rets a with
    | true =>
      obtain ⟨heq, hneg⟩ := addRuleLoop_break lib rule (List.range' (a + 1) n) (s := (ret, T))
        hbreak
      rw [heq]
      refine ⟨fun s => ?_, iff_of_false (not_le.mpr hneg) (not_noBreak hbreak (by omega))⟩
      rw [if_neg fun h => not_noBreak hbreak (by omega) h.2.2]
    | false =>
      obtain ⟨ret', hret', heq⟩ := addRuleLoop_cons lib rule (List.range' (a + 1) n)
        (s := (ret, T)) hret hbreak
      obtain ⟨htables, hresult⟩ := ih (a + 1) hret' (Function.update T a
        ((T a).map fun lpm => lib.add lpm rule.ipv4 rule.portOutId))
      have hsame : (fun i => (Function.update T a
          ((T a).map fun lpm => lib.add lpm rule.ipv4 rule.portOutId) i).isSome) =
            fun i => (T i).isSome := by
        funext i
        exact apply_update_eq Option.isSome (Option.isSome_map ..) i
      rw [hsame] at htables hresult
      rw [heq]
      refine ⟨fun s => ?_, ?_⟩
      · rw [htables]
        rcases eq_or_ne s a with rfl | hs
        · rw [if_neg (by omega), Function.update_self, if_pos]
          refine ⟨le_rfl, by omega, (noBreak_succ hbreak _).mpr ?_⟩
          exact fun i hi hi' => absurd hi' (by omega)
        · have hrange : (a + 1 ≤ s ∧ s < a + 1 + n) ↔ (a ≤ s ∧ s < a + (n + 1)) := by omega
          rw [Function.update_of_ne hs]
          refine if_congr ?_ rfl rfl
          rw [noBreak_succ hbreak, ← and_assoc, ← and_assoc, hrange]
      · rw [hresult, noBreak_succ hbreak, Nat.add_right_comm, Nat.add_assoc]

/-- What a call does to the tables. -/
lemma addIpv4Rule_ipv4LookupStruct (lib : LpmLibrary) (rets : ℕ → ℤ) (rule : Rule) (t : Tables)
    (s : ℕ) : (t.addIpv4Rule lib rets rule).2.ipv4LookupStruct s =
      if s < nbSockets ∧ takes t.present rets s = true
      then (t.ipv4LookupStruct s).map fun lpm => lib.add lpm rule.ipv4 rule.portOutId
      else t.ipv4LookupStruct s := by
  have h := (addRuleLoop_range' lib rets rule 0 nbSockets le_rfl t.ipv4LookupStruct).1 s
  rw [← List.range_eq_range'] at h
  refine h.trans (if_congr ?_ rfl rfl)
  rw [takes_iff_noBreak]
  simp only [Nat.zero_le, Nat.zero_add, true_and]
  rfl

/-- When a call fails. -/
lemma addIpv4Rule_nonneg_iff (lib : LpmLibrary) (rets : ℕ → ℤ) (rule : Rule) (t : Tables) :
    0 ≤ (t.addIpv4Rule lib rets rule).1 ↔ NoBreak t.present rets 0 nbSockets := by
  have h := (addRuleLoop_range' lib rets rule 0 nbSockets le_rfl t.ipv4LookupStruct).2
  rw [← List.range_eq_range', Nat.zero_add] at h
  exact h

@[simp] lemma addIpv4Rule_present (lib : LpmLibrary) (rets : ℕ → ℤ) (rule : Rule) (t : Tables) :
    (t.addIpv4Rule lib rets rule).2.present = t.present := by
  funext s
  rw [Tables.present, Tables.present, addIpv4Rule_ipv4LookupStruct]
  split
  · exact Option.isSome_map ..
  · rfl

@[simp] lemma addIpv4Rule_lcoreLookup (lib : LpmLibrary) (rets : ℕ → ℤ) (rule : Rule)
    (t : Tables) : (t.addIpv4Rule lib rets rule).2.lcoreLookup = t.lcoreLookup := rfl

end Calls

/-! ## Sequences of calls -/

section Sequences

variable {lib : LpmLibrary} {P : Platform} {numaOn : Bool} {created : ℕ → ℕ → Bool} {t : Tables}

lemma addIpv4Rules_cons (lib : LpmLibrary) (c : AddCall) (calls : List AddCall) (t : Tables) :
    t.addIpv4Rules lib (c :: calls) =
      ((t.addIpv4Rule lib c.rets c.rule).1 ::
          ((t.addIpv4Rule lib c.rets c.rule).2.addIpv4Rules lib calls).1,
        ((t.addIpv4Rule lib c.rets c.rule).2.addIpv4Rules lib calls).2) := rfl

/-- Each table gets the rules that it takes. -/
lemma addIpv4Rules_ipv4LookupStruct (calls : List AddCall) (t : Tables) {s : ℕ}
    (hs : s < nbSockets) : (t.addIpv4Rules lib calls).2.ipv4LookupStruct s =
      (t.ipv4LookupStruct s).map (lib.addAll (taken t.present calls s)) := by
  induction calls generalizing t with
  | nil =>
    show t.ipv4LookupStruct s = (t.ipv4LookupStruct s).map id
    rw [Option.map_id, id]
  | cons c calls ih =>
    rw [addIpv4Rules_cons, ih, addIpv4Rule_present, addIpv4Rule_ipv4LookupStruct]
    by_cases htakes : takes t.present c.rets s = true
    · rw [if_pos ⟨hs, htakes⟩, Option.map_map, taken_cons, if_pos htakes]
      rfl
    · rw [if_neg fun h => htakes h.2, taken_cons, if_neg htakes]

lemma addIpv4Rules_present (lib : LpmLibrary) (calls : List AddCall) (t : Tables) :
    (t.addIpv4Rules lib calls).2.present = t.present := by
  induction calls generalizing t with
  | nil => rfl
  | cons c calls ih => rw [addIpv4Rules_cons, ih, addIpv4Rule_present]

/-- The result of each call. -/
lemma addIpv4Rules_results (calls : List AddCall) (t : Tables) :
    List.Forall₂ (fun c ret => 0 ≤ ret ↔ NoBreak t.present c.rets 0 nbSockets) calls
      (t.addIpv4Rules lib calls).1 := by
  induction calls generalizing t with
  | nil => exact .nil
  | cons c calls ih =>
    rw [addIpv4Rules_cons]
    refine .cons (addIpv4Rule_nonneg_iff lib c.rets c.rule t) ?_
    have htail := ih (t.addIpv4Rule lib c.rets c.rule).2
    rwa [addIpv4Rule_present] at htail

lemma addIpv4Rules_nbIpRoutes (calls : List AddCall) (t : Tables) :
    (t.addIpv4Rules lib calls).2.nbIpRoutes =
      t.nbIpRoutes + BitVec.ofNat 32 calls.length := by
  induction calls generalizing t with
  | nil => exact (BitVec.add_zero _).symm
  | cons c calls ih =>
    rw [addIpv4Rules_cons, ih, List.length_cons, Nat.add_comm calls.length, BitVec.ofNat_add,
      ← BitVec.add_assoc]
    rfl

/-- What `dp_configure` leaves: new tables on sockets of lcores, and lcores that look up in the
table of their socket. -/
structure TablesReady (lib : LpmLibrary) (P : Platform) (numaOn : Bool) (t : Tables) : Prop where
  table : ∀ s lpm, t.ipv4LookupStruct s = some lpm → s < nbSockets ∧ lpm = lib.create
  lcoreLookup : ∀ l s, t.lcoreLookup l = some s →
    l ∈ P.lcores ∧ s = socketId P numaOn l ∧ t.present s = true

/-- A socket with a table is in the array. -/
lemma TablesReady.lt_nbSockets {s : ℕ} (h : TablesReady lib P numaOn t)
    (hs : t.present s = true) : s < nbSockets := by
  obtain ⟨lpm, hlpm⟩ := Option.isSome_iff_exists.mp hs
  exact (h.table s lpm hlpm).1

/-- No table breaks the loop exactly when every table takes the rule. -/
lemma TablesReady.noBreak_iff (h : TablesReady lib P numaOn t) (rets : ℕ → ℤ) :
    NoBreak t.present rets 0 nbSockets ↔
      ∀ s, t.present s = true → takes t.present rets s = true := by
  constructor
  · intro hall s hs
    refine takes_iff.mpr ?_
    intro i hi
    exact hall i (hi.trans_lt (h.lt_nbSockets hs)) (Nat.zero_le i)
  · intro hall s _ _
    -- a table that refuses the rule does not take it
    by_contra hbreak
    rw [Bool.not_eq_false] at hbreak
    have htakes := takes_iff.mp (hall s ((Bool.and_eq_true _ _).mp hbreak).1) s le_rfl
    rw [htakes] at hbreak
    cases hbreak

lemma tablesReady_zero : TablesReady lib P numaOn .zero := ⟨nofun, nofun⟩

lemma setupLpm_ipv4LookupStruct (lib : LpmLibrary) (created : Bool) (socketid : ℕ) (t : Tables)
    (s : ℕ) : (t.setupLpm lib created socketid).ipv4LookupStruct s =
      if s = socketid then if created then some lib.create else none
      else t.ipv4LookupStruct s :=
  Function.update_apply _ _ _ _

/-- A table more, on a socket without one. -/
lemma TablesReady.setupLpm {socketid : ℕ} (h : TablesReady lib P numaOn t)
    (hs : socketid < nbSockets) (hnone : ¬ t.present socketid = true) (created : Bool) :
    TablesReady lib P numaOn (t.setupLpm lib created socketid) := by
  constructor
  · intro s lpm hlpm
    rw [setupLpm_ipv4LookupStruct] at hlpm
    split at hlpm
    · next heq =>
      split at hlpm
      · exact ⟨heq ▸ hs, (Option.some_inj.mp hlpm).symm⟩
      · cases hlpm
    · exact h.table s lpm hlpm
  · intro l s hlookup
    obtain ⟨hl, hsocket, hpresent⟩ := h.lcoreLookup l s hlookup
    have hne : s ≠ socketid := fun heq => hnone (heq ▸ hpresent)
    refine ⟨hl, hsocket, ?_⟩
    rwa [Tables.present, setupLpm_ipv4LookupStruct, if_neg hne]

/-- An lcore gets the table of its socket. -/
lemma TablesReady.setLookup {l : ℕ} (h : TablesReady lib P numaOn t) (hl : l ∈ P.lcores) :
    TablesReady lib P numaOn (t.setLookup l (socketId P numaOn l)) := by
  refine ⟨h.table, ?_⟩
  intro l' s hlookup
  rw [Tables.setLookup_lcoreLookup] at hlookup
  split at hlookup
  · next heq =>
    subst heq
    split at hlookup
    · next hfound =>
      obtain rfl := Option.some_inj.mp hlookup
      exact ⟨hl, rfl, hfound⟩
    · cases hlookup
  · exact h.lcoreLookup l' s hlookup

/-- The set-up of one lcore keeps the tables in order. -/
lemma TablesReady.configureLpm {portid lcoreId : ℕ} {t' : Tables} (h : TablesReady lib P numaOn t)
    (hl : lcoreId ∈ P.lcores)
    (hstep : OqHwq.configureLpm lib P numaOn created portid lcoreId t = some t') :
    TablesReady lib P numaOn t' := by
  simp only [OqHwq.configureLpm] at hstep
  split at hstep
  · cases hstep
  · next hsocket =>
    obtain rfl := Option.some_inj.mp hstep
    refine TablesReady.setLookup ?_ hl
    split
    · exact h
    · next hnone => exact h.setupLpm (not_le.mp hsocket) hnone _

/-- The function configures what the lcores look up in. -/
lemma tablesReady_of_dpConfigure (h : dpConfigure lib P numaOn created = some t) :
    TablesReady lib P numaOn t := by
  refine run_invariant (I := TablesReady lib P numaOn) ?_ h tablesReady_zero
  intro portid _ s s' hrun hs
  exact run_invariant (I := TablesReady lib P numaOn)
    (fun l hl _ _ hstep hs => hs.configureLpm hl hstep) hrun hs

/-- When the table is created, the lcore gets it. -/
lemma configureLpm_created (lib : LpmLibrary) {portid lcoreId : ℕ}
    (hs : socketId P numaOn lcoreId < nbSockets) (hcreated : created portid lcoreId = true)
    (t : Tables) :
    ∃ t', configureLpm lib P numaOn created portid lcoreId t = some t' ∧
      t'.lcoreLookup lcoreId = some (socketId P numaOn lcoreId) ∧
      ∀ l ≠ lcoreId, t'.lcoreLookup l = t.lcoreLookup l := by
  simp only [configureLpm]
  rw [if_neg (not_le.mpr hs)]
  refine ⟨_, rfl, ?_, ?_⟩
  · rw [Tables.setLookup_lcoreLookup, if_pos rfl, if_pos]
    split
    · next hpresent => exact hpresent
    · rw [Tables.present, setupLpm_ipv4LookupStruct, if_pos rfl, if_pos hcreated]
      rfl
  · intro l hl
    rw [Tables.setLookup_lcoreLookup, if_neg hl]
    split <;> rfl

/-- One pass over the lcores gives each of them the table of its socket. -/
lemma run_configureLpm_created (lib : LpmLibrary) {portid : ℕ} {ls : List ℕ} (hls : ls.Nodup)
    (hs : ∀ l ∈ ls, socketId P numaOn l < nbSockets)
    (hcreated : ∀ l ∈ ls, created portid l = true) (t : Tables) :
    ∃ t', run (configureLpm lib P numaOn created portid) ls t = some t' ∧
      (∀ l ∈ ls, t'.lcoreLookup l = some (socketId P numaOn l)) ∧
      ∀ l ∉ ls, t'.lcoreLookup l = t.lcoreLookup l := by
  induction ls generalizing t with
  | nil => exact ⟨t, rfl, nofun, fun _ _ => rfl⟩
  | cons l ls ih =>
    obtain ⟨hl, hls⟩ := List.nodup_cons.mp hls
    obtain ⟨hsl, hs⟩ := List.forall_mem_cons.mp hs
    obtain ⟨hcl, hcreated⟩ := List.forall_mem_cons.mp hcreated
    obtain ⟨u, hu, hlookup, hother⟩ := configureLpm_created lib hsl hcl t
    obtain ⟨t', ht', hall, hrest⟩ := ih hls hs hcreated u
    refine ⟨t', run_cons_eq_some.mpr ⟨u, hu, ht'⟩, ?_, ?_⟩
    · rw [List.forall_mem_cons]
      exact ⟨(hrest l hl).trans hlookup, hall⟩
    · intro l' hl'
      rw [List.mem_cons, not_or] at hl'
      obtain ⟨hne, hl'⟩ := hl'
      rw [hrest l' hl', hother l' hne]

/-- When all tables are created, all lcores look up in the tables of their sockets. -/
lemma exists_dpConfigure (lib : LpmLibrary) (hports : 0 < (P.nbPorts : ℕ))
    (hs : ∀ l ∈ P.lcores, socketId P numaOn l < nbSockets)
    (hcreated : ∀ portid, ∀ l ∈ P.lcores, created portid l = true) :
    ∃ t, dpConfigure lib P numaOn created = some t ∧ ∀ l ∈ P.lcores, (t.lpm l).isSome = true := by
  have hpass (portid : ℕ) (t : Tables) :=
    run_configureLpm_created lib (nodup_lcores P) hs (hcreated portid) t
  obtain ⟨n, hn⟩ := Nat.exists_eq_succ_of_ne_zero hports.ne'
  have hstep : ∀ portid ∈ List.range n, ∀ s : Tables, True → ∃ t,
      run (configureLpm lib P numaOn created portid) P.lcores s = some t ∧ True := by
    intro portid _ s _
    obtain ⟨t, ht, -⟩ := hpass portid s
    exact ⟨t, ht, trivial⟩
  obtain ⟨u, hu, -⟩ := run_total hstep (s := Tables.zero) trivial
  obtain ⟨t, ht, hlookup, -⟩ := hpass n u
  have hconf : dpConfigure lib P numaOn created = some t := by
    rw [dpConfigure, hn, run_range_succ, hu]
    exact ht
  refine ⟨t, hconf, ?_⟩
  intro l hl
  have hlookup := hlookup l hl
  rw [Tables.lpm, hlookup]
  exact ((tablesReady_of_dpConfigure hconf).lcoreLookup l _ hlookup).2.2

/-- What a sequence of calls of `add_ipv4_rule` does to the tables: each finds the last of the
rules that it took; a table of a higher socket took a part of what one of a lower socket took, in
the same order; and each call reports success if and only if every table takes its rule.  The
counter counts the calls, failed or not. -/
structure Replicated (calls : List AddCall) (t : Tables) (r : List ℤ × Tables) : Prop where
  present : r.2.present = t.present
  lookup : ∀ s lpm, r.2.ipv4LookupStruct s = some lpm →
    lpm.AgreesX4 ∧ ∀ ip, lpm.lookup ip = route (taken t.present calls s) ip
  sublist : ∀ s s', s ≤ s' → (taken t.present calls s').Sublist (taken t.present calls s)
  success : List.Forall₂ (fun c ret => 0 ≤ ret ↔
    ∀ s, t.present s = true → takes t.present c.rets s = true) calls r.1
  nbIpRoutes : r.2.nbIpRoutes = t.nbIpRoutes + BitVec.ofNat 32 calls.length

/-- **Routes on several sockets.**  After `dp_configure`, for every sequence of calls of
`add_ipv4_rule` and all answers of the tables, the tables of the sockets are replicated as far as
the calls succeed. -/
theorem addIpv4Rules_replicated (hlib : lib.Lawful)
    (h : dpConfigure lib P numaOn created = some t) (calls : List AddCall) :
    Replicated calls t (t.addIpv4Rules lib calls) := by
  have hready := tablesReady_of_dpConfigure h
  refine ⟨addIpv4Rules_present lib calls t, ?_, fun s s' => taken_sublist t.present calls, ?_,
    addIpv4Rules_nbIpRoutes calls t⟩
  · intro s lpm hlpm
    have hs : s < nbSockets := by
      refine hready.lt_nbSockets ?_
      rw [← addIpv4Rules_present lib calls t, Tables.present, hlpm]
      rfl
    rw [addIpv4Rules_ipv4LookupStruct calls t hs, Option.map_eq_some_iff] at hlpm
    obtain ⟨new, hnew, rfl⟩ := hlpm
    obtain rfl := (hready.table s new hnew).2
    exact ⟨hlib.agreesX4_addAll _, hlib.lookup_addAll _⟩
  · have hiff (rets : ℕ → ℤ) := hready.noBreak_iff rets
    simpa only [hiff] using addIpv4Rules_results calls t

end Sequences

/-- Tables that keep their rules as they come. -/
def plainLpm : LpmLibrary where
  create := ⟨fun _ => none, fun _ defv _ => defv⟩
  add lpm ip port :=
    let lookup ip' := if ip' = ip then some port else lpm.lookup ip'
    ⟨lookup, fun x defv i => ((lookup (x.u32 i)).map (BitVec.setWidth 16)).getD defv⟩

lemma plainLpm_lawful : plainLpm.Lawful :=
  ⟨fun _ => rfl, fun _ _ _ _ => rfl, fun _ _ _ _ => rfl, fun _ _ _ _ _ _ _ _ => rfl⟩

/-- Two sockets with a table each; the second refuses the second rule. -/
def smallCalls : List AddCall :=
  [⟨⟨0x0a000001, 2⟩, fun _ => 0⟩, ⟨⟨0x0a000002, 3⟩, fun s => if s = 1 then -28 else 0⟩]

theorem addIpv4Rules_replicated_small : ∃ tables,
    dpConfigure plainLpm twoWorkers true (fun _ _ => true) = some tables ∧
      Replicated smallCalls tables (tables.addIpv4Rules plainLpm smallCalls) := by
  obtain ⟨tables, h⟩ : ∃ tables, dpConfigure plainLpm twoWorkers true (fun _ _ => true) =
    some tables := ⟨_, rfl⟩
  exact ⟨tables, h, addIpv4Rules_replicated plainLpm_lawful h smallCalls⟩

end DaqSwitch.OqHwq
