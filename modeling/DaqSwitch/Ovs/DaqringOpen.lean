import DaqSwitch.Lib.Machine
import DaqSwitch.Lib.Text

/-!
# Opening daqrings

`dpdk_daqring_open` and `dpdk_daqring_create` of the Open vSwitch patch, and what
`netdev_dpdk_init` does for a daqring.  Devices are never taken off the list, so a device is
identified by its position.  A sub-ring is registered under its name when it is created, and
nothing takes it back when a later sub-ring of the device cannot be created.  A device has room
for four sub-rings and the loop that creates them goes over all nodes of the host; what the
program does after it has written past the array is left open.
-/

namespace DaqSwitch.Ovs

open Lib Lib.Text

/-! ## The functions -/

/-- The length of the array `r` of a device. -/
def dpdkDaqMaxNumaNodes : ℕ := 4

/-- What opening uses of `struct dpdk_daqring`; a sub-ring is the name it was created under, and
`r` lists the entries of the array that are written. -/
structure Daqring where
  userPortId : BitVec 32
  daqringId : BitVec 32
  r : List Str
deriving DecidableEq, Repr

/-- `dpdk_daqring_list`, and the names of all registered sub-rings. -/
@[ext]
structure DaqringReg where
  daqrings : List Daqring
  rings : List Str
deriving DecidableEq, Repr

/-- A call of `dpdk_daqring_open` for `dpdkdaqr<n>`: the number `n`, whether the device can be
allocated, and for each NUMA node whether there is memory for a ring. -/
structure OpenCall where
  portNo : BitVec 32
  mzalloc : Bool
  mem : ℕ → Bool

/-- `"%s_numa%d"`. -/
def subringName (portNo : BitVec 32) (i : ℕ) : Str :=
  "dpdkdaqr".toList ++ str portNo.toNat ++ "_numa".toList ++ str i

lemma subringName_def (portNo : BitVec 32) (i : ℕ) : subringName portNo i =
    "dpdkdaqr".toList ++ str portNo.toNat ++ "_numa".toList ++ str i := rfl

/-- `rte_ring_create`: a name can be registered once. -/
def rteRingCreate (name : Str) (mem : Bool) (rings : List Str) : Option (List Str) :=
  if mem ∧ name ∉ rings then some (rings ++ [name]) else none

/-- The loop over the NUMA nodes: the registered names, and the sub-rings of the device unless
one could not be created.  There is no result when the answer of `rte_ring_create` is written
past the end of `r`. -/
def createSubrings (c : OpenCall) :
    List ℕ → List Str → List Str → Option (List Str × Option (List Str))
  | [], rings, r => some (rings, some r)
  | i :: is, rings, r =>
    if i < dpdkDaqMaxNumaNodes then
      match rteRingCreate (subringName c.portNo i) (c.mem i) rings with
      | none => some (rings, none)
      | some rings => createSubrings c is rings (r ++ [subringName c.portNo i])
    else none

namespace DaqringReg

/-- `dpdk_daqring_create` after its loop: the device is added to the list, unless a sub-ring is
missing. -/
def addDaqring (s : DaqringReg) (portNo : BitVec 32) (rings : List Str) :
    Option (List Str) → Option (BitVec 32) × DaqringReg
  | none => (none, { s with rings := rings })
  | some r =>
    let daqr := ⟨portNo, BitVec.ofNat 32 s.daqrings.length, r⟩
    (some daqr.daqringId, ⟨s.daqrings ++ [daqr], rings⟩)

/-- `dpdk_daqring_create`: the id of the device, or no id when memory is out. -/
def dpdkDaqringCreate (nNuma : ℕ) (s : DaqringReg) (c : OpenCall) :
    Option (Option (BitVec 32) × DaqringReg) :=
  if c.mzalloc then
    (createSubrings c (List.range nNuma) s.rings []).map fun x => s.addDaqring c.portNo x.1 x.2
  else some (none, s)

/-- `dpdk_daqring_open`. -/
def dpdkDaqringOpen (nNuma : ℕ) (s : DaqringReg) (c : OpenCall) :
    Option (Option (BitVec 32) × DaqringReg) :=
  match s.daqrings.find? fun daqr => daqr.userPortId == c.portNo with
  | some daqr => some (some daqr.daqringId, s)
  | none => s.dpdkDaqringCreate nNuma c

/-- The search of `netdev_dpdk_init` for a device; the last match counts. -/
def findDaqring (s : DaqringReg) (daqringId : BitVec 32) : Option Daqring :=
  (s.daqrings.filter fun daqr => daqr.daqringId == daqringId).getLast?

def empty : DaqringReg := ⟨[], []⟩

end DaqringReg

/-! ## Runs -/

/-- A call, its result and the states around it. -/
structure OpenStep where
  before : DaqringReg
  call : OpenCall
  result : Option (BitVec 32)
  after : DaqringReg

/-- The state after some calls. -/
def openAll (nNuma : ℕ) (calls : List OpenCall) (s : DaqringReg) : Option DaqringReg :=
  Machine.run (fun c s => (s.dpdkDaqringOpen nNuma c).map Prod.snd) calls s

/-- The calls that have a result. -/
def openSteps (nNuma : ℕ) : List OpenCall → DaqringReg → List OpenStep
  | [], _ => []
  | c :: calls, s =>
    match s.dpdkDaqringOpen nNuma c with
    | none => []
    | some (result, t) => ⟨s, c, result, t⟩ :: openSteps nNuma calls t

/-- A call with all the memory it needs. -/
def OpenCall.ample (portNo : BitVec 32) : OpenCall := ⟨portNo, true, fun _ => true⟩

/-- The sub-rings of a device. -/
def subrings (nNuma : ℕ) (portNo : BitVec 32) : List Str :=
  (List.range nNuma).map (subringName portNo)

/-- The opens of a run stay inside their arrays, are stable and leave nothing behind when they
fail, so that every device can be opened once there is memory. -/
structure OpensWell (nNuma : ℕ) (calls : List OpenCall) (s : DaqringReg) : Prop where
  same : ∀ st ∈ openSteps nNuma calls s, ∀ st' ∈ openSteps nNuma calls s, ∀ a b,
    st.result = some a → st'.result = some b → (st.call.portNo = st'.call.portNo ↔ a = b)
  atomic : ∀ st ∈ openSteps nNuma calls s, st.result = none → st.after = st.before
  ends : ∃ t, openAll nNuma calls s = some t ∧
    (∀ st ∈ openSteps nNuma calls s, ∀ a, st.result = some a →
      ∃ daqr, t.findDaqring a = some daqr ∧
        daqr.userPortId = st.call.portNo ∧ daqr.r = subrings nNuma st.call.portNo) ∧
    ∀ portNo, ∃ a t', t.dpdkDaqringOpen nNuma (.ample portNo) = some (some a, t')

/-- Whether a sub-ring of the device can be created. -/
def OpenCall.creatable (c : OpenCall) (rings : List Str) (i : ℕ) : Bool :=
  c.mem i && decide (subringName c.portNo i ∉ rings)

/-- The device is not yet known, its first sub-ring can be created and a later one cannot. -/
def LeavesRings (nNuma : ℕ) (s : DaqringReg) (c : OpenCall) : Prop :=
  (∀ daqr ∈ s.daqrings, daqr.userPortId ≠ c.portNo) ∧ c.mzalloc = true ∧
    c.creatable s.rings 0 = true ∧ ∃ i < nNuma, c.creatable s.rings i = false

/-! ## One call -/

section Step

variable {nNuma : ℕ} {s : DaqringReg} {c : OpenCall} {rings r : List Str}

lemma subringName_inj {p q : BitVec 32} {i j : ℕ} :
    subringName p i = subringName q j ↔ p = q ∧ i = j := by
  have hname (p : BitVec 32) (i : ℕ) : subringName p i =
      ("dpdkdaqr".toList ++ str p.toNat ++ "_num".toList) ++ 'a' :: str i := by
    rw [subringName_def]
    simp
  rw [hname, hname, append_cons_str_inj (by decide)]
  constructor
  · rintro ⟨h, rfl⟩
    refine ⟨BitVec.eq_of_toNat_eq (str_inj.mp ?_), rfl⟩
    exact List.append_cancel_left (List.append_cancel_right h)
  · rintro ⟨rfl, rfl⟩
    exact ⟨rfl, rfl⟩

/-- The loop creates sub-rings as long as they can be created; whether a later one can be does
not depend on the earlier ones. -/
lemma createSubrings_eq (c : OpenCall) (rings r : List Str) {is : List ℕ} (his : is.Nodup)
    (hroom : ∀ i ∈ is, i < dpdkDaqMaxNumaNodes) {p : ℕ → Bool}
    (hp : ∀ i ∈ is, c.creatable rings i = p i) : createSubrings c is rings r = some
      (rings ++ (is.takeWhile p).map (subringName c.portNo),
        if is.all p then some (r ++ is.map (subringName c.portNo)) else none) := by
  induction is generalizing rings r with
  | nil => simp [createSubrings]
  | cons i is ih =>
    obtain ⟨hi, his⟩ := List.nodup_cons.mp his
    have hlater : ∀ j ∈ is, c.creatable (rings ++ [subringName c.portNo i]) j = p j := by
      intro j hj
      have hne : subringName c.portNo j ≠ subringName c.portNo i := by
        rw [Ne, subringName_inj]
        rintro ⟨-, rfl⟩
        exact hi hj
      rw [← hp j (List.mem_cons_of_mem _ hj)]
      simp [OpenCall.creatable, hne]
    have hcreate := hp i List.mem_cons_self
    rw [createSubrings, if_pos (hroom i List.mem_cons_self), rteRingCreate, List.takeWhile_cons,
      List.all_cons]
    cases hpi : p i with
    | true =>
      rw [hpi, OpenCall.creatable, Bool.and_eq_true, decide_eq_true_eq] at hcreate
      rw [if_pos hcreate]
      simp only [ih _ _ his (fun j hj => hroom j (List.mem_cons_of_mem _ hj)) hlater, if_true,
        Bool.true_and, List.map_cons, List.append_assoc, List.singleton_append]
    | false =>
      have hnot : ¬ (c.mem i = true ∧ subringName c.portNo i ∉ rings) := by
        rintro ⟨hmem, hname⟩
        rw [hpi, OpenCall.creatable, hmem, decide_eq_true hname] at hcreate
        cases hcreate
      rw [if_neg hnot]
      simp

/-- A loop over more nodes than the array has entries never ends with a device. -/
lemma createSubrings_ne (c : OpenCall) {is : List ℕ} (hpast : ∃ i ∈ is, dpdkDaqMaxNumaNodes ≤ i)
    (rings r rings' r' : List Str) : createSubrings c is rings r ≠ some (rings', some r') := by
  induction is generalizing rings r with
  | nil =>
    obtain ⟨i, hi, -⟩ := hpast
    cases hi
  | cons j is ih =>
    rw [createSubrings]
    split
    · next hj =>
      obtain ⟨i, hi, hge⟩ := hpast
      have hi : i ∈ is := (List.mem_cons.mp hi).resolve_left fun h => by omega
      split
      · simp
      · exact ih ⟨i, hi, hge⟩ _ _
    · simp

/-- What a call does on a host whose nodes fit into the array: when the device is known, when it
is created, and when it is not. -/
lemma open_cases (hnuma : nNuma ≤ dpdkDaqMaxNumaNodes) (s : DaqringReg) (c : OpenCall) :
    (∃ daqr ∈ s.daqrings, daqr.userPortId = c.portNo ∧
      s.dpdkDaqringOpen nNuma c = some (some daqr.daqringId, s)) ∨
    (∀ daqr ∈ s.daqrings, daqr.userPortId ≠ c.portNo) ∧
      ((c.mzalloc = true ∧ (∀ i < nNuma, c.creatable s.rings i = true) ∧
        s.dpdkDaqringOpen nNuma c = some (some (BitVec.ofNat 32 s.daqrings.length),
          ⟨s.daqrings ++ [⟨c.portNo, BitVec.ofNat 32 s.daqrings.length, subrings nNuma c.portNo⟩],
            s.rings ++ subrings nNuma c.portNo⟩)) ∨
      ∃ left, s.dpdkDaqringOpen nNuma c = some (none, ⟨s.daqrings, s.rings ++ left⟩) ∧
        (left = [] ↔ ¬ LeavesRings nNuma s c) ∧
        (c.mzalloc = true → ∃ i < nNuma, c.creatable s.rings i = false)) := by
  unfold DaqringReg.dpdkDaqringOpen
  cases hfind : s.daqrings.find? fun daqr => daqr.userPortId == c.portNo with
  | some daqr =>
    refine Or.inl ⟨daqr, List.mem_of_find?_eq_some hfind, ?_, rfl⟩
    simpa using List.find?_some hfind
  | none =>
    have hunknown : ∀ daqr ∈ s.daqrings, daqr.userPortId ≠ c.portNo := by
      simpa using List.find?_eq_none.mp hfind
    refine Or.inr ⟨hunknown, ?_⟩
    have hloop := createSubrings_eq c s.rings [] (List.nodup_range (n := nNuma))
      (fun i hi => (List.mem_range.mp hi).trans_le hnuma) fun i _ => rfl
    simp only [DaqringReg.dpdkDaqringCreate, hloop, Option.map_some]
    by_cases hz : c.mzalloc = true
    · rw [if_pos hz]
      by_cases hall : (List.range nNuma).all (c.creatable s.rings) = true
      · have hcreate : ∀ i < nNuma, c.creatable s.rings i = true := by simpa using hall
        have htake : (List.range nNuma).takeWhile (c.creatable s.rings) = List.range nNuma :=
          List.takeWhile_eq_self_iff.mpr fun i hi => hcreate i (List.mem_range.mp hi)
        rw [if_pos hall, htake]
        exact Or.inl ⟨hz, hcreate, rfl⟩
      · have hsome : ∃ i < nNuma, c.creatable s.rings i = false := by simpa using hall
        rw [if_neg hall]
        refine Or.inr ⟨_, rfl, ?_, fun _ => hsome⟩
        -- the list of nodes begins with node 0
        obtain ⟨n, rfl⟩ : ∃ n, nNuma = n + 1 := by
          obtain ⟨i, hi, -⟩ := hsome
          exact ⟨nNuma - 1, by omega⟩
        rw [List.map_eq_nil_iff, List.range_succ_eq_map, List.takeWhile_cons]
        cases hzero : c.creatable s.rings 0 with
        | true =>
          have hleaves : LeavesRings (n + 1) s c := ⟨hunknown, hz, hzero, hsome⟩
          simp [hleaves]
        | false => simp [LeavesRings, hzero]
    · rw [if_neg hz]
      refine Or.inr ⟨[], by simp, iff_of_true rfl fun h => hz h.2.1, fun h => absurd h hz⟩

end Step

/-! ## Too many nodes -/

/-- On a host with more nodes than the array has entries, no call on an empty list returns an
id. -/
lemma open_past {nNuma : ℕ} (hnuma : dpdkDaqMaxNumaNodes < nNuma) {s t : DaqringReg}
    {c : OpenCall} {result : Option (BitVec 32)} (hs : s.daqrings = [])
    (h : s.dpdkDaqringOpen nNuma c = some (result, t)) : result = none ∧ t.daqrings = [] := by
  rw [DaqringReg.dpdkDaqringOpen, hs, List.find?_nil] at h
  simp only [DaqringReg.dpdkDaqringCreate] at h
  split at h
  · obtain ⟨⟨rings, r⟩, hloop, hadd⟩ := Option.map_eq_some_iff.mp h
    cases r with
    | none =>
      obtain ⟨rfl, rfl⟩ := Prod.mk.inj hadd
      exact ⟨rfl, hs⟩
    | some r =>
      have hpast : ∃ i ∈ List.range nNuma, dpdkDaqMaxNumaNodes ≤ i :=
        ⟨_, List.mem_range.mpr hnuma, le_rfl⟩
      exact absurd hloop (createSubrings_ne c hpast _ _ _ _)
  · obtain ⟨rfl, rfl⟩ := Prod.mk.inj (Option.some_inj.mp h)
    exact ⟨rfl, hs⟩

lemma daqrings_openAll_past {nNuma : ℕ} (hnuma : dpdkDaqMaxNumaNodes < nNuma)
    {calls : List OpenCall} {t : DaqringReg} (h : openAll nNuma calls .empty = some t) : t.daqrings = [] := by
  refine Machine.run_invariant (I := fun s => s.daqrings = []) ?_ h rfl
  rintro c - s t hstep hs
  obtain ⟨⟨result, t⟩, hopen, rfl⟩ := Option.map_eq_some_iff.mp hstep
  exact (open_past hnuma hs hopen).2

/-! ## What every call keeps -/

/-- A device has its position for an id, and each number has at most one device, with a
sub-ring for every node. -/
structure Registered (nNuma : ℕ) (s : DaqringReg) : Prop where
  ids : ∀ i daqr, s.daqrings[i]? = some daqr → daqr.daqringId = BitVec.ofNat 32 i
  ports : (s.daqrings.map (·.userPortId)).Nodup
  subrings : ∀ daqr ∈ s.daqrings, daqr.r = Ovs.subrings nNuma daqr.userPortId

/-- Every registered sub-ring belongs to a device. -/
def Clean (s : DaqringReg) : Prop := ∀ name ∈ s.rings, ∃ daqr ∈ s.daqrings, name ∈ daqr.r

section Invariants

variable {nNuma : ℕ} {s t : DaqringReg} {c : OpenCall} {calls : List OpenCall}
  {result : Option (BitVec 32)}

lemma registered_empty (nNuma : ℕ) : Registered nNuma .empty :=
  ⟨by simp [DaqringReg.empty], List.nodup_nil, by simp [DaqringReg.empty]⟩

lemma clean_empty : Clean .empty := by simp [Clean, DaqringReg.empty]

/-- The ids are unique: there are no more devices than port numbers. -/
lemma Registered.eq_of_id (h : Registered nNuma s) {daqr daqr' : Daqring}
    (hd : daqr ∈ s.daqrings) (hd' : daqr' ∈ s.daqrings) (hid : daqr.daqringId = daqr'.daqringId) :
    daqr = daqr' := by
  have hlen : s.daqrings.length ≤ 2 ^ 32 := by
    have hinj : Function.Injective (BitVec.toFin (w := 32)) :=
      fun x y hxy => BitVec.toFin_inj.mp hxy
    have := (h.ports.map hinj).length_le_card
    rwa [List.length_map, List.length_map, Fintype.card_fin] at this
  obtain ⟨i, hi⟩ := List.mem_iff_getElem?.mp hd
  obtain ⟨j, hj⟩ := List.mem_iff_getElem?.mp hd'
  have hilt := (List.getElem?_eq_some_iff.mp hi).1
  have hjlt := (List.getElem?_eq_some_iff.mp hj).1
  rw [h.ids i daqr hi, h.ids j daqr' hj] at hid
  have hij := congrArg BitVec.toNat hid
  rw [BitVec.toNat_ofNat, BitVec.toNat_ofNat, Nat.mod_eq_of_lt (by omega),
    Nat.mod_eq_of_lt (by omega)] at hij
  subst hij
  rw [hi, Option.some_inj] at hj
  exact hj

lemma Registered.eq_of_port (h : Registered nNuma s) {daqr daqr' : Daqring}
    (hd : daqr ∈ s.daqrings) (hd' : daqr' ∈ s.daqrings)
    (hport : daqr.userPortId = daqr'.userPortId) : daqr = daqr' :=
  List.inj_on_of_nodup_map h.ports hd hd' hport

/-- The search by id finds the device. -/
lemma Registered.findDaqring_eq (h : Registered nNuma s) {daqr : Daqring}
    (hd : daqr ∈ s.daqrings) : s.findDaqring daqr.daqringId = some daqr := by
  have hmem : daqr ∈ s.daqrings.filter fun x => x.daqringId == daqr.daqringId :=
    List.mem_filter.mpr ⟨hd, beq_self_eq_true _⟩
  obtain ⟨last, hlast⟩ : ∃ last, s.findDaqring daqr.daqringId = some last :=
    Option.ne_none_iff_exists'.mp fun hnone =>
      List.ne_nil_of_mem hmem (List.getLast?_eq_none_iff.mp hnone)
  have hin := List.mem_filter.mp (List.mem_of_getLast? hlast)
  rw [hlast, h.eq_of_id hin.1 hd (by simpa using hin.2)]

section Calls

variable (hnuma : nNuma ≤ dpdkDaqMaxNumaNodes)

include hnuma

/-- The list of devices only grows. -/
lemma daqrings_prefix_open (h : s.dpdkDaqringOpen nNuma c = some (result, t)) :
    s.daqrings <+: t.daqrings := by
  rcases open_cases hnuma s c with ⟨daqr, -, -, heq⟩ | ⟨-, ⟨-, -, heq⟩ | ⟨left, heq, -, -⟩⟩ <;>
    obtain ⟨-, rfl⟩ := Prod.mk.inj (Option.some_inj.mp (heq.symm.trans h))
  · exact List.prefix_rfl
  · exact List.prefix_append _ _
  · exact List.prefix_rfl

lemma Registered.open (hs : Registered nNuma s)
    (h : s.dpdkDaqringOpen nNuma c = some (result, t)) : Registered nNuma t := by
  rcases open_cases hnuma s c with
      ⟨daqr, -, -, heq⟩ | ⟨hunknown, ⟨-, -, heq⟩ | ⟨left, heq, -, -⟩⟩ <;>
    obtain ⟨-, rfl⟩ := Prod.mk.inj (Option.some_inj.mp (heq.symm.trans h))
  · exact hs
  · refine ⟨?_, ?_, ?_⟩
    · intro i daqr hi
      rw [List.getElem?_append] at hi
      split at hi
      · exact hs.ids i daqr hi
      · next hge =>
        rw [List.getElem?_singleton] at hi
        split at hi
        · next hzero =>
          obtain rfl := Option.some_inj.mp hi
          rw [show i = s.daqrings.length by omega]
        · cases hi
    · rw [List.map_append, List.nodup_append]
      refine ⟨hs.ports, List.nodup_singleton _, ?_⟩
      intro p hp q hq heq
      obtain ⟨daqr, hd, rfl⟩ := List.mem_map.mp hp
      rw [List.map_singleton, List.mem_singleton] at hq
      exact hunknown daqr hd (heq.trans hq)
    · intro daqr hd
      rcases List.mem_append.mp hd with hd | hd
      · exact hs.subrings daqr hd
      · obtain rfl := List.mem_singleton.mp hd
        rfl
  · exact ⟨hs.ids, hs.ports, hs.subrings⟩

lemma Clean.open (hs : Clean s) (hno : ¬ LeavesRings nNuma s c)
    (h : s.dpdkDaqringOpen nNuma c = some (result, t)) : Clean t := by
  rcases open_cases hnuma s c with
      ⟨daqr, -, -, heq⟩ | ⟨-, ⟨-, -, heq⟩ | ⟨left, heq, hleft, -⟩⟩ <;>
    obtain ⟨-, rfl⟩ := Prod.mk.inj (Option.some_inj.mp (heq.symm.trans h))
  · exact hs
  · intro name hname
    rcases List.mem_append.mp hname with hname | hname
    · obtain ⟨daqr, hd, hr⟩ := hs name hname
      exact ⟨daqr, List.mem_append_left _ hd, hr⟩
    · exact ⟨_, List.mem_append_right _ (List.mem_singleton.mpr rfl), hname⟩
  · rw [hleft.mpr hno, List.append_nil]
    exact hs

/-- Every call has a result. -/
lemma exists_open (s : DaqringReg) (c : OpenCall) :
    ∃ result t, s.dpdkDaqringOpen nNuma c = some (result, t) := by
  rcases open_cases hnuma s c with ⟨daqr, -, -, heq⟩ | ⟨-, ⟨-, -, heq⟩ | ⟨left, heq, -, -⟩⟩
  · exact ⟨_, _, heq⟩
  · exact ⟨_, _, heq⟩
  · exact ⟨_, _, heq⟩

/-- A device is in the list when its id was returned. -/
lemma open_eq_some {a : BitVec 32} (h : s.dpdkDaqringOpen nNuma c = some (some a, t)) :
    ∃ daqr ∈ t.daqrings, daqr.userPortId = c.portNo ∧ daqr.daqringId = a := by
  rcases open_cases hnuma s c with
      ⟨daqr, hd, hport, heq⟩ | ⟨-, ⟨-, -, heq⟩ | ⟨left, heq, -, -⟩⟩ <;>
    obtain ⟨ha, rfl⟩ := Prod.mk.inj (Option.some_inj.mp (heq.symm.trans h))
  · exact ⟨daqr, hd, hport, Option.some_inj.mp ha⟩
  · exact ⟨_, List.mem_append_right _ (List.mem_singleton.mpr rfl), rfl, Option.some_inj.mp ha⟩
  · cases ha

/-- A call that fails changes nothing exactly when it leaves no sub-rings. -/
lemma open_none_iff (h : s.dpdkDaqringOpen nNuma c = some (none, t)) :
    t = s ↔ ¬ LeavesRings nNuma s c := by
  rcases open_cases hnuma s c with
      ⟨daqr, -, -, heq⟩ | ⟨-, ⟨-, -, heq⟩ | ⟨left, heq, hleft, -⟩⟩ <;>
    obtain ⟨hres, rfl⟩ := Prod.mk.inj (Option.some_inj.mp (heq.symm.trans h))
  · cases hres
  · cases hres
  · rw [← hleft, DaqringReg.ext_iff]
    simp

lemma open_of_leaves (h : LeavesRings nNuma s c)
    (hopen : s.dpdkDaqringOpen nNuma c = some (result, t)) : result = none := by
  rcases open_cases hnuma s c with
      ⟨daqr, hd, hport, -⟩ | ⟨-, ⟨-, hall, -⟩ | ⟨left, heq, -, -⟩⟩
  · exact absurd hport (h.1 daqr hd)
  · obtain ⟨i, hi, hnot⟩ := h.2.2.2
    rw [hall i hi] at hnot
    cases hnot
  · exact (Prod.mk.inj (Option.some_inj.mp (hopen.symm.trans heq))).1

/-- With memory every number can be opened. -/
lemma Clean.exists_open (h : Clean s) (hreg : Registered nNuma s) (portNo : BitVec 32) :
    ∃ a t, s.dpdkDaqringOpen nNuma (.ample portNo) = some (some a, t) := by
  rcases open_cases hnuma s (.ample portNo) with
    ⟨daqr, -, -, heq⟩ | ⟨hunknown, ⟨-, -, heq⟩ | ⟨left, -, -, hfail⟩⟩
  · exact ⟨_, _, heq⟩
  · exact ⟨_, _, heq⟩
  · -- the name that is in the way belongs to a device with the same number
    obtain ⟨i, hi, hnot⟩ := hfail rfl
    change (true && decide (subringName portNo i ∉ s.rings)) = false at hnot
    rw [Bool.true_and, decide_eq_false_iff_not, not_not] at hnot
    obtain ⟨daqr, hd, hr⟩ := h _ hnot
    rw [hreg.subrings daqr hd] at hr
    obtain ⟨j, -, hj⟩ := List.mem_map.mp hr
    exact absurd (subringName_inj.mp hj).1 (hunknown daqr hd)

end Calls

/-! ## Runs -/

lemma openSteps_cons (h : s.dpdkDaqringOpen nNuma c = some (result, t)) (calls : List OpenCall) :
    openSteps nNuma (c :: calls) s = ⟨s, c, result, t⟩ :: openSteps nNuma calls t := by
  rw [openSteps, h]

lemma openAll_cons (h : s.dpdkDaqringOpen nNuma c = some (result, t)) (calls : List OpenCall) :
    openAll nNuma (c :: calls) s = openAll nNuma calls t := by
  rw [openAll, Machine.run_cons, h]
  rfl

section Runs

variable (hnuma : nNuma ≤ dpdkDaqMaxNumaNodes)

include hnuma

/-- The run lemma: the run has an end, where the devices are registered and the list has grown. -/
lemma exists_openAll (hs : Registered nNuma s) (calls : List OpenCall) :
    ∃ t, openAll nNuma calls s = some t ∧ Registered nNuma t ∧ s.daqrings <+: t.daqrings := by
  refine Machine.run_total (I := fun t => Registered nNuma t ∧ s.daqrings <+: t.daqrings) ?_
    ⟨hs, List.prefix_rfl⟩
  rintro c - u ⟨hu, hpre⟩
  obtain ⟨result, t, hopen⟩ := exists_open hnuma u c
  exact ⟨t, Option.map_eq_some_iff.mpr ⟨_, hopen, rfl⟩, hu.open hnuma hopen,
    hpre.trans (daqrings_prefix_open hnuma hopen)⟩

/-- A step of the run is a call in a state that the run has reached, and the device of its id
is in the list at the end. -/
lemma openSteps_spec (h : Registered nNuma s) (hend : openAll nNuma calls s = some t)
    {st : OpenStep} (hst : st ∈ openSteps nNuma calls s) :
    st.before.dpdkDaqringOpen nNuma st.call = some (st.result, st.after) ∧
      ∀ a, st.result = some a → ∃ daqr ∈ t.daqrings,
        daqr.userPortId = st.call.portNo ∧ daqr.daqringId = a := by
  induction calls generalizing s with
  | nil => cases hst
  | cons c calls ih =>
    obtain ⟨result, u, hopen⟩ := exists_open hnuma s c
    rw [openAll_cons hopen] at hend
    rw [openSteps_cons hopen] at hst
    rcases List.mem_cons.mp hst with rfl | hst
    · refine ⟨hopen, ?_⟩
      rintro a rfl
      obtain ⟨daqr, hd, hport, hid⟩ := open_eq_some hnuma hopen
      obtain ⟨t', hend', -, hpre⟩ := exists_openAll hnuma (h.open hnuma hopen) calls
      obtain rfl := Option.some_inj.mp (hend.symm.trans hend')
      exact ⟨daqr, hpre.subset hd, hport, hid⟩
    · exact ih (h.open hnuma hopen) hend hst

lemma clean_openAll (h : Clean s)
    (hno : ∀ st ∈ openSteps nNuma calls s, ¬ LeavesRings nNuma st.before st.call)
    (hend : openAll nNuma calls s = some t) : Clean t := by
  induction calls generalizing s with
  | nil =>
    obtain rfl := Option.some_inj.mp hend
    exact h
  | cons c calls ih =>
    obtain ⟨result, u, hopen⟩ := exists_open hnuma s c
    rw [openAll_cons hopen] at hend
    rw [openSteps_cons hopen] at hno
    exact ih (h.open hnuma (hno _ List.mem_cons_self) hopen)
      (fun st hst => hno st (List.mem_cons_of_mem _ hst)) hend

/-- The exact condition on a host whose nodes fit into the array. -/
lemma opensWell_iff_of_le (calls : List OpenCall) : OpensWell nNuma calls .empty ↔
    ∀ st ∈ openSteps nNuma calls .empty, ¬ LeavesRings nNuma st.before st.call := by
  have hempty := registered_empty nNuma
  obtain ⟨t, ht, hreg, -⟩ := exists_openAll hnuma hempty calls
  constructor
  · intro h st hst hleaves
    obtain ⟨hopen, -⟩ := openSteps_spec hnuma hempty ht hst
    have hnone := open_of_leaves hnuma hleaves hopen
    rw [hnone] at hopen
    exact (open_none_iff hnuma hopen).mp (h.atomic st hst hnone) hleaves
  · intro hno
    refine ⟨?_, ?_, t, ht, ?_, ?_⟩
    · intro st hst st' hst' a b ha hb
      obtain ⟨daqr, hd, hport, rfl⟩ := (openSteps_spec hnuma hempty ht hst).2 a ha
      obtain ⟨daqr', hd', hport', rfl⟩ := (openSteps_spec hnuma hempty ht hst').2 b hb
      rw [← hport, ← hport']
      exact ⟨fun heq => by rw [hreg.eq_of_port hd hd' heq],
        fun heq => by rw [hreg.eq_of_id hd hd' heq]⟩
    · intro st hst hnone
      obtain ⟨hopen, -⟩ := openSteps_spec hnuma hempty ht hst
      rw [hnone] at hopen
      exact (open_none_iff hnuma hopen).mpr (hno st hst)
    · intro st hst a ha
      obtain ⟨daqr, hd, hport, rfl⟩ := (openSteps_spec hnuma hempty ht hst).2 a ha
      exact ⟨daqr, hreg.findDaqring_eq hd, hport, hport ▸ hreg.subrings daqr hd⟩
    · intro portNo
      exact (clean_openAll hnuma clean_empty hno ht).exists_open hnuma hreg portNo

end Runs

end Invariants

/-- **Opening daqrings.**  In a run from the empty list the opens stay inside their arrays, are
stable and leave nothing behind when they fail if and only if the host has at most four nodes and
no call fails after it has created a sub-ring. -/
theorem opensWell_iff (nNuma : ℕ) (calls : List OpenCall) : OpensWell nNuma calls .empty ↔
    nNuma ≤ 4 ∧ ∀ st ∈ openSteps nNuma calls .empty, ¬ LeavesRings nNuma st.before st.call := by
  rcases Nat.lt_or_ge dpdkDaqMaxNumaNodes nNuma with hpast | hnuma
  · refine iff_of_false ?_ fun h => absurd h.1 (not_le.mpr hpast)
    intro h
    obtain ⟨t, ht, -, hretry⟩ := h.ends
    obtain ⟨a, t', hopen⟩ := hretry 0
    cases (open_past hpast (daqrings_openAll_past hpast ht) hopen).1
  · exact (opensWell_iff_of_le hnuma calls).trans (and_iff_right hnuma).symm

/-- On two nodes there is memory for the first sub-ring only; the next open has memory. -/
def lateFailure : List OpenCall := [⟨0, true, fun i => i == 0⟩, .ample 0]

/-- The sub-ring of the failed open stays, and the device cannot be opened any more. -/
theorem not_opensWell : ¬ OpensWell 2 lateFailure .empty ∧
    (openSteps 2 lateFailure .empty).map (·.result) = [none, none] := by
  have hresults : (openSteps 2 lateFailure .empty).map (·.result) = [none, none] := by decide
  refine ⟨?_, hresults⟩
  intro h
  obtain ⟨t, ht, -, hretry⟩ := h.ends
  obtain ⟨a, t', ha⟩ := hretry 0
  have hnone : ((openAll 2 lateFailure .empty).bind fun t =>
      (t.dpdkDaqringOpen 2 (.ample 0)).map Prod.fst) = some none := by decide
  rw [ht, Option.bind_some, ha] at hnone
  cases hnone

/-! ## NUMA placement -/

/-- The NUMA nodes of the host, and the number of cores on each. -/
structure Numa where
  nNumas : ℕ
  nCores : ℕ → ℕ

/-- The `while` loop of `netdev_dpdk_init`, from node `sid` on: `ovs_numa_numa_id_is_valid` and
`ovs_numa_get_n_cores_on_numa`. -/
def Numa.searchFrom (N : Numa) (sid : ℤ) : ℤ :=
  if 0 ≤ sid ∧ sid < N.nNumas then
    if N.nCores sid.toNat ≠ 0 then sid else N.searchFrom (sid + 1)
  else sid
termination_by (N.nNumas - sid).toNat

/-- The node where the search starts; `%` of C rounds toward zero. -/
def Numa.firstSid (N : Numa) (daqringId : BitVec 32) : ℤ := daqringId.toInt.tmod N.nNumas

/-- The socket of a daqring. -/
def Numa.daqringSid (N : Numa) (daqringId : BitVec 32) : ℤ := N.searchFrom (N.firstSid daqringId)

/-- `netdev_dpdk_init` for a daqring: the device and its socket; `none` is `ENODEV`. -/
def netdevDpdkInit (N : Numa) (s : DaqringReg) (portNo : BitVec 32) : Option (Daqring × ℤ) :=
  (s.findDaqring portNo).map fun daqr => (daqr, N.daqringSid daqr.daqringId)

/-- A valid node with cores. -/
def Numa.Usable (N : Numa) (sid : ℤ) : Prop :=
  (0 ≤ sid ∧ sid < N.nNumas) ∧ N.nCores sid.toNat ≠ 0

/-- The search goes upward only. -/
lemma Numa.usable_searchFrom_iff (N : Numa) (sid : ℤ) : N.Usable (N.searchFrom sid) ↔
    0 ≤ sid ∧ ∃ t, sid ≤ t ∧ N.Usable t := by
  fun_induction Numa.searchFrom N sid with
  | case1 sid hvalid hcores =>
    exact iff_of_true ⟨hvalid, hcores⟩ ⟨hvalid.1, sid, le_rfl, hvalid, hcores⟩
  | case2 sid hvalid hnone ih =>
    rw [ih]
    -- the node that was tried has no cores
    constructor
    · rintro ⟨-, t, ht, husable⟩
      exact ⟨hvalid.1, t, by omega, husable⟩
    · rintro ⟨-, t, ht, husable⟩
      have hne : sid ≠ t := fun heq => hnone (heq ▸ husable.2)
      exact ⟨by omega, t, by omega, husable⟩
  | case3 sid hinvalid =>
    refine iff_of_false (fun h => hinvalid h.1) ?_
    rintro ⟨hpos, t, ht, husable⟩
    exact hinvalid ⟨hpos, by have := husable.1.2; omega⟩

/-- **NUMA placement.**  A daqring gets a valid node with cores if and only if there is one at
or above the node where the search starts. -/
theorem daqringSid_usable_iff (N : Numa) (daqringId : BitVec 32) :
    N.Usable (N.daqringSid daqringId) ↔
      0 ≤ N.firstSid daqringId ∧ ∃ sid, N.firstSid daqringId ≤ sid ∧ N.Usable sid :=
  N.usable_searchFrom_iff _

/-- Two nodes, all cores on the first. -/
def coresBelow : Numa := ⟨2, fun sid => if sid = 0 then 4 else 0⟩

/-- The second daqring gets a node that does not exist. -/
theorem not_usable_coresBelow : (∃ sid, coresBelow.Usable sid) ∧
    ¬ coresBelow.Usable (coresBelow.daqringSid 1) := by
  refine ⟨⟨0, by decide, by decide⟩, ?_⟩
  have hfirst : coresBelow.firstSid 1 = 1 := by decide
  rw [Numa.daqringSid, hfirst, Numa.usable_searchFrom_iff]
  rintro ⟨-, t, ht, ⟨-, hlt⟩, hcores⟩
  have hone : t = 1 := by
    change t < 2 at hlt
    omega
  rw [hone] at hcores
  exact hcores rfl

end DaqSwitch.Ovs
