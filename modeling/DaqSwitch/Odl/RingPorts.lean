import DaqSwitch.Lib.Machine
import DaqSwitch.Odl.Dcm

/-!
# Ring ports

Three sequences of numbers have to fit together: `create_bridge` numbers the physical ports
from 1 and the daqring ports from 100 and from 200, `scan_dcms` numbers the Dcms from 1, and
`__install_subpath` directs the Dcm `id` to the port `id + 100`.  The first ring port is for an
id that no Dcm has, so `n` rings are enough for the ids below `n`; and from 101 rings or 100
physical ports on the ranges overlap.
-/

namespace DaqSwitch.Odl

open Lib Lib.Text Lib.KeyedTable

/-! ## Creating a bridge -/

inductive InterfaceType
  | system
  | dpdk
  | dpdkdaqr
deriving DecidableEq, Repr

/-- An entry of the `termination-point` list of a bridge. -/
structure TerminationPoint where
  tpId : Str
  ofport : ℕ
  interfaceType : InterfaceType
deriving DecidableEq, Repr

/-- The daqring ports from a base number. -/
def daqringPorts (base nDaqrPorts : ℕ) : List TerminationPoint :=
  (List.range nDaqrPorts).map fun nport =>
    ⟨"dpdkdaqr".toList ++ str (base + nport), base + nport, .dpdkdaqr⟩

/-- `create_bridge`: the ports of the bridge. -/
def createBridge (portNames : List Str) (isDpdk : Bool) (nDaqrPorts : ℕ) : List TerminationPoint :=
  ((portNames.zipIdx 1).map fun pn =>
      ⟨pn.1, pn.2, if contains pn.1 "dpdk".toList then .dpdk else .system⟩) ++
    if isDpdk then daqringPorts 100 nDaqrPorts ++ daqringPorts 200 nDaqrPorts else []

/-! ## Scanning for Dcms

This is `scan_dcms` over any matches of its regular expression; `Ss.scanDcms` is the function on the
texts that `ss` prints. -/

/-- A connection that the pattern for a process finds in the output of `ss`.  A group for a
port may be empty. -/
structure Conn where
  dip : Ipv4
  dport : Option ℕ
  sip : Ipv4
  sport : Option ℕ
deriving DecidableEq, Repr

/-- What the commands print on a host: the processes (`none` when `ps` finds none and fails),
and the connections of a process. -/
structure Ssh where
  dcmPids : Str → Option (List ℕ)
  conns : Str → ℕ → List Conn

/-- The variables of `scan_dcms` that outlive a process. -/
structure ScanState where
  i : ℕ
  dip : Option Ipv4
  dcms : List (Str × Dcm)

section Scan

variable (ssh : Ssh) (ignoreIp : Option Ipv4)

/-- The body of the loop over the connections, on `dip` and `inflows`.  `int('')` is an
exception. -/
def scanConn (c : Conn) (b : Option Ipv4 × List Inflow) : Option (Option Ipv4 × List Inflow) :=
  if ignoreIp = some c.sip then some b
  else do
    let dport ← c.dport
    let sport ← c.sport
    return (some c.dip, b.2 ++ [⟨dport, c.sip, sport⟩])

/-- `host + '-' + str(ndcm)`. -/
def dcmKey (host : Str) (ndcm : ℕ) : Str := host ++ '-' :: str ndcm

/-- The body of the loop over the processes.  A `dip` that was never set is an exception. -/
def scanPid (host node : Str) (p : ℕ × ℕ) (s : ScanState) : Option ScanState := do
  let (dip, inflows) ← Machine.run (scanConn ignoreIp) (ssh.conns host p.1) (s.dip, [])
  let ip ← dip
  return ⟨s.i + 1, dip,
    put Prod.fst (dcmKey host p.2, ⟨s.i + 1, node, ip, inflows, p.1⟩) s.dcms⟩

/-- The body of the loop over the hosts. -/
def scanHost (h : Str × Str) (s : ScanState) : Option ScanState :=
  match ssh.dcmPids h.1 with
  | none => some s
  | some dcmPids => Machine.run (scanPid ssh ignoreIp h.1 h.2) (dcmPids.zipIdx 1) s

/-- `scan_dcms` with the matches given, for a list of hosts with their nodes. -/
def scanDcms (hostsList : List (Str × Str)) : Option (List (Str × Dcm)) :=
  (Machine.run (scanHost ssh ignoreIp) hostsList ⟨0, none, []⟩).map ScanState.dcms

end Scan

/-- The keys that `scan_dcms` writes under, in order. -/
def scanKeys (ssh : Ssh) (hostsList : List (Str × Str)) : List Str :=
  hostsList.flatMap fun h => ((ssh.dcmPids h.1).getD []).zipIdx 1 |>.map fun p => dcmKey h.1 p.2

/-! ## The numbers of the ports -/

variable {portNames : List Str} {isDpdk : Bool} {nDaqrPorts : ℕ}

lemma ofport_daqringPorts (base n : ℕ) :
    (daqringPorts base n).map TerminationPoint.ofport = List.range' base n := by
  rw [daqringPorts, List.map_map, List.range'_eq_map_range]
  rfl

lemma ofport_createBridge : (createBridge portNames isDpdk nDaqrPorts).map TerminationPoint.ofport =
    List.range' 1 portNames.length ++
      if isDpdk then List.range' 100 nDaqrPorts ++ List.range' 200 nDaqrPorts else [] := by
  have hphys : (portNames.zipIdx 1).map Prod.snd = List.range' 1 portNames.length :=
    List.zipIdx_map_snd 1 portNames
  rw [createBridge, List.map_append, List.map_map, ← hphys]
  cases isDpdk with
  | true => simp [ofport_daqringPorts, Function.comp_def]
  | false => simp [Function.comp_def]

/-- The port numbers of a bridge are distinct up to 99 physical ports and 100 rings. -/
lemma nodup_ofport_iff :
    ((createBridge portNames isDpdk nDaqrPorts).map TerminationPoint.ofport).Nodup ↔
      (isDpdk = true → nDaqrPorts = 0 ∨ portNames.length ≤ 99 ∧ nDaqrPorts ≤ 100) := by
  rw [ofport_createBridge]
  cases isDpdk with
  | false => simp [List.nodup_range']
  | true =>
    simp only [if_true, List.nodup_append, List.mem_append, List.mem_range'_1, forall_true_left]
    constructor
    · rintro ⟨-, ⟨-, -, hrings⟩, hphys⟩
      by_contra hnot
      rw [not_or, not_and_or] at hnot
      obtain ⟨hpos, hmany | hmany⟩ := hnot
      · exact hphys 100 (by omega) 100 (Or.inl (by omega)) rfl
      · exact hrings 200 (by omega) 200 (by omega) rfl
    · intro h
      refine ⟨List.nodup_range', ⟨List.nodup_range', List.nodup_range', ?_⟩, ?_⟩
      · intro a ha b hb
        omega
      · intro a ha b hb
        omega

/-- The numbers of the daqring ports. -/
lemma exists_ring_iff {port : ℕ} :
    (∃ tp ∈ createBridge portNames isDpdk nDaqrPorts,
      tp.interfaceType = .dpdkdaqr ∧ tp.ofport = port) ↔
    isDpdk = true ∧
      (100 ≤ port ∧ port < 100 + nDaqrPorts ∨ 200 ≤ port ∧ port < 200 + nDaqrPorts) := by
  have hring (base : ℕ) : (∃ tp ∈ daqringPorts base nDaqrPorts,
      tp.interfaceType = .dpdkdaqr ∧ tp.ofport = port) ↔
        base ≤ port ∧ port < base + nDaqrPorts := by
    rw [← List.mem_range'_1, ← ofport_daqringPorts, List.mem_map]
    refine exists_congr fun tp => and_congr_right fun htp => and_iff_right ?_
    obtain ⟨nport, -, rfl⟩ := List.mem_map.mp htp
    rfl
  have hphys : ¬ ∃ tp ∈ (portNames.zipIdx 1).map fun pn =>
      (⟨pn.1, pn.2, if contains pn.1 "dpdk".toList then .dpdk else .system⟩ : TerminationPoint),
      tp.interfaceType = .dpdkdaqr ∧ tp.ofport = port := by
    rintro ⟨tp, htp, hif, -⟩
    obtain ⟨pn, -, rfl⟩ := List.mem_map.mp htp
    simp only at hif
    split at hif <;> cases hif
  cases isDpdk with
  | false => simpa [createBridge] using hphys
  | true =>
    simp only [createBridge, if_true, List.mem_append, or_and_right, exists_or, hring, hphys,
      false_or, true_and]

/-- The numbers of the physical ports. -/
lemma ofport_le_of_physical {tp : TerminationPoint}
    (htp : tp ∈ createBridge portNames isDpdk nDaqrPorts) (hif : tp.interfaceType ≠ .dpdkdaqr) :
    tp.ofport ≤ portNames.length := by
  rcases List.mem_append.mp htp with htp | htp
  · obtain ⟨pn, hpn, rfl⟩ := List.mem_map.mp htp
    have := (List.mem_zipIdx hpn).2.1
    simp only
    omega
  · have hring (base : ℕ) (h : tp ∈ daqringPorts base nDaqrPorts) : False := by
      obtain ⟨nport, -, rfl⟩ := List.mem_map.mp h
      exact hif rfl
    split at htp
    · exact (List.mem_append.mp htp).elim (fun h => (hring _ h).elim) fun h => (hring _ h).elim
    · cases htp

/-! ## The ids of the Dcms -/

section Ids

variable {ssh : Ssh} {ignoreIp : Option Ipv4} {hostsList : List (Str × Str)} {s t : ScanState}

/-- The dictionary was written under the keys of a list, with Dcms that are numbered from 1. -/
def Numbered (keys : List Str) (s : ScanState) : Prop :=
  s.i = keys.length ∧ ∃ es : List (Str × Dcm), es.map Prod.fst = keys ∧
    (∀ i kd, es[i]? = some kd → kd.2.id = i + 1) ∧
    s.dcms = es.foldl (fun t e => put Prod.fst e t) []

lemma scanPid_numbered {host node : Str} {keys : List Str} {p : ℕ × ℕ}
    (h : scanPid ssh ignoreIp host node p s = some t) (hs : Numbered keys s) :
    Numbered (keys ++ [dcmKey host p.2]) t := by
  simp only [scanPid, Option.bind_eq_bind, Option.bind_eq_some_iff, Option.pure_def,
    Option.some_inj] at h
  obtain ⟨b, -, ip, -, rfl⟩ := h
  obtain ⟨hi, es, rfl, hid, hdcms⟩ := hs
  rw [List.length_map] at hi
  refine ⟨by simp [hi], es ++ [(dcmKey host p.2, ⟨s.i + 1, node, ip, b.2, p.1⟩)], by simp, ?_, ?_⟩
  · intro i kd hkd
    rw [List.getElem?_append] at hkd
    split at hkd
    · exact hid i kd hkd
    · rw [List.getElem?_singleton] at hkd
      split at hkd
      · obtain rfl := Option.some_inj.mp hkd
        simp only
        omega
      · cases hkd
  · rw [List.foldl_append, ← hdcms]
    rfl

lemma scanHost_numbered {h : Str × Str} {keys : List Str}
    (hstep : scanHost ssh ignoreIp h s = some t) (hs : Numbered keys s) :
    Numbered (keys ++ scanKeys ssh [h]) t := by
  unfold scanHost at hstep
  cases hpids : ssh.dcmPids h.1 with
  | none =>
    rw [hpids] at hstep
    obtain rfl := Option.some_inj.mp hstep
    simpa [scanKeys, hpids] using hs
  | some dcmPids =>
    rw [hpids] at hstep
    have hstart : Numbered (keys ++ ([] : List (ℕ × ℕ)).map fun p => dcmKey h.1 p.2) s := by
      simpa using hs
    have hrun := Machine.run_history
      (I := fun past s => Numbered (keys ++ past.map fun p => dcmKey h.1 p.2) s)
      (fun past p _ s t hpid hs => by
        simpa [List.map_append, List.append_assoc] using scanPid_numbered hpid hs)
      hstep hstart
    simpa [scanKeys, hpids] using hrun

lemma scanDcms_numbered {dcms : List (Str × Dcm)}
    (h : scanDcms ssh ignoreIp hostsList = some dcms) :
    ∃ s, Numbered (scanKeys ssh hostsList) s ∧ s.dcms = dcms := by
  rw [scanDcms, Option.map_eq_some_iff] at h
  obtain ⟨s, hrun, rfl⟩ := h
  have hstart : Numbered (scanKeys ssh []) ⟨0, none, []⟩ := ⟨rfl, [], rfl, by simp, rfl⟩
  have hhist := Machine.run_history (I := fun past s => Numbered (scanKeys ssh past) s)
    (fun past p _ s t hstep hs => by
      simpa [scanKeys] using scanHost_numbered hstep hs)
    hrun hstart
  exact ⟨s, by simpa using hhist, rfl⟩

/-- A Dcm is left in the dictionary for the last time that its key comes up, with this number
as its id. -/
lemma mem_scanDcms_iff {dcms : List (Str × Dcm)}
    (h : scanDcms ssh ignoreIp hostsList = some dcms) (key : Str) (id : ℕ) :
    (∃ d, (key, d) ∈ dcms ∧ d.id = id) ↔
      ∃ i, id = i + 1 ∧ (scanKeys ssh hostsList)[i]? = some key ∧
        key ∉ (scanKeys ssh hostsList).drop (i + 1) := by
  obtain ⟨s, ⟨-, es, hkeys, hid, hdcms⟩, rfl⟩ := scanDcms_numbered h
  simp only [hdcms, mem_foldl_put, List.not_mem_nil, false_and, false_or, ← hkeys,
    ← List.map_drop, List.getElem?_map, Option.map_eq_some_iff]
  constructor
  · rintro ⟨d, ⟨i, hi, hlater⟩, rfl⟩
    exact ⟨i, hid i _ hi, ⟨_, hi, rfl⟩, hlater⟩
  · rintro ⟨i, rfl, ⟨⟨_, d⟩, hi, rfl⟩, hlater⟩
    exact ⟨d, ⟨i, hi, hlater⟩, hid i _ hi⟩

/-- Different Dcms have different ids. -/
lemma scanDcms_inj {dcms : List (Str × Dcm)} (h : scanDcms ssh ignoreIp hostsList = some dcms)
    {kd kd' : Str × Dcm} (hkd : kd ∈ dcms) (hkd' : kd' ∈ dcms) (hid : kd.2.id = kd'.2.id) :
    kd = kd' := by
  obtain ⟨s, ⟨-, es, -, hids, hdcms⟩, rfl⟩ := scanDcms_numbered h
  simp only [hdcms, mem_foldl_put, List.not_mem_nil, false_and, false_or] at hkd hkd'
  obtain ⟨i, hi, -⟩ := hkd
  obtain ⟨j, hj, -⟩ := hkd'
  rw [hids i kd hi, hids j kd' hj, Nat.add_right_cancel_iff] at hid
  rw [hid, hj, Option.some_inj] at hi
  exact hi.symm

lemma length_scanDcms {dcms : List (Str × Dcm)} (h : scanDcms ssh ignoreIp hostsList = some dcms)
    (hkeys : (scanKeys ssh hostsList).Nodup) : dcms.length = (scanKeys ssh hostsList).length := by
  obtain ⟨s, ⟨-, es, hes, -, hdcms⟩, rfl⟩ := scanDcms_numbered h
  rw [← hes] at hkeys
  rw [hdcms, foldl_put_of_nodup hkeys (by simp), List.nil_append, ← hes, List.length_map]

/-- The keys of different hosts are different. -/
lemma nodup_scanKeys (h : (hostsList.map Prod.fst).Nodup) : (scanKeys ssh hostsList).Nodup := by
  have hone (host : Str) (ps : List ℕ) : ((ps.zipIdx 1).map fun p => dcmKey host p.2).Nodup := by
    have hmap : ((ps.zipIdx 1).map fun p => dcmKey host p.2) =
        (List.range' 1 ps.length).map (dcmKey host) := by
      rw [← List.zipIdx_map_snd 1 ps, List.map_map]
      rfl
    rw [hmap]
    exact List.Nodup.map (fun m n hmn => ((append_cons_str_inj (by decide)).mp hmn).2)
      List.nodup_range'
  rw [scanKeys, List.nodup_flatMap]
  refine ⟨fun h _ => hone h.1 _, ?_⟩
  rw [List.Nodup, List.pairwise_map] at h
  refine h.imp fun {a b} hne key ha hb => hne ?_
  obtain ⟨p, -, rfl⟩ := List.mem_map.mp ha
  obtain ⟨q, -, hq⟩ := List.mem_map.mp hb
  exact ((append_cons_str_inj (by decide)).mp hq).1.symm

end Ids

/-! ## Exactness -/

/-- The three sequences fit together. -/
structure RingPortsAgree (portNames : List Str) (isDpdk : Bool) (nDaqrPorts : ℕ)
    (dcms : List (Str × Dcm)) : Prop where
  distinct : ((createBridge portNames isDpdk nDaqrPorts).map TerminationPoint.ofport).Nodup
  ring : ∀ kd ∈ dcms, ∃ tp ∈ createBridge portNames isDpdk nDaqrPorts,
    tp.interfaceType = .dpdkdaqr ∧ tp.ofport = kd.2.daqringId
  different : ∀ kd ∈ dcms, ∀ kd' ∈ dcms, kd.2.daqringId = kd'.2.daqringId → kd = kd'
  notPhysical : ∀ kd ∈ dcms, ∀ tp ∈ createBridge portNames isDpdk nDaqrPorts,
    tp.interfaceType ≠ .dpdkdaqr → tp.ofport ≠ kd.2.daqringId

/-- The ranges of the ports do not overlap. -/
def RangesFit (portNames : List Str) (isDpdk : Bool) (nDaqrPorts : ℕ) : Prop :=
  isDpdk = true → nDaqrPorts = 0 ∨ portNames.length ≤ 99 ∧ nDaqrPorts ≤ 100

/-- And the number of every process whose key does not come up again is that of a ring. -/
structure RingsFit (ssh : Ssh) (hostsList : List (Str × Str)) (portNames : List Str)
    (isDpdk : Bool) (nDaqrPorts : ℕ) : Prop where
  ranges : RangesFit portNames isDpdk nDaqrPorts
  ids : ∀ i key, (scanKeys ssh hostsList)[i]? = some key →
    key ∉ (scanKeys ssh hostsList).drop (i + 1) →
    isDpdk = true ∧ (i + 1 < nDaqrPorts ∨ 100 ≤ i + 1 ∧ i + 1 < 100 + nDaqrPorts)

variable {ssh : Ssh} {ignoreIp : Option Ipv4} {hostsList : List (Str × Str)}
  {dcms : List (Str × Dcm)}

lemma exists_ring_daqringId_iff (d : Dcm) : (∃ tp ∈ createBridge portNames isDpdk nDaqrPorts,
      tp.interfaceType = .dpdkdaqr ∧ tp.ofport = d.daqringId) ↔
    isDpdk = true ∧ (d.id < nDaqrPorts ∨ 100 ≤ d.id ∧ d.id < 100 + nDaqrPorts) := by
  rw [exists_ring_iff, Dcm.daqringId]
  refine and_congr_right ?_
  intro _
  omega

lemma ringPortsAgree_iff (h : scanDcms ssh ignoreIp hostsList = some dcms) :
    RingPortsAgree portNames isDpdk nDaqrPorts dcms ↔
      RingsFit ssh hostsList portNames isDpdk nDaqrPorts := by
  constructor
  · intro hagree
    refine ⟨nodup_ofport_iff.mp hagree.distinct, ?_⟩
    intro i key hkey hlater
    obtain ⟨d, hd, hid⟩ := (mem_scanDcms_iff h key (i + 1)).mpr ⟨i, rfl, hkey, hlater⟩
    have hring := (exists_ring_daqringId_iff d).mp (hagree.ring _ hd)
    rwa [hid] at hring
  · intro hfit
    have hids : ∀ kd ∈ dcms,
        isDpdk = true ∧ (kd.2.id < nDaqrPorts ∨ 100 ≤ kd.2.id ∧ kd.2.id < 100 + nDaqrPorts) := by
      intro kd hkd
      obtain ⟨i, hi, hkey, hlater⟩ := (mem_scanDcms_iff h kd.1 kd.2.id).mp ⟨kd.2, hkd, rfl⟩
      rw [hi]
      exact hfit.ids i kd.1 hkey hlater
    refine ⟨nodup_ofport_iff.mpr hfit.ranges,
      fun kd hkd => (exists_ring_daqringId_iff kd.2).mpr (hids kd hkd),
      fun kd hkd kd' hkd' heq => scanDcms_inj h hkd hkd' (Nat.add_right_cancel heq),
      ?_⟩
    intro kd hkd tp htp hif heq
    obtain ⟨hdpdk, hring⟩ := hids kd hkd
    have hle := ofport_le_of_physical htp hif
    have hranges := hfit.ranges hdpdk
    rw [heq, Dcm.daqringId] at hle
    omega

/-- With distinct hosts there are as many Dcms as processes, numbered from 1. -/
lemma ringsFit_iff_of_nodup (h : scanDcms ssh ignoreIp hostsList = some dcms)
    (hhosts : (hostsList.map Prod.fst).Nodup) (hlen : dcms.length ≤ nDaqrPorts) :
    RingsFit ssh hostsList portNames isDpdk nDaqrPorts ↔ RangesFit portNames isDpdk nDaqrPorts ∧
      (dcms.length = 0 ∨ isDpdk = true ∧ (dcms.length < nDaqrPorts ∨ nDaqrPorts = 100)) := by
  have hnodup : (scanKeys ssh hostsList).Nodup := nodup_scanKeys hhosts
  rw [length_scanDcms h hnodup] at hlen ⊢
  constructor
  · intro hfit
    refine ⟨hfit.ranges, (Nat.eq_zero_or_pos _).imp_right ?_⟩
    intro hpos
    have hlast : (scanKeys ssh hostsList).length - 1 < (scanKeys ssh hostsList).length := by omega
    obtain ⟨hdpdk, hring⟩ := hfit.ids _ _ (List.getElem?_eq_getElem hlast) (by
      rw [List.drop_eq_nil_of_le (by omega)]
      exact List.not_mem_nil)
    have hranges := hfit.ranges hdpdk
    exact ⟨hdpdk, by omega⟩
  · rintro ⟨hranges, hlen'⟩
    refine ⟨hranges, ?_⟩
    intro i key hkey _
    obtain ⟨hi, -⟩ := List.getElem?_eq_some_iff.mp hkey
    rcases hlen' with hzero | ⟨hdpdk, hlen'⟩
    · omega
    · exact ⟨hdpdk, by omega⟩

/-- The ports agree exactly when the ranges do not overlap and every Dcm that is left in the
dictionary has the number of a ring.  For distinct hosts: when the Dcms are fewer than the
rings, or the rings are 100. -/
theorem ringPorts_agree_iff (portNames : List Str) (isDpdk : Bool) (nDaqrPorts : ℕ)
    (h : scanDcms ssh ignoreIp hostsList = some dcms) :
    (RingPortsAgree portNames isDpdk nDaqrPorts dcms ↔
      RingsFit ssh hostsList portNames isDpdk nDaqrPorts) ∧
    ((hostsList.map Prod.fst).Nodup → dcms.length ≤ nDaqrPorts →
      (RingPortsAgree portNames isDpdk nDaqrPorts dcms ↔
        RangesFit portNames isDpdk nDaqrPorts ∧
          (dcms.length = 0 ∨ isDpdk = true ∧ (dcms.length < nDaqrPorts ∨ nDaqrPorts = 100)))) :=
  ⟨ringPortsAgree_iff h,
    fun hhosts hlen => (ringPortsAgree_iff h).trans (ringsFit_iff_of_nodup h hhosts hlen)⟩

/-- One host with two Dcms. -/
def twoDcms : Ssh where
  dcmPids _ := some [7, 8]
  conns _ p := [⟨⟨10, 193, 160, 1⟩, some p, ⟨10, 193, 160, 2⟩, some 1000⟩]

theorem ringPorts_agree_iff_twoDcms :
    ∃ dcms, scanDcms twoDcms none [("h".toList, "pod-1-a".toList)] = some dcms ∧
      (RingPortsAgree ["dpdk0".toList] true 3 dcms ↔
        RingsFit twoDcms [("h".toList, "pod-1-a".toList)] ["dpdk0".toList] true 3) := by
  obtain ⟨dcms, h⟩ : ∃ dcms, scanDcms twoDcms none [("h".toList, "pod-1-a".toList)] = some dcms :=
    ⟨_, rfl⟩
  exact ⟨dcms, h, (ringPorts_agree_iff ["dpdk0".toList] true 3 h).1⟩

/-- With two rings the second Dcm is directed to port 102, which there is not. -/
theorem twoDcms_not_agree :
    ∃ dcms, scanDcms twoDcms none [("h".toList, "pod-1-a".toList)] = some dcms ∧
      dcms.length ≤ 2 ∧ ¬ RingPortsAgree ["dpdk0".toList] true 2 dcms := by
  refine ⟨_, rfl, by decide, ?_⟩
  intro h
  obtain ⟨tp, htp, hring⟩ := h.ring _ (List.mem_cons_of_mem _ List.mem_cons_self)
  revert tp
  decide

end DaqSwitch.Odl
