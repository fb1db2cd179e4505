import DaqSwitch.Lib.RoundRobin
import DaqSwitch.VoqSwq.InitSpec

/-!
# How evenly the ports are distributed

The search of `get_next_lcore` goes on behind the lcore of the port before, also when that is
on another socket.  The distribution of the ports is a round robin over the lcores of a type,
grouped by their sockets, as long as no socket runs out of lcores.  Where the ports come socket by
socket, the lcores of a socket get even numbers of them.  Where they come back to a socket, its
round starts again: then an lcore gets a second port while another one has none, if the lcores of
the socket lie together and are more than its ports.
-/

namespace DaqSwitch.VoqSwq

open Lib Lib.Machine Lib.CyclicScan

variable (P : Platform)

/-! ## The property -/

/-- The lcores of a data type on a socket have numbers of ports that differ by at most one. -/
def EvenPorts (dp : DpParams) : Prop :=
  ∀ type ∈ [DpLcoreType.dataRx, .dataTx], ∀ l ∈ lcoresOf dp type, ∀ l' ∈ lcoresOf dp type,
    P.lcoreSocket (dp.lcores l).id = P.lcoreSocket (dp.lcores l').id →
      (dp.lcores l).nbPorts ≤ (dp.lcores l').nbPorts + 1

/-! ## The round robin -/

/-- The lcores of a type, grouped by their sockets. -/
def lcoreTurns (dp : DpParams) (type : DpLcoreType) : RoundRobin ℕ where
  slots := dp.nbLcores
  cap := dpLcorePortMax
  group l := if (dp.lcores l).type = type then some (P.lcoreSocket (dp.lcores l).id) else none
  resume l := (internalId dp (dp.lcores l).id).getD l

/-- Before the first port, behind the default lcore. -/
def freshTurns : RoundRobin.State := ⟨fun _ => 0, dpLcoreIdDefault⟩

/-- The requests: the sockets of the ports. -/
def Platform.portSockets : List ℕ := (List.range P.nbPorts).map P.portSocket

/-- The lcores of each data type on the socket of a port have room for the ports of this
socket. -/
def HasRoom (dp : DpParams) : Prop :=
  ∀ type ∈ [DpLcoreType.dataRx, .dataTx], ∀ socket ∈ P.portSockets,
    P.portSockets.count socket ≤ dpLcorePortMax * ((lcoreTurns P dp type).members socket).card

/-- For each data type, the ports do not come back, after a port on another socket, to a socket
with several lcores of the type. -/
def SocketBlocks (dp : DpParams) : Prop :=
  ∀ type ∈ [DpLcoreType.dataRx, .dataTx], ∀ socket, (lcoreTurns P dp type).Several socket →
    ¬ RoundRobin.Returns socket P.portSockets

/-- The lcores of a type on a socket lie together, and there are more than ports on it. -/
structure Spacious (dp : DpParams) (type : DpLcoreType) (socket : ℕ) : Prop where
  together : ∃ f, (lcoreTurns P dp type).Leads socket dpLcoreIdDefault f
  more : P.portSockets.count socket < ((lcoreTurns P dp type).members socket).card

instance (dp : DpParams) : Decidable (EvenPorts P dp) :=
  inferInstanceAs (Decidable (∀ type ∈ [DpLcoreType.dataRx, .dataTx], ∀ l ∈ lcoresOf dp type,
    ∀ l' ∈ lcoresOf dp type, P.lcoreSocket (dp.lcores l).id = P.lcoreSocket (dp.lcores l').id →
      (dp.lcores l).nbPorts ≤ (dp.lcores l').nbPorts + 1))

instance (dp : DpParams) : Decidable (HasRoom P dp) :=
  inferInstanceAs (Decidable (∀ type ∈ [DpLcoreType.dataRx, .dataTx], ∀ socket ∈ P.portSockets,
    P.portSockets.count socket ≤ dpLcorePortMax * ((lcoreTurns P dp type).members socket).card))

/-! ## The distribution follows the round robin -/

/-- The round robin stands where the distribution does. -/
structure Tracks (W : PortWriter) (dp : DpParams) (s : DpParams × ℕ) (x : RoundRobin.State) :
    Prop where
  same : SameLcores W dp s.1
  load : ∀ l, (dp.lcores l).type = W.type → (s.1.lcores l).nbPorts = x.load l
  prev : internalId dp s.2 = some x.prev

variable {P} {W : PortWriter} {dp dp' : DpParams} {m port l : ℕ} {s : DpParams × ℕ}
  {x y : RoundRobin.State}

lemma SameLcores.internalId_eq (h : SameLcores W dp dp') (lcoreId : ℕ) :
    internalId dp' lcoreId = internalId dp lcoreId := by
  simp only [internalId, h.nbLcores, h.id]

lemma SameLcores.lcoreTurns_eq (h : SameLcores W dp dp') (type : DpLcoreType) :
    lcoreTurns P dp' type = lcoreTurns P dp type := by
  simp only [lcoreTurns, h.nbLcores, h.type, h.id, h.internalId_eq]

/-- The strict test of `get_next_lcore` is the test of the round robin. -/
lemma Tracks.candidate_eq (h : Tracks W dp s x) (socket : ℕ) :
    candidate P s.1 W.type socket true = (lcoreTurns P dp W.type).hasRoom socket x := by
  funext l
  simp only [candidate, RoundRobin.hasRoom, lcoreTurns, h.same.type, h.same.id]
  by_cases htype : (dp.lcores l).type = W.type
  · rw [h.load l htype, Bool.eq_iff_iff]
    simp only [htype, beq_self_eq_true, Bool.true_and, Bool.not_true, Bool.false_or,
      Bool.and_eq_true, decide_eq_true_eq, beq_iff_eq, if_true, Option.some_inj]
    exact ⟨fun h => ⟨h.2.symm, decide_eq_true h.1⟩, fun h => ⟨of_decide_eq_true h.2, h.1.symm⟩⟩
  · simp [htype]

/-- The step lemma: the strict search finds the lcore whose turn it is. -/
lemma Tracks.assignPort (h : Tracks W dp s x)
    (hstep : (lcoreTurns P dp W.type).step (P.portSocket port) x = some y) :
    ∃ t, assignPort P W port s = some t ∧ Tracks W dp t y := by
  obtain ⟨l, hnext, hself, hother, hprev⟩ := RoundRobin.step_eq_some hstep
  obtain ⟨hlt, hgroup⟩ := RoundRobin.mem_members.mp (RoundRobin.next_eq_some hnext).1
  -- the strict pass finds the slot that is next
  have hstrict : scan s.1.nbLcores x.prev (candidate P s.1 W.type (P.portSocket port) true) =
      some l := by
    rw [h.candidate_eq, h.same.nbLcores]
    exact hnext
  have hget : (getNextLcore P s.1 s.2 W.type (P.portSocket port)).join = some l := by
    rw [getNextLcore, h.same.internalId_eq, h.prev, Option.map_some, Option.join_some, hstrict]
    rfl
  have hassign : VoqSwq.assignPort P W port s =
      some (s.1.setLcore l (W.append port (s.1.lcores l)), (s.1.lcores l).id) := by
    rw [VoqSwq.assignPort, hget, Option.map_some]
    exact congrArg (fun id => some (_, id)) (W.write_id port _)
  refine ⟨_, hassign, h.same.trans (assignPort_same hassign), ?_, ?_⟩
  · intro l' htype
    rcases eq_or_ne l' l with rfl | hne
    · rw [hself, DpParams.setLcore_lcores_self, PortWriter.append_nbPorts, h.load l' htype]
    · rw [hother l' hne, DpParams.setLcore_lcores_of_ne hne, h.load l' htype]
  · obtain ⟨k, hk⟩ := internalId_of_mem hlt
    rw [hprev, h.same.id]
    show internalId dp (dp.lcores l).id = some ((internalId dp (dp.lcores l).id).getD l)
    rw [hk]
    rfl

/-- The run lemma: as long as no socket runs out of lcores, the loop over the ports is the round
robin. -/
lemma Tracks.run_assignPort (h : Tracks W dp s x)
    (hrun : run (lcoreTurns P dp W.type).step ((List.range m).map P.portSocket) x = some y) :
    ∃ t, run (VoqSwq.assignPort P W) (List.range m) s = some t ∧ Tracks W dp t y :=
  run_follows (fun _ _ _ _ hs hstep => hs.assignPort hstep) h hrun

/-- On entry, both stand at the default lcore. -/
lemma tracks_fresh (hpos : 0 < dp.nbLcores)
    (hdp : ∀ l, (dp.lcores l).type = W.type → (dp.lcores l).nbPorts = 0) :
    Tracks W dp (dp, (dp.lcores dpLcoreIdDefault).id) freshTurns := by
  refine ⟨.refl W dp, hdp, ?_⟩
  obtain ⟨n, hn⟩ : ∃ n, dp.nbLcores = n + 1 := ⟨dp.nbLcores - 1, by omega⟩
  rw [internalId, hn, List.range_succ_eq_map, List.find?_cons_of_pos (by simp [dpLcoreIdDefault])]
  rfl

/-- A distribution that fits, and the round robin it follows. -/
lemma distributePorts_tracks (hpos : 0 < dp.nbLcores)
    (hdp : ∀ l, (dp.lcores l).type = W.type → (dp.lcores l).nbPorts = 0)
    (hrun : run (lcoreTurns P dp W.type).step P.portSockets freshTurns = some y) :
    ∃ dp', distributePorts P W dp = some dp' ∧ SameLcores W dp dp' ∧
      ∀ l ∈ lcoresOf dp W.type, (dp'.lcores l).nbPorts = y.load l := by
  obtain ⟨t, ht, htracks⟩ := (tracks_fresh hpos hdp).run_assignPort hrun
  refine ⟨t.1, Option.map_eq_some_iff.mpr ⟨t, ht, rfl⟩, htracks.same, ?_⟩
  intro l hl
  exact htracks.load l (mem_lcoresOf.mp hl).2

/-! ## Both types -/

lemma evenPorts_iff {type : DpLcoreType} (hloads : ∀ l ∈ lcoresOf dp type,
    (dp'.lcores l).nbPorts = y.load l) :
    (lcoreTurns P dp type).Balanced y ↔ ∀ l ∈ lcoresOf dp type, ∀ l' ∈ lcoresOf dp type,
      P.lcoreSocket (dp.lcores l).id = P.lcoreSocket (dp.lcores l').id →
        (dp'.lcores l).nbPorts ≤ (dp'.lcores l').nbPorts + 1 := by
  have hmem (l socket : ℕ) : l ∈ (lcoreTurns P dp type).members socket ↔
      l ∈ lcoresOf dp type ∧ P.lcoreSocket (dp.lcores l).id = socket := by
    rw [RoundRobin.mem_members, mem_lcoresOf]
    simp only [lcoreTurns]
    split <;> simp_all
  constructor
  · intro hy l hl l' hl' hsocket
    rw [hloads l hl, hloads l' hl']
    exact hy _ l ((hmem l _).mpr ⟨hl, rfl⟩) l' ((hmem l' _).mpr ⟨hl', hsocket.symm⟩)
  · intro heven socket l hl l' hl'
    obtain ⟨hlcore, rfl⟩ := (hmem l _).mp hl
    obtain ⟨hlcore', hsocket⟩ := (hmem l' _).mp hl'
    rw [← hloads l hlcore, ← hloads l' hlcore']
    exact heven l hlcore l' hlcore' hsocket.symm

/-- `init_lcores` for a machine with lcores of both types and the round robins it follows. -/
lemma initLcores_tracks {rings : ℕ → ℕ → Option RteRing} {yRx yTx : RoundRobin.State}
    (hdp : typeLcores P (DpParams.zeroed rings) = some dp)
    (hrx : run (lcoreTurns P dp .dataRx).step P.portSockets freshTurns = some yRx)
    (htx : run (lcoreTurns P dp .dataTx).step P.portSockets freshTurns = some yTx) :
    ∃ dp', initLcores P (DpParams.zeroed rings) = some dp' ∧ (EvenPorts P dp' ↔
      (lcoreTurns P dp .dataRx).Balanced yRx ∧ (lcoreTurns P dp .dataTx).Balanced yTx) := by
  obtain ⟨htyped, -, -⟩ := (typeLcores_spec P rings).2 dp hdp
  have hpos : 0 < dp.nbLcores := by
    have := htyped.three
    rw [htyped.nbLcores]
    omega
  obtain ⟨dp₁, hdp₁, hsame₁, hloads₁⟩ := distributePorts_tracks (W := dataRxWriter P.nbPorts) hpos
    (fun l _ => htyped.nbPorts l) hrx
  have htxType (l : ℕ) (hl : (dp₁.lcores l).type = .dataTx) : dp₁.lcores l = dp.lcores l := by
    rw [hsame₁.type] at hl
    exact hsame₁.other l (by rw [hl]; nofun)
  rw [← hsame₁.lcoreTurns_eq] at htx
  obtain ⟨dp₂, hdp₂, hsame₂, hloads₂⟩ := distributePorts_tracks (W := dataTxWriter)
    (hsame₁.nbLcores ▸ hpos) (fun l hl => by rw [htxType l hl, htyped.nbPorts]) htx
  have hinit : initLcores P (DpParams.zeroed rings) = some dp₂ := by
    have hrxq : P.nbPorts ≤ P.dpPortRxqMax := P.nbPorts_le.trans (Nat.le_succ _)
    rw [initLcores, hdp, Option.bind_some, initLcoresDataRx, if_pos hrxq, hdp₁]
    exact hdp₂
  have hof (type : DpLcoreType) : lcoresOf dp₂ type = lcoresOf dp type :=
    (hsame₂.lcoresOf_eq type).trans (hsame₁.lcoresOf_eq type)
  have hid (l : ℕ) : (dp₂.lcores l).id = (dp.lcores l).id := (hsame₂.id l).trans (hsame₁.id l)
  -- the second distribution leaves the data rx lcores alone
  have hloadsRx : ∀ l ∈ lcoresOf dp .dataRx, (dp₂.lcores l).nbPorts = yRx.load l := by
    intro l hl
    have htype : (dp₁.lcores l).type = .dataRx := (hsame₁.type l).trans (mem_lcoresOf.mp hl).2
    rw [hsame₂.other l (by rw [htype]; nofun)]
    exact hloads₁ l hl
  have hloadsTx : ∀ l ∈ lcoresOf dp .dataTx, (dp₂.lcores l).nbPorts = yTx.load l := by
    intro l hl
    exact hloads₂ l ((hsame₁.lcoresOf_eq _).symm ▸ hl)
  refine ⟨dp₂, hinit, ?_⟩
  rw [evenPorts_iff hloadsRx, evenPorts_iff hloadsTx, EvenPorts]
  simp only [List.forall_mem_cons, List.not_mem_nil, false_implies, implies_true, and_true, hof,
    hid]

/-! ## Ports that come back to a socket -/

section Order

variable {rings : ℕ → ℕ → Option RteRing} {type : DpLcoreType} {socket : ℕ}

lemma balanced_freshTurns (type : DpLcoreType) : (lcoreTurns P dp type).Balanced freshTurns :=
  fun _ _ _ _ _ => Nat.zero_le _

lemma total_freshTurns (type : DpLcoreType) (socket : ℕ) :
    (lcoreTurns P dp type).total socket freshTurns = 0 := Finset.sum_eq_zero fun _ _ => rfl

/-- Ports in the order of their sockets do not come back to one. -/
lemma socketBlocks_of_pairwise_le (h : P.portSockets.Pairwise (· ≤ ·)) : SocketBlocks P dp :=
  fun _ _ socket _ => RoundRobin.not_returns_of_pairwise_le h socket

/-- Where there is room, every port gets an lcore of the type on its socket. -/
lemma HasRoom.exists_run (hroom : HasRoom P dp) (htype : type ∈ [DpLcoreType.dataRx, .dataTx]) :
    ∃ y, run (lcoreTurns P dp type).step P.portSockets freshTurns = some y := by
  refine RoundRobin.exists_run ?_
  intro socket hsocket
  rw [total_freshTurns, Nat.zero_add]
  exact hroom type htype socket hsocket

/-- The search for the lcore of the next port starts at the lcore of the port before. -/
lemma lcoreTurns_resume (hslaves : P.slaves.Nodup)
    (hdp : typeLcores P (DpParams.zeroed rings) = some dp) :
    ∀ l < (lcoreTurns P dp type).slots, (lcoreTurns P dp type).resume l = l := by
  obtain ⟨htyped, -, -⟩ := (typeLcores_spec P rings).2 dp hdp
  have hid (l : ℕ) (hl : l < dp.nbLcores) : P.slaves[l]? = some (dp.lcores l).id := by
    rw [htyped.nbLcores] at hl
    obtain ⟨id, hget⟩ : ∃ id, P.slaves[l]? = some id := ⟨_, List.getElem?_eq_getElem hl⟩
    rw [hget, typeLcores_id hdp hget]
  intro l hl
  obtain ⟨k, hk⟩ := internalId_of_mem hl
  have hklt : k < dp.nbLcores := List.mem_range.mp (List.mem_of_find?_eq_some hk)
  have hsame : (dp.lcores k).id = (dp.lcores l).id := by
    simpa using List.find?_some hk
  -- the worker lcores are all different
  have hkl : k = l := by
    have hlength : k < P.slaves.length := htyped.nbLcores ▸ hklt
    refine (List.getElem?_inj hlength hslaves).mp ?_
    rw [hid k hklt, hid l hl, hsame]
  simp only [lcoreTurns]
  rw [hk, hkl]
  rfl

/-- **Ports that come back to a socket.**  A machine whose lcores are all different and have room
distributes its ports evenly if the ports do not come back, after a port on another socket, to a
socket with several lcores of a data type.  If they do come back to a socket whose lcores of the
type lie together and outnumber its ports, it does not. -/
theorem initLcores_evenPorts (hslaves : P.slaves.Nodup)
    (hdp : typeLcores P (DpParams.zeroed rings) = some dp) (hroom : HasRoom P dp) :
    ∃ dp', initLcores P (DpParams.zeroed rings) = some dp' ∧
      (SocketBlocks P dp → EvenPorts P dp') ∧
      ∀ type ∈ [DpLcoreType.dataRx, .dataTx], ∀ socket, Spacious P dp type socket →
        RoundRobin.Returns socket P.portSockets → ¬ EvenPorts P dp' := by
  have hrun (type : DpLcoreType) (htype : type ∈ [DpLcoreType.dataRx, .dataTx]) :=
    hroom.exists_run htype
  obtain ⟨yRx, hrx⟩ := hrun .dataRx (by simp)
  obtain ⟨yTx, htx⟩ := hrun .dataTx (by simp)
  obtain ⟨dp', hdp', heven⟩ := initLcores_tracks hdp hrx htx
  refine ⟨dp', hdp', ?_, ?_⟩
  · intro hblocks
    have hbalanced (type : DpLcoreType) (htype : type ∈ [DpLcoreType.dataRx, .dataTx])
        (y : RoundRobin.State)
        (h : run (lcoreTurns P dp type).step P.portSockets freshTurns = some y) :
        (lcoreTurns P dp type).Balanced y := by
      have hserved : (lcoreTurns P dp type).Served [] freshTurns :=
        ⟨balanced_freshTurns type, fun _ _ _ _ => rfl, nofun⟩
      exact (RoundRobin.run_served (lcoreTurns_resume hslaves hdp) (hblocks type htype) hserved
        h).balanced
    exact heven.mpr ⟨hbalanced .dataRx (by simp) yRx hrx, hbalanced .dataTx (by simp) yTx htx⟩
  · intro type htype socket hspacious hreturns hdp'even
    obtain ⟨hbalancedRx, hbalancedTx⟩ := heven.mp hdp'even
    obtain ⟨f, hlead⟩ := hspacious.together
    have hnot (y : RoundRobin.State)
        (h : run (lcoreTurns P dp type).step P.portSockets freshTurns = some y) :
        ¬ (lcoreTurns P dp type).Balanced y :=
      RoundRobin.not_balanced_of_returns (lcoreTurns_resume hslaves hdp) hlead
        (show 2 ≤ dpLcorePortMax by decide) rfl (total_freshTurns type socket) hspacious.more
        hreturns h
    simp only [List.mem_cons, List.not_mem_nil, or_false] at htype
    rcases htype with rfl | rfl
    · exact hnot yRx hrx hbalancedRx
    · exact hnot yTx htx hbalancedTx

end Order

/-- Nine worker lcores, of which the last two are on socket 1, and three ports. -/
def twoSockets (portSocket : ℕ → ℕ) : Platform where
  slaves := [1, 2, 3, 4, 5, 6, 7, 8, 9]
  lcoreSocket lcoreId := if lcoreId < 8 then 0 else 1
  portSocket := portSocket
  devCount := 3
  rteMaxEthports := 32
  ringCreate _ _ := true

/-- Ports on the sockets 0, 0 and 1 are distributed evenly, ports on the sockets 0, 1 and 0 are
not. -/
theorem initLcores_evenPorts_twoSockets :
    (∃ dp', initLcores (twoSockets fun port => port / 2) (DpParams.zeroed fun _ _ => none) =
      some dp' ∧ EvenPorts (twoSockets fun port => port / 2) dp') ∧
    ∃ dp', initLcores (twoSockets fun port => port % 2) (DpParams.zeroed fun _ _ => none) =
      some dp' ∧ ¬ EvenPorts (twoSockets fun port => port % 2) dp' := by
  constructor
  · obtain ⟨dp, hdp, hroom⟩ : ∃ dp, typeLcores (twoSockets fun port => port / 2)
        (DpParams.zeroed fun _ _ => none) = some dp ∧
        HasRoom (twoSockets fun port => port / 2) dp := ⟨_, rfl, by decide +kernel⟩
    obtain ⟨dp', hdp', heven, -⟩ := initLcores_evenPorts (by decide) hdp hroom
    exact ⟨dp', hdp', heven (socketBlocks_of_pairwise_le (by decide))⟩
  · obtain ⟨dp, hdp, hroom, hspacious⟩ : ∃ dp, typeLcores (twoSockets fun port => port % 2)
        (DpParams.zeroed fun _ _ => none) = some dp ∧
        HasRoom (twoSockets fun port => port % 2) dp ∧
        Spacious (twoSockets fun port => port % 2) dp .dataRx 0 := by
      exact ⟨_, rfl, by decide +kernel, ⟨1, by decide +kernel⟩, by decide +kernel⟩
    obtain ⟨dp', hdp', -, hnot⟩ := initLcores_evenPorts (by decide) hdp hroom
    refine ⟨dp', hdp', hnot .dataRx (by simp) 0 hspacious ⟨[0, 1], ?_, by decide, by decide⟩⟩
    exact List.prefix_refl _

/-- Both ports on socket 0 go to one data rx lcore, and the other two data rx lcores there get
none. -/
theorem not_evenPorts_alternating : ∃ dp dp',
    typeLcores (twoSockets fun port => port % 2) (DpParams.zeroed fun _ _ => none) = some dp ∧
    HasRoom (twoSockets fun port => port % 2) dp ∧
    initLcores (twoSockets fun port => port % 2) (DpParams.zeroed fun _ _ => none) = some dp' ∧
    ¬ EvenPorts (twoSockets fun port => port % 2) dp' :=
  ⟨_, _, rfl, by decide +kernel, rfl, by decide +kernel⟩

end DaqSwitch.VoqSwq
