import DaqSwitch.VoqHwq.Mapping

/-!
# The result of `add_ipv4_rule`

`add_ipv4_rule` asks the NIC of every port for a filter and keeps the answers in one variable, so
that its result is the answer of the last port.  For a port that no lcore serves the queue is -1 as
a `uint16_t`, and the NICs are asked all the same.
-/

namespace DaqSwitch.VoqHwq

namespace Platform

variable (P : Platform)

/-- The queue as the NIC gets it: `rte_eth_dev_add_5tuple_filter` takes a `uint16_t`,
`rte_eth_dev_fdir_add_perfect_filter` a `uint8_t`. -/
def nicQueue (queueId : ℕ) : ℕ := if P.use5tuple then queueId else queueId % 2 ^ 8

/-- The body of the loop over the ports, on `ret` and the filters in the NICs. -/
def addRuleOnPort (rets : ℕ → ℤ) (f : Filter) (s : ℤ × List Filter) (portId : ℕ) :
    ℤ × List Filter :=
  let ret := rets portId
  if ret < 0 then (ret, s.2) else (ret, s.2 ++ [{ f with portId := portId }])

/-- `add_ipv4_rule`, call by call. -/
def addIpv4RuleLoop (conf : LcoreConf) (rets : ℕ → ℤ) (ipv4 : BitVec 32) (portOutId : ℕ)
    (routes : Routes) : ℤ × Routes :=
  let queueId := P.getRxqueuesId conf portOutId
  let s := (List.range P.nbPorts).foldl
    (addRuleOnPort rets ⟨0, routes.nbIpRoutes, ipv4, P.nicQueue queueId⟩) (0, routes.filters)
  (s.1, { nbIpRoutes := routes.nbIpRoutes + 1, filters := s.2 })

/-- The loop ends with the answer of the last port and the filters of the ports that accept. -/
lemma foldl_addRuleOnPort (rets : ℕ → ℤ) (f : Filter) (filters : List Filter) (n : ℕ) :
    (List.range n).foldl (addRuleOnPort rets f) (0, filters) =
      (if n = 0 then 0 else rets (n - 1),
        filters ++ ((List.range n).filter fun p => 0 ≤ rets p).map fun p =>
          { f with portId := p }) := by
  induction n with
  | zero => simp
  | succ n ih =>
    rw [List.range_succ, List.foldl_append, ih, List.filter_append, List.map_append]
    by_cases hret : rets n < 0
    · simp [addRuleOnPort, hret]
    · simp [addRuleOnPort, hret, not_lt.mp hret]

variable {P} {conf : LcoreConf} {rets : ℕ → ℤ} {ipv4 : BitVec 32} {o : ℕ} {routes : Routes}

lemma addIpv4RuleLoop_eq :
    P.addIpv4RuleLoop conf rets ipv4 o routes =
      (if (P.nbPorts : ℕ) = 0 then 0 else rets (P.nbPorts - 1),
        { nbIpRoutes := routes.nbIpRoutes + 1
          filters := routes.filters ++
            ((List.range P.nbPorts).filter fun p => 0 ≤ rets p).map fun p =>
              ⟨p, routes.nbIpRoutes, ipv4, P.nicQueue (P.getRxqueuesId conf o)⟩ }) := by
  rw [addIpv4RuleLoop, foldl_addRuleOnPort]

/-- For a queue that the NIC gets as it is, the loop does what the model without it does. -/
lemma addIpv4RuleLoop_eq_addIpv4Rule
    (h : P.nicQueue (P.getRxqueuesId conf o) = P.getRxqueuesId conf o) :
    P.addIpv4RuleLoop conf rets ipv4 o routes = P.addIpv4Rule conf rets ipv4 o routes := by
  rw [addIpv4RuleLoop_eq, addIpv4Rule, h]
  refine Prod.ext ?_ rfl
  rcases Nat.eq_zero_or_pos (P.nbPorts : ℕ) with hn | hn
  · simp [hn]
  · have hlast : (List.range (P.nbPorts : ℕ)).getLast? = some ((P.nbPorts : ℕ) - 1) := by
      rw [List.getLast?_range, if_neg (by omega)]
    simp [List.getLast?_map, hlast, hn.ne']

/-- What a caller expects: a result that is not negative means that every NIC has a filter to the
queue that is polled for the port, and a port that no lcore serves is an error that changes no
NIC. -/
structure ReportsFailures (P : Platform) (conf : LcoreConf) (rets : ℕ → ℤ) (ipv4 : BitVec 32)
    (o : ℕ) (routes : Routes) : Prop where
  installed : 0 ≤ (P.addIpv4RuleLoop conf rets ipv4 o routes).1 →
    ∃ l k q, Serves P conf l k q ∧ q.portId = o ∧
      (P.addIpv4RuleLoop conf rets ipv4 o routes).2.filters = routes.filters ++
        (List.range P.nbPorts).map fun p => ⟨p, routes.nbIpRoutes, ipv4, q.rxQueueId⟩
  unknown : (∀ l k q, Serves P conf l k q → q.portId ≠ o) →
    (P.addIpv4RuleLoop conf rets ipv4 o routes).1 < 0 ∧
      (P.addIpv4RuleLoop conf rets ipv4 o routes).2.filters = routes.filters

/-- The filters of all ports are there exactly when all NICs accept. -/
lemma map_filter_range_eq_iff {n : ℕ} {g : ℕ → Filter} (hg : Function.Injective g) :
    ((List.range n).filter fun p => 0 ≤ rets p).map g = (List.range n).map g ↔
      ∀ p < n, 0 ≤ rets p := by
  rw [(List.map_injective_iff.mpr hg).eq_iff, List.filter_eq_self]
  simp

/-- There are none exactly when all refuse. -/
lemma map_filter_range_eq_nil_iff {n : ℕ} {g : ℕ → Filter} :
    ((List.range n).filter fun p => 0 ≤ rets p).map g = [] ↔ ∀ p < n, rets p < 0 := by
  rw [List.map_eq_nil_iff, List.filter_eq_nil_iff]
  simp

/-- A port that an lcore serves. -/
lemma reportsFailures_served_iff (h : Configured P conf) (ho : o < P.nbPorts) :
    ReportsFailures P conf rets ipv4 o routes ↔
      rets (P.nbPorts - 1) < 0 ∨ ∀ p < (P.nbPorts : ℕ), 0 ≤ rets p := by
  obtain ⟨l, k, q, hq, rfl⟩ := h.exists_of_portId ho
  have hqueue : P.nicQueue (P.getRxqueuesId conf q.portId) = q.rxQueueId := by
    have hlt := h.rxQueueId_lt hq.mem
    have hports := P.nbPorts.isLt
    rw [h.getRxqueuesId_eq hq.mem, nicQueue]
    split
    · rfl
    · exact Nat.mod_eq_of_lt (by omega)
  have hinj : Function.Injective fun p : ℕ =>
      (⟨p, routes.nbIpRoutes, ipv4, q.rxQueueId⟩ : Filter) :=
    fun _ _ heq => congrArg Filter.portId heq
  constructor
  · intro hreports
    rcases lt_or_ge (rets (P.nbPorts - 1)) 0 with hlast | hlast
    · exact Or.inl hlast
    · have hinstalled := hreports.installed
      rw [addIpv4RuleLoop_eq, hqueue, if_neg (by omega)] at hinstalled
      obtain ⟨l', k', q', hq', hport, hfilters⟩ := hinstalled hlast
      have hsame : q' = q := List.inj_on_of_nodup_map h.portId_nodup hq'.mem hq.mem hport
      rw [hsame] at hfilters
      exact Or.inr ((map_filter_range_eq_iff hinj).mp (List.append_cancel_left hfilters))
  · intro hcond
    refine ⟨?_, fun hnone => absurd rfl (hnone l k q hq)⟩
    rw [addIpv4RuleLoop_eq, hqueue, if_neg (by omega)]
    intro hret
    rcases hcond with hlast | hall
    · exact absurd hret (not_le.mpr hlast)
    · exact ⟨l, k, q, hq, rfl, by rw [(map_filter_range_eq_iff hinj).mpr hall]⟩

/-- A port that no lcore serves. -/
lemma reportsFailures_unknown_iff (h : Configured P conf) (ho : ¬ o < P.nbPorts) :
    ReportsFailures P conf rets ipv4 o routes ↔
      0 < (P.nbPorts : ℕ) ∧ ∀ p < (P.nbPorts : ℕ), rets p < 0 := by
  have hnone : ∀ l k q, Serves P conf l k q → q.portId ≠ o := by
    rintro l k q hq rfl
    exact ho (h.portId_lt hq.mem)
  constructor
  · intro hreports
    obtain ⟨hret, hfilters⟩ := hreports.unknown hnone
    rw [addIpv4RuleLoop_eq] at hret hfilters
    refine ⟨?_, map_filter_range_eq_nil_iff.mp (List.append_right_eq_self.mp hfilters)⟩
    by_contra hpos
    rw [if_pos (by omega)] at hret
    exact lt_irrefl _ hret
  · rintro ⟨hpos, hall⟩
    have hret : (P.addIpv4RuleLoop conf rets ipv4 o routes).1 < 0 := by
      rw [addIpv4RuleLoop_eq, if_neg hpos.ne']
      exact hall _ (by omega)
    refine ⟨fun hle => absurd hle (not_le.mpr hret), fun _ => ⟨hret, ?_⟩⟩
    rw [addIpv4RuleLoop_eq, map_filter_range_eq_nil_iff.mpr hall, List.append_nil]

/-- After every start, for all numbers of ports, answers of the NICs and output ports:
`add_ipv4_rule` reports its failures if and only if the output port is one of the switch and the
last NIC refuses or all accept, or it is none of the switch and there are NICs, which all refuse. -/
theorem addIpv4Rule_reports_iff {d d' : Daqswitch} (h : P.dpInit d = some (conf, d'))
    (rets : ℕ → ℤ) (ipv4 : BitVec 32) (o : ℕ) (routes : Routes) :
    ReportsFailures P (P.dpConfigure conf) rets ipv4 o routes ↔
      if o < P.nbPorts then rets (P.nbPorts - 1) < 0 ∨ ∀ p < (P.nbPorts : ℕ), 0 ≤ rets p
      else 0 < (P.nbPorts : ℕ) ∧ ∀ p < (P.nbPorts : ℕ), rets p < 0 := by
  have hconf := configured_of_dpInit h
  split
  · next ho => exact reportsFailures_served_iff hconf ho
  · next ho => exact reportsFailures_unknown_iff hconf ho

end Platform

open Platform

lemma two_lt_uint8 : 2 < 2 ^ 8 := by decide

/-- Two ports and a worker lcore. -/
def twoPorts : Platform where
  rteMaxLcore := ⟨2, by decide⟩
  enabled _ := true
  master := 0
  lcoreSocket _ := 0
  portSocket _ := 0
  nbPorts := ⟨2, two_lt_uint8⟩
  use5tuple := false

/-- The theorem for two ports. -/
theorem addIpv4Rule_reports_iff_twoPorts : ∃ conf d', twoPorts.dpInit ⟨false, fun _ =>
    ⟨0, 0, 0, 0, none⟩⟩ = some (conf, d') ∧ ∀ rets ipv4 o routes,
      ReportsFailures twoPorts (twoPorts.dpConfigure conf) rets ipv4 o routes ↔
        if o < 2 then rets 1 < 0 ∨ ∀ p < 2, 0 ≤ rets p else 0 < 2 ∧ ∀ p < 2, rets p < 0 := by
  obtain ⟨conf, d', h⟩ : ∃ conf d', twoPorts.dpInit ⟨false, fun _ => ⟨0, 0, 0, 0, none⟩⟩ =
    some (conf, d') := ⟨_, _, rfl⟩
  exact ⟨conf, d', h, addIpv4Rule_reports_iff h⟩

/-- The first NIC refuses the filter and the second accepts it: the result is a success. -/
theorem not_reportsFailures : ∃ conf d', twoPorts.dpInit ⟨false, fun _ => ⟨0, 0, 0, 0, none⟩⟩ =
    some (conf, d') ∧
      ¬ ReportsFailures twoPorts (twoPorts.dpConfigure conf) (fun p => if p = 0 then -22 else 0)
        0x14010101 1 ⟨0, []⟩ := by
  refine ⟨_, _, rfl, ?_⟩
  intro hreports
  obtain ⟨-, -, q, -, -, hfilters⟩ := hreports.installed (by decide)
  exact absurd (congrArg List.length hfilters) (by simp; decide)

end DaqSwitch.VoqHwq
