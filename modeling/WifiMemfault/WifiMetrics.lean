import WifiMemfault.Lib.CString
import WifiMemfault.Lib.Runs

/-!
# The SSID and BSSID change counters

The part of `metrics/app_memfault_wifi_metrics.c` that watches the access point, with its two callers: the
DHCP-bound hook of `net_event_mgmt.c` and the heartbeat.  The function keeps copies of the last strings it
was given and counts up when a new one differs from the copy.  The counters are natural numbers here, the
number of `MEMFAULT_METRIC_ADD` calls since boot.

`change_counts` is the law of the counters over any sequence of calls; `MetricsInv` says that the copies
are the strings of the last call that had both.
-/

namespace WifiMemfault.WifiMetrics

open CString Runs

/-! ### The state and the function -/

/-- `WIFI_SSID_MAX_LEN`. -/
def wifiSsidMaxLen : ℕ := 32

/-- The length of an address text. -/
def bssidTextLen : ℕ := 17

/-- The static variables of the function, and the metrics it writes. -/
structure MetricsVars where
  lastSsid : CArray 33
  lastBssid : CArray 18
  hasPrev : Bool
  wifiApSsid : List UInt8
  wifiApBssid : List UInt8
  ssidChangeCount : ℕ
  bssidChangeCount : ℕ
  deriving DecidableEq

def MetricsVars.boot : MetricsVars := ⟨CArray.zeros 33, CArray.zeros 18, false, [], [], 0, 0⟩

/-- `mflt_wifi_metrics_report_ssid_bssid`; none is a NULL argument. -/
def mfltWifiMetricsReportSsidBssid (v : MetricsVars) : Option CText → Option CText → MetricsVars
  | some ssid, some bssid =>
    let ssidChanged := v.hasPrev ∧ strcmp ssid.text v.lastSsid.text ≠ 0
    let bssidChanged := v.hasPrev ∧ strcmp bssid.text v.lastBssid.text ≠ 0
    { lastSsid := (v.lastSsid.strncpy ssid.text 32 (by decide)).store 32 [0] (by decide)
      lastBssid := (v.lastBssid.strncpy bssid.text 17 (by decide)).store 17 [0] (by decide)
      hasPrev := true
      wifiApSsid := ssid.text
      wifiApBssid := bssid.text
      ssidChangeCount := if ssidChanged then v.ssidChangeCount + 1 else v.ssidChangeCount
      bssidChangeCount := if bssidChanged then v.bssidChangeCount + 1 else v.bssidChangeCount }
  | _, _ => v

/-! ### The two callers -/

/-- The arguments of a call: NULL, or strings of at most the length of an SSID and of an address. -/
structure Report where
  ssid : Option CText
  bssid : Option CText
  ssid_short : ∀ s ∈ ssid, s.text.length ≤ wifiSsidMaxLen
  bssid_short : ∀ s ∈ bssid, s.text.length ≤ bssidTextLen

/-- What the heartbeat uses of `struct wifi_iface_status`. -/
structure WifiIfaceStatus where
  completed : Bool
  infra : Bool
  ssidLen : ℕ
  ssid : CArray 33
  bssid : Fin 6 → UInt8

/-- A digit of `%02x`. -/
def hexDigit (n : ℕ) : UInt8 := UInt8.ofNat (if n < 10 then 48 + n else 87 + n)

/-- The text of `%02x`. -/
def hexByte (b : UInt8) : List UInt8 := [hexDigit (b.toNat / 16), hexDigit (b.toNat % 16)]

/-- The text of `%02x:%02x:%02x:%02x:%02x:%02x`. -/
def addressText (address : Fin 6 → UInt8) : List UInt8 :=
  hexByte (address 0) ++ 58 :: hexByte (address 1) ++ 58 :: hexByte (address 2) ++
    58 :: hexByte (address 3) ++ 58 :: hexByte (address 4) ++ 58 :: hexByte (address 5)

theorem hexDigit_ne_zero {n : ℕ} (h : n < 16) : hexDigit n ≠ 0 := by
  have hall : ∀ m < 16, hexDigit m ≠ 0 := by decide
  exact hall n h

theorem zero_not_mem_hexByte (b : UInt8) : 0 ∉ hexByte b := by
  have hlt := b.toNat_lt
  have hhigh : hexDigit (b.toNat / 16) ≠ 0 := hexDigit_ne_zero (by omega)
  have hlow : hexDigit (b.toNat % 16) ≠ 0 := hexDigit_ne_zero (by omega)
  simp [hexByte, hhigh.symm, hlow.symm]

theorem addressText_length (address : Fin 6 → UInt8) : (addressText address).length = bssidTextLen := rfl

theorem zero_not_mem_addressText (address : Fin 6 → UInt8) : 0 ∉ addressText address := by
  simp [addressText, zero_not_mem_hexByte]

/-- The name in the status, copied and terminated. -/
def WifiIfaceStatus.ssidText (status : WifiIfaceStatus) : CText :=
  .ofBytes (status.ssid.bytes.take (min status.ssidLen wifiSsidMaxLen))

theorem WifiIfaceStatus.ssidText_short (status : WifiIfaceStatus) :
    status.ssidText.text.length ≤ wifiSsidMaxLen := by
  refine ((List.takeWhile_sublist _).length_le).trans ?_
  rw [List.length_take]
  omega

/-- `mflt_wifi_metrics_collect` up to its call; none without an interface or a status. -/
def mfltWifiMetricsCollect (v : MetricsVars) : Option WifiIfaceStatus → MetricsVars
  | none => v
  | some status =>
    if ¬ (status.completed ∧ status.infra) then v
    else mfltWifiMetricsReportSsidBssid v (some status.ssidText)
      (some ⟨addressText status.bssid, zero_not_mem_addressText status.bssid⟩)

/-- The call of `zego_on_net_event_dhcp_bound`. -/
def zegoOnNetEventDhcpBound (v : MetricsVars) (ssid macAddr : Option CText) : MetricsVars :=
  mfltWifiMetricsReportSsidBssid v ssid macAddr

inductive MetricsEvent where
  | dhcpBound (report : Report)
  | heartbeat (status : Option WifiIfaceStatus)

def stepMetrics (v : MetricsVars) : MetricsEvent → MetricsVars
  | .dhcpBound report => zegoOnNetEventDhcpBound v report.ssid report.bssid
  | .heartbeat status => mfltWifiMetricsCollect v status

/-- The strings of the call an event makes, if it makes one and both arguments are strings. -/
def MetricsEvent.reported : MetricsEvent → Option (CText × CText)
  | .dhcpBound report => report.ssid.bind fun ssid => report.bssid.map fun bssid => (ssid, bssid)
  | .heartbeat none => none
  | .heartbeat (some status) =>
    if status.completed ∧ status.infra then
      some (status.ssidText, ⟨addressText status.bssid, zero_not_mem_addressText status.bssid⟩)
    else none

/-! ### Adjacent pairs that differ -/

section Changes

variable {α : Type*} [DecidableEq α]

/-- How many adjacent pairs of the list differ. -/
def changes (l : List α) : ℕ := (l.zip l.tail).countP fun p => p.1 ≠ p.2

theorem changes_cons_cons (x y : α) (l : List α) :
    changes (x :: y :: l) = (if x ≠ y then 1 else 0) + changes (y :: l) := by
  simp [changes, List.countP_cons, Nat.add_comm]

theorem changes_concat (l : List α) (x y : α) :
    changes (l ++ [x] ++ [y]) = changes (l ++ [x]) + if x ≠ y then 1 else 0 := by
  induction l with
  | nil => simp [changes, List.countP_cons]
  | cons z l ih =>
    cases l with
    | nil =>
      rw [List.nil_append] at ih
      simp only [List.cons_append, List.nil_append, changes_cons_cons] at ih ⊢
      rw [ih, Nat.add_assoc]
    | cons w l =>
      simp only [List.cons_append, changes_cons_cons] at ih ⊢
      rw [ih, Nat.add_assoc]

end Changes

/-! ### One call -/

section Report

variable (v : MetricsVars) {ssid bssid : CText}

theorem report_lastSsid (hssid : ssid.text.length ≤ wifiSsidMaxLen) :
    (mfltWifiMetricsReportSsidBssid v (some ssid) (some bssid)).lastSsid.text = ssid.text :=
  (CArray.text_strncpy v.lastSsid ssid.nonzero (by decide)).trans (List.take_of_length_le hssid)

theorem report_lastBssid (hbssid : bssid.text.length ≤ bssidTextLen) :
    (mfltWifiMetricsReportSsidBssid v (some ssid) (some bssid)).lastBssid.text = bssid.text :=
  (CArray.text_strncpy v.lastBssid bssid.nonzero (by decide)).trans (List.take_of_length_le hbssid)

/-- Behind a first call, a counter counts up if the new string is not the one of the copy. -/
theorem counted {v : MetricsVars} (hprev : v.hasPrev = true) {copy : List UInt8} {last : CText}
    (hcopy : copy = last.text) (new : CText) (count : ℕ) :
    (if v.hasPrev = true ∧ strcmp new.text copy ≠ 0 then count + 1 else count)
      = count + if last ≠ new then 1 else 0 := by
  have hchanged : v.hasPrev = true ∧ strcmp new.text copy ≠ 0 ↔ last ≠ new := by
    rw [hcopy, CText.strcmp_ne_zero]
    exact and_iff_right hprev
  simp only [hchanged]
  split
  · rfl
  · rfl

theorem report_counts (ssid bssid : CText) {lastSsid lastBssid : CText} (hprev : v.hasPrev = true)
    (hssid : v.lastSsid.text = lastSsid.text) (hbssid : v.lastBssid.text = lastBssid.text) :
    (mfltWifiMetricsReportSsidBssid v (some ssid) (some bssid)).ssidChangeCount
        = v.ssidChangeCount + (if lastSsid ≠ ssid then 1 else 0) ∧
      (mfltWifiMetricsReportSsidBssid v (some ssid) (some bssid)).bssidChangeCount
        = v.bssidChangeCount + if lastBssid ≠ bssid then 1 else 0 :=
  ⟨counted hprev hssid ssid _, counted hprev hbssid bssid _⟩

/-- The first call counts nothing. -/
theorem report_first (hprev : v.hasPrev = false) :
    (mfltWifiMetricsReportSsidBssid v (some ssid) (some bssid)).ssidChangeCount = v.ssidChangeCount ∧
      (mfltWifiMetricsReportSsidBssid v (some ssid) (some bssid)).bssidChangeCount = v.bssidChangeCount := by
  simp [mfltWifiMetricsReportSsidBssid, hprev]

/-- An event without two strings is transparent. -/
theorem stepMetrics_none {e : MetricsEvent} (h : e.reported = none) : stepMetrics v e = v := by
  cases e with
  | dhcpBound report =>
    obtain ⟨ssid, bssid, hssid, hbssid⟩ := report
    cases ssid with
    | none => rfl
    | some ssid =>
      cases bssid with
      | none => rfl
      | some bssid => cases h
  | heartbeat status =>
    cases status with
    | none => rfl
    | some status =>
      by_cases hup : status.completed ∧ status.infra
      · simp [MetricsEvent.reported, hup] at h
      · exact if_pos hup

/-- An event with two strings is a call with them, and they are short enough for the copies. -/
theorem stepMetrics_some {e : MetricsEvent} {p : CText × CText} (h : e.reported = some p) :
    stepMetrics v e = mfltWifiMetricsReportSsidBssid v (some p.1) (some p.2) ∧
      p.1.text.length ≤ wifiSsidMaxLen ∧ p.2.text.length ≤ bssidTextLen := by
  cases e with
  | dhcpBound report =>
    obtain ⟨ssid, bssid, hssid, hbssid⟩ := report
    cases ssid with
    | none => cases h
    | some ssid =>
      cases bssid with
      | none => cases h
      | some bssid =>
        cases h
        exact ⟨rfl, hssid ssid rfl, hbssid bssid rfl⟩
  | heartbeat status =>
    cases status with
    | none => cases h
    | some status =>
      by_cases hup : status.completed ∧ status.infra
      · have hp : (status.ssidText, _) = p := Option.some.inj ((if_pos hup).symm.trans h)
        subst hp
        exact ⟨if_neg (not_not.mpr hup), status.ssidText_short, (addressText_length _).le⟩
      · have hnone : MetricsEvent.reported (.heartbeat (some status)) = none := if_neg hup
        rw [hnone] at h
        cases h

end Report

/-! ### Any sequence of calls -/

/-- The copies are the strings of the last of the reports `rs`, and the counters are the numbers of their
changes. -/
structure MetricsInv (rs : List (CText × CText)) (v : MetricsVars) : Prop where
  hasPrev_eq : v.hasPrev = !rs.isEmpty
  lastSsid_eq : ∀ p ∈ rs.getLast?, v.lastSsid.text = p.1.text
  lastBssid_eq : ∀ p ∈ rs.getLast?, v.lastBssid.text = p.2.text
  ssidChangeCount_eq : v.ssidChangeCount = changes (rs.map Prod.fst)
  bssidChangeCount_eq : v.bssidChangeCount = changes (rs.map Prod.snd)

/-- Behind a report there is a previous one, and the copies are its strings. -/
theorem MetricsInv.after {rs : List (CText × CText)} {q : CText × CText} {v : MetricsVars}
    (h : MetricsInv (rs ++ [q]) v) :
    v.hasPrev = true ∧ v.lastSsid.text = q.1.text ∧ v.lastBssid.text = q.2.text := by
  refine ⟨?_, h.lastSsid_eq q (by simp), h.lastBssid_eq q (by simp)⟩
  rw [h.hasPrev_eq]
  simp

theorem metricsInv_boot : MetricsInv [] .boot where
  hasPrev_eq := rfl
  lastSsid_eq := by simp
  lastBssid_eq := by simp
  ssidChangeCount_eq := rfl
  bssidChangeCount_eq := rfl

/-- **One report.** -/
theorem metricsInv_report {rs : List (CText × CText)} {v : MetricsVars} (h : MetricsInv rs v)
    (p : CText × CText) (hssid : p.1.text.length ≤ wifiSsidMaxLen)
    (hbssid : p.2.text.length ≤ bssidTextLen) :
    MetricsInv (rs ++ [p]) (mfltWifiMetricsReportSsidBssid v (some p.1) (some p.2)) := by
  have hlast : ∀ q ∈ (rs ++ [p]).getLast?, q = p := by simp
  have hcounts :
      (mfltWifiMetricsReportSsidBssid v (some p.1) (some p.2)).ssidChangeCount
          = changes ((rs ++ [p]).map Prod.fst) ∧
        (mfltWifiMetricsReportSsidBssid v (some p.1) (some p.2)).bssidChangeCount
          = changes ((rs ++ [p]).map Prod.snd) := by
    rcases List.eq_nil_or_concat' rs with rfl | ⟨rs, q, rfl⟩
    · rw [(report_first v h.hasPrev_eq).1, (report_first v h.hasPrev_eq).2, h.ssidChangeCount_eq,
        h.bssidChangeCount_eq]
      exact ⟨rfl, rfl⟩
    · obtain ⟨hprev, hs, hb⟩ := h.after
      obtain ⟨hcountS, hcountB⟩ := report_counts v p.1 p.2 hprev hs hb
      rw [hcountS, hcountB, h.ssidChangeCount_eq, h.bssidChangeCount_eq]
      simp only [List.map_append, List.map_cons, List.map_nil, changes_concat, and_self]
  refine ⟨by simp [mfltWifiMetricsReportSsidBssid], ?_, ?_, hcounts.1, hcounts.2⟩
  · intro q hq
    rw [hlast q hq]
    exact report_lastSsid v hssid
  · intro q hq
    rw [hlast q hq]
    exact report_lastBssid v hbssid

/-- The reports of a sequence of events. -/
def reports (es : List MetricsEvent) : List (CText × CText) := es.filterMap MetricsEvent.reported

theorem metricsInv_run (es : List MetricsEvent) (rs : List (CText × CText)) (v : MetricsVars)
    (h : MetricsInv rs v) : MetricsInv (rs ++ reports es) (run stepMetrics v es) := by
  induction es generalizing rs v with
  | nil =>
    rw [reports, List.filterMap_nil, List.append_nil]
    exact h
  | cons e es ih =>
    rw [run_cons]
    cases hreported : e.reported with
    | none =>
      rw [stepMetrics_none v hreported, reports, List.filterMap_cons_none hreported]
      exact ih rs v h
    | some p =>
      obtain ⟨hstep, hssid, hbssid⟩ := stepMetrics_some v hreported
      rw [hstep, reports, List.filterMap_cons_some hreported]
      have hrest := ih (rs ++ [p]) _ (metricsInv_report h p hssid hbssid)
      rw [List.append_assoc] at hrest
      exact hrest

theorem run_transparent (v : MetricsVars) {fs : List MetricsEvent} (hfs : ∀ f ∈ fs, f.reported = none) :
    run stepMetrics v fs = v := by
  induction fs with
  | nil => rfl
  | cons f fs ih =>
    rw [run_cons, stepMetrics_none v (hfs f List.mem_cons_self)]
    exact ih fun g hg => hfs g (List.mem_cons_of_mem f hg)

/-- Behind a report, the same report again changes neither the copies nor the counters. -/
theorem repeated_report_keeps {v : MetricsVars} {rs : List (CText × CText)} {p : CText × CText}
    (h : MetricsInv (rs ++ [p]) v) (fs : List MetricsEvent)
    (hfs : ∀ f ∈ fs, f.reported = none ∨ f.reported = some p) :
    (run stepMetrics v fs).ssidChangeCount = v.ssidChangeCount ∧
      (run stepMetrics v fs).bssidChangeCount = v.bssidChangeCount := by
  induction fs generalizing rs v with
  | nil => exact ⟨rfl, rfl⟩
  | cons f fs ih =>
    have htail := fun g hg => hfs g (List.mem_cons_of_mem f hg)
    rw [run_cons]
    rcases hfs f List.mem_cons_self with hnone | hsome
    · rw [stepMetrics_none v hnone]
      exact ih h htail
    · obtain ⟨hstep, hssid, hbssid⟩ := stepMetrics_some v hsome
      have hnext := metricsInv_report h p hssid hbssid
      obtain ⟨hprev, hlastS, hlastB⟩ := h.after
      obtain ⟨hcountS, hcountB⟩ := report_counts v p.1 p.2 hprev hlastS hlastB
      obtain ⟨hs, hb⟩ := ih hnext htail
      rw [hstep]
      refine ⟨hs.trans ?_, hb.trans ?_⟩
      · rw [hcountS, if_neg (not_not.mpr rfl), Nat.add_zero]
      · rw [hcountB, if_neg (not_not.mpr rfl), Nat.add_zero]

/-- **The law of the counters.**  Each is the number of changes between adjacent reports that have both
strings, and no number of further calls with the strings of the last one changes it. -/
theorem change_counts (es : List MetricsEvent) :
    let v := run stepMetrics .boot es
    v.ssidChangeCount = changes ((reports es).map Prod.fst) ∧
      v.bssidChangeCount = changes ((reports es).map Prod.snd) ∧
      ∀ e fs, (∀ f ∈ fs, f.reported = none ∨ f.reported = e.reported) →
        (run stepMetrics v (e :: fs)).ssidChangeCount = (stepMetrics v e).ssidChangeCount ∧
          (run stepMetrics v (e :: fs)).bssidChangeCount = (stepMetrics v e).bssidChangeCount := by
  intro v
  have h : MetricsInv (reports es) v := metricsInv_run es [] .boot metricsInv_boot
  refine ⟨h.ssidChangeCount_eq, h.bssidChangeCount_eq, fun e fs hfs => ?_⟩
  rw [run_cons]
  cases hreported : e.reported with
  | none =>
    rw [hreported] at hfs
    rw [run_transparent _ fun f hf => (hfs f hf).elim id id]
    exact ⟨rfl, rfl⟩
  | some p =>
    obtain ⟨hstep, hssid, hbssid⟩ := stepMetrics_some v hreported
    have hnext := metricsInv_report h p hssid hbssid
    rw [← hstep] at hnext
    rw [hreported] at hfs
    exact repeated_report_keeps hnext fs hfs

end WifiMemfault.WifiMetrics
