import WifiMemfault.OutageHistory

/-!
# How often an outage is persisted

`log_freeze_scheduled` is cleared when the work fires, so it makes a burst of loss messages persist once,
and a loss message after the persist starts the next ten seconds.
-/

namespace WifiMemfault.PersistBurst

open MemfaultCore OutageHistory

/-- What has happened since the last `WIFI_STA_CONNECTED`. -/
def outage (history : List Mark) : List Mark := history.takeWhile (·.kind ≠ .connected)

/-- The persists since the last `WIFI_STA_CONNECTED`. -/
def persistsInOutage (history : List Mark) : ℕ := (outage history).countP (·.kind = .persist)

theorem outage_prefix (history : List Mark) : ∃ rest, history = outage history ++ rest :=
  ⟨_, (List.takeWhile_append_dropWhile).symm⟩

/-- A list with two elements that meet `P` has a part between them. -/
theorem split_of_two_le_countP {α : Type} (P : α → Bool) (l : List α) (h : 2 ≤ l.countP P) :
    ∃ newer p mid q older, l = newer ++ p :: (mid ++ q :: older) ∧ P p = true ∧ P q = true := by
  induction l with
  | nil => cases h
  | cons a l ih =>
    by_cases ha : P a = true
    · rw [List.countP_cons_of_pos ha] at h
      have hpos : 0 < l.countP P := Nat.lt_of_succ_lt_succ h
      obtain ⟨q, hq, hPq⟩ := List.countP_pos_iff.mp hpos
      obtain ⟨mid, older, rfl⟩ := List.append_of_mem hq
      exact ⟨[], a, mid, q, older, rfl, ha, hPq⟩
    · rw [List.countP_cons_of_neg ha] at h
      obtain ⟨newer, p, mid, q, older, rfl, hp, hq⟩ := ih h
      exact ⟨a :: newer, p, mid, q, older, rfl, hp, hq⟩

/-- **Once for each burst.**  Two persists of one outage are separated by a loss message that came after
the first and at least ten seconds before the second.  Without a loss message after its first persist, an
outage is persisted at most once. -/
theorem persists_once_per_burst (now : ℕ) (es : List CoreEvent) :
    let history := (Runs.run stepCoreRun (CoreRun.boot now) es).history
    (∀ newer p mid q older, outage history = newer ++ p :: (mid ++ q :: older) →
      p.kind = .persist → q.kind = .persist →
        ∃ m ∈ mid, m.kind = .loss ∧ m.time + kSeconds logFreezeDelaySec ≤ p.time) ∧
    ((∀ newer m older, outage history = newer ++ m :: older → m.kind = .loss →
      ∀ q ∈ older, q.kind ≠ .persist) → persistsInOutage history ≤ 1) := by
  intro history
  have hinv := historyInv_run now es
  obtain ⟨rest, hrest⟩ := outage_prefix history
  have hbetween : ∀ newer p mid q older, outage history = newer ++ p :: (mid ++ q :: older) →
      p.kind = .persist → q.kind = .persist →
        ∃ m ∈ mid, m.kind = .loss ∧ m.time + kSeconds logFreezeDelaySec ≤ p.time := by
    intro newer p mid q older hsplit hp hq
    have hhistory : history = newer ++ p :: (mid ++ q :: (older ++ rest)) := by
      rw [hrest, hsplit]
      simp only [List.append_assoc, List.cons_append]
    obtain ⟨-, t, hfirst, hle⟩ := hinv.persists newer _ p hhistory hp
    have hqloss : q.kind ≠ .loss := by
      rw [hq]
      decide
    obtain ⟨m, hm, hkind, rfl⟩ := firstLoss_mem hqloss hfirst
    exact ⟨m, hm, hkind, hle⟩
  refine ⟨hbetween, ?_⟩
  intro hquiet
  by_contra hmany
  obtain ⟨newer, p, mid, q, older, hsplit, hp, hq⟩ :=
    split_of_two_le_countP _ (outage history) (Nat.lt_of_not_le hmany)
  obtain ⟨m, hm, hkind, -⟩ :=
    hbetween newer p mid q older hsplit (of_decide_eq_true hp) (of_decide_eq_true hq)
  -- the loss between the two persists comes after the first of them
  obtain ⟨mid₁, mid₂, rfl⟩ := List.append_of_mem hm
  refine hquiet (newer ++ p :: mid₁) m (mid₂ ++ q :: older) ?_ hkind q ?_ (of_decide_eq_true hq)
  · rw [hsplit]
    simp only [List.append_assoc, List.cons_append]
  · exact List.mem_append_right _ List.mem_cons_self

/-- One connect, a burst of two loss messages, and ten seconds. -/
def oneBurst : List CoreEvent :=
  [.wifiMsg .wifiStaConnected, .wifiMsg .wifiStaDisconnected, .networkMsg .networkNotReady,
    .elapse 10000, .logFreezeWork]

theorem persists_once_per_burst_one_burst :
    persistsInOutage (Runs.run stepCoreRun (CoreRun.boot 0) oneBurst).history ≤ 1 := by
  refine (persists_once_per_burst 0 oneBurst).2 ?_
  have houtage : outage (Runs.run stepCoreRun (CoreRun.boot 0) oneBurst).history =
      [⟨10000, .persist⟩, ⟨0, .loss⟩, ⟨0, .loss⟩] := by decide
  intro newer m older hsplit hm q hq
  rw [houtage] at hsplit
  match newer, hsplit with
  | [], hsplit =>
    cases hsplit
    cases hm
  | [_], hsplit =>
    cases hsplit
    cases hq with
    | head => nofun
    | tail _ hq => cases hq
  | [_, _], hsplit =>
    cases hsplit
    cases hq
  | _ :: _ :: _ :: newer, hsplit =>
    have hlen := congrArg List.length hsplit
    simp at hlen

/-- **Two persists in one outage.**  A failed reconnect reports a second loss after the first has been
persisted. -/
theorem second_loss_persists_again :
    ¬ ∀ es, persistsInOutage (Runs.run stepCoreRun (CoreRun.boot 0) es).history ≤ 1 := by
  intro h
  have htwo := h (oneBurst ++ [.wifiMsg .wifiStaDisconnected, .elapse 10000, .logFreezeWork])
  revert htwo
  decide

end WifiMemfault.PersistBurst
