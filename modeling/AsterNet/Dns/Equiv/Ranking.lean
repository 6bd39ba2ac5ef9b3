import AsterNet.Dns.Equiv.Resolve
import AsterNet.Dns.PlainInet
import AsterNet.Lib.CheckedInt

/-!
# The ranking of the addresses

* `resolveWithMetadata_ranked`: the addresses of a result are the safe candidates, best score first and
  equal scores by address.
* `resolveName_congr`: candidates in another order give the same result.
* `score_le_score`: an address with better measurements never scores below another.
* `scoreChecked_eq`, `reportChecked_eq`: the scores and the health entries are computed without overflow.
-/

namespace AsterNet.Dns

open CheckedInt

/-! ### The order -/

/-- Best score first, equal scores by address. -/
def Before (left right : IpResult) : Prop :=
  right.score < left.score ∨ left.score = right.score ∧ left.ip ≤ right.ip

theorem not_ranksBefore_iff {left right : IpResult} :
    (!ranksBefore right left) = true ↔ Before left right := by
  unfold ranksBefore Before
  rw [Bool.not_eq_true']
  by_cases heq : right.score = left.score
  · rw [if_neg (not_not.mpr heq), decide_eq_false_iff_not, List.not_lt, heq]
    simp
  · rw [if_pos heq, decide_eq_false_iff_not, not_lt]
    constructor
    · intro hle
      exact .inl (lt_of_le_of_ne hle heq)
    · rintro (hlt | ⟨heq', -⟩)
      · exact hlt.le
      · exact absurd heq'.symm heq

theorem Before.trans {a b c : IpResult} (hab : Before a b) (hbc : Before b c) : Before a c := by
  rcases hab with hab | ⟨hab, hip⟩
  · rcases hbc with hbc | ⟨hbc, -⟩
    · exact .inl (hbc.trans hab)
    · exact .inl (hbc ▸ hab)
  · rcases hbc with hbc | ⟨hbc, hip'⟩
    · exact .inl (hab ▸ hbc)
    · exact .inr ⟨hab.trans hbc, List.le_trans hip hip'⟩

theorem before_total (a b : IpResult) : Before a b ∨ Before b a := by
  rcases lt_trichotomy a.score b.score with hlt | heq | hgt
  · exact .inr (.inl hlt)
  · exact (List.le_total a.ip b.ip).imp (fun h => .inr ⟨heq, h⟩) fun h => .inr ⟨heq.symm, h⟩
  · exact .inl (.inl hgt)

theorem Before.ip_eq {a b : IpResult} (hab : Before a b) (hba : Before b a) : a.ip = b.ip := by
  rcases hab with hab | ⟨hab, hip⟩
  · rcases hba with hba | ⟨hba, -⟩
    · exact absurd hab hba.asymm
    · exact absurd hab hba.not_lt
  · rcases hba with hba | ⟨-, hip'⟩
    · exact absurd hba hab.not_lt
    · exact List.le_antisymm hip hip'

/-! ### The addresses of a result -/

/-- The candidate with its RTT and its score. -/
def ranked (host : Bytes) (networkEpoch : ℕ) (st : State) (item : IpResult) : IpResult :=
  rank st.quality.quality (st.health.lookup (healthKey host item.ip networkEpoch)) item

section

variable {host : Bytes} {networkEpoch : ℕ} {st : State} {addresses addresses' : List IpResult}

theorem perm_rankAddresses : (rankAddresses host networkEpoch st addresses).Perm
    (addresses.map (ranked host networkEpoch st)) :=
  List.mergeSort_perm _ _

theorem pairwise_rankAddresses : (rankAddresses host networkEpoch st addresses).Pairwise Before := by
  have htrans : ∀ a b c, (!ranksBefore b a) = true → (!ranksBefore c b) = true →
      (!ranksBefore c a) = true := by
    intro a b c
    rw [not_ranksBefore_iff, not_ranksBefore_iff, not_ranksBefore_iff]
    exact Before.trans
  have htotal : ∀ a b, ((!ranksBefore b a) || !ranksBefore a b) = true := by
    intro a b
    rw [Bool.or_eq_true, not_ranksBefore_iff, not_ranksBefore_iff]
    exact before_total a b
  exact (List.pairwise_mergeSort htrans htotal _).imp not_ranksBefore_iff.mp

/-- **The order of the candidates does not matter.** -/
theorem rankAddresses_congr (h : addresses.Perm addresses') (hips : (ips addresses).Nodup) :
    rankAddresses host networkEpoch st addresses = rankAddresses host networkEpoch st addresses' := by
  have hperm : (rankAddresses host networkEpoch st addresses).Perm
      (rankAddresses host networkEpoch st addresses') :=
    perm_rankAddresses.trans ((h.map (ranked host networkEpoch st)).trans perm_rankAddresses.symm)
  refine hperm.eq_of_pairwise ?_ pairwise_rankAddresses pairwise_rankAddresses
  -- two addresses that come before each other have one ip, so they are one
  intro a b ha hb hab hba
  have hb' := hperm.mem_iff.mpr hb
  rw [perm_rankAddresses.mem_iff, List.mem_map] at ha hb'
  obtain ⟨c, hc, rfl⟩ := ha
  obtain ⟨d, hd, rfl⟩ := hb'
  have hip : c.ip = d.ip := hab.ip_eq hba
  rw [List.inj_on_of_nodup_map hips hc hd hip]

end

section

variable (inet : Inet) (env : ResolveEnv) (host : Bytes) (networkEpoch : ℕ) (timeoutMs : ℤ) (st : State)

/-- The candidates of a call, before the last filter: what the first tier with addresses supplies. -/
def supplied : List IpResult :=
  (gather inet env timeoutMs (readCache env.cacheNowMs host networkEpoch st) st).addresses

/-- The safe candidates of a call. -/
def safeCandidates : List IpResult :=
  filterFinal inet st.config.allowPrivateAddresses (supplied inet env host networkEpoch timeoutMs st)

/-- The addresses of a result are the safe candidates, ranked. -/
theorem resolveName_addresses :
    (resolveName inet env host networkEpoch timeoutMs st).1.result.addresses =
      rankAddresses host networkEpoch st
        (safeCandidates inet env host networkEpoch timeoutMs st) := by
  obtain ⟨n, hn⟩ := (supplied_gather inet env timeoutMs
    (readCache env.cacheNowMs host networkEpoch st) st).state
  simp only [resolveName, writeBack, hn]
  rfl

/-- **The ranking of a result**: a permutation of the safe candidates, best score first and equal scores
by address.  A literal, and an empty host, have at most one address. -/
theorem resolveWithMetadata_ranked :
    (resolveWithMetadata inet env host networkEpoch timeoutMs st).1.result.addresses.Pairwise Before ∧
      (host.isEmpty = false → isNumericIp inet host = none →
        (resolveWithMetadata inet env host networkEpoch timeoutMs st).1.result.addresses.Perm
          ((safeCandidates inet env host networkEpoch timeoutMs st).map
            (ranked host networkEpoch st))) := by
  unfold resolveWithMetadata
  dsimp only
  split_ifs with hempty hnum
  · exact ⟨List.Pairwise.nil, fun h => absurd hempty (by simp [h])⟩
  · refine ⟨?_, fun _ h => absurd hnum (by simp [h])⟩
    cases isSafeIp inet host st.config.allowPrivateAddresses with
    | none => exact List.Pairwise.nil
    | some ipv6 => exact List.pairwise_singleton _ _
  · rw [resolveName_addresses]
    exact ⟨pairwise_rankAddresses, fun _ _ => perm_rankAddresses⟩

end

theorem nodup_ips_filterFinal {inet : Inet} {allow : Bool} {addresses : List IpResult}
    (h : (ips addresses).Nodup) : (ips (filterFinal inet allow addresses)).Nodup := by
  refine h.sublist ?_
  unfold ips filterFinal
  rw [List.map_filterMap]
  induction addresses with
  | nil => exact List.Sublist.refl _
  | cons item addresses ih =>
    rw [List.map_cons, List.filterMap_cons]
    have hrest := ih (List.nodup_cons.mp h).2
    cases isSafeIp inet item.ip allow with
    | none => exact hrest.cons _
    | some ipv6 => exact hrest.cons_cons _

/-- **Candidates in another order give the same result**, when their ips are distinct. -/
theorem resolveName_congr {inet : Inet} {env env' : ResolveEnv} {host : Bytes} {networkEpoch : ℕ}
    {timeoutMs timeoutMs' : ℤ} {st st' : State} (hquality : st.quality = st'.quality)
    (hhealth : st.health = st'.health)
    (hallow : st.config.allowPrivateAddresses = st'.config.allowPrivateAddresses)
    (hips : (ips (supplied inet env host networkEpoch timeoutMs st)).Nodup)
    (hperm : (supplied inet env host networkEpoch timeoutMs st).Perm
      (supplied inet env' host networkEpoch timeoutMs' st')) :
    (resolveName inet env host networkEpoch timeoutMs st).1.result.addresses =
      (resolveName inet env' host networkEpoch timeoutMs' st').1.result.addresses := by
  have hsame : ∀ addresses, rankAddresses host networkEpoch st addresses =
      rankAddresses host networkEpoch st' addresses := by
    intro addresses
    rw [rankAddresses, rankAddresses, hquality, hhealth]
  have hsafe : (safeCandidates inet env host networkEpoch timeoutMs st).Perm
      (safeCandidates inet env' host networkEpoch timeoutMs' st') := by
    unfold safeCandidates
    rw [hallow]
    exact hperm.filterMap _
  rw [resolveName_addresses, resolveName_addresses, ← hsame]
  exact rankAddresses_congr hsafe (nodup_ips_filterFinal hips)

/-! ### The score -/

/-- `failures` of a score. -/
def failuresOf (entry : Option Health) : ℤ := (entry.map (·.failures)).getD 0

/-- `successes` of a score. -/
def successesOf (entry : Option Health) : ℤ := (entry.map (·.successes)).getD 0

/-- What is better for the score: no larger RTT, both measured, no more loss, no more failures and no
fewer successes.  A loss that was not measured counts as none. -/
structure Better (entry entry' : Option Health) (item item' : IpResult) : Prop where
  measured : 0 ≤ (rank .unknown entry item).rttMs
  rtt : (rank .unknown entry item).rttMs ≤ (rank .unknown entry' item').rttMs
  loss : max 0 item.lossRate ≤ max 0 item'.lossRate
  failures : failuresOf entry ≤ failuresOf entry'
  successes : successesOf entry' ≤ successesOf entry

/-- The penalty for the quality of the network, of measured addresses. -/
theorem qualityPenalty_of_measured (quality : NetworkQuality) {rtt rtt' : ℤ} (h : 0 ≤ rtt)
    (h' : 0 ≤ rtt') : qualityPenalty quality rtt = qualityPenalty quality rtt' := by
  cases quality <;> simp [qualityPenalty, not_lt.mpr h, not_lt.mpr h']

/-- **The score is monotone.** -/
theorem score_le_score (quality : NetworkQuality) {entry entry' : Option Health}
    {item item' : IpResult} (h : Better entry entry' item item') :
    (rank quality entry' item').score ≤ (rank quality entry item).score := by
  obtain ⟨hmeasured, hrtt, hloss, hfailures, hsuccesses⟩ := h
  have hmeasured' := hmeasured.trans hrtt
  have hpenalty := qualityPenalty_of_measured quality hmeasured hmeasured'
  have hbonus : (if quality = .good then 0 else min 500 (successesOf entry' * 100)) ≤
      if quality = .good then 0 else min 500 (successesOf entry * 100) := by
    split_ifs <;> omega
  have hscore : ∀ (entry : Option Health) (item : IpResult), (rank quality entry item).score =
      10000 - (if (rank .unknown entry item).rttMs < 0 then 500
          else min 8000 ((rank .unknown entry item).rttMs * 2))
        - min 2000 ((if item.lossRate < 0 then 0 else item.lossRate) * 2)
        - min 4000 (failuresOf entry * 500) - qualityPenalty quality (rank .unknown entry item).rttMs
        + if quality = .good then 0 else min 500 (successesOf entry * 100) := fun _ _ => rfl
  rw [hscore, hscore, hpenalty, if_neg (not_lt.mpr hmeasured), if_neg (not_lt.mpr hmeasured')]
  have hlosses : (if item.lossRate < 0 then 0 else item.lossRate) ≤
      if item'.lossRate < 0 then 0 else item'.lossRate := by
    split_ifs <;> omega
  omega

/-! ### The range of the arithmetic -/

/-- The RTT of a score: the one of the health entry, if it has one. -/
def effectiveRtt (entry : Option Health) (item : IpResult) : ℤ :=
  match entry with
  | some health => if 0 ≤ health.rttMs then health.rttMs else item.rttMs
  | none => item.rttMs

/-- `loss`. -/
def effectiveLoss (item : IpResult) : ℤ := if item.lossRate < 0 then 0 else item.lossRate

/-- `success_bonus`, operation by operation on `int`. -/
def successBonusChecked (quality : NetworkQuality) (successes : ℤ) : Option ℤ :=
  if quality = .good then some 0 else (min 500 ·) <$> mul 32 successes 100

/-- `rtt_penalty`. -/
def rttPenaltyChecked (rtt : ℤ) : Option ℤ :=
  if rtt < 0 then some 500 else (min 8000 ·) <$> mul 32 rtt 2

/-- The score of `resolve_with_metadata`. -/
def scoreChecked (quality : NetworkQuality) (entry : Option Health) (item : IpResult) : Option ℤ := do
  let successBonus ← successBonusChecked quality (successesOf entry)
  let rttPenalty ← rttPenaltyChecked (effectiveRtt entry item)
  let afterRtt ← sub 32 10000 rttPenalty
  let lossPenalty ← mul 32 (effectiveLoss item) 2
  let afterLoss ← sub 32 afterRtt (min 2000 lossPenalty)
  let failurePenalty ← mul 32 (failuresOf entry) 500
  let afterFailures ← sub 32 afterLoss (min 4000 failurePenalty)
  let afterQuality ← sub 32 afterFailures (qualityPenalty quality (effectiveRtt entry item))
  add 32 afterQuality successBonus

/-- The RTT `report_connection_result` enters after a success. -/
def measuredChecked (old rttMs : ℤ) : Option ℤ :=
  if 0 ≤ rttMs then
    if old < 0 then some rttMs
    else do
      let weighted ← mul 32 old 7
      let new ← mul 32 rttMs 3
      let sum ← add 32 weighted new
      div 32 sum 10
  else some old

/-- The entry `report_connection_result` writes. -/
def reportChecked (nowMs : ℤ) (success : Bool) (rttMs : ℤ) (health : Health) : Option Health :=
  if success then do
    let successes ← add 32 health.successes 1
    let measured ← measuredChecked health.rttMs rttMs
    some { rttMs := measured, failures := 0, successes, updatedAtMs := nowMs }
  else do
    let failures ← add 32 health.failures 1
    some { health with failures, updatedAtMs := nowMs }

/-- RTT below 2^27 and counters below 2^21. -/
structure Health.Bounded (health : Health) : Prop where
  rtt : health.rttMs < 2 ^ 27
  failures : 0 ≤ health.failures ∧ health.failures < 2 ^ 21
  successes : 0 ≤ health.successes ∧ health.successes < 2 ^ 21

/-- RTT and loss below 2^27. -/
structure IpResult.Bounded (item : IpResult) : Prop where
  rtt : item.rttMs < 2 ^ 27
  loss : item.lossRate < 2 ^ 27

theorem counters_of_bounded {entry : Option Health} (h : ∀ health ∈ entry, health.Bounded) :
    (0 ≤ failuresOf entry ∧ failuresOf entry < 2 ^ 21) ∧
      0 ≤ successesOf entry ∧ successesOf entry < 2 ^ 21 := by
  cases entry with
  | none => exact ⟨⟨le_rfl, by decide⟩, le_rfl, by decide⟩
  | some health => exact ⟨(h health rfl).failures, (h health rfl).successes⟩

theorem qualityPenalty_range (quality : NetworkQuality) (rtt : ℤ) :
    0 ≤ qualityPenalty quality rtt ∧ qualityPenalty quality rtt ≤ 1000 := by
  unfold qualityPenalty
  cases quality
  all_goals dsimp only
  all_goals try split_ifs
  all_goals omega

theorem effectiveRtt_lt {entry : Option Health} {item : IpResult}
    (hentry : ∀ health ∈ entry, health.Bounded) (hitem : item.Bounded) :
    effectiveRtt entry item < 2 ^ 27 := by
  unfold effectiveRtt
  cases entry with
  | none => exact hitem.rtt
  | some health =>
    dsimp only
    split_ifs
    · exact (hentry health rfl).rtt
    · exact hitem.rtt

theorem effectiveLoss_range {item : IpResult} (hitem : item.Bounded) :
    0 ≤ effectiveLoss item ∧ effectiveLoss item < 2 ^ 27 := by
  have hloss := hitem.loss
  unfold effectiveLoss
  split_ifs <;> omega

theorem successBonusChecked_eq (quality : NetworkQuality) {successes : ℤ} (h0 : 0 ≤ successes)
    (h : successes < 2 ^ 21) : ∃ bonus, 0 ≤ bonus ∧ bonus ≤ 500 ∧
      successBonusChecked quality successes = some bonus ∧
      bonus = if quality = .good then 0 else min 500 (successes * 100) := by
  unfold successBonusChecked
  split_ifs
  · exact ⟨0, le_rfl, by omega, rfl, rfl⟩
  · rw [mul_eq (inRange_int (by omega) (by omega))]
    exact ⟨min 500 (successes * 100), by omega, by omega, rfl, rfl⟩

theorem rttPenaltyChecked_eq {rtt : ℤ} (h : rtt < 2 ^ 27) : ∃ penalty, 0 ≤ penalty ∧ penalty ≤ 8000 ∧
    rttPenaltyChecked rtt = some penalty ∧ penalty = if rtt < 0 then 500 else min 8000 (rtt * 2) := by
  unfold rttPenaltyChecked
  split_ifs
  · exact ⟨500, by omega, by omega, rfl, rfl⟩
  · rw [mul_eq (inRange_int (by omega) (by omega))]
    exact ⟨min 8000 (rtt * 2), by omega, by omega, rfl, rfl⟩

/-- **The score is computed without overflow.** -/
theorem scoreChecked_eq (quality : NetworkQuality) {entry : Option Health} {item : IpResult}
    (hentry : ∀ health ∈ entry, health.Bounded) (hitem : item.Bounded) :
    scoreChecked quality entry item = some (rank quality entry item).score := by
  obtain ⟨⟨hf0, hf1⟩, hs0, hs1⟩ := counters_of_bounded hentry
  obtain ⟨hl0, hl1⟩ := effectiveLoss_range hitem
  obtain ⟨hq0, hq1⟩ := qualityPenalty_range quality (effectiveRtt entry item)
  obtain ⟨bonus, hb0, hb1, hbonus, hbonusEq⟩ := successBonusChecked_eq quality hs0 hs1
  obtain ⟨penalty, hp0, hp1, hpenalty, hpenaltyEq⟩ := rttPenaltyChecked_eq (effectiveRtt_lt hentry hitem)
  have hscore : (rank quality entry item).score = 10000 - penalty - min 2000 (effectiveLoss item * 2)
      - min 4000 (failuresOf entry * 500) - qualityPenalty quality (effectiveRtt entry item) + bonus := by
    rw [hbonusEq, hpenaltyEq]
    rfl
  rw [scoreChecked, hscore, hbonus, hpenalty]
  simp only [Option.bind_eq_bind, Option.bind_some]
  rw [sub_eq (inRange_int (by omega) (by omega)), Option.bind_some,
    mul_eq (inRange_int (by omega) (by omega)), Option.bind_some,
    sub_eq (inRange_int (by omega) (by omega)), Option.bind_some,
    mul_eq (inRange_int (by omega) (by omega)), Option.bind_some,
    sub_eq (inRange_int (by omega) (by omega)), Option.bind_some,
    sub_eq (inRange_int (by omega) (by omega)), Option.bind_some,
    add_eq (inRange_int (by omega) (by omega))]

/-- The smoothed RTT. -/
def measured (old rttMs : ℤ) : ℤ :=
  if 0 ≤ rttMs then if old < 0 then rttMs else (old * 7 + rttMs * 3).tdiv 10 else old

/-- An entry after a report. -/
def Health.report (nowMs : ℤ) (success : Bool) (rttMs : ℤ) (health : Health) : Health :=
  if success then
    { rttMs := measured health.rttMs rttMs, failures := 0, successes := health.successes + 1
      updatedAtMs := nowMs }
  else { health with failures := health.failures + 1, updatedAtMs := nowMs }

theorem measuredChecked_eq {old rttMs : ℤ} (hold : old < 2 ^ 27) (hrtt : rttMs < 2 ^ 27) :
    measuredChecked old rttMs = some (measured old rttMs) ∧ measured old rttMs < 2 ^ 27 := by
  unfold measuredChecked measured
  split_ifs
  · exact ⟨rfl, hrtt⟩
  · have hdiv : (old * 7 + rttMs * 3).tdiv 10 = (old * 7 + rttMs * 3) / 10 :=
      Int.tdiv_eq_ediv_of_nonneg (by omega)
    rw [mul_eq (inRange_int (by omega) (by omega)), mul_eq (inRange_int (by omega) (by omega))]
    simp only [Option.bind_eq_bind, Option.bind_some]
    rw [add_eq (inRange_int (by omega) (by omega)), Option.bind_some, div, hdiv,
      check_eq (inRange_int (by omega) (by omega))]
    exact ⟨rfl, by omega⟩
  · exact ⟨rfl, hold⟩

/-- An entry is written without overflow, and its RTT stays below 2^27. -/
theorem reportChecked_eq {health : Health} (nowMs : ℤ) (success : Bool) {rttMs : ℤ}
    (hhealth : health.Bounded) (hrtt : rttMs < 2 ^ 27) :
    reportChecked nowMs success rttMs health = some (health.report nowMs success rttMs) ∧
      (health.report nowMs success rttMs).rttMs < 2 ^ 27 := by
  obtain ⟨hold, ⟨hf0, hf1⟩, hs0, hs1⟩ := hhealth
  obtain ⟨hmeasured, hlt⟩ := measuredChecked_eq hold hrtt
  unfold reportChecked Health.report
  cases success with
  | true =>
    rw [if_pos rfl, if_pos rfl, add_eq (inRange_int (by omega) (by omega)), hmeasured]
    exact ⟨rfl, hlt⟩
  | false =>
    rw [if_neg Bool.false_ne_true, if_neg Bool.false_ne_true,
      add_eq (inRange_int (by omega) (by omega))]
    exact ⟨rfl, hold⟩

/-- A report finds the entry of its key, whichever entry leaves the table for it. -/
theorem lookup_reportConnectionResult (st : State) {host ip : Bytes} (networkEpoch : ℕ) (rttMs nowMs : ℤ)
    (order : ℕ) (success : Bool) (hhost : host.isEmpty = false) (hip : ip.isEmpty = false) :
    (reportConnectionResult nowMs order host ip networkEpoch success rttMs st).health.lookup
        (healthKey host ip networkEpoch) =
      some (((st.health.lookup (healthKey host ip networkEpoch)).getD {}).report nowMs success rttMs) := by
  unfold reportConnectionResult
  rw [hhost, hip]
  dsimp only
  rw [Bool.or_false, if_neg Bool.false_ne_true]
  dsimp only
  rw [AList.lookup_insert]
  generalize healthKey host ip networkEpoch = key
  by_cases hevict : st.config.maxHealthEntries ≤ st.health.entries.length ∧ key ∉ st.health
  · simp only [if_pos hevict]
    cases oldestHealth order st.health with
    | none => cases success <;> rfl
    | some oldest =>
      -- the entry that leaves is not the one of the report
      have herase : (st.health.erase oldest).lookup key = st.health.lookup key := by
        rw [AList.lookup_eq_none.mpr hevict.2, AList.lookup_eq_none]
        exact fun hmem => hevict.2 (AList.mem_erase.mp hmem).2
      dsimp only
      rw [herase]
      cases success <;> rfl
  · simp only [if_neg hevict]
    cases success <;> rfl

/-! ### `resolve_with_metadata` and `report_connection_result` -/

/-- **The address ranking**, for every candidate list, health table and quality: the result is a
permutation of the safe candidates, best score first and equal scores by address; permuted candidates
with distinct ips give one order; the score is monotone; and within the bounds no operation leaves the
range of `int`. -/
theorem address_ranking (inet : Inet) (st : State) :
    (∀ env host networkEpoch timeoutMs,
      (resolveWithMetadata inet env host networkEpoch timeoutMs st).1.result.addresses.Pairwise Before ∧
        (host.isEmpty = false → isNumericIp inet host = none →
          (resolveWithMetadata inet env host networkEpoch timeoutMs st).1.result.addresses.Perm
            ((safeCandidates inet env host networkEpoch timeoutMs st).map
              (ranked host networkEpoch st)))) ∧
    (∀ env env' host networkEpoch timeoutMs timeoutMs' (st' : State), st.quality = st'.quality →
      st.health = st'.health →
      st.config.allowPrivateAddresses = st'.config.allowPrivateAddresses →
      (ips (supplied inet env host networkEpoch timeoutMs st)).Nodup →
      (supplied inet env host networkEpoch timeoutMs st).Perm
        (supplied inet env' host networkEpoch timeoutMs' st') →
      (resolveName inet env host networkEpoch timeoutMs st).1.result.addresses =
        (resolveName inet env' host networkEpoch timeoutMs' st').1.result.addresses) ∧
    (∀ quality entry entry' item item', Better entry entry' item item' →
      (rank quality entry' item').score ≤ (rank quality entry item).score) ∧
    ((∀ key, ∀ health ∈ st.health.lookup key, health.Bounded) →
      (∀ host networkEpoch (item : IpResult), item.Bounded →
        scoreChecked st.quality.quality (st.health.lookup (healthKey host item.ip networkEpoch)) item =
          some (ranked host networkEpoch st item).score) ∧
      ∀ (host ip : Bytes) networkEpoch rttMs nowMs order success, host.isEmpty = false →
        ip.isEmpty = false → rttMs < 2 ^ 27 → ∃ health,
          reportChecked nowMs success rttMs
              ((st.health.lookup (healthKey host ip networkEpoch)).getD {}) = some health ∧
            (reportConnectionResult nowMs order host ip networkEpoch success rttMs st).health.lookup
              (healthKey host ip networkEpoch) = some health ∧ health.rttMs < 2 ^ 27) := by
  refine ⟨fun env host networkEpoch timeoutMs =>
      resolveWithMetadata_ranked inet env host networkEpoch timeoutMs st,
    fun env env' host networkEpoch timeoutMs timeoutMs' st' => resolveName_congr,
    fun quality _ _ _ _ => score_le_score quality, fun hbounded => ⟨?_, ?_⟩⟩
  · intro host networkEpoch item hitem
    exact scoreChecked_eq _ (hbounded _) hitem
  · intro host ip networkEpoch rttMs nowMs order success hhost hip hrtt
    -- an address without an entry has a score of its own, within the bounds
    have hentry : ((st.health.lookup (healthKey host ip networkEpoch)).getD {}).Bounded := by
      cases hlookup : st.health.lookup (healthKey host ip networkEpoch) with
      | none => exact ⟨by decide, ⟨by decide, by decide⟩, by decide, by decide⟩
      | some health => exact hbounded _ health hlookup
    obtain ⟨hchecked, hlt⟩ := reportChecked_eq nowMs success hentry hrtt
    exact ⟨_, hchecked, lookup_reportConnectionResult st networkEpoch rttMs nowMs order success hhost hip,
      hlt⟩

/-- A resolver without a network, with these backup addresses of a host. -/
def offlineWith (addresses : List IpResult) : State :=
  { quality := { quality := .offline }
    backupIps := AList.insert (ByteString.ascii "h") addresses ∅ }

/-- A call that no live lookup serves. -/
def offlineEnv : ResolveEnv where
  startedMs := 1
  cacheNowMs := 1
  httpdns := { outcome := .threadFailed }
  localdns := { outcome := .threadFailed }
  writeNowMs := 1
  finishedMs := 1

/-- Two backup addresses, the better one first and last. -/
theorem address_ranking_offline :
    (resolveName Inet.plain offlineEnv (ByteString.ascii "h") 0 0 (offlineWith
        [{ ip := ByteString.ascii "1.1.1.1", rttMs := 9 },
          { ip := ByteString.ascii "8.8.8.8", rttMs := 5 }])).1.result.addresses =
      (resolveName Inet.plain offlineEnv (ByteString.ascii "h") 0 0 (offlineWith
        [{ ip := ByteString.ascii "8.8.8.8", rttMs := 5 },
          { ip := ByteString.ascii "1.1.1.1", rttMs := 9 }])).1.result.addresses :=
  (address_ranking Inet.plain _).2.1 _ _ _ _ _ _ _ rfl rfl rfl (by decide +kernel) (by decide +kernel)

end AsterNet.Dns
