import AsterNet.Dns.Equiv.Sources

/-!
# The order of the tiers

* `tiers_of_run`: a call without a fresh entry, on a network that is not offline, consults LocalDNS
  whenever HttpDNS was absent or gave no safe address, and uses backup or stale addresses only when both
  live tiers gave none; except where the deadline is over, all lookup slots are taken, or no thread can
  be created.

The three exceptions are real: an HttpDNS function that hangs uses up the deadline of the call
(`exists_run_skipping`).
-/

namespace AsterNet.Dns

namespace Threads

open Transition (Run)

namespace Passage

/-- A lookup of the tier was started. -/
def Consulted : Passage → Prop
  | .unanswered => True
  | .answered _ => True
  | _ => False

/-- The tier gave a safe address. -/
def Gives : Passage → Prop
  | .answered addresses => addresses ≠ []
  | _ => False

/-- The tier was consulted and gave no safe address. -/
def InVain : Passage → Prop
  | .unanswered => True
  | .answered addresses => addresses = []
  | _ => False

/-- The deadline was over, all slots were taken, or the thread could not be created. -/
def Barred (config : Config) (c : Call) : Passage → Prop
  | .late nowMs => c.deadlineMs ≤ nowMs
  | .full active => config.maxActiveLookups ≤ active
  | .noThread => True
  | _ => False

instance decidableConsulted : (p : Passage) → Decidable p.Consulted
  | .unanswered => .isTrue trivial
  | .answered _ => .isTrue trivial
  | .unreached => .isFalse id
  | .notNeeded => .isFalse id
  | .absent => .isFalse id
  | .late _ => .isFalse id
  | .offline => .isFalse id
  | .full _ => .isFalse id
  | .noThread => .isFalse id

instance decidableGives : (p : Passage) → Decidable p.Gives
  | .answered addresses => inferInstanceAs (Decidable (addresses ≠ []))
  | .unanswered => .isFalse id
  | .unreached => .isFalse id
  | .notNeeded => .isFalse id
  | .absent => .isFalse id
  | .late _ => .isFalse id
  | .offline => .isFalse id
  | .full _ => .isFalse id
  | .noThread => .isFalse id

theorem InVain.consulted {p : Passage} (hvain : p.InVain) : p.Consulted := by
  cases p with
  | unanswered => trivial
  | answered addresses => trivial
  | _ => exact hvain.elim

theorem Gives.consulted {p : Passage} (hgives : p.Gives) : p.Consulted := by
  cases p with
  | answered addresses => trivial
  | _ => exact hgives.elim

end Passage

namespace Call

variable (config : Config) (c : Call)

/-- The call found no fresh entry, and the network was not offline. -/
def NeedsLookup : Prop := c.read.cacheHit = false ∧ c.allowLiveLookup = true

/-- HttpDNS was absent, or gave nothing, or could not be consulted. -/
def WithoutHttpDns : Prop :=
  c.httpDns = .absent ∧ c.read.httpdnsLookup = false ∨ c.httpDns.InVain ∨ c.httpDns.Barred config c

/-- LocalDNS gave nothing, or could not be consulted. -/
def WithoutLocalDns : Prop := c.localDns.InVain ∨ c.localDns.Barred config c

/-- What a call has behind the first tier. -/
def BehindHttpDns : Prop :=
  c.addresses ≠ [] ∧ c.via = .httpDns ∧ c.httpDns.Gives ∨ c.addresses = [] ∧ c.WithoutHttpDns config

/-- What a call has behind both. -/
def BehindLocalDns : Prop :=
  c.via = .httpDns ∧ c.httpDns.Gives ∨ c.WithoutHttpDns config ∧
    (c.via = .localDns ∧ c.localDns.Gives ∨ c.WithoutLocalDns config)

/-- What a call has, by where it is. -/
def Ordered : Stage → Prop
  | .started => c.read.cacheHit = false → c.addresses = []
  | .looked => c.read.cacheHit = false → c.addresses = []
  | .gate .httpDns => c.read.cacheHit = false → c.addresses = []
  | .creating .httpDns => c.addresses = []
  | .waiting .httpDns => c.addresses = []
  | .gate .localDns => c.NeedsLookup → c.BehindHttpDns config
  | .creating .localDns => c.addresses = [] ∧ (c.NeedsLookup → c.BehindHttpDns config)
  | .waiting .localDns => c.addresses = [] ∧ (c.NeedsLookup → c.BehindHttpDns config)
  | .writing => c.NeedsLookup → c.BehindLocalDns config
  | .finishing => c.NeedsLookup → c.BehindLocalDns config

end Call

section

variable {inet : Inet} {config : Config} {c : Call} {tier : Tier} {stage : Stage} {passage : Passage}

theorem settle_via (inet : Inet) (st : State) (hne : c.addresses ≠ []) :
    (c.settle inet st).via = c.via := by
  have haddresses : c.addresses.isEmpty = false := List.isEmpty_eq_false_iff.mpr hne
  simp [Call.settle, fallBack, haddresses]

/-- Why a call without addresses starts no lookup. -/
theorem unserved_cases (hunserved : c.Unserved config tier stage passage) (hnil : c.addresses = [])
    (hallow : c.allowLiveLookup = true) :
    passage = .absent ∧ tier = .httpDns ∧ c.read.httpdnsLookup = false ∨ passage.InVain ∨
      passage.Barred config c := by
  cases hunserved with
  | refused nowMs active passage hrefusal =>
    unfold Call.refusal at hrefusal
    rw [if_neg (by simp [hnil])] at hrefusal
    split_ifs at hrefusal with habsent hlate hoffline hfull
    · obtain rfl := Option.some.inj hrefusal
      exact .inl ⟨rfl, habsent⟩
    · obtain rfl := Option.some.inj hrefusal
      exact .inr (.inr hlate)
    · simp [hallow] at hoffline
    · obtain rfl := Option.some.inj hrefusal
      exact .inr (.inr hfull)
  | noThread => exact .inr (.inr trivial)
  | unanswered nowMs hlate => exact .inr (.inl trivial)

/-- A call that has addresses needs no further tier. -/
theorem ordered_leave (hordered : c.Ordered config stage)
    (hunserved : c.Unserved config tier stage passage) (st : State) :
    (c.leave inet st tier passage).2.Ordered config (c.leave inet st tier passage).1 := by
  cases tier with
  | httpDns =>
    rintro ⟨hmiss, hallow⟩
    -- without a fresh entry there are no addresses yet
    have hnil : c.addresses = [] := by
      cases hunserved with
      | refused nowMs active passage hrefusal => exact hordered hmiss
      | noThread => exact hordered
      | unanswered nowMs hlate => exact hordered
    refine .inr ⟨hnil, ?_⟩
    rcases unserved_cases hunserved hnil hallow with ⟨habsent, -, hnone⟩ | hvain | hbarred
    · exact .inl ⟨habsent, hnone⟩
    · exact .inr (.inl hvain)
    · exact .inr (.inr hbarred)
  | localDns =>
    rintro ⟨hmiss, hallow⟩
    -- LocalDNS stands behind HttpDNS, which gave something or was asked in vain
    have hbehind : c.BehindHttpDns config := by
      cases hunserved with
      | refused nowMs active passage hrefusal => exact hordered ⟨hmiss, hallow⟩
      | noThread => exact hordered.2 ⟨hmiss, hallow⟩
      | unanswered nowMs hlate => exact hordered.2 ⟨hmiss, hallow⟩
    rcases hbehind with ⟨hne, hvia, hgives⟩ | ⟨hnil, hwithout⟩
    · refine .inl ⟨?_, hgives⟩
      exact (settle_via inet st hne).trans hvia
    · refine .inr ⟨hwithout, .inr ?_⟩
      rcases unserved_cases hunserved hnil hallow with ⟨-, htier, -⟩ | hvain | hbarred
      · cases htier
      · exact .inl hvain
      · exact .inr hbarred

/-- HttpDNS has answered. -/
theorem ordered_servedHttpDns (safe : List IpResult) (answeredAt : ℕ) (st : State) :
    ((c.serve .httpDns safe answeredAt).leave inet st .httpDns (.answered safe)).2.Ordered config
      ((c.serve .httpDns safe answeredAt).leave inet st .httpDns (.answered safe)).1 := by
  intro _
  rcases eq_or_ne safe [] with hnil | hne
  · exact .inr ⟨hnil, .inr (.inl hnil)⟩
  · exact .inl ⟨hne, rfl, hne⟩

/-- LocalDNS has answered a call that had no addresses. -/
theorem ordered_servedLocalDns (hordered : c.Ordered config (.waiting .localDns)) (safe : List IpResult)
    (answeredAt : ℕ) (st : State) :
    ((c.serve .localDns safe answeredAt).leave inet st .localDns (.answered safe)).2.Ordered config
      ((c.serve .localDns safe answeredAt).leave inet st .localDns (.answered safe)).1 := by
  intro hneeds
  rcases hordered.2 hneeds with ⟨hne, -⟩ | ⟨-, hwithout⟩
  · exact absurd hordered.1 hne
  · refine .inr ⟨hwithout, ?_⟩
    rcases eq_or_ne safe [] with hnil | hne
    · exact .inr (.inl hnil)
    · refine .inl ⟨?_, hne⟩
      exact settle_via inet st hne

/-- An expired entry gives no addresses. -/
theorem readCache_addresses_of_miss {nowMs : ℤ} {host : Bytes} {networkEpoch : ℕ} {st : State}
    (hmiss : (readCache nowMs host networkEpoch st).cacheHit = false) :
    (readCache nowMs host networkEpoch st).addresses = [] := by
  rw [List.eq_nil_iff_forall_not_mem]
  intro a ha
  rw [cacheHit_of_mem_addresses ha] at hmiss
  cases hmiss

end

/-! ### The invariant -/

/-- What holds of every machine that was reached, with what happened. -/
structure TierOrder (inet : Inet) (config : Config) {ι : Type} (s : Trace ι) : Prop where
  sameConfig : s.1.st.config = config
  calls : ∀ t stage c, s.1.calls t = some (stage, c) → c.Ordered config stage
  returned : ∀ call result, .returned call result ∈ s.2 → call.host ≠ [] →
    isNumericIp inet call.host = none → call.NeedsLookup → call.BehindLocalDns config

section

variable {ι : Type} [DecidableEq ι] {inet : Inet} {config : Config} {m m' : Machine ι} {h es : List Event}

theorem config_of_stepped {a : Act ι} (hs : Stepped inet m h a m' es) : m'.st.config = m.st.config := by
  cases hs with
  | left t tier c stage passage m₁ hcall hunserved hsame => exact hsame.config
  | background m₁ hsame => exact hsame.config
  | wrote t c nowMs evict hact hcall => exact (storeEntry_frame ..).1
  | invalidated host =>
    rw [Machine.withState_st, invalidate]
    split_ifs <;> rfl
  | _ => rfl

omit [DecidableEq ι] in
/-- A step returns nothing, or what it returns is in order. -/
theorem returned_of_forall (hinv : TierOrder inet config (m, h))
    (hes : ∀ call result, .returned call result ∈ es → call.host ≠ [] →
      isNumericIp inet call.host = none → call.NeedsLookup → call.BehindLocalDns config) :
    ∀ call result, .returned call result ∈ h ++ es → call.host ≠ [] →
      isNumericIp inet call.host = none → call.NeedsLookup → call.BehindLocalDns config := by
  intro call result hmem
  rcases List.mem_append.mp hmem with hmem | hmem
  · exact hinv.returned call result hmem
  · exact hes call result hmem

/-- **Every section keeps the order.** -/
theorem tierOrder_of_stepped (hinv : TierOrder inet config (m, h)) {a : Act ι}
    (hs : Stepped inet m h a m' es) : TierOrder inet config (m', h ++ es) := by
  refine ⟨(config_of_stepped hs).trans hinv.sameConfig, ?_, returned_of_forall hinv ?_⟩
  · -- the calls under way
    -- a section moves one call, and the order is about each call by itself
    have hgoto : ∀ (m₁ : Machine ι), m₁.calls = m.calls → ∀ (t : ι) (p : Stage × Call),
        p.2.Ordered config p.1 →
        ∀ u stage c, (m₁.goto t (some p)).calls u = some (stage, c) → c.Ordered config stage := by
      intro m₁ hcalls t p hp
      refine Machine.forall_calls_goto (P := fun stage c => c.Ordered config stage) ?_ ?_
      · rw [hcalls]
        exact hinv.calls
      · intro stage c heq
        obtain rfl := Option.some.inj heq
        exact hp
    cases hs with
    | answered host networkEpoch timeoutMs startedMs elapsedMs result hresult => exact hinv.calls
    | began t host networkEpoch timeoutMs startedMs => exact hgoto m rfl t _ fun _ => rfl
    | looked t c nowMs hcall => exact hgoto m rfl t _ fun hmiss => readCache_addresses_of_miss hmiss
    | qualityRead t c hcall =>
      have hc := hinv.calls t _ c hcall
      exact hgoto m rfl t _ hc
    | taken t tier c hcall hnone =>
      have hc := hinv.calls t _ c hcall
      refine hgoto _ rfl t (.creating tier, c) ?_
      cases tier with
      | httpDns => exact hnone
      | localDns => exact ⟨hnone, hc⟩
    | created t tier c hcall =>
      have hc := hinv.calls t _ c hcall
      refine hgoto m rfl t (.waiting tier, c) ?_
      cases tier with
      | httpDns => exact hc
      | localDns => exact hc
    | left t tier c stage passage m₁ hcall hunserved hsame =>
      rw [hinv.sameConfig] at hunserved
      exact hgoto m₁ hsame.calls t _ (ordered_leave (hinv.calls t _ c hcall) hunserved m.st)
    | servedHttpDns t c addresses hcall => exact hgoto _ rfl t _ (ordered_servedHttpDns _ _ m.st)
    | servedLocalDns t c raw hcall =>
      exact hgoto _ rfl t _ (ordered_servedLocalDns (hinv.calls t _ c hcall) _ _ m.st)
    | background m₁ hsame =>
      rw [hsame.calls]
      exact hinv.calls
    | wrote t c nowMs evict hact hcall =>
      have hc := hinv.calls t _ c hcall
      refine hgoto _ rfl t _ ?_
      exact hc
    | finished t c nowMs hcall =>
      refine Machine.forall_calls_goto (P := fun stage c => c.Ordered config stage) hinv.calls ?_
      intro stage c heq
      cases heq
    | invalidated host => exact hinv.calls
    | replaced httpdnsLookup => exact hinv.calls
    | configured host addresses => exact hinv.calls
  · -- what is returned
    intro call result hmem hne hname
    -- only the immediate answer and the end of a call return anything
    cases hs with
    | answered host networkEpoch timeoutMs startedMs elapsedMs result' hresult =>
      rw [List.mem_singleton, Event.returned.injEq] at hmem
      obtain ⟨rfl, -⟩ := hmem
      have hne : host ≠ [] := hne
      have hname : isNumericIp inet host = none := hname
      unfold immediate at hresult
      rw [if_neg (by simpa using hne), if_neg (by simp [hname])] at hresult
      cases hresult
    | finished t c nowMs hcall =>
      rw [List.mem_singleton, Event.returned.injEq] at hmem
      obtain ⟨rfl, -⟩ := hmem
      exact hinv.calls t _ _ hcall
    | _ => simp at hmem

theorem tierOrder_of_run {httpdnsLookup : Bool} {acts : List (Act ι)} {s : Trace ι}
    (hrun : Run (Steps inet) (init ι config httpdnsLookup) acts s) : TierOrder inet config s := by
  refine hrun.invariant ?_ ⟨rfl, by simp [init], by simp [init]⟩
  intro s a s' hinv hs
  obtain ⟨es, hstepped, heq⟩ := hs.stepped
  have hnext := tierOrder_of_stepped hinv hstepped
  rw [← heq] at hnext
  exact hnext

/-- **The order of the tiers.** -/
theorem tiers_of_run {httpdnsLookup : Bool} {acts : List (Act ι)} {s : Trace ι}
    (hrun : Run (Steps inet) (init ι config httpdnsLookup) acts s) {call : Call} {result : ResolveResult}
    (hreturned : .returned call result ∈ s.2) (hne : call.host ≠ [])
    (hname : isNumericIp inet call.host = none) (hneeds : call.NeedsLookup) :
    (¬ call.httpDns.Gives → call.localDns.Consulted ∨ call.localDns.Barred config call) ∧
    (call.via = .backup ∨ call.via = .stale →
      (call.httpDns = .absent ∧ call.read.httpdnsLookup = false ∨ call.httpDns.InVain ∨
        call.httpDns.Barred config call) ∧
      (call.localDns.InVain ∨ call.localDns.Barred config call)) := by
  have hbehind := (tierOrder_of_run hrun).returned call result hreturned hne hname hneeds
  rcases hbehind with ⟨hvia, hgives⟩ | ⟨hwithout, ⟨hvia, hgives⟩ | hlocal⟩
  · refine ⟨fun hno => absurd hgives hno, ?_⟩
    rw [hvia]
    rintro (h | h) <;> cases h
  · refine ⟨fun _ => .inl hgives.consulted, ?_⟩
    rw [hvia]
    rintro (h | h) <;> cases h
  · refine ⟨fun _ => ?_, fun _ => ⟨hwithout, hlocal⟩⟩
    rcases hlocal with hvain | hbarred
    · exact .inl hvain.consulted
    · exact .inr hbarred

end

/-! ### An HttpDNS function without a safe address, and one that hangs -/

/-- HttpDNS gives a loopback address, and LocalDNS a public one. -/
def fallsBack : List (Act ℕ) :=
  begins 0 ++ serves 0 "127.0.0.1" ++
    [.create 0 true, .answerLocalDns 0 [.inet4 ![93, 184, 216, 34]]] ++ ends 0

theorem tiers_of_run_fallsBack : ∃ call result, lastReturned (after fallsBack).2 = some (call, result) ∧
    call.via = .localDns ∧
    (¬ call.httpDns.Gives → call.localDns.Consulted ∨ call.localDns.Barred {} call) ∧
    (call.via = .backup ∨ call.via = .stale →
      (call.httpDns = .absent ∧ call.read.httpdnsLookup = false ∨ call.httpDns.InVain ∨
        call.httpDns.Barred {} call) ∧
      (call.localDns.InVain ∨ call.localDns.Barred {} call)) := by
  obtain ⟨⟨call, result⟩, hlast⟩ := Option.isSome_iff_exists.mp
    (show (lastReturned (after fallsBack).2).isSome = true by decide +kernel)
  have hcall : ∀ r ∈ lastReturned (after fallsBack).2, r.1.via = .localDns ∧ r.1.host ≠ [] ∧
      isNumericIp Inet.plain r.1.host = none ∧ r.1.read.cacheHit = false ∧ r.1.allowLiveLookup = true := by
    decide +kernel
  obtain ⟨hvia, hne, hname, hmiss, hallow⟩ := hcall _ hlast
  have hreturned : .returned call result ∈ (after fallsBack).2 := by
    rw [eq_of_lastReturned hlast]
    exact List.mem_append_right _ List.mem_cons_self
  exact ⟨call, result, hlast, hvia,
    tiers_of_run (run_after (by decide +kernel)) hreturned hne hname ⟨hmiss, hallow⟩⟩

/-- HttpDNS hangs until the deadline of the call; there is a backup address. -/
def hangs : List (Act ℕ) :=
  [.setBackupIps hostA [{ ip := ByteString.ascii "192.0.2.9" }]] ++ begins 0 ++
    [.gate 0 0, .create 0 true, .giveUp 0 3000, .gate 0 3000, .write 0 3000 0, .finish 0 3000]

/-- LocalDNS is skipped, and the backup address is used. -/
theorem exists_run_skipping : ∃ acts s call result, Run (Steps Inet.plain) start acts s ∧
    .returned call result ∈ s.2 ∧ call.host ≠ [] ∧ isNumericIp Inet.plain call.host = none ∧
    call.NeedsLookup ∧ ¬ call.httpDns.Gives ∧ ¬ call.localDns.Consulted ∧ call.via = .backup ∧
    ips result.addresses = [ByteString.ascii "192.0.2.9"] := by
  obtain ⟨⟨call, result⟩, hlast⟩ := Option.isSome_iff_exists.mp
    (show (lastReturned (after hangs).2).isSome = true by decide +kernel)
  have hcall : ∀ r ∈ lastReturned (after hangs).2, r.1.host ≠ [] ∧
      isNumericIp Inet.plain r.1.host = none ∧ (r.1.read.cacheHit = false ∧ r.1.allowLiveLookup = true) ∧
      ¬ r.1.httpDns.Gives ∧ ¬ r.1.localDns.Consulted ∧ r.1.via = .backup ∧
      ips r.2.addresses = [ByteString.ascii "192.0.2.9"] := by decide +kernel
  refine ⟨hangs, after hangs, call, result, run_after (by decide +kernel), ?_, hcall _ hlast⟩
  rw [eq_of_lastReturned hlast]
  exact List.mem_append_right _ List.mem_cons_self

end Threads

end AsterNet.Dns
