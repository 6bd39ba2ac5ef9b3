import AsterNet.Engine.Http1.Engine

/-!
# From the request to the response

`Sent` says that a request reached the stage at which its response is read: the connection is there,
the request is accepted, and all of it was written.  A request that answers OK was `Sent`
(`sent_of_ok`), and one that was `Sent` answers what `readResponse` makes of the stream
(`request_of_sent`).
-/

namespace AsterNet

namespace Http1

open Segmented

/-- A write loop that succeeds wrote everything, and nothing was read meanwhile. -/
theorem writeAll_some {data : Bytes} {ssl ssl' : Ssl} (h : writeAll data ssl = some ssl') :
    ssl'.sent = ssl.sent ++ data ∧ ssl'.source = ssl.source := by
  induction hn : data.length using Nat.strong_induction_on generalizing data ssl with
  | _ n ih =>
    rw [writeAll] at h
    split_ifs at h with hne
    · obtain rfl := Option.some.inj h
      rw [hne, List.append_nil]
      exact ⟨rfl, rfl⟩
    · split at h
      · cases h
      · rename_i k ssl₁ hw
        obtain ⟨hk, hpos, hsent, hsource, -⟩ := Ssl.write_some hw
        have hk0 := hpos (by simpa [intMax] using hne)
        have hlt : (data.drop k).length < n := by
          have := List.length_pos_of_ne_nil hne
          rw [List.length_drop]
          omega
        obtain ⟨hsent', hsource'⟩ := ih _ hlt h rfl
        have htake : (data.take intMax).take k = data.take k := by
          rw [List.length_take] at hk
          rw [List.take_take, min_eq_left (by omega)]
        rw [hsent', hsent, htake, List.append_assoc, List.take_append_drop]
        exact ⟨rfl, hsource'.trans hsource⟩

/-- The write loop succeeds on a connection none of whose writes fails. -/
theorem writeAll_isSome {data : Bytes} {ssl : Ssl} (h : .failed ∉ ssl.writes) :
    ∃ ssl', writeAll data ssl = some ssl' := by
  induction hn : data.length using Nat.strong_induction_on generalizing data ssl with
  | _ n ih =>
    rw [writeAll]
    split_ifs with hne
    · exact ⟨ssl, rfl⟩
    · split
      · rename_i hw
        unfold Ssl.write at hw
        split at hw
        · cases hw
        · rename_i writes hwrites
          exact absurd (by rw [hwrites]; exact List.mem_cons_self ..) h
        · cases hw
      · rename_i k ssl₁ hw
        obtain ⟨-, hpos, -, -, hfailed⟩ := Ssl.write_some hw
        have hk0 := hpos (by simpa [intMax] using hne)
        have hlt : (data.drop k).length < n := by
          have := List.length_pos_of_ne_nil hne
          rw [List.length_drop]
          omega
        exact ih _ hlt (hfailed h) rfl

/-- The host, endpoint, method and path are free of line ends. -/
def CleanLine (req : Request) : Prop :=
  (hasCrlf req.host || hasCrlf req.connectHost || hasCrlf req.method || hasCrlf req.path) = false

instance (req : Request) : Decidable (CleanLine req) := inferInstanceAs (Decidable (_ = _))

/-- The request is written on a connection whose stream is `source`. -/
structure Sent (dial : Dial) (engine : Http1Engine) (req : Request) (source : Source) : Prop where
  clean : CleanLine req
  connected : ∃ key ssl reused custom ssl',
    ensureConnection dial engine.settings engine.connection req = .ok ((key, ssl), reused) ∧
    customHeaders req.headers = some custom ∧ writeAll (requestText req custom) ssl = some ssl' ∧
    ssl.source = source

variable {dial : Dial} {engine : Http1Engine} {req : Request} {source : Source}

/-- A request that was sent is answered from the stream. -/
theorem request_of_sent (h : Sent dial engine req source) :
    (∃ reused, (request dial engine req).1 =
      { (readResponse req source).1 with connectionReused := reused }) ∧
    (request dial engine req).2.connection.map (·.2.source) = (readResponse req source).2 := by
  obtain ⟨hclean, key, ssl, reused, custom, ssl', hc, hcustom, hwrite, rfl⟩ := h
  have hsource := (writeAll_some hwrite).2
  unfold request
  simp only [hc]
  rw [if_neg (by rw [hclean]; simp), hcustom]
  dsimp only
  rw [hwrite]
  dsimp only
  rw [hsource]
  refine ⟨⟨reused, rfl⟩, ?_⟩
  cases (readResponse req ssl.source).2 <;> rfl

/-- Only a request that was sent is answered with OK. -/
theorem sent_of_ok (h : (request dial engine req).1.errCode = .ok) :
    ∃ source, Sent dial engine req source := by
  -- an OK answer went past every way out in front of the response
  unfold request at h
  dsimp only at h
  cases hc : ensureConnection dial engine.settings engine.connection req with
  | error failure =>
    rw [hc] at h
    exact absurd h failure.result_ne_ok
  | ok c =>
    obtain ⟨⟨key, ssl⟩, reused⟩ := c
    rw [hc] at h
    dsimp only at h
    split_ifs at h with hclean
    rw [Bool.not_eq_true] at hclean
    cases hcustom : customHeaders req.headers with
    | none =>
      rw [hcustom] at h
      cases h
    | some custom =>
      rw [hcustom] at h
      dsimp only at h
      cases hwrite : writeAll (requestText req custom) ssl with
      | none =>
        rw [hwrite] at h
        cases h
      | some ssl' => exact ⟨ssl.source, hclean, key, ssl, reused, custom, ssl', hc, hcustom, hwrite, rfl⟩

end Http1

end AsterNet
