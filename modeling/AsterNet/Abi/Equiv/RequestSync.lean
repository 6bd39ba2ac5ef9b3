import AsterNet.Abi.Equiv.Wire
import AsterNet.Abi.RequestSync
import AsterNet.Client.Equiv.Deadline
import AsterNet.Client.Equiv.LastAnswer
import AsterNet.Engine.Http1.Equiv.Complete

/-!
# What a call that finds the buffer too small tells

`TellsSize` is what a caller relies on who calls again with a larger buffer.  `handOver` keeps to it
(`tellsSize_handOver`); an engine that gives up on a response larger than the limit answers
`errBufferTooSmall` too, and then the size told is not the one needed and no buffer is large enough.
-/

namespace AsterNet

namespace Abi

open ByteString Effect

/-- A call with some buffer that finds it too small tells the size needed: it is larger than what was
offered, and the same exchange with a buffer of this size gives the body, which has this many bytes.  A
call without success copies nothing. -/
structure TellsSize (call : OutBody → SyncResult) (out : OutBody) : Prop where
  needed : (call out).result = .errBufferTooSmall →
    out.null = true ∨ out.capacity < (call out).info.bodySize
  again : (call out).result = .errBufferTooSmall →
    (call ⟨false, (call out).info.bodySize⟩).result = .ok ∧
    (call ⟨false, (call out).info.bodySize⟩).info.bodyCopied = (call out).info.bodySize ∧
    (call ⟨false, (call out).info.bodySize⟩).copied.length = (call out).info.bodySize
  nothing_copied : (call out).result ≠ .ok → (call out).info.bodyCopied = 0

section

variable {out : OutBody} {reply : RequestResult}

/-- A failure of the client is the call's. -/
theorem handOver_of_ne (h : reply.result ≠ .ok) : handOver out reply =
    { result := reply.result
      info := fillResponseInfo (syncResponse reply) reply.result resetResponseInfo } := by
  unfold handOver
  dsimp only
  rw [if_pos h]

/-- A buffer that the body fits in. -/
theorem handOver_of_le (h : reply.result = .ok) (hnull : out.null = false)
    (hle : reply.response.body.length ≤ out.capacity) :
    (handOver out reply).result = .ok ∧
    (handOver out reply).info.bodyCopied = reply.response.body.length ∧
    (handOver out reply).copied = reply.response.body := by
  have hfits : ¬ (((syncResponse reply).body ≠ [] ∧ out.null = true) ∨
      out.capacity < (syncResponse reply).body.length) := by
    rintro (⟨-, hyes⟩ | hlt)
    · rw [hnull] at hyes
      cases hyes
    · exact absurd hle (Nat.not_le.mpr hlt)
  unfold handOver
  dsimp only
  rw [if_neg (not_not.mpr h), if_neg hfits]
  exact ⟨rfl, rfl, rfl⟩

theorem handOver_bodySize : (handOver out reply).info.bodySize = reply.response.body.length := by
  unfold handOver
  dsimp only
  split_ifs <;> rfl

theorem handOver_nothing_copied (h : (handOver out reply).result ≠ .ok) :
    (handOver out reply).info.bodyCopied = 0 := by
  unfold handOver at h ⊢
  dsimp only at h ⊢
  split_ifs at h ⊢
  · rfl
  · rfl
  · exact absurd rfl h

/-- **The end of the call tells the size**, exactly when the client's own result is another one. -/
theorem tellsSize_handOver : TellsSize (handOver · reply) out ↔ reply.result ≠ .errBufferTooSmall := by
  constructor
  · intro h hsmall
    -- the second call would have to succeed, but its result does not depend on the buffer
    have hne : reply.result ≠ .ok := by
      rw [hsmall]
      decide
    have hresult : ∀ out', (handOver out' reply).result = .errBufferTooSmall := by
      intro out'
      rw [handOver_of_ne hne, hsmall]
    have hok := (h.again (hresult out)).1
    rw [hresult] at hok
    cases hok
  · intro hne
    -- the client has an answer to hand over, or failed with a result of its own
    by_cases hok : reply.result = .ok
    · refine ⟨fun hsmall => ?_, fun _ => ?_, handOver_nothing_copied⟩
      · by_contra hfits
        rw [not_or, Bool.not_eq_true, Nat.not_lt, handOver_bodySize] at hfits
        have hdone := (handOver_of_le hok hfits.1 hfits.2).1
        rw [hsmall] at hdone
        cases hdone
      · rw [handOver_bodySize]
        -- a buffer of the size that was told takes the whole body
        have hle : reply.response.body.length ≤ (OutBody.mk false reply.response.body.length).capacity :=
          le_rfl
        obtain ⟨hagain, hcount, hcopied⟩ := handOver_of_le hok rfl hle
        exact ⟨hagain, hcount, by rw [hcopied]⟩
    · have hresult : (handOver out reply).result ≠ .errBufferTooSmall := by
        rw [handOver_of_ne hok]
        exact hne
      exact ⟨fun hsmall => absurd hsmall hresult, fun hsmall => absurd hsmall hresult,
        handOver_nothing_copied⟩

end

theorem tellsSize_invalidArgument (out : OutBody) : TellsSize (fun _ => invalidArgument) out where
  needed hsmall := by cases hsmall
  again hsmall := by cases hsmall
  nothing_copied _ := rfl

/-- **A call tells the size needed** if and only if the last answer it gets, of an engine or of the
flight it shares, is not that the response is too large. -/
theorem tellsSize_iff {σ : Type} (env : ClientEnv σ) (client : Option (AbiConfig × ClientConfig))
    (policy : ProtocolPolicy) (request : AbiRequest) (out : OutBody) (s : σ) (breakers : Breakers) :
    TellsSize (fun out' => (requestSync env client policy request out' ⟨s, breakers⟩).val) out ↔
      ¬ TooSmall (requestSync env.watched client policy request out ⟨(s, none), breakers⟩).post.out.2 := by
  have hnone : ¬ TooSmall none := by simp [TooSmall]
  -- without a client, or with a request that is refused, nothing is asked and the call is invalid
  cases client with
  | none => exact iff_of_true (tellsSize_invalidArgument out) hnone
  | some both =>
    obtain ⟨config, clientConfig⟩ := both
    cases hinternal : internalRequest config request with
    | none =>
      have hcall : ∀ {τ : Type} (env : ClientEnv τ) out', requestSync env (some (config, clientConfig))
          policy request out' = pure invalidArgument := by
        intro τ env out'
        simp only [requestSync, hinternal]
      simp only [hcall]
      exact iff_of_true (tellsSize_invalidArgument out) hnone
    | some internal =>
      have hcall : ∀ {τ : Type} (env : ClientEnv τ) out', requestSync env (some (config, clientConfig))
          policy request out' =
            handOver out' <$> Client.requestWithPolicy env clientConfig internal policy {} := by
        intro τ env out'
        simp only [requestSync, hinternal]
      have hnew : ({} : Response).errCode ≠ .errBufferTooSmall := by decide
      have hwatch := Client.watches_requestWithPolicy env clientConfig internal policy hnew
      -- the watched run is the plain run, with the last answer kept beside it
      obtain ⟨hval, -, htold⟩ := hwatch ⟨(s, none), breakers⟩ hnone
      simp only [hcall, Program.map_apply]
      rw [tellsSize_handOver, not_iff_not]
      have hplain : (Client.requestWithPolicy env clientConfig internal policy {} ⟨s, breakers⟩).val =
          (Client.requestWithPolicy env.watched clientConfig internal policy {}
            ⟨(s, none), breakers⟩).val := hval.symm
      rw [hplain]
      exact htold

/-! ### A response larger than the limit -/

/-- An outside where HTTP/1.1 reads this stream. -/
def readsFrom (source : Segmented.Source) : ClientEnv ℕ :=
  { Client.slowDns 0 with
    engine := fun type =>
      if type = .http1 then
        some fun req t =>
          let reply := (Http1.request (Http1.dialTo source) {} req).1
          ((reply.errCode,
            { errCode := reply.errCode
              httpStatus := reply.httpStatus
              body := reply.body
              failureStage := reply.failureStage }), t)
      else none }

/-- Six bytes. -/
def sixBytes : Segmented.Source :=
  ⟨[ascii "HTTP/1.1 200 OK\r\nContent-Length: 6\r\n\r\nabcdef"], .eof⟩

/-- A plain `GET`. -/
def plainGet : AbiRequest where
  host := some (cString "origin" rfl)
  port := 443
  method := some (cString "GET" rfl)
  path := some (cString "/six" rfl)

/-- A client that takes five bytes asks for them, with a buffer for sixty-four. -/
def limitedCall (out : OutBody) : SyncResult :=
  (requestSync (readsFrom sixBytes) (some ({ maxResponseBodyBytes := 5 }, {})) .http11Only plainGet out
    ⟨0, ∅⟩).val

/-- It is told that its buffer is too small and that none is needed. -/
theorem not_tellsSize_limitedCall :
    (limitedCall ⟨false, 64⟩).result = .errBufferTooSmall ∧
    (limitedCall ⟨false, 64⟩).info.bodySize = 0 ∧ ¬ TellsSize limitedCall ⟨false, 64⟩ := by
  have hresult : (limitedCall ⟨false, 64⟩).result = .errBufferTooSmall := by decide +kernel
  refine ⟨hresult, by decide +kernel, fun h => ?_⟩
  rcases h.needed hresult with hnull | hlt
  · cases hnull
  · exact absurd hlt (by decide +kernel)

end Abi

end AsterNet
