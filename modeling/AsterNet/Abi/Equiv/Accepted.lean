import AsterNet.Abi.Abi

/-!
# What the C interface accepts

`accepted_of_internalRequest`: the checks of `asternet_client_request_sync`, as facts about the request
that is passed on.
-/

namespace AsterNet

namespace Abi

open ByteString

/-- A header that passes the checks. -/
structure AcceptedHeader (h : Header) : Prop where
  token : validToken h.name = true
  no_crlf : containsCrlf h.value = false
  not_protected : protectedHeader h.name = false

/-- A request that passes the checks. -/
structure Accepted (req : Request) : Prop where
  host : validHost req.host = true
  method : validToken req.method = true
  path : validPath req.path = true
  headers : ∀ h ∈ req.headers, AcceptedHeader h

theorem acceptedHeader_of_acceptHeader {header : AbiHeader} {h : Header}
    (hacc : acceptHeader header = some h) : AcceptedHeader h := by
  unfold acceptHeader at hacc
  simp only [Option.bind_eq_bind, Option.bind_eq_some_iff] at hacc
  obtain ⟨name, -, value, -, hacc⟩ := hacc
  split_ifs at hacc with hvalid
  obtain rfl := Option.some.inj hacc
  simp only [Bool.and_eq_true, Bool.not_eq_true'] at hvalid
  exact ⟨hvalid.1.1.1, hvalid.1.2, hvalid.2⟩

/-- What holds of every header that passes holds of all headers of a request that does. -/
theorem forall_mem_of_acceptHeaders {P : Header → Prop}
    (hP : ∀ {header h}, acceptHeader header = some h → P h) {request : AbiRequest}
    {accepted : List Header} (hacc : acceptHeaders request = some accepted) : ∀ h ∈ accepted, P h := by
  -- a request is accepted only as a whole, one header after the other
  have hmapM : ∀ (headers : List AbiHeader) {accepted : List Header},
      headers.mapM acceptHeader = some accepted → ∀ h ∈ accepted, P h := by
    intro headers
    induction headers with
    | nil =>
      intro accepted hacc
      obtain rfl : [] = accepted := by simpa using hacc
      simp
    | cons header headers ih =>
      intro accepted hacc
      rw [List.mapM_cons, Option.bind_eq_bind, Option.bind_eq_some_iff] at hacc
      obtain ⟨h, hfirst, hacc⟩ := hacc
      rw [Option.bind_eq_bind, Option.bind_eq_some_iff] at hacc
      obtain ⟨rest, hrest, hacc⟩ := hacc
      obtain rfl := Option.some.inj hacc
      intro h' hmem
      rcases List.mem_cons.mp hmem with rfl | hmem
      · exact hP hfirst
      · exact ih hrest h' hmem
  unfold acceptHeaders at hacc
  split at hacc
  · split_ifs at hacc
    obtain rfl := Option.some.inj hacc
    simp
  · exact hmapM _ hacc

/-- A value comes from a C string. -/
theorem no_nul_of_acceptHeader {header : AbiHeader} {h : Header} (hacc : acceptHeader header = some h) :
    (0 : UInt8) ∉ h.value := by
  unfold acceptHeader at hacc
  simp only [Option.bind_eq_bind, Option.bind_eq_some_iff] at hacc
  obtain ⟨name, -, value, -, hacc⟩ := hacc
  split_ifs at hacc
  obtain rfl := Option.some.inj hacc
  exact value.no_nul

theorem acceptHeaders_of_internalRequest {config : AbiConfig} {request : AbiRequest} {req : Request}
    (hacc : internalRequest config request = some req) : acceptHeaders request = some req.headers := by
  unfold internalRequest at hacc
  simp only [Option.bind_eq_bind, Option.bind_eq_some_iff] at hacc
  obtain ⟨host, -, method, -, path, -, headers, hheaders, body, -, hacc⟩ := hacc
  split_ifs at hacc
  obtain rfl := Option.some.inj hacc
  exact hheaders

theorem accepted_of_internalRequest {config : AbiConfig} {request : AbiRequest} {req : Request}
    (hacc : internalRequest config request = some req) : Accepted req := by
  have hheaders := forall_mem_of_acceptHeaders acceptedHeader_of_acceptHeader
    (acceptHeaders_of_internalRequest hacc)
  unfold internalRequest at hacc
  simp only [Option.bind_eq_bind, Option.bind_eq_some_iff] at hacc
  obtain ⟨host, -, method, -, path, -, headers, -, body, -, hacc⟩ := hacc
  split_ifs at hacc with hvalid
  obtain rfl := Option.some.inj hacc
  simp only [Bool.and_eq_true] at hvalid
  exact ⟨hvalid.1.1.1.1, hvalid.1.1.1.2, hvalid.1.1.2, hheaders⟩

theorem not_crlf_of_not_control : ∀ c : UInt8, (!(c ≤ 0x20 || c == 0x7f)) = true →
    ¬ (c == 13 || c == 10) = true := by
  decide +kernel

theorem not_crlf_of_token : ∀ c : UInt8,
    (isAlnum c || (ascii "!#$%&'*+-.^_`|~").contains c) = true → ¬ (c == 13 || c == 10) = true := by
  decide +kernel

theorem containsCrlf_of_noControls {s : Bytes} (h : noControls s = true) : containsCrlf s = false := by
  rw [noControls, List.all_eq_true] at h
  rw [containsCrlf, List.any_eq_false]
  exact fun c hc => not_crlf_of_not_control c (h c hc)

theorem containsCrlf_of_validToken {s : Bytes} (h : validToken s = true) : containsCrlf s = false := by
  rw [validToken, Bool.and_eq_true, List.all_eq_true] at h
  rw [containsCrlf, List.any_eq_false]
  exact fun c hc => not_crlf_of_token c (h.2 c hc)

end Abi

end AsterNet
