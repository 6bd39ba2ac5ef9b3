import AsterNet.Abi.RequestSync
import AsterNet.Client.Diagnostics
import AsterNet.Jni.JsonEscape
import AsterNet.Lib.CheckedInt

/-!
# A request of an Android application (`asternet_jni.cpp`, `AsterNet.java`)

`nativeRequest` takes the strings of a call apart, makes the request across the C interface and answers with a
JSON text, which `requestNative` makes a `Response` of.  A Java string is given to the call as the bytes that
`GetStringUTFChars` makes of it, and `null` is `none`.  Memory does not run out.

JNI and `org.json` are not part of the program: `JavaLibrary` is what `requestNative` uses of them, and
`JavaLibrary.Documented` what their documentation says of it.
-/

namespace AsterNet

open ByteString Json

/-- `asternet_result_string`. -/
def Abi.resultString : Result → String
  | .ok => "OK"
  | .errAbiVersion => "ABI_VERSION"
  | .errInvalidArgument => "INVALID_ARGUMENT"
  | .errNotInitialized => "NOT_INITIALIZED"
  | .errOutOfMemory => "OUT_OF_MEMORY"
  | .errTimeout => "TIMEOUT"
  | .errDns => "DNS"
  | .errConnect => "CONNECT"
  | .errTls => "TLS"
  | .errProtocol => "PROTOCOL"
  | .errCanceled => "CANCELED"
  | .errDegraded => "DEGRADED"
  | .errNetworkChanged => "NETWORK_CHANGED"
  | .errUnsupported => "UNSUPPORTED"
  | .errBufferTooSmall => "BUFFER_TOO_SMALL"
  | .errInternal => "INTERNAL"

namespace Jni

/-! ### The strings of a call -/

/-- What `std::string::c_str()` points at. -/
def cString (s : Bytes) : Abi.CString where
  bytes := cStr s
  no_nul := by
    intro hmem
    have hne := List.mem_takeWhile_imp hmem
    simp at hne

/-- A line of the header text: a name, a colon that is not in front, and a value behind blanks. -/
def parseLine (line : Bytes) : Option (Bytes × Bytes) :=
  match find [58] line with
  | none => none
  | some colon =>
    if 0 < colon then some (line.take colon, (line.drop (colon + 1)).dropWhile (· == 32)) else none

/-- `parsed_headers`. -/
def parseHeaders (raw : Bytes) : List (Bytes × Bytes) := (raw.splitOn 10).filterMap parseLine

/-- `native_headers`. -/
def nativeHeaders (headers : Option Abi.CString) : List Abi.AbiHeader :=
  match headers with
  | none => []
  | some raw =>
    if raw.bytes = [] then []
    else (parseHeaders raw.bytes).map fun header => ⟨some (cString header.1), some (cString header.2)⟩

/-- The arguments of `nativeRequest`, without the handle and the policy. -/
structure NativeCall where
  host : Option Abi.CString
  port : ℤ
  method : Option Abi.CString
  path : Option Abi.CString
  headers : Option Abi.CString := none
  body : Option Bytes := none
  timeoutMs : ℤ := 0
  idempotent : Bool := false

/-- The request that `nativeRequest` makes. -/
def NativeCall.request (call : NativeCall) : Abi.AbiRequest where
  host := call.host
  port := UInt16.ofNat call.port.toNat
  method := call.method
  path := call.path
  headers := some (nativeHeaders call.headers)
  headerCount := (nativeHeaders call.headers).length
  body := some (call.body.getD [])
  bodyLen := (call.body.getD []).length
  timeoutMs := call.timeoutMs
  idempotent := call.idempotent

/-- It is made. -/
def NativeCall.Valid (call : NativeCall) : Prop :=
  call.host.isSome ∧ call.method.isSome ∧ call.path.isSome ∧ 0 < call.port ∧ call.port ≤ 65535

instance callValidDecidable (call : NativeCall) : Decidable call.Valid :=
  inferInstanceAs (Decidable (_ ∧ _))

/-- The size of the buffer for the body. -/
def responseCapacity : ℕ := 4 * 1024 * 1024

/-! ### The reply -/

/-- `static_cast<int>` of a protocol. -/
def protocolCode : Protocol → ℤ
  | .unknown => 0
  | .http11 => 1
  | .http2 => 2
  | .http3 => 3

/-- The JSON text of `nativeRequest`. -/
def reply (r : Abi.SyncResult) : Bytes :=
  ascii "\x7b" ++ key "result" ++ intText r.result.code
    ++ ascii "," ++ key "error" ++ ascii "\"" ++ ascii (Abi.resultString r.result)
    ++ ascii "\"," ++ key "status" ++ intText r.info.httpStatus
    ++ ascii "," ++ key "protocol" ++ intText (protocolCode r.info.protocol)
    ++ ascii "," ++ key "degraded" ++ intText r.info.degraded
    ++ ascii "," ++ key "body_size" ++ decimal r.info.bodySize
    ++ ascii "," ++ key "dns_ms" ++ intText r.info.dnsMs
    ++ ascii "," ++ key "connect_ms" ++ intText r.info.connectMs
    ++ ascii "," ++ key "tls_ms" ++ intText r.info.tlsMs
    ++ ascii "," ++ key "ttfb_ms" ++ intText r.info.ttfbMs
    ++ ascii "," ++ key "total_ms" ++ intText r.info.totalMs
    ++ ascii "," ++ key "body" ++ ascii "\""
    ++ (if r.result = .ok then jsonEscape (r.copied.take r.info.bodyCopied) else [])
    ++ ascii "\"\x7d"

/-- What it answers to arguments that make no request. -/
def invalidReply : Bytes := ascii "\x7b\"result\":-2,\"error\":\"INVALID_ARGUMENT\"\x7d"

/-- `nativeRequest`. -/
def nativeRequest {σ : Type} (env : ClientEnv σ) (client : Option (Abi.AbiConfig × ClientConfig))
    (policy : ProtocolPolicy) (call : NativeCall) : Prog σ Bytes :=
  if call.Valid then
    (fun r => cStr (reply r)) <$> Abi.requestSync env client policy call.request ⟨false, responseCapacity⟩
  else pure invalidReply

/-! ### The Java library -/

/-- A string in Java is its UTF-16 code units. -/
abbrev JavaString := List UInt16

/-- The code units of a character. -/
def utf16Char (c : Char) : JavaString :=
  if c.toNat < 0x10000 then [UInt16.ofNat c.toNat]
  else [UInt16.ofNat (0xd800 + (c.toNat - 0x10000) / 0x400), UInt16.ofNat (0xdc00 + (c.toNat - 0x10000) % 0x400)]

/-- A text as a string in Java. -/
def utf16 (cs : List Char) : JavaString := cs.flatMap utf16Char

/-- `NewStringUTF`, the constructor of a `JSONObject`, which throws a `JSONException` at `none`, and the methods
that get its members. -/
structure JavaLibrary (JsonObject : Type) where
  newStringUTF : Bytes → JavaString
  jsonObject : JavaString → Option JsonObject
  optInt : JsonObject → String → ℤ → ℤ
  optLong : JsonObject → String → ℤ → ℤ
  optString : JsonObject → String → JavaString → JavaString

namespace JavaLibrary

variable {JsonObject : Type} (java : JavaLibrary JsonObject)

/-- An object has these members: the integers that fit, the strings, and the fallback for every other name. -/
structure Shows (json : JsonObject) (members : List (List Char × Value)) : Prop where
  int : ∀ {name : String} {n : ℤ}, (name.toList, .int n) ∈ members → CheckedInt.InRange 32 n →
    ∀ fallback, java.optInt json name fallback = n
  long : ∀ {name : String} {n : ℤ}, (name.toList, .int n) ∈ members → CheckedInt.InRange 64 n →
    ∀ fallback, java.optLong json name fallback = n
  string : ∀ {name : String} {text : List Char}, (name.toList, .string text) ∈ members →
    ∀ fallback, java.optString json name fallback = utf16 text
  absentInt : ∀ {name : String}, name.toList ∉ members.map Prod.fst →
    ∀ fallback, java.optInt json name fallback = fallback
  absentLong : ∀ {name : String}, name.toList ∉ members.map Prod.fst →
    ∀ fallback, java.optLong json name fallback = fallback
  absentString : ∀ {name : String}, name.toList ∉ members.map Prod.fst →
    ∀ fallback, java.optString json name fallback = fallback

/-- The documented behaviour.  `NewStringUTF` takes modified UTF-8, which is UTF-8 for characters of one code
unit other than zero; and the text of a JSON object, with no name twice, makes an object with its members. -/
structure Documented : Prop where
  newStringUTF : ∀ {cs : List Char}, (∀ c ∈ cs, c.toNat ≠ 0 ∧ c.toNat < 0x10000) →
    java.newStringUTF (Utf8.encode cs) = utf16 cs
  jsonObject : ∀ {cs : List Char} {members : List (List Char × Value)},
    read (Utf8.encode cs) = some (.object members) → (members.map Prod.fst).Nodup →
    ∃ json, java.jsonObject (utf16 cs) = some json ∧ java.Shows json members

end JavaLibrary

/-! ### The response in Java -/

/-- `AsterNet.Response`. -/
structure JavaResponse where
  result : ℤ
  error : JavaString
  status : ℤ
  protocol : ℤ
  degraded : Bool
  bodySize : ℤ
  dnsMs : ℤ
  connectMs : ℤ
  tlsMs : ℤ
  ttfbMs : ℤ
  totalMs : ℤ
  body : JavaString
  deriving DecidableEq, Repr

section

variable {JsonObject : Type} (java : JavaLibrary JsonObject)

/-- The constructor of `Response`. -/
def JavaResponse.ofJson (json : JsonObject) : JavaResponse where
  result := java.optInt json "result" (-100)
  error := java.optString json "error" (utf16 "INTERNAL".toList)
  status := java.optInt json "status" 0
  protocol := java.optInt json "protocol" 0
  degraded := java.optInt json "degraded" 0 != 0
  bodySize := java.optLong json "body_size" 0
  dnsMs := java.optLong json "dns_ms" (-1)
  connectMs := java.optLong json "connect_ms" (-1)
  tlsMs := java.optLong json "tls_ms" (-1)
  ttfbMs := java.optLong json "ttfb_ms" (-1)
  totalMs := java.optLong json "total_ms" (-1)
  body := java.optString json "body" (utf16 "".toList)

/-- What `requestNative` makes of a reply; an `AssertionError` is `none`. -/
def javaResponse (text : Bytes) : Option JavaResponse :=
  match java.jsonObject (java.newStringUTF text) with
  | some json => some (.ofJson java json)
  | none =>
    (java.jsonObject (utf16 "\x7b\"result\":-100,\"error\":\"JSONException\"\x7d".toList)).map
      (JavaResponse.ofJson java)

/-- `requestNative`. -/
def requestNative {σ : Type} (env : ClientEnv σ) (client : Option (Abi.AbiConfig × ClientConfig))
    (policy : ProtocolPolicy) (call : NativeCall) : Prog σ (Option JavaResponse) :=
  javaResponse java <$> nativeRequest env client policy call

end

end Jni

end AsterNet
