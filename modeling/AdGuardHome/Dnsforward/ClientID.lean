import AdGuardHome.Strings

/-! `clientid.go` and `middleware.go`: the ClientID of a request. -/
namespace AdGuardHome.Dnsforward

open Strings

/-- `proxy.Proto`. -/
inductive Proto where
  | udp
  | tcp
  | tls
  | https
  | quic
  | dnscrypt
deriving DecidableEq

/-- `http.Request`; the path value is the one of the parameter for the ClientID. -/
structure HTTPRequest where
  pattern : Bytes
  pathValue : Bytes
  /-- The server name of the TLS state, if there is one. -/
  tls : Option Bytes
  host : Bytes
deriving DecidableEq

/-- `proxy.DNSContext`, as the extraction of a ClientID reads it. -/
structure ConnContext where
  proto : Proto
  httpRequest : Option HTTPRequest
  /-- The server name of the connection, if it is a TLS connection. -/
  conn : Option Bytes
  quicServerName : Bytes
deriving DecidableEq

/-- The parts of `TLSConf` that the extraction reads. -/
structure TLSConf where
  serverName : Bytes
  strictSNICheck : Bool
deriving DecidableEq

inductive ClientIDError where
  | noHTTPRequest
  | invalid (id : Bytes)
  | host
  | notTLS
  | serverName
deriving DecidableEq

/-- The functions of `netutil` that the extraction calls. -/
structure Names where
  isValidHostnameLabel : Bytes → Bool
  isImmediateSubdomain : Bytes → Bytes → Bool
  splitHost : Bytes → Option Bytes

def clientIDParamTemplate : Bytes := lit "\x7bClientID\x7d"

section

variable (names : Names)

/-- `client.ValidateClientID`, and what the extraction makes of a valid ClientID, which is
ASCII. -/
def normalizedClientID (id : Bytes) : Except ClientIDError Bytes :=
  if names.isValidHostnameLabel id then .ok (toLowerASCII id) else .error (.invalid id)

/-- `clientIDFromClientServerName`. -/
def clientIDFromClientServerName (hostSrvName cliSrvName : Bytes) (strict : Bool) :
    Except ClientIDError Bytes :=
  if hostSrvName = cliSrvName then .ok []
  else if !names.isImmediateSubdomain cliSrvName hostSrvName then
    if !strict then .ok [] else .error .serverName
  else normalizedClientID names (cliSrvName.take (cliSrvName.length - hostSrvName.length - 1))

/-- `clientIDFromDNSContextHTTPS`. -/
def clientIDFromDNSContextHTTPS (pctx : ConnContext) : Except ClientIDError Bytes :=
  match pctx.httpRequest with
  | none => .error .noHTTPRequest
  | some r =>
    if !contains r.pattern clientIDParamTemplate then .ok []
    else normalizedClientID names r.pathValue

/-- `clientServerNameFromHTTP`. -/
def clientServerNameFromHTTP (r : HTTPRequest) : Except ClientIDError Bytes :=
  match r.tls with
  | some serverName => .ok serverName
  | none =>
    if r.host = [] then .ok []
    else
      match names.splitHost r.host with
      | none => .error .host
      | some srvName => .ok srvName

/-- `clientServerName`. -/
def clientServerName (pctx : ConnContext) : Except ClientIDError Bytes :=
  match pctx.proto with
  | .https =>
    match pctx.httpRequest with
    | none => .error .noHTTPRequest
    | some r => clientServerNameFromHTTP names r
  | .quic => .ok pctx.quicServerName
  | .tls =>
    match pctx.conn with
    | none => .error .notTLS
    | some serverName => .ok serverName
  | _ => .ok []

/-- The end of `clientIDFromDNSContext`, for the server name that the client sends. -/
def clientIDFromServerName (conf : TLSConf) (pctx : ConnContext) : Except ClientIDError Bytes :=
  if conf.serverName = [] then .ok []
  else
    match clientServerName names pctx with
    | .error err => .error err
    | .ok cliSrvName =>
      clientIDFromClientServerName names conf.serverName cliSrvName conf.strictSNICheck

/-- `clientIDFromDNSContext`. -/
def clientIDFromDNSContext (conf : TLSConf) (pctx : ConnContext) : Except ClientIDError Bytes :=
  match pctx.proto with
  | .https =>
    match clientIDFromDNSContextHTTPS names pctx with
    | .error err => .error err
    | .ok clientID => if clientID ≠ [] then .ok clientID else clientIDFromServerName names conf pctx
  | .tls | .quic => clientIDFromServerName names conf pctx
  | _ => .ok []

end

/-- What `strings.ToLower` leaves as it is. -/
def Lower (s : Bytes) : Prop := toLowerASCII s = s

theorem lower_toLowerASCII (s : Bytes) : Lower (toLowerASCII s) := by
  unfold Lower toLowerASCII
  rw [List.map_map]
  apply List.map_congr_left
  intro byte _
  have stable : ∀ byte : BitVec 8,
      (if 65 ≤ (if 65 ≤ byte ∧ byte ≤ 90 then byte + 32 else byte) ∧
          (if 65 ≤ byte ∧ byte ≤ 90 then byte + 32 else byte) ≤ 90 then
        (if 65 ≤ byte ∧ byte ≤ 90 then byte + 32 else byte) + 32
      else (if 65 ≤ byte ∧ byte ≤ 90 then byte + 32 else byte)) =
        if 65 ≤ byte ∧ byte ≤ 90 then byte + 32 else byte := by
    intro byte
    by_cases upper : 65 ≤ byte ∧ byte ≤ 90
    · simp only [if_pos upper]
      refine if_neg ?_
      simp only [BitVec.le_def] at upper ⊢
      simp at upper ⊢
      omega
    · simp only [if_neg upper]
  exact stable byte

variable {names : Names} {pctx : ConnContext} {clientID : Bytes}

theorem lower_normalizedClientID {id : Bytes} (done : normalizedClientID names id = .ok clientID) :
    Lower clientID := by
  unfold normalizedClientID at done
  split at done
  · exact Except.ok.inj done ▸ lower_toLowerASCII id
  · nomatch done

theorem lower_clientIDFromServerName {conf : TLSConf}
    (done : clientIDFromServerName names conf pctx = .ok clientID) : Lower clientID := by
  unfold clientIDFromServerName at done
  split at done
  · exact Except.ok.inj done ▸ rfl
  split at done
  · nomatch done
  unfold clientIDFromClientServerName at done
  split at done
  · exact Except.ok.inj done ▸ rfl
  split at done
  · split at done
    · exact Except.ok.inj done ▸ rfl
    · nomatch done
  · exact lower_normalizedClientID done

theorem lower_clientID {conf : TLSConf}
    (done : clientIDFromDNSContext names conf pctx = .ok clientID) : Lower clientID := by
  unfold clientIDFromDNSContext at done
  split at done
  · split at done
    · nomatch done
    next id extracted =>
      split at done
      · obtain rfl := Except.ok.inj done
        unfold clientIDFromDNSContextHTTPS at extracted
        split at extracted
        · nomatch extracted
        · split at extracted
          · exact Except.ok.inj extracted ▸ rfl
          · exact lower_normalizedClientID extracted
      · exact lower_clientIDFromServerName done
  · exact lower_clientIDFromServerName done
  · exact lower_clientIDFromServerName done
  · exact Except.ok.inj done ▸ rfl

end AdGuardHome.Dnsforward
