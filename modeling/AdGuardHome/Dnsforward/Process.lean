import AdGuardHome.Dnsforward.Server

/-! `process.go` and `requesthandler.go`: the processors of a request, one after the other. -/
namespace AdGuardHome.Dnsforward

open Filtering Net Netip Strings

/-- `resultCode`; an error carries what `dctx.err` is set to. -/
inductive ResultCode where
  | success
  | finish
  | error (err : ServeError)

def canaryFQDN : Bytes := lit "use-application-dns.net."
def healthcheckFQDN : Bytes := lit "healthcheck.adguardhome.test."
def ddrHostFQDN : Bytes := lit "_dns.resolver.arpa."

namespace Server

variable (s : Server)

def canaryAnswer (req : Msg) : Msg :=
  let q := req.question
  if q.qtype = .a ∨ q.qtype = .any then
    { replyCompressed req with
      answer := [.a ⟨q.name, .a, classINET, 60⟩
        (List.replicate 10 0 ++ [0xff, 0xff, 199, 232, 42, 1])] }
  else replyCompressed req

/-- `processInitial`. -/
def processInitial (clientID : Option Bytes) (dctx : DnsContext) : DnsContext × ResultCode :=
  let req := dctx.proxyCtx.req
  let q := req.question
  if s.aaaaDisabled && q.qtype == .aaaa then (dctx.setRes (s.filter.newMsgNODATA req), .finish)
  else if q.name = canaryFQDN then (dctx.setRes (canaryAnswer req), .finish)
  else if q.name = healthcheckFQDN then (dctx.setRes (replyCompressed req), .finish)
  else
    let clientID := clientID.getD dctx.clientID
    let setts := s.settings dctx.proxyCtx.addr clientID
    ({ dctx with
        clientID
        protectionEnabled := s.protectionEnabled
        setts := { setts with protectionEnabled := s.protectionEnabled } }, .success)

/-- `makeDDRResponse`. -/
def makeDDRResponse (req : Msg) : Msg :=
  if req.question.qtype ≠ .svcb then replyCompressed req
  else
    let hdr := s.filter.hdr req .svcb
    let domainName := s.filter.fqdn s.ddr.serverName
    let record := fun value => RR.svcb hdr 1 domainName value
    { replyCompressed req with
      answer :=
        (s.ddr.httpsListenPorts.map fun port => record
          [.alpn [lit "h2"], .port port, .doHPath (lit "/dns-query\x7b?dns\x7d")]) ++
        (if s.ddr.hasIPAddrs then
          s.ddr.tlsListenPorts.map fun port => record [.alpn [lit "dot"], .port port]
        else []) ++
        s.ddr.quicListenPorts.map fun port => record [.alpn [lit "doq"], .port port] }

/-- `processDDRQuery`. -/
def processDDRQuery (dctx : DnsContext) : DnsContext × ResultCode :=
  let req := dctx.proxyCtx.req
  if s.ddr.handleDDR && req.question.name == ddrHostFQDN then
    (dctx.setRes (s.makeDDRResponse req), .finish)
  else (dctx, .success)

/-- `dhcpHostFromRequest`. -/
def dhcpHostFromRequest (q : Question) : Bytes :=
  if !s.dhcpEnabled then []
  else if q.qtype ≠ .a ∧ q.qtype ≠ .aaaa then []
  else
    let reqHost := s.toLower q.name.dropLast
    if s.isSubdomain reqHost s.localDomainSuffix then
      reqHost.take (reqHost.length - s.localDomainSuffix.length - 1)
    else []

/-- `mapDNS64`, for the address of the masked prefix. -/
def mapDNS64 (pref ip : Addr) : IP := (asSlice pref).take 12 ++ asSlice ip

/-- The answer of `processDHCPHosts` for the address of a lease. -/
def dhcpHostAnswer (req : Msg) (ip : Addr) : Msg :=
  if req.question.qtype = .a then
    { replyCompressed req with answer := [.a (s.filter.hdr req .a) (asSlice ip)] }
  else if req.question.qtype = .aaaa then
    match s.dns64Pref with
    | some pref =>
      { replyCompressed req with answer := [.aaaa (s.filter.hdr req .aaaa) (mapDNS64 pref ip)] }
    | none => replyCompressed req
  else replyCompressed req

/-- `processDHCPHosts`. -/
def processDHCPHosts (dctx : DnsContext) : DnsContext × ResultCode :=
  let req := dctx.proxyCtx.req
  let dhcpHost := s.dhcpHostFromRequest req.question
  if dhcpHost = [] then ({ dctx with isDHCPHost := false }, .success)
  else
    let dctx := { dctx with isDHCPHost := true }
    if !dctx.proxyCtx.isPrivateClient then (dctx.setRes (s.filter.newMsgNXDOMAIN req), .finish)
    else if s.ipByHost dhcpHost = .zero then (dctx, .success)
    else (dctx.setRes (s.dhcpHostAnswer req (s.ipByHost dhcpHost)), .success)

/-- `processDHCPAddrs`. -/
def processDHCPAddrs (dctx : DnsContext) : DnsContext × ResultCode :=
  let req := dctx.proxyCtx.req
  if dctx.proxyCtx.res.isSome then (dctx, .success)
  else
    match dctx.proxyCtx.requestedPrivateRDNS with
    | none => (dctx, .success)
    | some addr =>
      let host := s.hostByIP addr
      if req.question.qtype ≠ .ptr ∨ host = [] then (dctx, .success)
      else
        let target := s.filter.fqdn (host ++ lit "." ++ s.localDomainSuffix)
        (dctx.setRes { replyCompressed req with
          answer := [.ptr (s.filter.hdr req .ptr) target] }, .success)

def withoutServices (setts : Settings) : Settings :=
  { setts with
    parentalEnabled := false
    safeBrowsingEnabled := false
    safeSearchEnabled := false
    hasServicesRules := false }

/-- `processFilteringBeforeRequest`. -/
def processFilteringBeforeRequest (dctx : DnsContext) : DnsContext × ResultCode :=
  let dctx := if dctx.proxyCtx.requestedPrivateRDNS.isSome then
    { dctx with setts := withoutServices dctx.setts } else dctx
  if dctx.proxyCtx.res.isSome then (dctx, .success)
  else
    match s.filterDNSRequest dctx with
    | .error err => (dctx, .error err)
    | .ok (dctx, result) => ({ dctx with result }, .success)

/-- `setCustomUpstream`. -/
def setCustomUpstream (pctx : ProxyContext) (clientID : Bytes) : ProxyContext :=
  if !pctx.addr.isValid then pctx
  else
    match s.customUpstreamConfig clientID pctx.addr with
    | none => pctx
    | some conf => { pctx with customUpstreamConfig := some conf }

def fromUpstream (pctx : ProxyContext) : ProxyContext :=
  { pctx with res := pctx.res.map fun res => { res with source := .upstream } }

/-- `processUpstream`. -/
def processUpstream (dctx : DnsContext) : DnsContext × ResultCode :=
  if dctx.proxyCtx.res.isSome then (dctx, .success)
  else if dctx.isDHCPHost then
    (dctx.setRes (s.filter.newMsgNXDOMAIN dctx.proxyCtx.req), .finish)
  else
    let dctx := { dctx with proxyCtx := s.setCustomUpstream dctx.proxyCtx dctx.clientID }
    match s.resolve with
    | none => (dctx, .error .srvClosed)
    | some resolve =>
      match resolve dctx.proxyCtx with
      | .error err => (dctx, .error (.resolving err))
      | .ok proxyCtx =>
        ({ dctx with
            proxyCtx := fromUpstream proxyCtx
            responseFromUpstream := true
            responseAD := proxyCtx.res.any (·.authenticatedData) }, .success)

/-- `filterAfterResponse`. -/
def filterAfterResponse (dctx : DnsContext) : DnsContext × ResultCode :=
  if !dctx.protectionEnabled || !dctx.responseFromUpstream then (dctx, .success)
  else
    match s.filterDNSResponse dctx with
    | .error err => (dctx, .error err)
    | .ok dctx => (dctx, .success)

/-- The end of `processFilteringAfterResponse` for a rewritten name: the original question
comes back, and the answer begins with the rewrite. -/
def restoreQuestion (dctx : DnsContext) : DnsContext :=
  let req := { dctx.proxyCtx.req with question := dctx.origQuestion }
  let dctx := dctx.setReq req
  match dctx.proxyCtx.res with
  | none => dctx
  | some res => dctx.setRes { res with
      question := dctx.origQuestion
      answer := s.filter.genAnswerCNAME req dctx.result.canonName :: res.answer }

/-- `processFilteringAfterResponse`. -/
def processFilteringAfterResponse (dctx : DnsContext) : DnsContext × ResultCode :=
  match dctx.result.reason with
  | .notFilteredAllowList => (dctx, .success)
  | .rewritten | .rewrittenRule | .filteredSafeSearch =>
    if dctx.origQuestion.name = [] then (dctx, .success) else (s.restoreQuestion dctx, .success)
  | _ => s.filterAfterResponse dctx

/-- `ipsetHandler.process`, which adds addresses elsewhere. -/
def processIpset (dctx : DnsContext) : DnsContext × ResultCode := (dctx, .success)

/-- `processQueryLogsAndStats`, which logs and counts the request as it is. -/
def processQueryLogsAndStats (dctx : DnsContext) : DnsContext × ResultCode := (dctx, .success)

/-- `mods`. -/
def mods (clientID : Option Bytes) : List (DnsContext → DnsContext × ResultCode) :=
  [s.processInitial clientID, s.processDDRQuery, s.processDHCPHosts, s.processDHCPAddrs,
    s.processFilteringBeforeRequest, s.processUpstream, s.processFilteringAfterResponse,
    processIpset, processQueryLogsAndStats]

/-- The loop of `ServeDNS`, with the error that it returns. -/
def runMods : List (DnsContext → DnsContext × ResultCode) → DnsContext →
    DnsContext × Option ServeError
  | [], dctx =>
    match dctx.proxyCtx.res with
    | none => (dctx, none)
    | some res => (dctx.setRes { res with compress := true }, none)
  | process :: rest, dctx =>
    match process dctx with
    | (dctx, .success) => runMods rest dctx
    | (dctx, .finish) => (dctx, none)
    | (dctx, .error err) => (dctx, some err)

/-- The context that `ServeDNS` begins with. -/
def newContext (pctx : ProxyContext) : DnsContext where
  proxyCtx := pctx
  setts := ⟨false, false, false, false, false, false⟩
  result := .ofReason .notFilteredNotFound
  origResp := none
  clientID := []
  origQuestion := .zero
  protectionEnabled := false
  responseFromUpstream := false
  responseAD := false
  isDHCPHost := false

/-- `ServeDNS`. -/
def serveDNS (clientID : Option Bytes) (pctx : ProxyContext) : DnsContext × Option ServeError :=
  runMods (s.mods clientID) (newContext pctx)

/-- A server without rules and leases, over names in lower case, whose upstreams answer with
these records. -/
def bare (answer ns extra : List RR) : Server where
  aaaaDisabled := false
  ddr := ⟨true, [], [], [], [], false⟩
  filter := ⟨.default, .zero, .zero, 10, [], [],
    fun name => if name.getLast? = some 46 then name else name ++ lit "."⟩
  dhcpEnabled := false
  localDomainSuffix := lit "lan"
  ipByHost _ := .zero
  hostByIP _ := []
  dns64Pref := none
  game := ⟨false, .all, []⟩
  rebind := rebindConf
  protectionEnabled := true
  settings _ _ := ⟨false, true, true, false, false, false⟩
  checkHost _ _ _ := .ok (.ofReason .notFilteredNotFound)
  checkHostRules _ _ _ := .ok (.ofReason .notFilteredNotFound)
  customUpstreamConfig _ _ := none
  resolve := some fun pctx => .ok { pctx with
    res := some { reply pctx.req rcodeSuccess with answer, ns, extra } }
  toLower := id
  isSubdomain domain top := hasSuffix domain (lit "." ++ top)
  parseAddr _ := none
  ipString ip := ip
  svcbKeyHandlers _ _ := none

def request (name : String) (isPrivateClient : Bool) : ProxyContext where
  addr := .v4 0x0a000002
  req := ⟨⟨lit name, .a, classINET⟩, rcodeSuccess, [], [], [], false, false, .client⟩
  res := none
  isPrivateClient
  requestedPrivateRDNS := none
  customUpstreamConfig := none

end Server

end AdGuardHome.Dnsforward
