import AdGuardHome.Dnsforward.Msg
import AdGuardHome.Dnsforward.Rebind
import AdGuardHome.Gamemode

namespace AdGuardHome.Dnsforward

open Strings

def frequencies (s : Bytes) : List Nat := s.dedup.map fun byte => s.count byte

/-- Whether `shannonEntropy` of the string is at least `num / den`, for `n` bytes with the
frequencies `c`: the entropy is the binary logarithm of `n^n / ∏ c^c`, divided by `n`. This is
exact, where the code sums rounded `float64` terms. -/
def entropyAtLeast (s : Bytes) (num den : Nat) : Bool :=
  if s.length = 0 then num = 0
  else 2 ^ (num * s.length) * ((frequencies s).map fun c => c ^ c).prod ^ den ≤
    (s.length ^ s.length) ^ den

def isDigitOrHex (byte : BitVec 8) : Bool :=
  (48 ≤ byte && byte ≤ 57) || (97 ≤ byte && byte ≤ 102) || (65 ≤ byte && byte ≤ 70)

/-- The first two rules of `isDNSTunneling`, on one label. -/
def isTunnelingLabel (label : Bytes) : Bool :=
  (48 ≤ label.length && entropyAtLeast label 36 10) ||
    (32 ≤ label.length && entropyAtLeast label 315 100 &&
      10 * label.countP isDigitOrHex > 8 * label.length)

/-- `isDNSTunneling`. -/
def isDNSTunneling (host : Bytes) : Bool :=
  if contains host (lit "._domainkey.") || contains host (lit "domainkey") ||
      [".in-addr.arpa", ".ip6.arpa", ".akamaiedge.net", ".cloudfront.net", ".akadns.net",
        ".trafficmanager.net"].any fun suffix => hasSuffix host (lit suffix) then
    false
  else
    let labels := split 46 host
    labels.any isTunnelingLabel ||
      (140 ≤ host.length && 4 ≤ labels.length && entropyAtLeast host 40 10)

example : entropyAtLeast (lit "0123456789abcdef") 4 1 = true := by decide

example : entropyAtLeast (lit "0123456789abcdee") 4 1 = false := by decide

open Filtering Net Netip Strings

/-- `proxy.DNSContext`. -/
structure ProxyContext where
  addr : Addr
  req : Msg
  res : Option Msg
  isPrivateClient : Bool
  /-- The address of the prefix, if it is set. -/
  requestedPrivateRDNS : Option Addr
  customUpstreamConfig : Option (List Bytes)

structure DDRConf where
  handleDDR : Bool
  serverName : Bytes
  httpsListenPorts : List (BitVec 16)
  tlsListenPorts : List (BitVec 16)
  quicListenPorts : List (BitVec 16)
  hasIPAddrs : Bool

/-- `Server` under a configuration that stays the same for a request, with the answers that
others give: the DHCP server, the rules, the upstreams and the texts of addresses. An error
is its text. -/
structure Server where
  aaaaDisabled : Bool
  ddr : DDRConf
  filter : FilterConf
  dhcpEnabled : Bool
  localDomainSuffix : Bytes
  ipByHost : Bytes → Addr
  hostByIP : Addr → Bytes
  /-- The address of the masked prefix, if it is set. -/
  dns64Pref : Option Addr
  game : Gamemode.State
  rebind : RebindConfig
  /-- `UpdatedProtectionStatus`. -/
  protectionEnabled : Bool
  /-- `Settings` and `ApplyAdditionalFiltering` for an address and a ClientID. -/
  settings : Addr → Bytes → Settings
  checkHost : Bytes → RRType → Settings → Except Bytes Result
  checkHostRules : Bytes → RRType → Settings → Except Bytes Result
  customUpstreamConfig : Bytes → Addr → Option (List Bytes)
  /-- `Proxy.Resolve`, unless the server is closed. -/
  resolve : Option (ProxyContext → Except Bytes ProxyContext)
  toLower : Bytes → Bytes
  /-- `netutil.IsSubdomain`. -/
  isSubdomain : Bytes → Bytes → Bool
  parseAddr : Bytes → Option Addr
  ipString : IP → Bytes
  /-- The handler for a key, with `none` for what is ignored. -/
  svcbKeyHandlers : Bytes → Bytes → Option SVCBKeyValue

/-- `dnsContext`. -/
structure DnsContext where
  proxyCtx : ProxyContext
  setts : Settings
  result : Result
  origResp : Option Msg
  clientID : Bytes
  origQuestion : Question
  protectionEnabled : Bool
  responseFromUpstream : Bool
  responseAD : Bool
  isDHCPHost : Bool

namespace DnsContext

def setRes (dctx : DnsContext) (res : Msg) : DnsContext :=
  { dctx with proxyCtx := { dctx.proxyCtx with res := some res } }

def setReq (dctx : DnsContext) (req : Msg) : DnsContext :=
  { dctx with proxyCtx := { dctx.proxyCtx with req } }

end DnsContext

inductive RewriteError where
  | noContent
  | noResponses
  /-- The value at this position is not of the type that the record needs. -/
  | response (rrtype : RRType) (index : Nat)
deriving DecidableEq

inductive ServeError where
  | checkingHost (host : Bytes) (err : Bytes)
  | rewriting (err : RewriteError)
  | srvClosed
  | resolving (err : Bytes)
  | filteringAnswer (index : Nat) (err : Bytes)
deriving DecidableEq

namespace Server

variable (s : Server)

section Rewrite

/-- `genAnswerSVCB`: the target, the priority and the parameters that are known. -/
def svcbValues (params : List (Bytes × Bytes)) : List SVCBKeyValue :=
  params.filterMap fun (key, value) => s.svcbKeyHandlers key value

/-- `filterDNSRewriteResponse`, with `none` for a value of another type. -/
def filterDNSRewriteResponse (req : Msg) (rr : RRType) (v : RRValue) : Option RR :=
  let hdr := s.filter.hdr req rr
  if rr = .a then match v with | .addr ip => some (s.filter.genAnswerA req ip) | _ => none
  else if rr = .aaaa then match v with | .addr ip => some (s.filter.genAnswerAAAA req ip) | _ => none
  else if rr = .ptr then match v with | .text str => some (.ptr hdr (s.filter.fqdn str)) | _ => none
  else if rr = .txt then match v with | .text str => some (.txt hdr [str]) | _ => none
  else if rr = .mx then
    match v with
    | .mx exchange preference => some (.mx hdr preference (s.filter.fqdn exchange))
    | _ => none
  else if rr = .https then
    match v with
    | .svcb target priority params =>
      some (.https hdr priority (s.filter.fqdn target) (s.svcbValues params))
    | _ => none
  else if rr = .svcb then
    match v with
    | .svcb target priority params =>
      some (.svcb hdr priority (s.filter.fqdn target) (s.svcbValues params))
    | _ => none
  else if rr = .srv then
    match v with
    | .srv target priority weight port => some (.srv hdr priority weight port (s.filter.fqdn target))
    | _ => none
  else some .nil

/-- The loop of `filterDNSRewrite`. -/
def rewriteAnswers (req : Msg) (rr : RRType) : List RRValue → Nat → Except RewriteError (List RR)
  | [], _ => .ok []
  | v :: rest, i =>
    match s.filterDNSRewriteResponse req rr v with
    | none => .error (.response rr i)
    | some ans =>
      match rewriteAnswers req rr rest (i + 1) with
      | .error err => .error err
      | .ok answers => .ok (ans :: answers)

/-- `filterDNSRewrite`. -/
def filterDNSRewrite (req : Msg) (res : Result) : Except RewriteError Msg :=
  let resp := replyCompressed req
  match res.dnsRewriteResult with
  | none => .error .noContent
  | some dnsrr =>
    let resp := { resp with rcode := dnsrr.rcode }
    if resp.rcode ≠ rcodeSuccess then .ok resp
    else
      match dnsrr.response with
      | none => .error .noResponses
      | some response =>
        let qtype := req.question.qtype
        match s.rewriteAnswers req qtype (response qtype) 0 with
        | .error err => .error err
        | .ok answer => .ok { resp with answer }

end Rewrite

section Filter

/-- `genBlockedHost`. -/
def genBlockedHost (request : Msg) (newAddr : Bytes) (d : ProxyContext) : Msg :=
  if newAddr = [] then newMsgSERVFAIL request
  else
    match s.parseAddr newAddr with
    | some ip => s.filter.genResponseWithIPs request [ip]
    | none =>
      let question := ⟨s.filter.fqdn newAddr, request.question.qtype, classINET⟩
      let replReq := { request with question, answer := [], ns := [], extra := [] }
      match s.resolve with
      | none => newMsgSERVFAIL request
      | some resolve =>
        match resolve ⟨d.addr, replReq, none, false, none, none⟩ with
        | .error _ => newMsgSERVFAIL request
        | .ok newContext =>
          match newContext.res with
          | none => replyCompressed request
          | some res => { replyCompressed request with
              answer := res.answer.map (RR.rename request.question.name) }

/-- The responses that `genDNSFilterMessage` chooses from. -/
def filterMessage (pctx : ProxyContext) (res : Result) : Msg :=
  let req := pctx.req
  let qt := req.question.qtype
  if qt ≠ .a ∧ qt ≠ .aaaa ∧ qt ≠ .https then
    if s.filter.blockingMode = .nullIP then replyCompressed req else s.filter.newMsgNODATA req
  else
    match res.reason with
    | .filteredSafeBrowsing => s.genBlockedHost req s.filter.safeBrowsingBlockHost pctx
    | .filteredParental => s.genBlockedHost req s.filter.parentalBlockHost pctx
    | .filteredSafeSearch => s.filter.getCNAMEWithIPs req (ipsFromRules res.rules) res.canonName
    | _ => s.filter.genForBlockingMode req (ipsFromRules res.rules)

/-- `genDNSFilterMessage`. -/
def genDNSFilterMessage (pctx : ProxyContext) (res : Result) : Msg :=
  { s.filterMessage pctx res with source := .filter }

/-- `isRewrittenCNAME`. -/
def isRewrittenCNAME (res : Result) : Bool :=
  match res.reason with
  | .filteredSafeSearch | .rewritten | .rewrittenRule =>
    res.canonName != [] && res.ipList.length == 0
  | _ => false

/-- The hosts that `filterDNSRequest` does not check. -/
def isSpecial (host : Bytes) : Bool :=
  host == lit "use-application-dns.net" || host == lit "_dns.resolver.arpa"

def hostOf (q : Question) : Bytes := trimSuffix q.name (lit ".")

/-- `filterDNSRequest`. -/
def filterDNSRequest (dctx : DnsContext) : Except ServeError (DnsContext × Result) :=
  let pctx := dctx.proxyCtx
  let req := pctx.req
  let q := req.question
  let host := hostOf q
  if isSpecial host then .ok (dctx, .ofReason .notFilteredNotFound)
  else if s.game.isGameDomain s.toLower host then .ok (dctx, .ofReason .notFilteredAllowList)
  else
    match s.checkHost host q.qtype dctx.setts with
    | .error err => .error (.checkingHost host err)
    | .ok res =>
      if isRewrittenCNAME res then
        let renamed := { req with question := { q with name := s.filter.fqdn res.canonName } }
        .ok ({ dctx with origQuestion := q }.setReq renamed, res)
      else if res.isFiltered then .ok (dctx.setRes (s.genDNSFilterMessage pctx res), res)
      else if dctx.protectionEnabled && isDNSTunneling host then
        let res := { res with isFiltered := true, reason := .filteredBlockList }
        .ok (dctx.setRes (s.genDNSFilterMessage pctx res), res)
      else
        match res.reason with
        | .filteredSafeSearch | .rewritten =>
          .ok (dctx.setRes (s.filter.getCNAMEWithIPs req res.ipList res.canonName), res)
        | .rewrittenAutoHosts | .rewrittenRule =>
          match s.filterDNSRewrite req res with
          | .error err => .error (.rewriting err)
          | .ok resp => .ok (dctx.setRes resp, res)
        | _ => .ok (dctx, res)

/-- `filterSVCBHint`, with `none` if no address is filtered. -/
def filterSVCBHint (setts : Settings) : List IP → Except Bytes (Option Result)
  | [] => .ok none
  | h :: rest =>
    match s.checkHostRules (s.ipString h) .https setts with
    | .error err => .error err
    | .ok res => if res.isFiltered then .ok (some res) else filterSVCBHint setts rest

def hintIPs : SVCBKeyValue → List IP
  | .ipv4Hint hint | .ipv6Hint hint => hint
  | _ => []

/-- `removeIPv6Hints`, if IPv6 is disabled. -/
def stripIPv6Hints (value : List SVCBKeyValue) : List SVCBKeyValue :=
  if s.aaaaDisabled then value.filter fun kv => match kv with | .ipv6Hint _ => false | _ => true
  else value

/-- The loop of `filterHTTPSRecords`. -/
def filterHTTPSRecords (setts : Settings) : List SVCBKeyValue → Except Bytes (Option Result)
  | [] => .ok none
  | kv :: rest =>
    match s.filterSVCBHint setts (hintIPs kv) with
    | .error err => .error err
    | .ok (some r) => .ok (some r)
    | .ok none => filterHTTPSRecords setts rest

/-- `CheckDNSRebinding`, whose statistics are left out. -/
def checkDNSRebinding (qName : Bytes) (ip : IP) : Bool := s.rebind.attacked s.toLower qName ip

/-- The check of an address: against rebinding, then by the rules. -/
def checkAddress (setts : Settings) (qName : Bytes) (ip : IP) (rrtype : RRType) :
    Except Bytes (Option Result) :=
  if s.checkDNSRebinding qName ip then
    .ok (some { Result.ofReason .filteredBlockList with isFiltered := true })
  else
    match s.checkHostRules (s.ipString ip) rrtype setts with
    | .error err => .error err
    | .ok res => .ok (some res)

/-- The check of a record in the loop of `filterDNSResponse`. -/
def checkRecord (setts : Settings) (qName : Bytes) : RR → Except Bytes (Option Result)
  | .cname _ target =>
    match s.checkHostRules (trimSuffix target (lit ".")) .cname setts with
    | .error err => .error err
    | .ok res => .ok (some res)
  | .a _ ip => s.checkAddress setts qName ip .a
  | .aaaa _ ip => s.checkAddress setts qName ip .aaaa
  | .https _ _ _ value => s.filterHTTPSRecords setts (s.stripIPv6Hints value)
  | _ => .ok none

def stripRecord : RR → RR
  | .https hdr priority target value => .https hdr priority target (s.stripIPv6Hints value)
  | rr => rr

/-- The loop of `filterDNSResponse`: the records as they are left, and the result that ends
it. -/
def filterAnswers (setts : Settings) (qName : Bytes) :
    List RR → Nat → Except ServeError (List RR × Option Result)
  | [], _ => .ok ([], none)
  | rr :: rest, i =>
    match s.checkRecord setts qName rr with
    | .error err => .error (.filteringAnswer i err)
    | .ok (some res) =>
      if res.isFiltered then .ok (s.stripRecord rr :: rest, some res)
      else
        match filterAnswers setts qName rest (i + 1) with
        | .error err => .error err
        | .ok (answers, found) => .ok (s.stripRecord rr :: answers, found)
    | .ok none =>
      match filterAnswers setts qName rest (i + 1) with
      | .error err => .error err
      | .ok (answers, found) => .ok (s.stripRecord rr :: answers, found)

/-- `filterDNSResponse`. -/
def filterDNSResponse (dctx : DnsContext) : Except ServeError DnsContext :=
  if !dctx.setts.filteringEnabled then .ok dctx
  else
    match dctx.proxyCtx.res with
    | none => .ok dctx
    | some resp =>
      match s.filterAnswers dctx.setts (hostOf dctx.proxyCtx.req.question) resp.answer 0 with
      | .error err => .error err
      | .ok (answer, none) => .ok (dctx.setRes { resp with answer })
      | .ok (answer, some res) =>
        .ok { dctx.setRes (s.genDNSFilterMessage dctx.proxyCtx res) with
          result := res
          origResp := some { resp with answer } }

end Filter

end Server

end AdGuardHome.Dnsforward
