import AdGuardHome.Dnsforward.Process

namespace AdGuardHome.Dnsforward

open Filtering Netip Strings

/-- A message that the server makes itself in answer to a request. -/
structure Msg.RepliesTo (req msg : Msg) : Prop where
  question : msg.question = req.question
  source : msg.source = .server

namespace Server

variable (s : Server)

def answersInitially (q : Question) : Bool :=
  (s.aaaaDisabled && q.qtype == .aaaa) || q.name == canaryFQDN || q.name == healthcheckFQDN ||
    (s.ddr.handleDDR && q.name == ddrHostFQDN)

def answersPointer (pctx : ProxyContext) : Bool :=
  match pctx.requestedPrivateRDNS with
  | none => false
  | some addr => pctx.req.question.qtype == .ptr && s.hostByIP addr != []

def reachesFilter (pctx : ProxyContext) : Bool :=
  let q := pctx.req.question
  let dhcpHost := s.dhcpHostFromRequest q
  !s.answersInitially q && !s.answersPointer pctx &&
    (dhcpHost == [] || (pctx.isPrivateClient && s.ipByHost dhcpHost == .zero))

/-- The context that `processInitial` leads to. -/
def initialContext (clientID : Option Bytes) (pctx : ProxyContext) : DnsContext :=
  { newContext pctx with
    clientID := clientID.getD []
    protectionEnabled := s.protectionEnabled
    setts :=
      { s.settings pctx.addr (clientID.getD []) with protectionEnabled := s.protectionEnabled } }

def filterContext (clientID : Option Bytes) (pctx : ProxyContext) : DnsContext :=
  { s.initialContext clientID pctx with
    isDHCPHost := s.dhcpHostFromRequest pctx.req.question != [] }

def checkSettings (dctx : DnsContext) : Settings :=
  if dctx.proxyCtx.requestedPrivateRDNS.isSome then withoutServices dctx.setts else dctx.setts

/-- The processors after `processFilteringBeforeRequest`. -/
def lastMods : List (DnsContext → DnsContext × ResultCode) :=
  [s.processUpstream, s.processFilteringAfterResponse, processIpset, processQueryLogsAndStats]

/-- A request that the server answers itself, without filtering it. -/
structure Answered (req : Msg) (out : DnsContext × Option ServeError) : Prop where
  done : out.2 = none
  kept : out.1.proxyCtx.req = req
  result : out.1.result = .ofReason .notFilteredNotFound
  res : ∃ msg, out.1.proxyCtx.res = some msg ∧ req.RepliesTo msg

section Messages

variable (req : Msg)

@[simp] theorem genBlockedHost_question (newAddr : Bytes) (d : ProxyContext) :
    (s.genBlockedHost req newAddr d).question = req.question := by
  unfold genBlockedHost
  split
  · rfl
  · split
    · rfl
    · dsimp only
      split
      · rfl
      · split
        · rfl
        · split <;> rfl

@[simp] theorem genDNSFilterMessage_question (pctx : ProxyContext) (res : Result) :
    (s.genDNSFilterMessage pctx res).question = pctx.req.question := by
  simp only [genDNSFilterMessage, filterMessage]
  split
  · split <;> rfl
  · split <;> simp

@[simp] theorem genDNSFilterMessage_source (pctx : ProxyContext) (res : Result) :
    (s.genDNSFilterMessage pctx res).source = .filter := rfl

theorem getCNAMEWithIPs_replies (ips : List Addr) (cname : Bytes) :
    req.RepliesTo (s.filter.getCNAMEWithIPs req ips cname) := by
  unfold FilterConf.getCNAMEWithIPs
  split <;> exact ⟨rfl, rfl⟩

theorem filterDNSRewrite_replies {res : Result} {resp : Msg}
    (done : s.filterDNSRewrite req res = .ok resp) : req.RepliesTo resp := by
  simp only [filterDNSRewrite] at done
  split at done
  · nomatch done
  · split at done
    · exact Except.ok.inj done ▸ ⟨rfl, rfl⟩
    · split at done
      · nomatch done
      · split at done
        · nomatch done
        · exact Except.ok.inj done ▸ ⟨rfl, rfl⟩

theorem canaryAnswer_replies : req.RepliesTo (canaryAnswer req) := by
  simp only [canaryAnswer]
  split <;> exact ⟨rfl, rfl⟩

theorem makeDDRResponse_replies : req.RepliesTo (s.makeDDRResponse req) := by
  simp only [makeDDRResponse]
  split <;> exact ⟨rfl, rfl⟩

theorem dhcpHostAnswer_replies (ip : Addr) : req.RepliesTo (s.dhcpHostAnswer req ip) := by
  unfold dhcpHostAnswer
  split
  · exact ⟨rfl, rfl⟩
  · split
    · split <;> exact ⟨rfl, rfl⟩
    · exact ⟨rfl, rfl⟩

end Messages

section Run

variable {process : DnsContext → DnsContext × ResultCode} {dctx dctx' : DnsContext}
  {rest : List (DnsContext → DnsContext × ResultCode)}

theorem runMods_success (done : process dctx = (dctx', .success)) :
    runMods (process :: rest) dctx = runMods rest dctx' := by
  rw [runMods, done]

theorem runMods_finish (done : process dctx = (dctx', .finish)) :
    runMods (process :: rest) dctx = (dctx', none) := by
  rw [runMods, done]

theorem runMods_error {err : ServeError} (done : process dctx = (dctx', .error err)) :
    runMods (process :: rest) dctx = (dctx', some err) := by
  rw [runMods, done]

end Run

variable {s} {dctx : DnsContext} {pctx : ProxyContext} {msg : Msg}

theorem fromUpstream_res (here : msg ∈ (fromUpstream pctx).res) :
    ∃ res ∈ pctx.res, msg = { res with source := .upstream } := by
  obtain ⟨res, there, same⟩ := Option.map_eq_some_iff.mp here
  exact ⟨res, there, same.symm⟩

theorem answered_finish (req : dctx.proxyCtx.req = pctx.req)
    (result : dctx.result = .ofReason .notFilteredNotFound) (replies : pctx.req.RepliesTo msg) :
    Answered pctx.req (dctx.setRes msg, none) :=
  ⟨rfl, req, result, msg, rfl, replies⟩

theorem processFilteringBeforeRequest_eq (s : Server) (dctx : DnsContext) :
    s.processFilteringBeforeRequest dctx =
      if dctx.proxyCtx.res.isSome then ({ dctx with setts := checkSettings dctx }, .success)
      else
        match s.filterDNSRequest { dctx with setts := checkSettings dctx } with
        | .error err => ({ dctx with setts := checkSettings dctx }, .error err)
        | .ok (dctx', result) => ({ dctx' with result }, .success) := by
  have same : (if dctx.proxyCtx.requestedPrivateRDNS.isSome then
      { dctx with setts := withoutServices dctx.setts } else dctx) =
        { dctx with setts := checkSettings dctx } := by
    unfold checkSettings
    split <;> rfl
  exact congrArg (fun dctx : DnsContext =>
    if dctx.proxyCtx.res.isSome then (dctx, ResultCode.success)
    else
      match s.filterDNSRequest dctx with
      | .error err => (dctx, .error err)
      | .ok (dctx, result) => ({ dctx with result }, .success)) same

/-- A response that is set, and not by an upstream, stays to the end. -/
theorem set_lastMods (s : Server) (dctx : DnsContext) (set : dctx.proxyCtx.res = some msg)
    (local_ : dctx.responseFromUpstream = false) (unnamed : dctx.origQuestion.name = []) :
    runMods s.lastMods dctx = (dctx.setRes { msg with compress := true }, none) := by
  have passed : s.processUpstream dctx = (dctx, .success) := by
    simp [processUpstream, set]
  have unfiltered : s.processFilteringAfterResponse dctx = (dctx, .success) := by
    unfold processFilteringAfterResponse
    split <;> simp [unnamed, filterAfterResponse, local_]
  have ipset : processIpset dctx = (dctx, .success) := rfl
  have logged : processQueryLogsAndStats dctx = (dctx, .success) := rfl
  rw [lastMods, runMods_success passed, runMods_success unfiltered, runMods_success ipset,
    runMods_success logged, runMods, set]

/-- A response that is set before filtering goes through the other processors. -/
theorem answered_lastMods (req : dctx.proxyCtx.req = pctx.req)
    (result : dctx.result = .ofReason .notFilteredNotFound)
    (local_ : dctx.responseFromUpstream = false) (unnamed : dctx.origQuestion.name = [])
    (set : dctx.proxyCtx.res = some msg) (replies : pctx.req.RepliesTo msg) :
    Answered pctx.req (runMods (s.processFilteringBeforeRequest :: s.lastMods) dctx) := by
  have passed := s.processFilteringBeforeRequest_eq dctx
  rw [set] at passed
  have last := set_lastMods s { dctx with setts := checkSettings dctx } set local_ unnamed
  rw [runMods_success passed]
  refine last ▸ ?_
  exact ⟨rfl, req, result, _, rfl, replies.question, replies.source⟩

/-- What comes after the lookup of a DHCP client's address. -/
theorem processDHCPAddrs_cases (s : Server) (dctx : DnsContext) (unset : dctx.proxyCtx.res = none) :
    (s.answersPointer dctx.proxyCtx = false ∧ s.processDHCPAddrs dctx = (dctx, .success)) ∨
    (s.answersPointer dctx.proxyCtx = true ∧ dctx.proxyCtx.req.question.qtype = .ptr ∧
      ∃ msg, dctx.proxyCtx.req.RepliesTo msg ∧
        s.processDHCPAddrs dctx = (dctx.setRes msg, .success)) := by
  simp only [answersPointer, processDHCPAddrs, unset, Option.isSome_none, Bool.false_eq_true,
    ↓reduceIte]
  cases dctx.proxyCtx.requestedPrivateRDNS with
  | none => exact Or.inl ⟨rfl, rfl⟩
  | some addr =>
    by_cases other : dctx.proxyCtx.req.question.qtype ≠ .ptr ∨ s.hostByIP addr = []
    · refine Or.inl ⟨?_, if_pos other⟩
      rcases other with type | unnamed
      · simp [type]
      · simp [unnamed]
    · obtain ⟨type, named⟩ := not_or.mp other
      have type := Decidable.not_not.mp type
      refine Or.inr ⟨by simp [type, named], type, _, ?_, if_neg other⟩
      exact ⟨rfl, rfl⟩

theorem answersPointer_of_host (host : s.dhcpHostFromRequest pctx.req.question ≠ []) :
    s.answersPointer pctx = false := by
  have type : pctx.req.question.qtype ≠ .ptr := by
    intro pointer
    refine host ?_
    unfold dhcpHostFromRequest
    rw [pointer]
    split
    · rfl
    · exact if_pos ⟨by decide, by decide⟩
  unfold answersPointer
  split
  · rfl
  · simp [type]

theorem processDHCPHosts_cases (dctx : DnsContext) :
    let q := dctx.proxyCtx.req.question
    let dhcpHost := s.dhcpHostFromRequest q
    ((dhcpHost == [] || (dctx.proxyCtx.isPrivateClient && s.ipByHost dhcpHost == .zero)) = true ∧
      s.processDHCPHosts dctx = ({ dctx with isDHCPHost := dhcpHost != [] }, .success)) ∨
    ((dhcpHost == [] || (dctx.proxyCtx.isPrivateClient && s.ipByHost dhcpHost == .zero)) = false ∧
      ∃ msg, dctx.proxyCtx.req.RepliesTo msg ∧
        (s.processDHCPHosts dctx = ({ dctx with isDHCPHost := true }.setRes msg, .finish) ∨
          s.processDHCPHosts dctx = ({ dctx with isDHCPHost := true }.setRes msg, .success))) := by
  dsimp only
  by_cases host : s.dhcpHostFromRequest dctx.proxyCtx.req.question = []
  · refine Or.inl ⟨by simp [host], ?_⟩
    simp [processDHCPHosts, host]
  cases private_ : dctx.proxyCtx.isPrivateClient with
  | false =>
    refine Or.inr ⟨by simp [host], s.filter.newMsgNXDOMAIN dctx.proxyCtx.req, ?_, Or.inl ?_⟩
    · exact ⟨rfl, rfl⟩
    · simp [processDHCPHosts, host, private_]
  | true =>
    by_cases lease : s.ipByHost (s.dhcpHostFromRequest dctx.proxyCtx.req.question) = .zero
    · refine Or.inl ⟨by simp [lease], ?_⟩
      simp [processDHCPHosts, host, private_, lease]
    · refine Or.inr ⟨by simp [host, lease], s.dhcpHostAnswer dctx.proxyCtx.req
        (s.ipByHost (s.dhcpHostFromRequest dctx.proxyCtx.req.question)),
        s.dhcpHostAnswer_replies _ _, Or.inr ?_⟩
      simp [processDHCPHosts, host, private_, lease]

theorem processInitial_cases (clientID : Option Bytes) (pctx : ProxyContext) :
    let q := pctx.req.question
    (s.answersInitially q = true ∧ ∃ msg, pctx.req.RepliesTo msg ∧
      s.processInitial clientID (newContext pctx) = ((newContext pctx).setRes msg, .finish)) ∨
    (s.answersInitially q = (s.ddr.handleDDR && q.name == ddrHostFQDN) ∧
      s.processInitial clientID (newContext pctx) = (s.initialContext clientID pctx, .success)) := by
  dsimp only [processInitial, newContext, answersInitially]
  by_cases disabled : (s.aaaaDisabled && pctx.req.question.qtype == .aaaa) = true
  · refine Or.inl ⟨by simp only [disabled, Bool.true_or], _, ?_, if_pos disabled⟩
    exact ⟨rfl, rfl⟩
  rw [if_neg disabled]
  have enabled := Bool.eq_false_iff.mpr disabled
  by_cases canary : pctx.req.question.name = canaryFQDN
  · exact Or.inl ⟨by simp [canary], _, canaryAnswer_replies _, if_pos canary⟩
  rw [if_neg canary]
  by_cases healthcheck : pctx.req.question.name = healthcheckFQDN
  · refine Or.inl ⟨by simp [healthcheck], _, ?_, if_pos healthcheck⟩
    exact ⟨rfl, rfl⟩
  rw [if_neg healthcheck]
  exact Or.inr ⟨by simp [enabled, canary, healthcheck], rfl⟩

theorem lookups_cases (clientID : Option Bytes) (fresh : pctx.res = none) :
    let q := pctx.req.question
    let out := runMods (s.processDHCPHosts :: s.processDHCPAddrs ::
      s.processFilteringBeforeRequest :: s.lastMods) (s.initialContext clientID pctx)
    let reaches := !s.answersPointer pctx && (s.dhcpHostFromRequest q == [] ||
      (pctx.isPrivateClient && s.ipByHost (s.dhcpHostFromRequest q) == .zero))
    (reaches = false ∧ Answered pctx.req out) ∨
    (reaches = true ∧ out = runMods (s.processFilteringBeforeRequest :: s.lastMods)
      (s.filterContext clientID pctx)) := by
  dsimp only
  obtain ⟨reaches, passed⟩ | ⟨answered, msg, replies, finished | answers⟩ :=
    processDHCPHosts_cases (s := s) (s.initialContext clientID pctx)
  · rw [runMods_success passed]
    obtain ⟨other, passed⟩ | ⟨pointer, type, msg, replies, answers⟩ :=
      processDHCPAddrs_cases s (s.filterContext clientID pctx) fresh
    · refine Or.inr ⟨?_, runMods_success passed⟩
      rw [Bool.and_eq_true, Bool.not_eq_true']
      exact ⟨other, reaches⟩
    · have pointer : s.answersPointer pctx = true := pointer
      rw [pointer]
      refine Or.inl ⟨rfl, ?_⟩
      exact runMods_success answers ▸ answered_lastMods rfl rfl rfl rfl rfl replies
  · rw [runMods_finish finished]
    refine Or.inl ⟨?_, answered_finish rfl rfl replies⟩
    rw [Bool.and_eq_false_iff]
    exact Or.inr answered
  · rw [runMods_success answers]
    refine Or.inl ⟨?_, ?_⟩
    · rw [Bool.and_eq_false_iff]
      exact Or.inr answered
    · have passed : s.processDHCPAddrs
          ({ s.initialContext clientID pctx with isDHCPHost := true }.setRes msg) =
            (_, .success) := rfl
      rw [runMods_success passed]
      exact answered_lastMods rfl rfl rfl rfl rfl replies

/-- A request that arrives without a response is answered before filtering, or filtered in its
context. -/
theorem serveDNS_cases (clientID : Option Bytes) (fresh : pctx.res = none) :
    (s.reachesFilter pctx = false ∧ Answered pctx.req (s.serveDNS clientID pctx)) ∨
    (s.reachesFilter pctx = true ∧ s.serveDNS clientID pctx =
      runMods (s.processFilteringBeforeRequest :: s.lastMods) (s.filterContext clientID pctx)) := by
  simp only [serveDNS, mods, reachesFilter]
  obtain ⟨initially, msg, replies, finished⟩ | ⟨initially, passed⟩ :=
    processInitial_cases (s := s) clientID pctx
  · rw [runMods_finish finished, initially]
    exact Or.inl ⟨rfl, answered_finish rfl rfl replies⟩
  rw [runMods_success passed, initially]
  cases ddr : s.ddr.handleDDR && pctx.req.question.name == ddrHostFQDN with
  | true =>
    rw [runMods_finish (if_pos ddr)]
    exact Or.inl ⟨rfl, answered_finish rfl rfl (s.makeDDRResponse_replies _)⟩
  | false =>
    rw [runMods_success (if_neg (Bool.eq_false_iff.mp ddr))]
    exact lookups_cases clientID fresh

end Server

end AdGuardHome.Dnsforward
