import AdGuardHome.Dnsforward.ResponseFilter

namespace AdGuardHome.Dnsforward

open Filtering Strings

/-- The reasons that an allow rule or a rewrite of the user gives. -/
def IsUserDecision (reason : Reason) : Prop :=
  reason = .notFilteredAllowList ∨ reason = .rewritten ∨ reason = .rewrittenRule ∨
    reason = .rewrittenAutoHosts

/-- A query that is not answered with a blocked response, and not logged as blocked. -/
structure NotBlocked (dctx : DnsContext) : Prop where
  res : ∀ m ∈ dctx.proxyCtx.res, m.source ≠ .filter
  reason : dctx.result.reason ≠ .filteredBlockList

def Allowed (dctx : DnsContext) : Prop :=
  dctx.result.reason = .notFilteredAllowList ∧ dctx.result.isFiltered = false

theorem NotBlocked.setRes {dctx : DnsContext} {m : Msg}
    (plain : m.source ≠ .filter)
    (reason : dctx.result.reason ≠ .filteredBlockList) : NotBlocked (dctx.setRes m) := by
  refine ⟨?_, reason⟩
  intro m' here
  exact Option.some.inj here ▸ plain

namespace Server

section

variable (s : Server)

/-- The detector of tunneling decides about a host: nothing before it does. -/
def TunnelingDecides (protectionEnabled : Bool) (host : Bytes) (res : Result) : Prop :=
  isSpecial host = false ∧ s.game.isGameDomain s.toLower host = false ∧
    isRewrittenCNAME res = false ∧ protectionEnabled = true ∧ isDNSTunneling host = true

/-- An upstream answers the request with a record that is blocked. -/
def UpstreamBlocked (dctx : DnsContext) : Prop :=
  dctx.isDHCPHost = false ∧ dctx.protectionEnabled = true ∧ dctx.setts.filteringEnabled = true ∧
    ∃ resolve ∈ s.resolve, ∃ pctx,
      resolve (s.setCustomUpstream dctx.proxyCtx dctx.clientID) = .ok pctx ∧
        ∃ m ∈ pctx.res, ∃ res, s.BlocksAnswer dctx.setts (hostOf pctx.req.question) m.answer res

end

variable {s : Server} {dctx : DnsContext}

def answeredContext (dctx : DnsContext) (pctx : ProxyContext) : DnsContext :=
  { dctx with
    proxyCtx := fromUpstream pctx
    responseFromUpstream := true
    responseAD := pctx.res.any (·.authenticatedData) }

/-- What `processUpstream` makes of a request without a response. -/
theorem processUpstream_cases (s : Server) (dctx : DnsContext) (unset : dctx.proxyCtx.res = none) :
    (dctx.isDHCPHost = true ∧ s.processUpstream dctx =
      (dctx.setRes (s.filter.newMsgNXDOMAIN dctx.proxyCtx.req), .finish)) ∨
    (dctx.isDHCPHost = false ∧ (∀ resolve ∈ s.resolve, ∀ pctx,
        resolve (s.setCustomUpstream dctx.proxyCtx dctx.clientID) ≠ .ok pctx) ∧
      ∃ err, s.processUpstream dctx = ({ dctx with
        proxyCtx := s.setCustomUpstream dctx.proxyCtx dctx.clientID }, .error err)) ∨
    (dctx.isDHCPHost = false ∧ ∃ resolve ∈ s.resolve, ∃ pctx,
      resolve (s.setCustomUpstream dctx.proxyCtx dctx.clientID) = .ok pctx ∧
        s.processUpstream dctx = (answeredContext dctx pctx, .success)) := by
  simp only [processUpstream, unset, Option.isSome_none, Bool.false_eq_true, ↓reduceIte]
  cases host : dctx.isDHCPHost with
  | true => exact Or.inl ⟨rfl, rfl⟩
  | false =>
    cases s.resolve with
    | none => exact Or.inr (Or.inl ⟨rfl, fun _ here => (by cases here), _, rfl⟩)
    | some resolve =>
      simp only [Bool.false_eq_true, ↓reduceIte]
      cases done : resolve (s.setCustomUpstream dctx.proxyCtx dctx.clientID) with
      | error err =>
        refine Or.inr (Or.inl ⟨trivial, ?_, .resolving err, rfl⟩)
        intro other here pctx answered
        obtain rfl := Option.some.inj here
        cases done.symm.trans answered
      | ok pctx =>
        refine Or.inr (Or.inr ⟨trivial, resolve, rfl, pctx, done, ?_⟩)
        simp only [answeredContext, host]

/-- The last processors do not look at a response. -/
theorem runMods_logging (dctx : DnsContext) :
    (runMods [processIpset, processQueryLogsAndStats] dctx).2 = none ∧
      (runMods [processIpset, processQueryLogsAndStats] dctx).1.result = dctx.result ∧
        ∀ m ∈ (runMods [processIpset, processQueryLogsAndStats] dctx).1.proxyCtx.res,
          ∃ res ∈ dctx.proxyCtx.res, m = { res with compress := true } := by
  simp only [runMods, processIpset, processQueryLogsAndStats]
  split
  next none =>
    refine ⟨rfl, rfl, ?_⟩
    intro m here
    rw [none] at here
    cases here
  next res set =>
    refine ⟨rfl, rfl, ?_⟩
    intro m here
    exact ⟨res, set, (Option.some.inj here).symm⟩

theorem setCustomUpstream_res (s : Server) (pctx : ProxyContext) (clientID : Bytes) :
    (s.setCustomUpstream pctx clientID).res = pctx.res := by
  unfold setCustomUpstream
  split
  · rfl
  · split <;> rfl

theorem restoreQuestion_result (s : Server) (dctx : DnsContext) :
    (s.restoreQuestion dctx).result = dctx.result := by
  unfold restoreQuestion
  dsimp only
  split <;> rfl

/-- The response to an allowed or rewritten query is not checked. -/
theorem afterResponse_unchecked (s : Server) (dctx : DnsContext)
    (decided : dctx.result.reason = .notFilteredAllowList ∨ dctx.result.reason = .rewritten ∨
      dctx.result.reason = .rewrittenRule ∨ dctx.result.reason = .filteredSafeSearch) :
    ∃ dctx', s.processFilteringAfterResponse dctx = (dctx', .success) ∧
      dctx'.result = dctx.result ∧
        ∀ m ∈ dctx'.proxyCtx.res, ∃ res ∈ dctx.proxyCtx.res, m.source = res.source := by
  have same : ∀ m ∈ dctx.proxyCtx.res, ∃ res ∈ dctx.proxyCtx.res, m.source = res.source :=
    fun m here => ⟨m, here, rfl⟩
  have restored : ∀ m ∈ (s.restoreQuestion dctx).proxyCtx.res,
      ∃ res ∈ dctx.proxyCtx.res, m.source = res.source := by
    intro m here
    unfold restoreQuestion at here
    dsimp only at here
    split at here
    next none =>
      rw [none] at here
      cases here
    next res set =>
      obtain rfl := Option.some.inj here
      exact ⟨res, set, rfl⟩
  have result := restoreQuestion_result s dctx
  have rewritten : ∃ dctx', (if dctx.origQuestion.name = [] then (dctx, ResultCode.success)
      else (s.restoreQuestion dctx, .success)) = (dctx', .success) ∧ dctx'.result = dctx.result ∧
        ∀ m ∈ dctx'.proxyCtx.res, ∃ res ∈ dctx.proxyCtx.res, m.source = res.source := by
    split
    · exact ⟨_, rfl, rfl, same⟩
    · exact ⟨_, rfl, result, restored⟩
  unfold processFilteringAfterResponse
  rcases decided with reason | reason | reason | reason
  · rw [reason]
    exact ⟨_, rfl, rfl, same⟩
  · rw [reason]
    exact rewritten
  · rw [reason]
    exact rewritten
  · rw [reason]
    exact rewritten

/-- An allowed or rewritten query is not blocked later. -/
theorem unchecked_lastMods (s : Server) (dctx : DnsContext) (unset : dctx.proxyCtx.res = none)
    (decided : dctx.result.reason = .notFilteredAllowList ∨ dctx.result.reason = .rewritten ∨
      dctx.result.reason = .rewrittenRule ∨ dctx.result.reason = .filteredSafeSearch) :
    (runMods s.lastMods dctx).1.result = dctx.result ∧
      ∀ m ∈ (runMods s.lastMods dctx).1.proxyCtx.res, m.source ≠ .filter := by
  rw [lastMods]
  obtain ⟨host, done⟩ | ⟨host, closed, err, done⟩ | ⟨host, resolve, open_, pctx, answered, done⟩ :=
    processUpstream_cases s dctx unset
  · rw [runMods_finish done]
    refine ⟨rfl, ?_⟩
    intro m here
    obtain rfl := Option.some.inj here
    rintro ⟨⟩
  · rw [runMods_error done]
    refine ⟨rfl, ?_⟩
    intro m here
    have here : m ∈ (s.setCustomUpstream dctx.proxyCtx dctx.clientID).res := here
    rw [setCustomUpstream_res, unset] at here
    cases here
  · rw [runMods_success done]
    obtain ⟨dctx', after, result, sources⟩ := afterResponse_unchecked s
      (answeredContext dctx pctx) decided
    rw [runMods_success after]
    obtain ⟨_, logged, messages⟩ := runMods_logging dctx'
    refine ⟨logged.trans result, ?_⟩
    intro m here
    obtain ⟨m', there, rfl⟩ := messages m here
    obtain ⟨res, from_, source⟩ := sources m' there
    obtain ⟨_, _, rfl⟩ := fromUpstream_res from_
    show m'.source ≠ .filter
    rw [source]
    rintro ⟨⟩

theorem filterAfterResponse_off (s : Server) (dctx : DnsContext)
    (off : dctx.protectionEnabled = false ∨ dctx.setts.filteringEnabled = false ∨
      dctx.proxyCtx.res = none) : s.filterAfterResponse dctx = (dctx, .success) := by
  unfold filterAfterResponse filterDNSResponse
  rcases off with off | off | off
  · simp [off]
  · rw [off]
    split <;> rfl
  · rw [off]
    split
    · rfl
    · split
      next failed =>
        split at failed <;> cases failed
      next same =>
        split at same <;> exact Except.ok.inj same ▸ rfl

/-- The run after messages of upstreams only. -/
theorem notBlocked_of_upstream {dctx : DnsContext}
    (plain : dctx.result.reason ≠ .filteredBlockList)
    (sources : ∀ m ∈ dctx.proxyCtx.res, m.source = .upstream) :
    NotBlocked (runMods [processIpset, processQueryLogsAndStats] dctx).1 := by
  obtain ⟨_, logged, messages⟩ := runMods_logging dctx
  refine ⟨?_, ?_⟩
  · intro m here
    obtain ⟨res, there, rfl⟩ := messages m here
    show res.source ≠ .filter
    rw [sources res there]
    rintro ⟨⟩
  · rwa [logged]

/-- The one answer of the upstreams decides whether they block. -/
theorem upstreamBlocked_iff {s : Server} {dctx : DnsContext} (host : dctx.isDHCPHost = false)
    {resolve : ProxyContext → Except Bytes ProxyContext} (open_ : resolve ∈ s.resolve)
    {pctx : ProxyContext}
    (answered : resolve (s.setCustomUpstream dctx.proxyCtx dctx.clientID) = .ok pctx) :
    s.UpstreamBlocked dctx ↔ dctx.protectionEnabled = true ∧ dctx.setts.filteringEnabled = true ∧
      ∃ m ∈ pctx.res, ∃ res,
        s.BlocksAnswer dctx.setts (hostOf pctx.req.question) m.answer res := by
  constructor
  · rintro ⟨_, on, filtering, resolve', here, pctx', done, found⟩
    obtain rfl := Option.some.inj (Option.mem_def.mp here ▸ open_)
    obtain rfl := Except.ok.inj (done.symm.trans answered)
    exact ⟨on, filtering, found⟩
  · rintro ⟨on, filtering, found⟩
    exact ⟨host, on, filtering, resolve, open_, pctx, answered, found⟩

/-- The run after an upstream has answered a query that no rule has been asked about. -/
theorem notFound_afterResponse (s : Server) (dctx : DnsContext) (host : dctx.isDHCPHost = false)
    (plain : dctx.result.reason ≠ .filteredBlockList)
    (result : dctx.result = .ofReason .notFilteredNotFound)
    (resolve : ProxyContext → Except Bytes ProxyContext) (open_ : resolve ∈ s.resolve)
    (pctx : ProxyContext)
    (answered : resolve (s.setCustomUpstream dctx.proxyCtx dctx.clientID) = .ok pctx) :
    NotBlocked (runMods [s.processFilteringAfterResponse, processIpset, processQueryLogsAndStats]
        (answeredContext dctx pctx)).1 ↔ ¬ s.UpstreamBlocked dctx := by
  have reason : s.processFilteringAfterResponse (answeredContext dctx pctx) =
      s.filterAfterResponse (answeredContext dctx pctx) := by
    have same : (answeredContext dctx pctx).result = dctx.result := rfl
    unfold processFilteringAfterResponse
    rw [same, result]
    rfl
  have sources : ∀ m ∈ (fromUpstream pctx).res, m.source = .upstream := by
    intro m here
    obtain ⟨_, _, rfl⟩ := fromUpstream_res here
    rfl
  rw [upstreamBlocked_iff host open_ answered]
  by_cases off : dctx.protectionEnabled = false ∨ dctx.setts.filteringEnabled = false ∨
      pctx.res = none
  · have off' : dctx.protectionEnabled = false ∨ dctx.setts.filteringEnabled = false ∨
        (fromUpstream pctx).res = none := by
      refine off.imp_right (Or.imp_right fun none => ?_)
      rw [fromUpstream, none]
      rfl
    rw [runMods_success (reason.trans (filterAfterResponse_off s _ off'))]
    refine iff_of_true (notBlocked_of_upstream plain sources) ?_
    rintro ⟨on, filtering, m, here, _⟩
    rcases off with off | off | off
    · exact Bool.false_ne_true (off.symm.trans on)
    · exact Bool.false_ne_true (off.symm.trans filtering)
    · rw [off] at here
      cases here
  · simp only [not_or, Bool.not_eq_false] at off
    obtain ⟨on, filtering, answers⟩ := off
    obtain ⟨m, set⟩ := Option.ne_none_iff_exists'.mp answers
    have here : (fromUpstream pctx).res = some { m with source := .upstream } := by
      rw [fromUpstream, set]
      rfl
    obtain ⟨all, done⟩ | ⟨res, answer, blocks, done⟩ | ⟨err, stuck, unblocked, done⟩ :=
      filterAfterResponse_cases s (answeredContext dctx pctx) on rfl filtering here
    · rw [runMods_success (reason.trans done)]
      refine iff_of_true (notBlocked_of_upstream plain ?_) ?_
      · intro m' there
        exact Option.some.inj there ▸ rfl
      · rintro ⟨_, _, m', there, res, blocks⟩
        obtain rfl := Option.some.inj (set.symm.trans there)
        obtain ⟨rr, member, stuck⟩ := blocks.not_all_pass
        exact stuck (all rr member)
    · rw [runMods_success (reason.trans done)]
      refine iff_of_false ?_ (not_not_intro ⟨on, filtering, m, set, res, blocks⟩)
      intro notBlocked
      exact notBlocked.res _ rfl rfl
    · rw [runMods_error (reason.trans done)]
      refine iff_of_true ⟨?_, plain⟩ ?_
      · intro m' there
        rw [sources m' there]
        rintro ⟨⟩
      · rintro ⟨_, _, m', there, res, blocks⟩
        obtain rfl := Option.some.inj (set.symm.trans there)
        exact unblocked res blocks

theorem notFound_lastMods (s : Server) (dctx : DnsContext) (unset : dctx.proxyCtx.res = none)
    (result : dctx.result = .ofReason .notFilteredNotFound) :
    NotBlocked (runMods s.lastMods dctx).1 ↔ ¬ s.UpstreamBlocked dctx := by
  have plain : dctx.result.reason ≠ .filteredBlockList := by
    rw [result]
    rintro ⟨⟩
  rw [lastMods]
  obtain ⟨host, done⟩ | ⟨host, closed, err, done⟩ | ⟨host, resolve, open_, pctx, answered, done⟩ :=
    processUpstream_cases s dctx unset
  · rw [runMods_finish done]
    refine iff_of_true (.setRes (by rintro ⟨⟩) plain) ?_
    intro blocked
    exact Bool.false_ne_true (blocked.1.symm.trans host)
  · rw [runMods_error done]
    refine iff_of_true ⟨?_, plain⟩ ?_
    · intro m here
      have here : m ∈ (s.setCustomUpstream dctx.proxyCtx dctx.clientID).res := here
      rw [setCustomUpstream_res, unset] at here
      cases here
    · rintro ⟨_, _, _, resolve, here, pctx, done, _⟩
      exact closed resolve here pctx done
  · rw [runMods_success done]
    exact notFound_afterResponse s dctx host plain result resolve open_ pctx answered

def ResultKept (dctx dctx' : DnsContext) : Prop :=
  dctx'.result = dctx.result ∨ dctx'.result.isFiltered = true

theorem runMods_result {mods : List (DnsContext → DnsContext × ResultCode)}
    (keeps : ∀ process ∈ mods, ∀ dctx, ResultKept dctx (process dctx).1) (dctx : DnsContext) :
    ResultKept dctx (runMods mods dctx).1 := by
  induction mods generalizing dctx with
  | nil =>
    rw [runMods]
    split <;> exact Or.inl rfl
  | cons process rest ih =>
    have first := keeps process List.mem_cons_self dctx
    have later := fun dctx => ih (fun process member =>
      keeps process (List.mem_cons_of_mem _ member)) dctx
    rw [runMods]
    generalize process dctx = after at first
    obtain ⟨dctx', code⟩ := after
    cases code with
    | success =>
      rcases later dctx' with same | filtered
      · exact first.imp same.trans (same ▸ ·)
      · exact Or.inr filtered
    | finish => exact first
    | error err => exact first

theorem filterDNSResponse_result {s : Server} {dctx dctx' : DnsContext}
    (done : s.filterDNSResponse dctx = .ok dctx') : ResultKept dctx dctx' := by
  unfold filterDNSResponse at done
  split at done
  · exact Or.inl (Except.ok.inj done ▸ rfl)
  split at done
  · exact Or.inl (Except.ok.inj done ▸ rfl)
  next resp here =>
    obtain ⟨_, scanned⟩ | ⟨answers, res, blocks, scanned⟩ | ⟨err, _, _, scanned⟩ :=
      filterAnswers_cases s dctx.setts (hostOf dctx.proxyCtx.req.question) resp.answer 0
    · rw [scanned] at done
      exact Or.inl (Except.ok.inj done ▸ rfl)
    · rw [scanned] at done
      obtain ⟨_, _, _, _, _, blocks⟩ := blocks
      exact Or.inr (Except.ok.inj done ▸ blocks.2)
    · rw [scanned] at done
      cases done

theorem filterAfterResponse_result (s : Server) (dctx : DnsContext) :
    ResultKept dctx (s.filterAfterResponse dctx).1 := by
  unfold filterAfterResponse
  split
  · exact Or.inl rfl
  split
  · exact Or.inl rfl
  next done => exact filterDNSResponse_result done

theorem lastMods_result (s : Server) (dctx : DnsContext) :
    ResultKept dctx (runMods s.lastMods dctx).1 := by
  apply runMods_result
  intro process member dctx
  simp only [lastMods, List.mem_cons, List.not_mem_nil, or_false] at member
  rcases member with rfl | rfl | rfl | rfl
  · refine Or.inl ?_
    unfold processUpstream
    split
    · rfl
    split
    · rfl
    dsimp only
    split
    · rfl
    · split <;> rfl
  · unfold processFilteringAfterResponse
    split
    · exact Or.inl rfl
    · split
      · exact Or.inl rfl
      · exact Or.inl (restoreQuestion_result s dctx)
    · split
      · exact Or.inl rfl
      · exact Or.inl (restoreQuestion_result s dctx)
    · split
      · exact Or.inl rfl
      · exact Or.inl (restoreQuestion_result s dctx)
    · exact filterAfterResponse_result s dctx
  · exact Or.inl rfl
  · exact Or.inl rfl

/-- The result of filtering a request, and the run of the other processors. -/
def filterRun (s : Server) (dctx : DnsContext) : DnsContext × Option ServeError :=
  match s.filterDNSRequest dctx with
  | .error err => (dctx, some err)
  | .ok (dctx', result) => runMods s.lastMods { dctx' with result }

section Filtering

variable {res : Result} (unset : dctx.proxyCtx.res = none)
  (local_ : dctx.responseFromUpstream = false) (unnamed : dctx.origQuestion.name = [])
  (result : dctx.result = .ofReason .notFilteredNotFound)
  (checked : s.checkHost (hostOf dctx.proxyCtx.req.question) dctx.proxyCtx.req.question.qtype
    dctx.setts = .ok res)

include unset local_ unnamed result checked

/-- A decision of the user stands, unless the host is special or tunneling decides. -/
theorem filterRun_decided (decision : IsUserDecision res.reason) (passes : res.isFiltered = false)
    (other : ¬ s.TunnelingDecides dctx.protectionEnabled
      (hostOf dctx.proxyCtx.req.question) res) :
    NotBlocked (s.filterRun dctx).1 ↔
      ¬ (isSpecial (hostOf dctx.proxyCtx.req.question) = true ∧ s.UpstreamBlocked dctx) := by
  have plain : res.reason ≠ .filteredBlockList := by
    rcases decision with reason | reason | reason | reason <;> (rw [reason]; rintro ⟨⟩)
  have stands : ∀ d, d.result = res → d.proxyCtx.res = none →
      (res.reason = .notFilteredAllowList ∨ isRewrittenCNAME res = true) →
        NotBlocked (runMods s.lastMods d).1 := by
    intro d same none kind
    have unchecked : d.result.reason = .notFilteredAllowList ∨ d.result.reason = .rewritten ∨
        d.result.reason = .rewrittenRule ∨ d.result.reason = .filteredSafeSearch := by
      rw [same]
      refine kind.imp_right fun renames => ?_
      unfold isRewrittenCNAME at renames
      cases reason : res.reason <;> simp_all
    obtain ⟨result, messages⟩ := unchecked_lastMods s d none unchecked
    exact ⟨messages, by rw [result, same]; exact plain⟩
  have answered : ∀ msg : Msg, msg.source = .server →
      NotBlocked (runMods s.lastMods { dctx.setRes msg with result := res }).1 := by
    intro msg source
    have last := set_lastMods s { dctx.setRes msg with result := res } rfl local_ unnamed
    rw [last]
    refine NotBlocked.setRes ?_ plain
    show msg.source ≠ .filter
    rw [source]
    rintro ⟨⟩
  simp only [filterRun, filterDNSRequest]
  cases special : isSpecial (hostOf dctx.proxyCtx.req.question) with
  | true =>
    simp only [↓reduceIte, true_and]
    exact notFound_lastMods s _ unset rfl
  | false =>
    simp only [Bool.false_eq_true, ↓reduceIte, false_and, not_false_eq_true, iff_true]
    cases game : s.game.isGameDomain s.toLower (hostOf dctx.proxyCtx.req.question) with
    | true =>
      obtain ⟨result, messages⟩ := unchecked_lastMods s
        { dctx with result := .ofReason .notFilteredAllowList } unset (Or.inl rfl)
      exact ⟨messages, by rw [if_pos rfl, result]; rintro ⟨⟩⟩
    | false =>
      simp only [Bool.false_eq_true, ↓reduceIte, checked, passes]
      cases renamed : isRewrittenCNAME res with
      | true => exact stands _ rfl unset (Or.inr renamed)
      | false =>
        have quiet : (dctx.protectionEnabled &&
            isDNSTunneling (hostOf dctx.proxyCtx.req.question)) = false := by
          refine Bool.eq_false_iff.mpr fun signs => other ?_
          obtain ⟨on, signs⟩ := Bool.and_eq_true_iff.mp signs
          exact ⟨special, game, renamed, on, signs⟩
        have failed : NotBlocked dctx := by
          refine ⟨?_, ?_⟩
          · intro m here
            rw [unset] at here
            cases here
          · rw [result]
            rintro ⟨⟩
        simp only [Bool.false_eq_true, ↓reduceIte, quiet]
        rcases decision with reason | reason | reason | reason
        · rw [reason]
          exact stands _ rfl unset (Or.inl reason)
        · rw [reason]
          exact answered _ (s.getCNAMEWithIPs_replies _ _ _).source
        · rw [reason]
          cases done : s.filterDNSRewrite dctx.proxyCtx.req res with
          | error err => exact failed
          | ok resp => exact answered resp (s.filterDNSRewrite_replies _ done).source
        · rw [reason]
          cases done : s.filterDNSRewrite dctx.proxyCtx.req res with
          | error err => exact failed
          | ok resp => exact answered resp (s.filterDNSRewrite_replies _ done).source

omit local_ unnamed result in
/-- A filtered result becomes an allowing one for game domains only. -/
theorem filterRun_filtered (filtered : res.isFiltered = true) :
    Allowed (s.filterRun dctx).1 ↔
      isSpecial (hostOf dctx.proxyCtx.req.question) = false ∧
        s.game.isGameDomain s.toLower (hostOf dctx.proxyCtx.req.question) = true := by
  have blocked : ∀ d : DnsContext, d.result.isFiltered = true →
      ¬ Allowed (runMods s.lastMods d).1 := by
    intro d filtered allowed
    rcases lastMods_result s d with same | filtered'
    · exact Bool.false_ne_true (allowed.2.symm.trans (same ▸ filtered))
    · exact Bool.false_ne_true (allowed.2.symm.trans filtered')
  simp only [filterRun, filterDNSRequest]
  cases special : isSpecial (hostOf dctx.proxyCtx.req.question) with
  | true =>
    refine iff_of_false ?_ (fun both => Bool.false_ne_true both.1.symm)
    intro allowed
    rcases lastMods_result s { dctx with result := .ofReason .notFilteredNotFound } with
      same | filtered'
    · have allowed := allowed.1
      rw [if_pos rfl, same] at allowed
      cases allowed
    · exact Bool.false_ne_true (allowed.2.symm.trans filtered')
  | false =>
    cases game : s.game.isGameDomain s.toLower (hostOf dctx.proxyCtx.req.question) with
    | true =>
      obtain ⟨result, _⟩ := unchecked_lastMods s
        { dctx with result := .ofReason .notFilteredAllowList } unset (Or.inl rfl)
      simp only [Bool.false_eq_true, ↓reduceIte, and_self, iff_true, Allowed]
      rw [result]
      exact ⟨rfl, rfl⟩
    | false =>
      simp only [Bool.false_eq_true, ↓reduceIte, checked, filtered, and_false, iff_false]
      cases renamed : isRewrittenCNAME res with
      | true => exact blocked _ filtered
      | false => exact blocked _ filtered

end Filtering

/-- A decision of the user stands against the checks of the response, but for special hosts; a
filtered result is turned into an allowing one for game domains, and only for them. -/
theorem decisions_stand (s : Server) (clientID : Option Bytes) (pctx : ProxyContext)
    (fresh : pctx.res = none) (res : Result)
    (checked : s.checkHost (hostOf pctx.req.question) pctx.req.question.qtype
      (checkSettings (s.filterContext clientID pctx)) = .ok res) :
    let host := hostOf pctx.req.question
    let out := s.serveDNS clientID pctx
    let context := { s.filterContext clientID pctx with
      setts := checkSettings (s.filterContext clientID pctx) }
    (IsUserDecision res.reason → res.isFiltered = false →
      ¬ s.TunnelingDecides s.protectionEnabled host res →
        (NotBlocked out.1 ↔ ¬ (s.reachesFilter pctx = true ∧ isSpecial host = true ∧
          s.UpstreamBlocked context))) ∧
    (res.isFiltered = true →
      (Allowed out.1 ↔ s.reachesFilter pctx = true ∧ isSpecial host = false ∧
        s.game.isGameDomain s.toLower host = true)) := by
  intro host out context
  obtain ⟨unreached, answered⟩ | ⟨reached, filtered⟩ := serveDNS_cases (s := s) clientID fresh
  · obtain ⟨msg, set, replies⟩ := answered.res
    simp only [unreached, Bool.false_eq_true, false_and, not_false_eq_true, iff_true, iff_false]
    constructor
    · intro _ _ _
      refine ⟨?_, ?_⟩
      · intro m here
        obtain rfl := Option.some.inj (set.symm.trans here)
        rw [replies.source]
        rintro ⟨⟩
      · rw [answered.result]
        rintro ⟨⟩
    · intro _ allowed
      have allowed := allowed.1
      rw [answered.result] at allowed
      cases allowed
  · have unset : context.proxyCtx.res = none := fresh
    have run : out = s.filterRun context := by
      have before := s.processFilteringBeforeRequest_eq (s.filterContext clientID pctx)
      have none : (s.filterContext clientID pctx).proxyCtx.res = none := fresh
      rw [none, if_neg (by simp)] at before
      show s.serveDNS clientID pctx = _
      unfold filterRun
      cases done : s.filterDNSRequest context with
      | error err =>
        rw [done] at before
        rw [filtered, runMods_error before]
      | ok answer =>
        rw [done] at before
        rw [filtered, runMods_success before]
    rw [run]
    simp only [reached, true_and]
    exact ⟨filterRun_decided unset rfl rfl rfl checked, filterRun_filtered unset checked⟩

def ruledServer (reason : Reason) (isFiltered : Bool) : Server :=
  { bare [] [] [] with
    game := ⟨true, .all, []⟩
    checkHost := fun _ _ _ => .ok { Result.ofReason reason with isFiltered } }

theorem decisions_stand_allowed :
    NotBlocked ((ruledServer .notFilteredAllowList false).serveDNS none
      (request "example.com." false)).1 :=
  ((decisions_stand (ruledServer .notFilteredAllowList false) none (request "example.com." false)
    rfl (.ofReason .notFilteredAllowList) rfl).1 (Or.inl rfl) rfl
      (fun decides => absurd decides.2.2.2.2 (by decide +kernel))).mpr
        (fun blocked => absurd blocked.2.1 (by decide +kernel))

/-- A game domain with a block rule is let pass. -/
theorem gameDomain_allowed :
    (ruledServer .filteredBlockList true).checkHost (lit "qq.com") .a
        ⟨false, true, true, false, false, false⟩ =
      .ok { Result.ofReason .filteredBlockList with isFiltered := true } ∧
    Allowed ((ruledServer .filteredBlockList true).serveDNS none (request "qq.com." false)).1 :=
  ⟨rfl, by decide +kernel, by decide +kernel⟩

end Server

end AdGuardHome.Dnsforward
