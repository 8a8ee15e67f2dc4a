import AdGuardHome.Dnsforward.Pipeline

namespace AdGuardHome.Dnsforward

open Filtering Strings

/-- The response, if there is one, and the request have this question. -/
def DnsContext.Answers (dctx : DnsContext) (q : Question) : Prop :=
  ∀ res ∈ dctx.proxyCtx.res, res.question = q ∧ dctx.proxyCtx.req.question = q

namespace Server

variable (s : Server)

def RewritesName (setts : Settings) (q : Question) : Prop :=
  isSpecial (hostOf q) = false ∧ s.game.isGameDomain s.toLower (hostOf q) = false ∧
    ∃ res, s.checkHost (hostOf q) q.qtype setts = .ok res ∧ isRewrittenCNAME res = true ∧
      s.filter.fqdn res.canonName ≠ q.name

/-- A private client asks for a host of the local domain that has no lease, and the name is
rewritten. -/
def LosesQuestion (clientID : Option Bytes) (pctx : ProxyContext) : Prop :=
  let q := pctx.req.question
  let dhcpHost := s.dhcpHostFromRequest q
  s.answersInitially q = false ∧ dhcpHost ≠ [] ∧ pctx.isPrivateClient = true ∧
    s.ipByHost dhcpHost = .zero ∧
      s.RewritesName (checkSettings (s.filterContext clientID pctx)) q

/-- A request that is resolved keeps its question, and the response has it as well. -/
def ResolvesQuestion : Prop :=
  ∀ resolve ∈ s.resolve, ∀ pctx pctx', resolve pctx = .ok pctx' →
    pctx'.req.question = pctx.req.question ∧
      ∀ res ∈ pctx'.res, res.question = pctx.req.question

/-- What `ServeDNS` returns answers the question, unless it is an error. -/
def AnswersUnlessError (q : Question) (out : DnsContext × Option ServeError) : Prop :=
  out.2 = none → out.1.Answers q

structure Kept (q : Question) (dctx : DnsContext) : Prop where
  req : dctx.proxyCtx.req.question = q
  res : ∀ res ∈ dctx.proxyCtx.res, res.question = q
  orig : dctx.origQuestion = .zero

/-- The name has been rewritten, and the original question is kept. -/
structure Renamed (q : Question) (dctx : DnsContext) : Prop where
  res : ∀ res ∈ dctx.proxyCtx.res, res.question = dctx.proxyCtx.req.question
  orig : dctx.origQuestion = q
  reason : isRewrittenCNAME dctx.result = true

variable {s} {q : Question} {dctx : DnsContext}

namespace Kept

theorem answers (kept : Kept q dctx) : dctx.Answers q := fun res here =>
  ⟨kept.res res here, kept.req⟩

theorem setRes (kept : Kept q dctx) {msg : Msg} (same : msg.question = q) :
    Kept q (dctx.setRes msg) :=
  ⟨kept.req, fun _ here => Option.some.inj here ▸ same, kept.orig⟩

theorem runMods {mods : List (DnsContext → DnsContext × ResultCode)}
    (keeps : ∀ process ∈ mods, ∀ dctx, Kept q dctx → Kept q (process dctx).1)
    (kept : Kept q dctx) : AnswersUnlessError q (runMods mods dctx) := by
  induction mods generalizing dctx with
  | nil =>
    intro _
    simp only [Server.runMods]
    split
    · exact kept.answers
    next res here =>
      have same : { res with compress := true : Msg }.question = q := kept.res res here
      exact (kept.setRes same).answers
  | cons process rest ih =>
    have after := keeps process List.mem_cons_self dctx kept
    have later := fun dctx => @ih dctx fun process member =>
      keeps process (List.mem_cons_of_mem _ member)
    simp only [Server.runMods]
    generalize process dctx = result at after
    obtain ⟨dctx', code⟩ := result
    cases code with
    | success => exact later dctx' after
    | finish => exact fun _ => after.answers
    | error err => rintro ⟨⟩

theorem filterDNSResponse (kept : Kept q dctx) {dctx' : DnsContext}
    (done : s.filterDNSResponse dctx = .ok dctx') : Kept q dctx' := by
  simp only [Server.filterDNSResponse] at done
  split at done
  · exact Except.ok.inj done ▸ kept
  · split at done
    · exact Except.ok.inj done ▸ kept
    next resp here =>
      split at done
      · cases done
      next answer scanned =>
        obtain rfl := Except.ok.inj done
        have same : { resp with answer : Msg }.question = q := kept.res resp here
        exact kept.setRes same
      next answer result scanned =>
        obtain rfl := Except.ok.inj done
        have filtered := kept.setRes
          ((s.genDNSFilterMessage_question dctx.proxyCtx result).trans kept.req)
        exact ⟨filtered.req, filtered.res, filtered.orig⟩

theorem afterResponse (kept : Kept q dctx) : Kept q (s.processFilteringAfterResponse dctx).1 := by
  have default : Kept q (s.filterAfterResponse dctx).1 := by
    unfold filterAfterResponse
    split
    · exact kept
    · split
      · exact kept
      next done => exact kept.filterDNSResponse done
  have unset : dctx.origQuestion.name = [] := by rw [kept.orig]; rfl
  unfold processFilteringAfterResponse
  split
  · exact kept
  · rw [if_pos unset]
    exact kept
  · rw [if_pos unset]
    exact kept
  · rw [if_pos unset]
    exact kept
  · exact default

theorem upstream (kept : Kept q dctx) (resolves : s.ResolvesQuestion) :
    Kept q (s.processUpstream dctx).1 := by
  have custom : Kept q
      { dctx with proxyCtx := s.setCustomUpstream dctx.proxyCtx dctx.clientID } := by
    unfold setCustomUpstream
    split
    · exact kept
    · split
      · exact kept
      · exact ⟨kept.req, kept.res, kept.orig⟩
  unfold processUpstream
  split
  · exact kept
  split
  · exact kept.setRes kept.req
  dsimp only
  split
  · exact custom
  next resolve here =>
    split
    · exact custom
    next pctx done =>
      obtain ⟨req, res⟩ := resolves resolve here _ _ done
      refine ⟨req.trans custom.req, ?_, custom.orig⟩
      intro msg there
      obtain ⟨msg', from_, rfl⟩ := fromUpstream_res there
      exact (res msg' from_).trans custom.req

end Kept

theorem kept_lastMods (kept : Kept q dctx) (resolves : s.ResolvesQuestion) :
    AnswersUnlessError q (runMods s.lastMods dctx) := by
  refine kept.runMods ?_
  intro process member dctx kept
  simp only [Server.lastMods, List.mem_cons, List.not_mem_nil, or_false] at member
  rcases member with rfl | rfl | rfl | rfl
  · exact kept.upstream resolves
  · exact kept.afterResponse
  · exact kept
  · exact kept

section Renaming

variable (renamed : Renamed q dctx) (named : q.name ≠ [])

include renamed named

theorem renamed_afterResponse :
    ∃ dctx', s.processFilteringAfterResponse dctx = (dctx', .success) ∧
      dctx'.proxyCtx.req.question = q ∧ ∀ res ∈ dctx'.proxyCtx.res, res.question = q := by
  have set : dctx.origQuestion.name ≠ [] := renamed.orig ▸ named
  refine ⟨s.restoreQuestion dctx, ?_, ?_⟩
  · have reason := renamed.reason
    unfold isRewrittenCNAME at reason
    unfold processFilteringAfterResponse
    cases kind : dctx.result.reason <;> simp_all
  · unfold restoreQuestion
    dsimp only
    split
    next none =>
      refine ⟨renamed.orig, ?_⟩
      intro res here
      rw [none] at here
      cases here
    next msg here =>
      refine ⟨renamed.orig, ?_⟩
      intro res here
      obtain rfl := Option.some.inj here
      exact renamed.orig

theorem renamed_runMods : AnswersUnlessError q
    (runMods [s.processFilteringAfterResponse, processIpset, processQueryLogsAndStats] dctx) := by
  obtain ⟨dctx', after, req, res⟩ := renamed_afterResponse (s := s) renamed named
  simp only [runMods, after, processIpset, processQueryLogsAndStats]
  split
  · intro _ msg here
    exact ⟨res msg here, req⟩
  next msg there =>
    intro _ msg' here
    obtain rfl := Option.some.inj here
    exact ⟨res msg there, req⟩

theorem renamed_lastMods (unset : dctx.proxyCtx.res = none) (resolves : s.ResolvesQuestion) :
    AnswersUnlessError q (runMods s.lastMods dctx) ↔
      ¬ (dctx.isDHCPHost = true ∧ dctx.proxyCtx.req.question ≠ q) := by
  rw [lastMods, runMods]
  simp only [processUpstream, unset, Option.isSome_none, Bool.false_eq_true, ↓reduceIte]
  cases host : dctx.isDHCPHost with
  | true =>
    simp only [↓reduceIte, true_and, ne_eq, Decidable.not_not]
    constructor
    · intro answers
      exact (answers rfl _ rfl).2
    · intro same _ res here
      obtain rfl := Option.some.inj here
      exact ⟨same, same⟩
  | false =>
    simp only [Bool.false_eq_true, ↓reduceIte, false_and, not_false_eq_true, iff_true]
    cases open_ : s.resolve with
    | none => rintro ⟨⟩
    | some resolve =>
      dsimp only
      cases done : resolve (s.setCustomUpstream dctx.proxyCtx dctx.clientID) with
      | error err => rintro ⟨⟩
      | ok pctx =>
        obtain ⟨req, res⟩ := resolves resolve open_ _ _ done
        dsimp only
        refine renamed_runMods ⟨?_, renamed.orig, renamed.reason⟩ named
        intro msg here
        obtain ⟨msg', from_, rfl⟩ := fromUpstream_res here
        exact (res msg' from_).trans req.symm

end Renaming

/-- Filtering a request keeps its question, or rewrites the name and keeps the original. -/
theorem filterDNSRequest_cases (s : Server) (dctx : DnsContext) (kept : Kept q dctx) (unset : dctx.proxyCtx.res = none) :
    (∃ err, s.filterDNSRequest dctx = .error err ∧ ¬ s.RewritesName dctx.setts q) ∨
    (∃ dctx' res, s.filterDNSRequest dctx = .ok (dctx', res) ∧ Kept q { dctx' with result := res } ∧
      ¬ s.RewritesName dctx.setts q) ∨
    (∃ dctx' res, s.filterDNSRequest dctx = .ok (dctx', res) ∧
      Renamed q { dctx' with result := res } ∧ dctx'.proxyCtx.res = none ∧
      dctx'.isDHCPHost = dctx.isDHCPHost ∧
      (s.RewritesName dctx.setts q ↔ dctx'.proxyCtx.req.question ≠ q)) := by
  have req := kept.req
  obtain rfl := req
  have stays : ∀ res, Kept dctx.proxyCtx.req.question { dctx with result := res } := fun _ =>
    ⟨kept.req, kept.res, kept.orig⟩
  have answered : ∀ (msg : Msg) res, msg.question = dctx.proxyCtx.req.question →
      Kept dctx.proxyCtx.req.question { dctx.setRes msg with result := res } := fun _ _ same =>
    ⟨(kept.setRes same).req, (kept.setRes same).res, (kept.setRes same).orig⟩
  simp only [filterDNSRequest, RewritesName]
  cases special : isSpecial (hostOf dctx.proxyCtx.req.question) with
  | true => exact Or.inr (Or.inl ⟨_, _, rfl, stays _, by simp⟩)
  | false =>
    cases game : s.game.isGameDomain s.toLower (hostOf dctx.proxyCtx.req.question) with
    | true => exact Or.inr (Or.inl ⟨_, _, rfl, stays _, by simp⟩)
    | false =>
      simp only [Bool.false_eq_true, ↓reduceIte, true_and]
      cases check : s.checkHost (hostOf dctx.proxyCtx.req.question) dctx.proxyCtx.req.question.qtype
          dctx.setts with
      | error err => exact Or.inl ⟨_, rfl, by simp⟩
      | ok res =>
        cases rewritten : isRewrittenCNAME res with
        | true =>
          refine Or.inr (Or.inr ⟨_, _, if_pos rewritten, ⟨?_, rfl, rewritten⟩, unset, rfl, ?_⟩)
          · intro msg here
            have here : msg ∈ dctx.proxyCtx.res := here
            rw [unset] at here
            cases here
          · constructor
            · rintro ⟨_, same, _, differs⟩ equal
              obtain rfl := Except.ok.inj same
              exact differs (congrArg (·.name) equal)
            · intro differs
              refine ⟨res, rfl, rewritten, ?_⟩
              intro equal
              refine differs ?_
              show { dctx.proxyCtx.req.question with name := s.filter.fqdn res.canonName } = _
              rw [equal]
        | false =>
          have not : ¬ ∃ res', Except.ok res = Except.ok (ε := Bytes) res' ∧
              isRewrittenCNAME res' = true ∧
                s.filter.fqdn res'.canonName ≠ dctx.proxyCtx.req.question.name := by
            rintro ⟨_, same, renames, _⟩
            obtain rfl := Except.ok.inj same
            rw [rewritten] at renames
            cases renames
          simp only [rewritten, Bool.false_eq_true, ↓reduceIte]
          split
          · exact Or.inr (Or.inl ⟨_, _, rfl, answered _ _ (s.genDNSFilterMessage_question _ _), not⟩)
          split
          · exact Or.inr (Or.inl ⟨_, _, rfl, answered _ _ (s.genDNSFilterMessage_question _ _), not⟩)
          split
          · have same := (s.getCNAMEWithIPs_replies dctx.proxyCtx.req res.ipList res.canonName).question
            exact Or.inr (Or.inl ⟨_, _, rfl, answered _ _ same, not⟩)
          · have same := (s.getCNAMEWithIPs_replies dctx.proxyCtx.req res.ipList res.canonName).question
            exact Or.inr (Or.inl ⟨_, _, rfl, answered _ _ same, not⟩)
          · split
            next err failed => exact Or.inl ⟨_, rfl, not⟩
            next resp done =>
              have same := (s.filterDNSRewrite_replies _ done).question
              exact Or.inr (Or.inl ⟨_, _, rfl, answered _ _ same, not⟩)
          · split
            next err failed => exact Or.inl ⟨_, rfl, not⟩
            next resp done =>
              have same := (s.filterDNSRewrite_replies _ done).question
              exact Or.inr (Or.inl ⟨_, _, rfl, answered _ _ same, not⟩)
          · exact Or.inr (Or.inl ⟨_, _, rfl, stays _, not⟩)

/-- What follows the filtering of a request that has no response yet. -/
theorem filtered_lastMods (kept : Kept q dctx) (unset : dctx.proxyCtx.res = none)
    (named : q.name ≠ []) (resolves : s.ResolvesQuestion) :
    AnswersUnlessError q (runMods (s.processFilteringBeforeRequest :: s.lastMods) dctx) ↔
      ¬ (dctx.isDHCPHost = true ∧ s.RewritesName (checkSettings dctx) q) := by
  have before := s.processFilteringBeforeRequest_eq dctx
  rw [unset] at before
  obtain ⟨err, failed, not⟩ | ⟨dctx', res, done, kept', not⟩ |
    ⟨dctx', res, done, renamed, unset', host', renames⟩ :=
      filterDNSRequest_cases s { dctx with setts := checkSettings dctx }
        ⟨kept.req, kept.res, kept.orig⟩ unset
  · rw [failed] at before
    rw [runMods_error before]
    exact ⟨fun _ both => not both.2, fun _ failed => (by cases failed)⟩
  · rw [done] at before
    rw [runMods_success before]
    exact ⟨fun _ both => not both.2, fun _ => kept_lastMods kept' resolves⟩
  · rw [done] at before
    rw [runMods_success before, renamed_lastMods renamed named unset' resolves]
    have host : dctx'.isDHCPHost = dctx.isDHCPHost := host'
    show ¬ (dctx'.isDHCPHost = true ∧ dctx'.proxyCtx.req.question ≠ q) ↔ _
    rw [host, ← renames]

/-- A request that loses its question is one that is filtered. -/
theorem losesQuestion_iff {clientID : Option Bytes} {pctx : ProxyContext} :
    s.LosesQuestion clientID pctx ↔
      s.reachesFilter pctx = true ∧ s.dhcpHostFromRequest pctx.req.question ≠ [] ∧
        s.RewritesName (checkSettings (s.filterContext clientID pctx)) pctx.req.question := by
  simp only [LosesQuestion, reachesFilter, Bool.and_eq_true, Bool.or_eq_true, Bool.not_eq_true',
    beq_iff_eq]
  constructor
  · rintro ⟨initially, host, private_, lease, rewrites⟩
    exact ⟨⟨⟨initially, answersPointer_of_host host⟩, Or.inr ⟨private_, lease⟩⟩, host, rewrites⟩
  · rintro ⟨⟨⟨initially, _⟩, reaches⟩, host, rewrites⟩
    obtain ⟨private_, lease⟩ := reaches.resolve_left host
    exact ⟨initially, host, private_, lease, rewrites⟩

/-- The answer to a request has the client's question unless the question is lost. -/
theorem serveDNS_answers_iff (clientID : Option Bytes) (pctx : ProxyContext)
    (fresh : pctx.res = none) (named : pctx.req.question.name ≠ [])
    (resolves : s.ResolvesQuestion) :
    AnswersUnlessError pctx.req.question (s.serveDNS clientID pctx) ↔
      ¬ s.LosesQuestion clientID pctx := by
  rw [losesQuestion_iff]
  obtain ⟨unreached, answered⟩ | ⟨reached, filtered⟩ := serveDNS_cases (s := s) clientID fresh
  · constructor
    · intro _ lost
      exact Bool.false_ne_true (unreached ▸ lost.1)
    · intro _ _ res here
      obtain ⟨msg, set, replies⟩ := answered.res
      obtain rfl := Option.some.inj (set.symm.trans here)
      exact ⟨replies.question, congrArg (·.question) answered.kept⟩
  · have kept : Kept pctx.req.question (s.filterContext clientID pctx) := by
      refine ⟨rfl, ?_, rfl⟩
      intro res here
      have here : res ∈ pctx.res := here
      rw [fresh] at here
      cases here
    rw [filtered, filtered_lastMods kept fresh named resolves]
    simp [reached, filterContext]

theorem bare_resolvesQuestion (answer ns extra : List RR) :
    (bare answer ns extra).ResolvesQuestion := by
  intro resolve here pctx pctx' done
  obtain rfl := Option.some.inj here
  obtain rfl := Except.ok.inj done
  refine ⟨rfl, ?_⟩
  intro res there
  exact Option.some.inj there ▸ rfl

/-- A server that leases addresses and rewrites the names of the local domain. -/
def rewritingServer : Server :=
  { bare [] [] [] with
    dhcpEnabled := true
    checkHost := fun host _ _ => .ok
      (if hasSuffix host (lit ".lan") then
        { Result.ofReason .rewritten with canonName := lit "example.org" }
      else .ofReason .notFilteredNotFound) }

theorem serveDNS_answers_outside :
    AnswersUnlessError (request "example.com." true).req.question
      (rewritingServer.serveDNS none (request "example.com." true)) :=
  (serveDNS_answers_iff none (request "example.com." true) rfl (by decide)
    (bare_resolvesQuestion [] [] [])).mpr
      fun lost => lost.2.1 (by decide +kernel)

/-- The name of a host without a lease is lost. -/
theorem serveDNS_loses_question :
    ¬ AnswersUnlessError (request "nas.lan." true).req.question
      (rewritingServer.serveDNS none (request "nas.lan." true)) := by
  intro answers
  have same := (answers (by decide +kernel) _ rfl).2
  exact absurd same (by decide +kernel)

end Server

end AdGuardHome.Dnsforward
