import AdGuardHome.Dnsforward.ResponseFilter

namespace AdGuardHome.Dnsforward.Server

open Filtering Net Strings

def addresses : RR → List IP
  | .a _ ip | .aaaa _ ip => [ip]
  | .https _ _ _ value => value.flatMap hintIPs
  | _ => []

def Local (ip : IP) : Prop :=
  ip.isPrivate = true ∨ ip.isLoopback = true ∨ ip.isLinkLocalUnicast = true ∨
    ip.isLinkLocalMulticast = true ∨ ip.isUnspecified = true

def Covered (dctx : DnsContext) : Prop :=
  ∀ m ∈ dctx.proxyCtx.res, m.source = .upstream →
    ∀ rr ∈ m.answer ++ m.ns ++ m.extra, ∀ ip ∈ addresses rr, ¬ Local ip

def IsHTTPS : RR → Prop
  | .https .. => True
  | _ => False

section

variable (s : Server)

/-- No local address is where it is not looked for: in the hints of the answer, or in the other
sections. -/
def NoneHidden (m : Msg) : Prop :=
  (∀ rr ∈ m.answer, IsHTTPS rr → ∀ ip ∈ addresses (s.stripRecord rr), ¬ Local ip) ∧
    ∀ rr ∈ m.ns ++ m.extra, ∀ ip ∈ addresses rr, ¬ Local ip

structure Protects (dctx : DnsContext) : Prop where
  protection : dctx.protectionEnabled = true
  filtering : dctx.setts.filteringEnabled = true
  rebind : s.rebind.enabled = true
  unlisted : isDomainWhitelistedForRebind s.toLower (hostOf dctx.proxyCtx.req.question)
    s.rebind.whitelistedDomains = false
  notAllowed : dctx.result.reason ≠ .notFilteredAllowList
  notRewritten : dctx.result.reason ≠ .rewritten ∧ dctx.result.reason ≠ .rewrittenRule ∧
    dctx.result.reason ≠ .filteredSafeSearch
  upstream : dctx.responseFromUpstream = true

variable {s} {dctx : DnsContext} {m : Msg} {ip : IP} {rr : RR}

theorem Local.isPrivateOrLocalIP (near : Local ip) : isPrivateOrLocalIP ip = true := by
  unfold Dnsforward.isPrivateOrLocalIP
  refine if_pos ?_
  simp only [Bool.or_eq_true]
  rcases near with near | near | near | near | near
  · exact Or.inl (Or.inl (Or.inl (Or.inr near)))
  · exact Or.inl (Or.inl (Or.inl (Or.inl near)))
  · exact Or.inl (Or.inl (Or.inr near))
  · exact Or.inl (Or.inr near)
  · exact Or.inr near

/-- A local address ends the scan. -/
theorem checkAddress_local (protects : s.Protects dctx) (near : Local ip) (rrtype : RRType) :
    s.checkAddress dctx.setts (hostOf dctx.proxyCtx.req.question) ip rrtype =
      .ok (some { Result.ofReason .filteredBlockList with isFiltered := true }) := by
  have attacked : s.checkDNSRebinding (hostOf dctx.proxyCtx.req.question) ip = true := by
    simp only [checkDNSRebinding, RebindConfig.attacked, protects.rebind, protects.unlisted,
      near.isPrivateOrLocalIP]
    rfl
  exact if_pos attacked

theorem not_passes_a (protects : s.Protects dctx) (near : Local ip) {hdr : Hdr} :
    ¬ s.Passes dctx.setts (hostOf dctx.proxyCtx.req.question) (.a hdr ip) :=
  have blocks : s.Blocks dctx.setts (hostOf dctx.proxyCtx.req.question) (.a hdr ip) _ :=
    ⟨checkAddress_local protects near .a, rfl⟩
  blocks.not_passes

theorem not_passes_aaaa (protects : s.Protects dctx) (near : Local ip) {hdr : Hdr} :
    ¬ s.Passes dctx.setts (hostOf dctx.proxyCtx.req.question) (.aaaa hdr ip) :=
  have blocks : s.Blocks dctx.setts (hostOf dctx.proxyCtx.req.question) (.aaaa hdr ip) _ :=
    ⟨checkAddress_local protects near .aaaa, rfl⟩
  blocks.not_passes

theorem Passes.not_local (protects : s.Protects dctx)
    (passes : s.Passes dctx.setts (hostOf dctx.proxyCtx.req.question) rr) (other : ¬ IsHTTPS rr) :
    ∀ ip ∈ addresses (s.stripRecord rr), ¬ Local ip := by
  intro ip member near
  cases rr with
  | a hdr ip =>
    obtain rfl := List.mem_singleton.mp member
    exact not_passes_a protects near passes
  | aaaa hdr ip =>
    obtain rfl := List.mem_singleton.mp member
    exact not_passes_aaaa protects near passes
  | https => exact other trivial
  | cname | svcb | ptr | mx | srv | txt | soa | other | nil => exact List.not_mem_nil member

theorem processFilteringAfterResponse_protects (protects : s.Protects dctx) :
    s.processFilteringAfterResponse dctx = s.filterAfterResponse dctx := by
  have allowed := protects.notAllowed
  obtain ⟨rewritten, rule, safe⟩ := protects.notRewritten
  unfold processFilteringAfterResponse
  cases reason : dctx.result.reason <;> first | rfl | contradiction

/-- What is delivered has no local address from the upstreams exactly when something in the
answer ends the scan, or no local address is out of its sight. -/
theorem rebinding_covers_iff (protects : s.Protects dctx) (here : dctx.proxyCtx.res = some m)
    (source : m.source = .upstream) :
    (∀ dctx', s.processFilteringAfterResponse dctx = (dctx', .success) → Covered dctx') ↔
      (∃ rr ∈ m.answer, ¬ s.Passes dctx.setts (hostOf dctx.proxyCtx.req.question) rr) ∨
        s.NoneHidden m := by
  rw [processFilteringAfterResponse_protects protects]
  obtain ⟨all, done⟩ | ⟨res, answer, blocks, done⟩ | ⟨err, stuck, _, done⟩ :=
    filterAfterResponse_cases s dctx protects.protection protects.upstream protects.filtering here
  · rw [done]
    have none : ¬ ∃ rr ∈ m.answer,
        ¬ s.Passes dctx.setts (hostOf dctx.proxyCtx.req.question) rr :=
      fun ⟨rr, member, stuck⟩ => stuck (all rr member)
    rw [or_iff_right none]
    constructor
    · intro covered
      have covered := covered _ rfl _ rfl source
      constructor
      · intro rr member _ ip there
        refine covered (s.stripRecord rr) ?_ ip there
        exact List.mem_append_left _ (List.mem_append_left _ (List.mem_map_of_mem member))
      · intro rr member
        refine covered rr ?_
        rw [List.append_assoc]
        exact List.mem_append_right _ member
    · intro ⟨hints, others⟩ dctx' same m' there _ rr member
      obtain rfl := (Prod.mk.inj same).1
      obtain rfl := Option.some.inj there
      rw [List.append_assoc] at member
      rcases List.mem_append.mp member with answered | other
      · obtain ⟨record, listed, rfl⟩ := List.mem_map.mp answered
        by_cases https : IsHTTPS record
        · exact hints record listed https
        · exact (all record listed).not_local protects https
      · exact others rr other
  · rw [done]
    refine iff_of_true ?_ (Or.inl blocks.not_all_pass)
    intro dctx' same m' there source
    obtain rfl := (Prod.mk.inj same).1
    obtain rfl := Option.some.inj there
    rw [genDNSFilterMessage_source] at source
    nomatch source
  · rw [done]
    refine iff_of_true ?_ (Or.inl stuck)
    intro dctx' same
    nomatch (Prod.mk.inj same).2

end

/-- A response that an upstream has given to a request for the addresses of this name. -/
def received (name : String) (answer : List RR) : DnsContext :=
  let pctx := request name false
  { newContext pctx with
    proxyCtx := { pctx with
      res := some { reply pctx.req rcodeSuccess with answer, source := .upstream } }
    protectionEnabled := true
    setts := ⟨false, true, true, false, false, false⟩
    responseFromUpstream := true }

theorem protects_received (name : String) (answer : List RR)
    (unlisted : isDomainWhitelistedForRebind id (hostOf ⟨lit name, .a, classINET⟩)
      rebindConf.whitelistedDomains = false) :
    (bare [] [] []).Protects (received name answer) :=
  ⟨rfl, rfl, rfl, unlisted, nofun, ⟨nofun, nofun, nofun⟩, rfl⟩

theorem rebinding_covers_address :
    Covered ((bare [] [] []).processFilteringAfterResponse (received "example.com."
      [.a ⟨lit "example.com.", .a, classINET, 60⟩ [192, 168, 1, 1]])).1 :=
  have protects := protects_received "example.com."
    [.a ⟨lit "example.com.", .a, classINET, 60⟩ [192, 168, 1, 1]] (by decide +kernel)
  have near : Local [192, 168, 1, 1] := Or.inl (by decide)
  (rebinding_covers_iff protects rfl rfl).mpr
    (Or.inl ⟨_, List.mem_singleton_self _, not_passes_a protects near⟩) _ rfl

/-- A hint of an HTTPS record is delivered. -/
theorem rebinding_misses_hint :
    ¬ ∀ dctx', (bare [] [] []).processFilteringAfterResponse (received "example.com."
      [.https ⟨lit "example.com.", .https, classINET, 60⟩ 1 (lit ".")
        [.ipv4Hint [[192, 168, 1, 1]]]]) = (dctx', .success) → Covered dctx' := by
  intro covered
  have covered := covered _ rfl _ rfl rfl _ List.mem_cons_self [192, 168, 1, 1]
    (by decide +kernel)
  exact covered (Or.inl (by decide))

end AdGuardHome.Dnsforward.Server
