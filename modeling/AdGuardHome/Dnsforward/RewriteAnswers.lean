import AdGuardHome.Dnsforward.Process
import AdGuardHome.Filtering.DNSRewrite

namespace AdGuardHome.Dnsforward

open Filtering Netip Strings

def RR.hdr? : RR → Option Hdr
  | .a hdr _ | .aaaa hdr _ | .cname hdr _ | .https hdr _ _ _ | .svcb hdr _ _ _ | .ptr hdr _
  | .mx hdr _ _ | .srv hdr _ _ _ _ | .txt hdr _ | .soa hdr _ _ _ _ _ _ _ | .other hdr => some hdr
  | .nil => none

def rewriteValues (res : Result) (qtype : RRType) : List RRValue :=
  match res.dnsRewriteResult with
  | some ⟨_, some response⟩ => response qtype
  | _ => []

def rewriteCode (res : Result) : Nat :=
  match res.dnsRewriteResult with
  | some dnsrr => dnsrr.rcode
  | none => rcodeSuccess

/-- The types that `filterDNSRewriteResponse` has a case for. -/
def rewriteTypes : List RRType := [.a, .aaaa, .ptr, .txt, .mx, .https, .svcb, .srv]

namespace Server

variable (s : Server)

/-- `filterDNSRewrite` with the context whose response it sets. -/
def filterDNSRewriteIn (req : Msg) (res : Result) (pctx : ProxyContext) :
    ProxyContext × Option RewriteError :=
  match s.filterDNSRewrite req res with
  | .error err => (pctx, some err)
  | .ok resp => ({ pctx with res := some resp }, none)

/-- The record of a type that answers a request with a value. -/
inductive Carries (req : Msg) : RRType → RRValue → RR → Prop where
  | a (ip : Addr) : Carries req .a (.addr ip) (.a (s.filter.hdr req .a) (asSlice ip))
  | aaaa (ip : Addr) : Carries req .aaaa (.addr ip) (.aaaa (s.filter.hdr req .aaaa) (asSlice ip))
  | ptr (str : Bytes) : Carries req .ptr (.text str) (.ptr (s.filter.hdr req .ptr) (s.filter.fqdn str))
  | txt (str : Bytes) : Carries req .txt (.text str) (.txt (s.filter.hdr req .txt) [str])
  | mx (exchange : Bytes) (preference : BitVec 16) :
    Carries req .mx (.mx exchange preference)
      (.mx (s.filter.hdr req .mx) preference (s.filter.fqdn exchange))
  | https (target : Bytes) (priority : BitVec 16) (params : List (Bytes × Bytes)) :
    Carries req .https (.svcb target priority params)
      (.https (s.filter.hdr req .https) priority (s.filter.fqdn target) (s.svcbValues params))
  | svcb (target : Bytes) (priority : BitVec 16) (params : List (Bytes × Bytes)) :
    Carries req .svcb (.svcb target priority params)
      (.svcb (s.filter.hdr req .svcb) priority (s.filter.fqdn target) (s.svcbValues params))
  | srv (target : Bytes) (priority weight port : BitVec 16) :
    Carries req .srv (.srv target priority weight port)
      (.srv (s.filter.hdr req .srv) priority weight port (s.filter.fqdn target))

/-- Either an error with the context left as it was, or the response of the rewrite: its code,
and one record of the question's type for each value. -/
structure AnswersRewrite (req : Msg) (res : Result) (pctx : ProxyContext) : Prop where
  failed : ∀ pctx' err, s.filterDNSRewriteIn req res pctx = (pctx', some err) → pctx' = pctx
  answered : ∀ pctx', s.filterDNSRewriteIn req res pctx = (pctx', none) →
    ∃ dnsrr resp, res.dnsRewriteResult = some dnsrr ∧ pctx'.res = some resp ∧
      resp.rcode = dnsrr.rcode ∧
      List.Forall₂ (s.Carries req req.question.qtype)
        (rewriteValues res req.question.qtype) resp.answer

variable {s} {req : Msg} {rr : RRType}

theorem Carries.header {v : RRValue} {ans : RR} (carries : s.Carries req rr v ans) :
    ans.hdr? = some (s.filter.hdr req rr) := by
  cases carries <;> rfl

theorem filterDNSRewriteResponse_carries (supported : rr ∈ rewriteTypes) {v : RRValue} {ans : RR}
    (made : s.filterDNSRewriteResponse req rr v = some ans) : s.Carries req rr v ans := by
  simp only [rewriteTypes, List.mem_cons, List.not_mem_nil, or_false] at supported
  rcases supported with rfl | rfl | rfl | rfl | rfl | rfl | rfl | rfl <;>
    cases v <;> first | contradiction | (cases made; constructor)

theorem filterDNSRewriteResponse_unsupported (unsupported : rr ∉ rewriteTypes) (v : RRValue) :
    s.filterDNSRewriteResponse req rr v = some .nil := by
  simp only [rewriteTypes, List.mem_cons, List.not_mem_nil, or_false, not_or] at unsupported
  obtain ⟨a, aaaa, ptr, txt, mx, https, svcb, srv⟩ := unsupported
  simp [filterDNSRewriteResponse, a, aaaa, ptr, txt, mx, https, svcb, srv]

/-- The loop makes one record a value. -/
theorem rewriteAnswers_carries (supported : rr ∈ rewriteTypes) {values : List RRValue} {i : Nat}
    {answers : List RR} (made : s.rewriteAnswers req rr values i = .ok answers) :
    List.Forall₂ (s.Carries req rr) values answers := by
  induction values generalizing i answers with
  | nil =>
    cases made
    exact .nil
  | cons v rest ih =>
    rw [rewriteAnswers] at made
    split at made
    · cases made
    next ans carried =>
      split at made
      · cases made
      next others later =>
        cases made
        exact .cons (filterDNSRewriteResponse_carries supported carried) (ih later)

theorem rewriteAnswers_unsupported (unsupported : rr ∉ rewriteTypes) (values : List RRValue)
    (i : Nat) : s.rewriteAnswers req rr values i = .ok (values.map fun _ => .nil) := by
  induction values generalizing i with
  | nil => rfl
  | cons v rest ih =>
    rw [rewriteAnswers, filterDNSRewriteResponse_unsupported unsupported v]
    simp only [ih, List.map_cons]

theorem filterDNSRewrite_code {res : Result} (code : rewriteCode res ≠ rcodeSuccess) :
    s.filterDNSRewrite req res = .ok { replyCompressed req with rcode := rewriteCode res } := by
  cases found : res.dnsRewriteResult with
  | none => simp [rewriteCode, found] at code
  | some dnsrr =>
    simp only [rewriteCode, found] at code ⊢
    simp only [filterDNSRewrite, found]
    exact if_pos code

/-- A success without values is an error or an answer without records. -/
theorem filterDNSRewrite_empty {res : Result} (success : rewriteCode res = rcodeSuccess)
    (nothing : rewriteValues res req.question.qtype = []) {resp : Msg}
    (made : s.filterDNSRewrite req res = .ok resp) :
    resp = { replyCompressed req with rcode := rewriteCode res } := by
  cases found : res.dnsRewriteResult with
  | none => simp [filterDNSRewrite, found] at made
  | some dnsrr =>
    obtain ⟨rcode, response⟩ := dnsrr
    simp only [rewriteCode, rewriteValues, found] at success nothing ⊢
    cases response with
    | none => simp [filterDNSRewrite, found, success] at made
    | some response =>
      have none : response req.question.qtype = [] := nothing
      simpa [filterDNSRewrite, found, success, none, rewriteAnswers, replyCompressed, reply]
        using made.symm

/-- A success with values is answered by the loop over them. -/
theorem filterDNSRewrite_values {res : Result} (success : rewriteCode res = rcodeSuccess)
    (values : rewriteValues res req.question.qtype ≠ []) :
    s.filterDNSRewrite req res =
      match s.rewriteAnswers req req.question.qtype (rewriteValues res req.question.qtype) 0 with
      | .error err => .error err
      | .ok answer => .ok { replyCompressed req with rcode := rewriteCode res, answer } := by
  cases found : res.dnsRewriteResult with
  | none => simp [rewriteValues, found] at values
  | some dnsrr =>
    obtain ⟨rcode, response⟩ := dnsrr
    simp only [rewriteCode, rewriteValues, found] at success values ⊢
    cases response with
    | none => simp at values
    | some response =>
      simp only [filterDNSRewrite, found]
      exact (if_neg (not_not.mpr success)).trans rfl

theorem filterDNSRewrite_content {res : Result} {resp : Msg}
    (made : s.filterDNSRewrite req res = .ok resp) :
    ∃ dnsrr, res.dnsRewriteResult = some dnsrr ∧ rewriteCode res = dnsrr.rcode := by
  cases found : res.dnsRewriteResult with
  | none => simp [filterDNSRewrite, found] at made
  | some dnsrr => exact ⟨dnsrr, rfl, by simp [rewriteCode, found]⟩

/-- The response of a rewrite that has no values, or has them for a type with a record. -/
theorem filterDNSRewrite_carries {res : Result} {resp : Msg}
    (made : s.filterDNSRewrite req res = .ok resp)
    (good : rewriteValues res req.question.qtype = [] ∨
      rewriteCode res = rcodeSuccess ∧ req.question.qtype ∈ rewriteTypes) :
    resp.rcode = rewriteCode res ∧ List.Forall₂ (s.Carries req req.question.qtype)
      (rewriteValues res req.question.qtype) resp.answer := by
  by_cases success : rewriteCode res = rcodeSuccess
  · by_cases nothing : rewriteValues res req.question.qtype = []
    · rw [filterDNSRewrite_empty success nothing made, nothing]
      exact ⟨rfl, .nil⟩
    · rw [filterDNSRewrite_values success nothing] at made
      split at made
      · cases made
      next answer loop =>
        cases made
        exact ⟨rfl, rewriteAnswers_carries (good.resolve_left nothing).2 loop⟩
  · have nothing := good.resolve_right fun both => success both.1
    rw [filterDNSRewrite_code success] at made
    cases made
    rw [nothing]
    exact ⟨rfl, .nil⟩

/-- Values under another code are left out, and those of a type without a record give nil. -/
theorem filterDNSRewrite_misses {res : Result}
    (values : rewriteValues res req.question.qtype ≠ [])
    (bad : ¬ (rewriteCode res = rcodeSuccess ∧ req.question.qtype ∈ rewriteTypes)) :
    ∃ resp, s.filterDNSRewrite req res = .ok resp ∧
      ¬ List.Forall₂ (s.Carries req req.question.qtype)
        (rewriteValues res req.question.qtype) resp.answer := by
  by_cases success : rewriteCode res = rcodeSuccess
  · have unsupported : req.question.qtype ∉ rewriteTypes := fun known => bad ⟨success, known⟩
    rw [filterDNSRewrite_values success values, rewriteAnswers_unsupported unsupported]
    refine ⟨_, rfl, ?_⟩
    obtain ⟨v, rest, split⟩ := List.exists_cons_of_ne_nil values
    rw [split, List.map_cons]
    intro carried
    cases carried with
    | cons first _ => cases first.header
  · rw [filterDNSRewrite_code success]
    exact ⟨_, rfl, fun carried => values (List.forall₂_nil_right_iff.mp carried)⟩

/-- The answers are well formed exactly for rewrites that have no values for the question's
type, or have them under the code of success and a type that has a record. -/
theorem answersRewrite_iff (s : Server) (req : Msg) (res : Result) (pctx : ProxyContext) :
    s.AnswersRewrite req res pctx ↔ rewriteValues res req.question.qtype = [] ∨
      rewriteCode res = rcodeSuccess ∧ req.question.qtype ∈ rewriteTypes := by
  constructor
  · intro answers
    by_contra bad
    obtain ⟨values, others⟩ := not_or.mp bad
    obtain ⟨resp, made, misses⟩ := filterDNSRewrite_misses (s := s) values others
    obtain ⟨_, _, _, set, _, carried⟩ := answers.answered _ (by rw [filterDNSRewriteIn, made])
    cases set
    exact misses carried
  · intro good
    constructor
    · intro pctx' err failed
      unfold filterDNSRewriteIn at failed
      split at failed
      · cases failed
        rfl
      · cases failed
    · intro pctx' answered
      unfold filterDNSRewriteIn at answered
      split at answered
      · cases answered
      next resp made =>
        cases answered
        obtain ⟨dnsrr, found, code⟩ := filterDNSRewrite_content made
        obtain ⟨sameCode, carried⟩ := filterDNSRewrite_carries made good
        exact ⟨dnsrr, resp, found, rfl, sameCode.trans code, carried⟩

private def emptyAnswer : NetworkRule :=
  ⟨lit "|example.org^$dnsrewrite=NOERROR;;", 1, ⟨[], rcodeSuccess, 0, .nil⟩⟩

/-- A question of type 0 gets the rule's missing value as a nil record. -/
theorem empty_answer_gives_nil :
    ¬ ∀ (s : Server) (req : Msg) (res : Result) (pctx : ProxyContext),
      s.AnswersRewrite req res pctx := by
  intro always
  have answers := always (bare [] [] [])
    { (request "example.org." false).req with question := ⟨lit "example.org.", 0, classINET⟩ }
    (processDNSRewrites [emptyAnswer]) (request "example.org." false)
  obtain ⟨_, _, _, set, _, carried⟩ := answers.answered _ rfl
  cases set
  cases carried with
  | cons first _ => cases first

end Server

end AdGuardHome.Dnsforward
