import AdGuardHome.Dnsforward.Pipeline

namespace AdGuardHome.Dnsforward.Server

open Filtering Strings

section Scan

variable (s : Server) (setts : Settings) (qName : Bytes)

def Passes (rr : RR) : Prop :=
  ∃ found, s.checkRecord setts qName rr = .ok found ∧ ∀ res ∈ found, res.isFiltered = false

def Blocks (rr : RR) (res : Result) : Prop :=
  s.checkRecord setts qName rr = .ok (some res) ∧ res.isFiltered = true

def BlocksAnswer (answer : List RR) (res : Result) : Prop :=
  ∃ before rr after, answer = before ++ rr :: after ∧
    (∀ other ∈ before, s.Passes setts qName other) ∧ s.Blocks setts qName rr res

variable {s setts qName} {rr : RR} {rest : List RR} {res : Result} {i : Nat}

theorem Blocks.not_passes (blocks : s.Blocks setts qName rr res) : ¬ s.Passes setts qName rr := by
  intro ⟨found, checked, unfiltered⟩
  have same := Except.ok.inj (checked.symm.trans blocks.1)
  have unfiltered := unfiltered res (same ▸ rfl)
  rw [blocks.2] at unfiltered
  nomatch unfiltered

theorem not_passes_of_error {err : Bytes} (failed : s.checkRecord setts qName rr = .error err) :
    ¬ s.Passes setts qName rr := by
  intro ⟨found, checked, _⟩
  nomatch failed.symm.trans checked

theorem BlocksAnswer.cons (blocks : s.BlocksAnswer setts qName rest res)
    (passes : s.Passes setts qName rr) : s.BlocksAnswer setts qName (rr :: rest) res := by
  obtain ⟨before, other, after, rfl, passed, blocks⟩ := blocks
  exact ⟨rr :: before, other, after, rfl, List.forall_mem_cons.mpr ⟨passes, passed⟩, blocks⟩

theorem BlocksAnswer.tail (blocks : s.BlocksAnswer setts qName (rr :: rest) res)
    (passes : s.Passes setts qName rr) : s.BlocksAnswer setts qName rest res := by
  obtain ⟨before, other, after, split, passed, blocks⟩ := blocks
  cases before with
  | nil =>
    obtain ⟨rfl, rfl⟩ := List.cons.inj split
    exact absurd passes blocks.not_passes
  | cons head before =>
    obtain ⟨rfl, rfl⟩ := List.cons.inj split
    exact ⟨before, other, after, rfl, (List.forall_mem_cons.mp passed).2, blocks⟩

theorem record_cases (s : Server) (setts : Settings) (qName : Bytes) (rr : RR) :
    s.Passes setts qName rr ∨ (∃ res, s.Blocks setts qName rr res) ∨
      ∃ err, s.checkRecord setts qName rr = .error err := by
  cases checked : s.checkRecord setts qName rr with
  | error err => exact Or.inr (Or.inr ⟨err, rfl⟩)
  | ok found =>
    cases found with
    | none => exact Or.inl ⟨none, checked, nofun⟩
    | some res =>
      cases filtered : res.isFiltered with
      | true => exact Or.inr (Or.inl ⟨res, checked, filtered⟩)
      | false =>
        refine Or.inl ⟨some res, checked, ?_⟩
        intro other here
        exact Option.some.inj here ▸ filtered

theorem filterAnswers_blocks (blocks : s.Blocks setts qName rr res) :
    s.filterAnswers setts qName (rr :: rest) i = .ok (s.stripRecord rr :: rest, some res) := by
  rw [filterAnswers, blocks.1]
  exact if_pos blocks.2

theorem filterAnswers_error {err : Bytes} (failed : s.checkRecord setts qName rr = .error err) :
    s.filterAnswers setts qName (rr :: rest) i = .error (.filteringAnswer i err) := by
  rw [filterAnswers, failed]

theorem filterAnswers_passes (passes : s.Passes setts qName rr) :
    s.filterAnswers setts qName (rr :: rest) i =
      match s.filterAnswers setts qName rest (i + 1) with
      | .error err => .error err
      | .ok (answers, found) => .ok (s.stripRecord rr :: answers, found) := by
  obtain ⟨found, checked, unfiltered⟩ := passes
  rw [filterAnswers, checked]
  cases found with
  | none => rfl
  | some res => exact if_neg (Bool.eq_false_iff.mp (unfiltered res rfl))

/-- The scan goes past every record, ends with a result, or fails. -/
theorem filterAnswers_cases (s : Server) (setts : Settings) (qName : Bytes) (answer : List RR)
    (i : Nat) :
    ((∀ rr ∈ answer, s.Passes setts qName rr) ∧
      s.filterAnswers setts qName answer i = .ok (answer.map s.stripRecord, none)) ∨
    (∃ answers res, s.BlocksAnswer setts qName answer res ∧
      s.filterAnswers setts qName answer i = .ok (answers, some res)) ∨
    (∃ err, (∃ rr ∈ answer, ¬ s.Passes setts qName rr) ∧
      (∀ res, ¬ s.BlocksAnswer setts qName answer res) ∧
      s.filterAnswers setts qName answer i = .error err) := by
  induction answer generalizing i with
  | nil => exact Or.inl ⟨nofun, rfl⟩
  | cons rr rest ih =>
    obtain passes | ⟨res, blocks⟩ | ⟨err, failed⟩ := record_cases s setts qName rr
    · rw [filterAnswers_passes passes]
      obtain ⟨all, scanned⟩ | ⟨answers, res, blocks, scanned⟩ |
        ⟨err, ⟨other, member, stuck⟩, unblocked, scanned⟩ := ih (i + 1)
      · rw [scanned]
        exact Or.inl ⟨List.forall_mem_cons.mpr ⟨passes, all⟩, rfl⟩
      · rw [scanned]
        exact Or.inr (Or.inl ⟨_, res, blocks.cons passes, rfl⟩)
      · rw [scanned]
        refine Or.inr (Or.inr ⟨err, ⟨other, List.mem_cons_of_mem _ member, stuck⟩, ?_, rfl⟩)
        intro res blocks
        exact unblocked res (blocks.tail passes)
    · rw [filterAnswers_blocks blocks]
      exact Or.inr (Or.inl ⟨_, res, ⟨[], rr, rest, rfl, nofun, blocks⟩, rfl⟩)
    · rw [filterAnswers_error failed]
      refine Or.inr (Or.inr ⟨_, ⟨rr, List.mem_cons_self, ?_⟩, ?_, rfl⟩)
      · exact not_passes_of_error failed
      · intro res ⟨before, other, after, split, passed, blocks⟩
        cases before with
        | nil =>
          obtain ⟨rfl, rfl⟩ := List.cons.inj split
          nomatch failed.symm.trans blocks.1
        | cons head before =>
          obtain ⟨rfl, rfl⟩ := List.cons.inj split
          exact not_passes_of_error failed (passed rr List.mem_cons_self)

theorem BlocksAnswer.not_all_pass {answer : List RR} (blocks : s.BlocksAnswer setts qName answer res) :
    ∃ rr ∈ answer, ¬ s.Passes setts qName rr := by
  obtain ⟨before, rr, after, rfl, _, blocks⟩ := blocks
  exact ⟨rr, by simp, blocks.not_passes⟩

end Scan

variable {m : Msg}

/-- The response of an upstream is delivered with its records stripped, is replaced, or is
lost to an error. -/
theorem filterAfterResponse_cases (s : Server) (dctx : DnsContext) (protected_ : dctx.protectionEnabled = true)
    (upstream : dctx.responseFromUpstream = true) (filtering : dctx.setts.filteringEnabled = true)
    (here : dctx.proxyCtx.res = some m) :
    let qName := hostOf dctx.proxyCtx.req.question
    ((∀ rr ∈ m.answer, s.Passes dctx.setts qName rr) ∧ s.filterAfterResponse dctx =
        (dctx.setRes { m with answer := m.answer.map s.stripRecord }, .success)) ∨
    (∃ res answer, s.BlocksAnswer dctx.setts qName m.answer res ∧ s.filterAfterResponse dctx =
        ({ dctx.setRes (s.genDNSFilterMessage dctx.proxyCtx res) with
            result := res
            origResp := some { m with answer } }, .success)) ∨
    (∃ err, (∃ rr ∈ m.answer, ¬ s.Passes dctx.setts qName rr) ∧
      (∀ res, ¬ s.BlocksAnswer dctx.setts qName m.answer res) ∧
        s.filterAfterResponse dctx = (dctx, .error err)) := by
  dsimp only
  simp only [filterAfterResponse, filterDNSResponse, protected_, upstream, filtering, here,
    Bool.not_true, Bool.or_self, Bool.false_eq_true, ↓reduceIte]
  obtain ⟨all, scanned⟩ | ⟨answer, res, blocks, scanned⟩ | ⟨err, stuck, unblocked, scanned⟩ :=
    filterAnswers_cases s dctx.setts (hostOf dctx.proxyCtx.req.question) m.answer 0
  · rw [scanned]
    exact Or.inl ⟨all, rfl⟩
  · rw [scanned]
    exact Or.inr (Or.inl ⟨res, answer, blocks, rfl⟩)
  · rw [scanned]
    exact Or.inr (Or.inr ⟨err, stuck, unblocked, rfl⟩)

end AdGuardHome.Dnsforward.Server
