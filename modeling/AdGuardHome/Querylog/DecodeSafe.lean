import AdGuardHome.Lib.Fallible
import AdGuardHome.Querylog.Decode

namespace AdGuardHome.Querylog

open JSONTokens

section Loops

variable {State Result : Type} {round : State → State ⊕ Except Stop Result}
  {size : State → Nat} {out : Result → Nat}

/-- The rounds of a loop read tokens, and none of them runs out of rounds itself. -/
structure Consuming (size : State → Nat) (out : Result → Nat)
    (round : State → State ⊕ Except Stop Result) : Prop where
  goes : ∀ state next, round state = .inl next → size next < size state
  leaves : ∀ state result, round state = .inr (.ok result) → out result ≤ size state
  fueled : ∀ state, round state ≠ .inr (.error .fuel)

namespace Consuming

variable (consuming : Consuming size out round)

include consuming

theorem loop_eq (state : State) : ∃ result, Looping.Ends round state result ∧
    loop round (size state + 1) state = result := by
  obtain ⟨result, run⟩ := Looping.run_of_measure size (fun _ => True)
    (fun one next _ goes => ⟨trivial, consuming.goes one next goes⟩) trivial
    (Nat.lt_succ_self (size state))
  exact ⟨result, Looping.ends_iff_run.mpr ⟨_, run⟩, by rw [loop, run, Option.getD_some]⟩

theorem loop_iff {state : State} {result : Except Stop Result} :
    loop round (size state + 1) state = result ↔ Looping.Ends round state result := by
  obtain ⟨other, ends, same⟩ := consuming.loop_eq state
  rw [same]
  exact ⟨fun equal => equal ▸ ends, fun again => ends.unique again⟩

theorem loop_fueled (state : State) : loop round (size state + 1) state ≠ .error .fuel := by
  rw [Ne, consuming.loop_iff, Looping.ends_iff_reaches]
  rintro ⟨last, _, left⟩
  exact consuming.fueled last left

theorem loop_leaves {state : State} {result : Result}
    (left : loop round (size state + 1) state = .ok result) : out result ≤ size state := by
  rw [consuming.loop_iff, Looping.ends_iff_reaches] at left
  obtain ⟨last, path, left⟩ := left
  induction path using Relation.ReflTransGen.head_induction_on with
  | refl => exact consuming.leaves last result left
  | head goes _ ih => exact Nat.le_trans ih (Nat.le_of_lt (consuming.goes _ _ goes))

theorem loop_panics {state : State} :
    loop round (size state + 1) state = .error .panic ↔
      ∃ last, Relation.ReflTransGen (fun one next => round one = .inl next) state last ∧
        round last = .inr (.error .panic) := by
  rw [consuming.loop_iff, Looping.ends_iff_reaches]

end Consuming

theorem goOn_eq_inl {step : Except Stop State} {next : State} :
    (goOn step : State ⊕ Except Stop Result) = .inl next ↔ step = .ok next := by
  cases step with
  | ok state => simp [goOn]
  | error stop => simp [goOn]

theorem goOn_eq_inr {step : Except Stop State} {result : Except Stop Result} :
    goOn step = .inr result ↔ ∃ stop, step = .error stop ∧ result = .error stop := by
  cases step with
  | ok state => simp [goOn]
  | error stop => simp [goOn, eq_comm]

end Loops

section Steps

variable {Addr Time : Type} (parsers : EntryParsers Addr Time)

def left (pos : Decoding Addr Time) : Nat := pos.1.tokens.length

structure Ending (step : Decoding Addr Time → Except Stop (Decoding Addr Time)) : Prop where
  fueled : ∀ pos, step pos ≠ .error .fuel
  consumes : ∀ pos next, step pos = .ok next → left next ≤ left pos

theorem Ending.of_loop {round : Decoding Addr Time → Decoding Addr Time ⊕ Except Stop _}
    (consuming : Consuming left left round) :
    Ending fun pos => loop round (pos.1.tokens.length + 1) pos where
  fueled pos := consuming.loop_fueled pos
  consumes _ _ found := consuming.loop_leaves found

/-- A round after a token, which ends and does not read a token twice. -/
structure Rest {State : Type} (size : State → Nat) (bound : Nat)
    (round : State ⊕ Except Stop (Decoding Addr Time)) : Prop where
  goes : ∀ next, round = .inl next → size next ≤ bound
  leaves : ∀ result, round = .inr (.ok result) → left result ≤ bound
  fueled : round ≠ .inr (.error .fuel)

namespace Rest

variable {State : Type} {size : State → Nat} {bound : Nat}

theorem inl {next : State} (less : size next ≤ bound) :
    @Rest Addr Time _ size bound (.inl next) where
  goes _ same := Sum.inl.inj same ▸ less
  leaves _ same := by cases same
  fueled same := by cases same

theorem inr {result : Decoding Addr Time} (less : left result ≤ bound) :
    Rest size bound (.inr (.ok result)) where
  goes _ same := by cases same
  leaves _ same := by
    cases same
    exact less
  fueled same := by cases same

theorem goOn {step : Except Stop State} (fueled : step ≠ .error .fuel)
    (less : ∀ next, step = .ok next → size next ≤ bound) :
    @Rest Addr Time _ size bound (goOn step) where
  goes next same := less next (goOn_eq_inl.mp same)
  leaves result same := by
    obtain ⟨stop, _, equal⟩ := goOn_eq_inr.mp same
    cases equal
  fueled same := by
    obtain ⟨stop, found, equal⟩ := goOn_eq_inr.mp same
    cases equal
    exact fueled found

theorem mono {more : Nat} {round : State ⊕ Except Stop (Decoding Addr Time)}
    (rest : Rest size bound round) (le : bound ≤ more) : Rest size more round where
  goes next same := Nat.le_trans (rest.goes next same) le
  leaves result same := Nat.le_trans (rest.leaves result same) le
  fueled := rest.fueled

end Rest

/-- A loop whose rounds read a token first. -/
theorem Consuming.of_token {State : Type} {size : State → Nat}
    {round : State → State ⊕ Except Stop (Decoding Addr Time)} (decoder : State → Decoder Bytes)
    (same : ∀ state, size state = (decoder state).tokens.length)
    (done : ∀ state, (decoder state).token = none → Rest size (size state) (round state) ∧
      ∀ next, round state ≠ .inl next)
    (reads : ∀ state token dec, (decoder state).token = some (token, dec) →
      Rest size dec.tokens.length (round state)) : Consuming size left round := by
  have cases_ : ∀ state, Rest size (size state) (round state) ∧
      ∀ next, round state = .inl next → size next < size state := by
    intro state
    rcases read : (decoder state).token with _ | ⟨token, dec⟩
    · exact ⟨(done state read).1, fun next goes => absurd goes ((done state read).2 next)⟩
    · have less := Decoder.token_length read
      rw [← same] at less
      have rest := reads state token dec read
      exact ⟨rest.mono (Nat.le_of_lt less), fun next goes =>
        Nat.lt_of_le_of_lt (rest.goes next goes) less⟩
  exact ⟨fun state => (cases_ state).2, fun state => (cases_ state).1.leaves,
    fun state => (cases_ state).1.fueled⟩

theorem decodeVTokenAndAddRule_left (i : Nat) (dec : Decoder Bytes)
    (rules : List (ResultRule Addr)) :
    (decodeVTokenAndAddRule i dec rules).2.2.tokens.length ≤ dec.tokens.length := by
  unfold decodeVTokenAndAddRule
  split
  · exact Nat.le_refl _
  · rename_i read
    exact Nat.le_of_lt (Decoder.token_length read)

theorem decodeResultRuleKey_ending (key : Bytes) (idx : Nat) :
    Ending (@decodeResultRuleKey _ Time parsers key idx) where
  fueled := by
    rintro ⟨dec, ent⟩
    unfold decodeResultRuleKey
    dsimp only
    repeat' split
    all_goals exact fun equal => (by cases equal)
  consumes := by
    rintro ⟨dec, ent⟩ next found
    have shorter := decodeVTokenAndAddRule_left idx dec ent.result.rules
    unfold decodeResultRuleKey at found
    dsimp only at found
    repeat' split at found
    all_goals cases found
    · exact Nat.le_refl _
    · exact shorter
    · exact shorter

theorem decodeResultRuleTokenRound_consuming :
    Consuming (fun state : Nat × Decoding Addr Time => left state.2) left
      (decodeResultRuleTokenRound parsers) := by
  refine .of_token (fun state => state.2.1) (fun _ => rfl) ?_ ?_
  · rintro ⟨i, dec, ent⟩ read
    simp only [decodeResultRuleTokenRound, read]
    exact ⟨.inr (Nat.le_refl _), fun next goes => (by cases goes)⟩
  · rintro ⟨i, dec, ent⟩ token rest read
    simp only [decodeResultRuleTokenRound, read]
    have ending := @decodeResultRuleKey_ending _ Time parsers
    cases token with
    | delim d =>
      cases d with
      | objectEnd => exact .inl (Nat.le_refl _)
      | arrayEnd => exact .inr (Nat.le_refl _)
      | objectStart => exact .inl (Nat.le_refl _)
      | arrayStart => exact .inl (Nat.le_refl _)
    | string key =>
      refine .goOn ?_ ?_
      · rw [Ne, Fallible.map_error_iff]
        exact (ending key i).fueled _
      · intro next found
        obtain ⟨pos, inner, rfl⟩ := Fallible.map_ok_iff.mp found
        exact (ending key i).consumes _ _ inner
    | number n => exact .inr (Nat.le_refl _)
    | bool b => exact .inr (Nat.le_refl _)
    | null => exact .inr (Nat.le_refl _)

theorem decodeResultRules_ending : Ending (@decodeResultRules _ Time parsers) := by
  have consuming := @decodeResultRuleTokenRound_consuming _ Time parsers
  constructor
  · rintro ⟨dec, ent⟩
    unfold decodeResultRules
    dsimp only
    split
    · exact fun equal => (by cases equal)
    · exact consuming.loop_fueled (0, _)
    · exact fun equal => (by cases equal)
  · rintro ⟨dec, ent⟩ next found
    unfold decodeResultRules at found
    dsimp only at found
    split at found
    · cases found
      exact Nat.le_refl _
    · rename_i d rest read
      have less := Decoder.token_length read
      exact Nat.le_trans (@Consuming.loop_leaves _ _ _ _ _ consuming (0, rest, ent) _ found)
        (Nat.le_of_lt less)
    · rename_i rest _ read
      cases found
      exact Nat.le_of_lt (Decoder.token_length read)

theorem decodeListRound_consuming
    {add : Bytes → LogEntry Addr Time → Except Stop (LogEntry Addr Time)}
    (fueled : ∀ v ent, add v ent ≠ .error .fuel) :
    Consuming left left (decodeListRound add) := by
  refine .of_token Prod.fst (fun _ => rfl) ?_ ?_
  · rintro ⟨dec, ent⟩ read
    simp only [decodeListRound, read]
    exact ⟨.inr (Nat.le_refl _), fun next goes => (by cases goes)⟩
  · rintro ⟨dec, ent⟩ token rest read
    simp only [decodeListRound, read]
    cases token with
    | delim d =>
      cases d with
      | arrayStart => exact .inl (Nat.le_refl _)
      | arrayEnd => exact .inr (Nat.le_refl _)
      | objectStart => exact .inr (Nat.le_refl _)
      | objectEnd => exact .inr (Nat.le_refl _)
    | string v =>
      refine .goOn ?_ ?_
      · rw [Ne, Fallible.map_error_iff]
        exact fueled v ent
      · intro next found
        obtain ⟨_, _, rfl⟩ := Fallible.map_ok_iff.mp found
        exact Nat.le_refl _
    | number n => exact .inl (Nat.le_refl _)
    | bool b => exact .inl (Nat.le_refl _)
    | null => exact .inl (Nat.le_refl _)

theorem appendIfValidIP_fueled (orig : List Addr) (s : Bytes) :
    appendIfValidIP parsers orig s ≠ .error .fuel := by
  unfold appendIfValidIP
  repeat' split
  all_goals exact fun equal => (by cases equal)

theorem decodeResultReverseHosts_ending :
    Ending (@decodeResultReverseHosts _ Time parsers) :=
  .of_loop (decodeListRound_consuming fun _ _ equal => (by cases equal))

theorem decodeResultIPList_ending : Ending (@decodeResultIPList _ Time parsers) := by
  refine .of_loop (decodeListRound_consuming fun v ent => ?_)
  rw [Ne, Fallible.map_error_iff]
  exact appendIfValidIP_fueled parsers _ v

theorem decodeResultDNSRewriteResultKey_left (key : Bytes) (pos : Decoding Addr Time) :
    left (decodeResultDNSRewriteResultKey parsers key pos) ≤ left pos := by
  obtain ⟨dec, ent⟩ := pos
  unfold decodeResultDNSRewriteResultKey
  dsimp only
  split
  · split
    · exact Nat.le_refl _
    · rename_i read
      exact Nat.le_of_lt (Decoder.token_length read)
  · split
    · exact dec.decode_length
    · exact Nat.le_refl _

theorem parseKeyToken_left {dec rest : Decoder Bytes} {token : Token Bytes}
    (read : dec.token = some (token, rest)) : (parseKeyToken dec).2 = rest := by
  simp only [parseKeyToken, read]
  cases token with
  | delim d => cases d <;> rfl
  | string s => rfl
  | number n => rfl
  | bool b => rfl
  | null => rfl

theorem parseKeyToken_none {dec : Decoder Bytes} (nothing : dec.token = none) :
    parseKeyToken dec = (none, dec) := by
  simp only [parseKeyToken, nothing]

theorem decodeResultDNSRewriteResultRound_consuming :
    Consuming left left (@decodeResultDNSRewriteResultRound _ Time parsers) := by
  refine .of_token Prod.fst (fun _ => rfl) ?_ ?_
  · rintro ⟨dec, ent⟩ nothing
    simp only [decodeResultDNSRewriteResultRound, parseKeyToken_none nothing]
    exact ⟨.inr (Nat.le_refl _), fun next goes => (by cases goes)⟩
  · rintro ⟨dec, ent⟩ token rest read
    have same := parseKeyToken_left read
    unfold decodeResultDNSRewriteResultRound
    dsimp only
    generalize parseKeyToken dec = parsed at same
    obtain ⟨key, dec'⟩ := parsed
    subst same
    cases key with
    | none => exact .inr (Nat.le_refl _)
    | some key =>
      dsimp only
      split
      · exact .inl (Nat.le_refl _)
      · exact .inl (decodeResultDNSRewriteResultKey_left parsers key _)

theorem decodeResultDNSRewriteResult_ending :
    Ending (@decodeResultDNSRewriteResult _ Time parsers) :=
  .of_loop (decodeResultDNSRewriteResultRound_consuming parsers)

theorem handleValue_rest (handler : LogEntryHandler Addr Time) (pos : Decoding Addr Time) :
    Rest left (left pos) (handleValue handler pos) := by
  obtain ⟨dec, ent⟩ := pos
  unfold handleValue
  dsimp only
  split
  · exact .inr (Nat.le_refl _)
  · rename_i read
    have less := Nat.le_of_lt (Decoder.token_length read)
    split
    · exact .inl less
    · exact .inr less

theorem handlerOf_eq_some {Handler : Type} {handlers : List (String × Handler)} {key : Bytes}
    {handler : Handler} (found : handlerOf handlers key = some handler) :
    ∃ name, (name, handler) ∈ handlers ∧ ascii name = key := by
  obtain ⟨⟨name, value⟩, entry, same⟩ := Option.map_eq_some_iff.mp found
  cases same
  have here := List.find?_some entry
  exact ⟨name, List.mem_of_find?_eq_some entry, of_decide_eq_true here⟩

theorem handlerOf_cons {Handler : Type} (name : String) (handler : Handler)
    (handlers : List (String × Handler)) (key : Bytes) :
    handlerOf ((name, handler) :: handlers) key =
      if ascii name = key then some handler else handlerOf handlers key := by
  rw [handlerOf, List.find?_cons]
  by_cases here : ascii name = key
  · simp only [here, decide_true, if_true, Option.map_some]
  · simp only [here, decide_false, if_false, handlerOf]

/-- Under different names each handler is found under its own. -/
theorem handlerOf_of_mem {Handler : Type} {handlers : List (String × Handler)}
    (distinct : ((handlers.map Prod.fst).map ascii).Nodup) {name : String}
    {handler : Handler} (member : (name, handler) ∈ handlers) :
    handlerOf handlers (ascii name) = some handler := by
  induction handlers with
  | nil => cases member
  | cons first handlers ih =>
    obtain ⟨other, value⟩ := first
    obtain ⟨fresh, distinct⟩ := List.nodup_cons.mp distinct
    rw [handlerOf_cons]
    rcases List.mem_cons.mp member with same | later
    · cases same
      rw [if_pos rfl]
    · have other : ascii other ≠ ascii name :=
        fun same => fresh (same ▸ List.mem_map_of_mem (List.mem_map_of_mem later))
      rw [if_neg other]
      exact ih distinct later

theorem resultDecHandlers_ending
    {decode : Decoding Addr Time → Except Stop (Decoding Addr Time)} {key : Bytes}
    (found : handlerOf (resultDecHandlers parsers) key = some decode) : Ending decode := by
  obtain ⟨name, member, _⟩ := handlerOf_eq_some found
  simp only [resultDecHandlers, List.mem_cons, Prod.mk.injEq, List.not_mem_nil, or_false] at member
  rcases member with ⟨_, rfl⟩ | ⟨_, rfl⟩ | ⟨_, rfl⟩ | ⟨_, rfl⟩
  · exact decodeResultReverseHosts_ending parsers
  · exact decodeResultIPList_ending parsers
  · exact decodeResultRules_ending parsers
  · exact decodeResultDNSRewriteResult_ending parsers

theorem decodeResultKeyValue_consuming :
    Consuming left left (@decodeResultKeyValue _ Time parsers) := by
  refine .of_token Prod.fst (fun _ => rfl) ?_ ?_
  · rintro ⟨dec, ent⟩ nothing
    simp only [decodeResultKeyValue, parseKeyToken_none nothing]
    exact ⟨.inr (Nat.le_refl _), fun next goes => (by cases goes)⟩
  · rintro ⟨dec, ent⟩ token rest read
    have same := parseKeyToken_left read
    unfold decodeResultKeyValue
    dsimp only
    generalize parseKeyToken dec = parsed at same
    obtain ⟨key, dec'⟩ := parsed
    subst same
    cases key with
    | none => exact .inr (Nat.le_refl _)
    | some key =>
      dsimp only
      split
      · exact .inl (Nat.le_refl _)
      · split
        · rename_i decode found
          have ending := resultDecHandlers_ending parsers found
          exact .goOn (ending.fueled _) (ending.consumes _)
        · split
          · exact .inl (Nat.le_refl _)
          · exact handleValue_rest _ (dec', ent)

theorem decodeResult_ending : Ending (@decodeResult _ Time parsers) := by
  have ending := Ending.of_loop (@decodeResultKeyValue_consuming _ Time parsers)
  constructor
  · intro pos
    rw [Ne, decodeResult, Fallible.map_error_iff]
    exact ending.fueled pos
  · intro pos next found
    obtain ⟨last, inner, rfl⟩ := Fallible.map_ok_iff.mp found
    exact ending.consumes pos last inner

theorem decodeLogEntryKeyValue_consuming :
    Consuming left left (decodeLogEntryKeyValue parsers) := by
  refine .of_token Prod.fst (fun _ => rfl) ?_ ?_
  · rintro ⟨dec, ent⟩ nothing
    simp only [decodeLogEntryKeyValue, nothing]
    exact ⟨.inr (Nat.le_refl _), fun next goes => (by cases goes)⟩
  · rintro ⟨dec, ent⟩ token rest read
    simp only [decodeLogEntryKeyValue, read]
    cases token with
    | delim d => exact .inl (Nat.le_refl _)
    | string key =>
      dsimp only
      split
      · have ending := @decodeResult_ending _ Time parsers
        exact .goOn (ending.fueled _) (ending.consumes _)
      · split
        · exact .inl (Nat.le_refl _)
        · exact handleValue_rest _ (rest, ent)
    | number n => exact .inr (Nat.le_refl _)
    | bool b => exact .inr (Nat.le_refl _)
    | null => exact .inr (Nat.le_refl _)

theorem decodeLogEntry_fueled (ent : LogEntry Addr Time) (tokens : List (Token Bytes)) :
    decodeLogEntry parsers ent tokens ≠ .error .fuel := by
  rw [Ne, decodeLogEntry, Fallible.map_error_iff]
  exact (decodeLogEntryKeyValue_consuming parsers).loop_fueled (.new tokens, ent)

end Steps

section Panics

variable {Addr Time : Type} (parsers : EntryParsers Addr Time)

def counted (i n : Nat) : Nat := if n < i + 1 then n + 1 else n

/-- The tokens of an array of rules, from a place before which `i` objects have been closed
and `n` rules are there: whenever a field of a rule has a value, there are as many rules as
closed objects. -/
def RulesFit : Nat → Nat → List (Token Bytes) → Prop
  | _, _, [] => True
  | i, n, .delim .objectEnd :: rest => RulesFit (i + 1) n rest
  | _, _, .delim .arrayEnd :: _ => True
  | i, n, .delim _ :: rest => RulesFit i n rest
  | i, n, .string key :: rest =>
    match handlerOf (ruleFields parsers) key with
    | none => RulesFit i n rest
    | some field =>
      match rest with
      | [] => True
      | vToken :: rest =>
        ((field vToken).isSome → i ≤ n) ∧ RulesFit i (counted i n) rest
  | _, _, _ :: _ => True

theorem decodeVTokenAndAddRule_cons (i : Nat) (vToken : Token Bytes) (rest : List (Token Bytes))
    (frames : List Frame) (rules : List (ResultRule Addr)) :
    ∃ more, decodeVTokenAndAddRule i ⟨vToken :: rest, frames⟩ rules =
        (more, some vToken, ⟨rest, vToken.move frames⟩) ∧
      more.length = counted i rules.length := by
  refine ⟨_, rfl, ?_⟩
  unfold counted
  split
  · rw [List.length_append]
    rfl
  · rfl

theorem ruleTokenRound_string (key : Bytes) (i : Nat) (rest : List (Token Bytes))
    (frames : List Frame) (ent : LogEntry Addr Time) :
    decodeResultRuleTokenRound parsers (i, ⟨.string key :: rest, frames⟩, ent) =
      goOn ((decodeResultRuleKey parsers key i
        (⟨rest, Token.move (.string key) frames⟩, ent)).map fun next => (i, next)) := rfl

/-- What a round of the loop over the tokens of the rules does: it ends the loop at tokens that
fit, it goes on with fewer tokens that fit just where these do, or it panics where they do not. -/
inductive RuleStep (i : Nat) (tokens : List (Token Bytes)) (frames : List Frame)
    (ent : LogEntry Addr Time) : Prop
  | ended {pos : Decoding Addr Time}
      (left : decodeResultRuleTokenRound parsers (i, ⟨tokens, frames⟩, ent) = .inr (.ok pos))
      (fit : RulesFit parsers i ent.result.rules.length tokens)
  | goesOn {j : Nat} {later : List (Token Bytes)} {frames' : List Frame}
      {ent' : LogEntry Addr Time}
      (goes : decodeResultRuleTokenRound parsers (i, ⟨tokens, frames⟩, ent) =
        .inl (j, ⟨later, frames'⟩, ent'))
      (shorter : later.length < tokens.length)
      (same : RulesFit parsers i ent.result.rules.length tokens ↔
        RulesFit parsers j ent'.result.rules.length later)
  | panics
      (left : decodeResultRuleTokenRound parsers (i, ⟨tokens, frames⟩, ent) =
        .inr (.error .panic))
      (unfit : ¬ RulesFit parsers i ent.result.rules.length tokens)

/-- A key that has a handler, and its value. -/
theorem ruleStep_field {key : Bytes}
    {field : Token Bytes → Option (ResultRule Addr → ResultRule Addr)}
    (found : handlerOf (ruleFields parsers) key = some field) (i : Nat) (vToken : Token Bytes)
    (rest : List (Token Bytes)) (frames : List Frame) (ent : LogEntry Addr Time) :
    RuleStep parsers i (.string key :: vToken :: rest) frames ent := by
  obtain ⟨more, added, count⟩ := decodeVTokenAndAddRule_cons i vToken rest
    (Token.move (.string key) frames) ent.result.rules
  have fits : RulesFit parsers i ent.result.rules.length (.string key :: vToken :: rest) ↔
      ((field vToken).isSome → i ≤ ent.result.rules.length) ∧
        RulesFit parsers i more.length rest := by
    rw [RulesFit, found, count]
  have inside : i < more.length ↔ i ≤ ent.result.rules.length := by
    rw [count, counted]
    split <;> omega
  have round := ruleTokenRound_string parsers key i (vToken :: rest) frames ent
  simp only [decodeResultRuleKey, found, added, Option.bind_some] at round
  have shorter : rest.length < (Token.string key :: vToken :: rest).length :=
    Nat.lt_trans (Nat.lt_succ_self _) (Nat.lt_succ_self _)
  cases typed : field vToken with
  | none =>
    rw [typed] at round fits
    exact .goesOn (show _ = Sum.inl (i, Decoder.mk rest _, ent.withRules more) from round) shorter
      (fits.trans (and_iff_right fun some_ => (by cases some_)))
  | some set =>
    rw [typed] at round fits
    by_cases fit : i < more.length
    · simp only [if_pos fit] at round
      refine .goesOn (show _ = Sum.inl (i, Decoder.mk rest _, ent.withRules (more.modify i set))
        from round) shorter ?_
      rw [fits]
      change _ ↔ RulesFit parsers i (more.modify i set).length rest
      rw [List.length_modify]
      exact and_iff_right fun _ => inside.mp fit
    · simp only [if_neg fit] at round
      exact .panics round fun all => fit (inside.mpr ((fits.mp all).1 rfl))

theorem ruleStep_string (key : Bytes) (i : Nat) (rest : List (Token Bytes))
    (frames : List Frame) (ent : LogEntry Addr Time) :
    RuleStep parsers i (.string key :: rest) frames ent := by
  have round := ruleTokenRound_string parsers key i rest frames ent
  cases found : handlerOf (ruleFields parsers) key with
  | none =>
    simp only [decodeResultRuleKey, found] at round
    exact .goesOn round (Nat.lt_succ_self _) (by rw [RulesFit, found])
  | some field =>
    cases rest with
    | nil =>
      simp only [decodeResultRuleKey, found] at round
      exact .goesOn round (Nat.lt_succ_self _) (by simp only [RulesFit, found])
    | cons vToken rest => exact ruleStep_field parsers found i vToken rest frames ent

theorem ruleStep (i : Nat) (tokens : List (Token Bytes)) (frames : List Frame)
    (ent : LogEntry Addr Time) : RuleStep parsers i tokens frames ent := by
  cases tokens with
  | nil => exact .ended rfl trivial
  | cons token rest =>
    cases token with
    | delim d =>
      cases d with
      | arrayEnd => exact .ended rfl trivial
      | objectEnd => exact .goesOn rfl (Nat.lt_succ_self _) Iff.rfl
      | objectStart => exact .goesOn rfl (Nat.lt_succ_self _) Iff.rfl
      | arrayStart => exact .goesOn rfl (Nat.lt_succ_self _) Iff.rfl
    | string key => exact ruleStep_string parsers key i rest frames ent
    | number n => exact .ended rfl trivial
    | bool b => exact .ended rfl trivial
    | null => exact .ended rfl trivial

/-- The loop over the tokens of the rules panics when they do not fit. -/
theorem ruleToken_panics (i : Nat) (tokens : List (Token Bytes)) (frames : List Frame)
    (ent : LogEntry Addr Time) :
    Looping.Ends (decodeResultRuleTokenRound parsers) (i, ⟨tokens, frames⟩, ent)
        (.error .panic) ↔
      ¬ RulesFit parsers i ent.result.rules.length tokens := by
  induction length : tokens.length using Nat.strong_induction_on generalizing i tokens frames ent
    with
  | _ size ih =>
  cases ruleStep parsers i tokens frames ent with
  | ended left fit =>
    rw [Looping.ends_leave left]
    exact ⟨fun same => (by cases same), fun never => absurd fit never⟩
  | goesOn goes shorter same =>
    rw [Looping.ends_again goes, same]
    exact ih _ (length ▸ shorter) _ _ _ _ rfl
  | panics left unfit =>
    rw [Looping.ends_leave left]
    exact ⟨fun _ => unfit, fun _ => rfl⟩

variable (pos : Decoding Addr Time)

theorem decodeResultRules_panics :
    decodeResultRules parsers pos = .error .panic ↔
      ∃ d dec, pos.1.token = some (.delim d, dec) ∧
        ¬ RulesFit parsers 0 pos.2.result.rules.length dec.tokens := by
  obtain ⟨dec, ent⟩ := pos
  unfold decodeResultRules
  dsimp only
  split
  · rename_i nothing
    constructor
    · exact fun same => (by cases same)
    · rintro ⟨d, rest, read, _⟩
      cases nothing.symm.trans read
  · rename_i d rest read
    have panics : decodeResultRuleToken parsers (rest, ent) = .error .panic ↔
        ¬ RulesFit parsers 0 ent.result.rules.length rest.tokens :=
      (decodeResultRuleTokenRound_consuming parsers).loop_iff.trans
        (ruleToken_panics parsers 0 rest.tokens rest.frames ent)
    rw [panics]
    constructor
    · exact fun never => ⟨d, rest, read, never⟩
    · rintro ⟨d', rest', read', never⟩
      cases read.symm.trans read'
      exact never
  · rename_i token rest other read
    constructor
    · exact fun same => (by cases same)
    · rintro ⟨d, rest', read', _⟩
      cases read.symm.trans read'
      exact absurd rfl (other d)

theorem decodeListRound_quiet
    {add : Bytes → LogEntry Addr Time → Except Stop (LogEntry Addr Time)}
    (quiet : ∀ v ent, add v ent ≠ .error .panic) (pos : Decoding Addr Time) :
    decodeListRound add pos ≠ .inr (.error .panic) := by
  obtain ⟨dec, ent⟩ := pos
  unfold decodeListRound
  dsimp only
  split
  · exact fun same => (by cases same)
  · exact fun same => (by cases same)
  · exact fun same => (by cases same)
  · rename_i v rest read
    intro same
    obtain ⟨stop, failed, equal⟩ := goOn_eq_inr.mp same
    cases equal
    exact quiet v ent (Fallible.map_error_iff.mp failed)
  · exact fun same => (by cases same)

theorem loop_quiet
    {round : Decoding Addr Time → Decoding Addr Time ⊕ Except Stop (Decoding Addr Time)}
    (consuming : Consuming left left round) (quiet : ∀ pos, round pos ≠ .inr (.error .panic))
    (pos : Decoding Addr Time) :
    loop round (pos.1.tokens.length + 1) pos ≠ .error .panic := by
  intro panics
  obtain ⟨last, _, left⟩ := consuming.loop_panics.mp panics
  exact quiet last left

theorem handleValue_quiet (handler : LogEntryHandler Addr Time) (pos : Decoding Addr Time)
    (stop : Stop) : handleValue handler pos ≠ .inr (.error stop) := by
  obtain ⟨dec, ent⟩ := pos
  unfold handleValue
  dsimp only
  split
  · exact fun same => (by cases same)
  · split
    · exact fun same => (by cases same)
    · exact fun same => (by cases same)

theorem decodeResultReverseHosts_quiet :
    decodeResultReverseHosts parsers pos ≠ .error .panic :=
  loop_quiet (decodeListRound_consuming fun _ _ equal => (by cases equal))
    (decodeListRound_quiet fun _ _ equal => (by cases equal)) pos

theorem decodeResultDNSRewriteResult_quiet :
    decodeResultDNSRewriteResult parsers pos ≠ .error .panic := by
  refine loop_quiet (decodeResultDNSRewriteResultRound_consuming parsers) ?_ pos
  rintro ⟨dec, ent⟩
  unfold decodeResultDNSRewriteResultRound
  dsimp only
  split
  · exact fun same => (by cases same)
  · split
    · exact fun same => (by cases same)
    · exact fun same => (by cases same)

theorem parseKeyToken_some {dec rest : Decoder Bytes} {key : Bytes}
    (parsed : parseKeyToken dec = (some key, rest)) (nonempty : key ≠ []) :
    dec.token = some (.string key, rest) := by
  unfold parseKeyToken at parsed
  split at parsed
  · cases parsed
  · cases parsed
  · cases parsed
    exact absurd rfl nonempty
  · rename_i read
    cases parsed
    exact read
  · cases parsed

/-- The rules of a result are read where its decoding gets to their key, and a delimiter
follows. -/
def RulesRead (before pos : Decoding Addr Time) : Prop :=
  ∃ key d, before.1.token = some (.string (ascii "Rules"), key) ∧
    key.token = some (.delim d, pos.1) ∧ pos.2 = before.2

section Valid

variable (valid : ∀ s, parsers.isValidIPString s = true → (parsers.parseAddr s).isSome = true)

include valid

theorem appendIfValidIP_quiet (orig : List Addr) (s : Bytes) :
    appendIfValidIP parsers orig s ≠ .error .panic := by
  unfold appendIfValidIP
  split
  · rename_i here
    obtain ⟨ip, found⟩ := Option.isSome_iff_exists.mp (valid s here)
    rw [found]
    exact fun same => (by cases same)
  · exact fun same => (by cases same)

theorem decodeResultIPList_quiet (pos : Decoding Addr Time) :
    decodeResultIPList parsers pos ≠ .error .panic := by
  have fueled : ∀ v (ent : LogEntry Addr Time),
      (appendIfValidIP parsers ent.result.ipList v).map (fun ipList =>
        ent.onResult fun res => { res with ipList }) ≠ .error .fuel := by
    intro v ent
    rw [Ne, Fallible.map_error_iff]
    exact appendIfValidIP_fueled parsers _ v
  have quiet : ∀ v (ent : LogEntry Addr Time),
      (appendIfValidIP parsers ent.result.ipList v).map (fun ipList =>
        ent.onResult fun res => { res with ipList }) ≠ .error .panic := by
    intro v ent
    rw [Ne, Fallible.map_error_iff]
    exact appendIfValidIP_quiet parsers valid _ v
  exact loop_quiet (decodeListRound_consuming fueled) (decodeListRound_quiet quiet) pos

theorem resultDecHandlers_panics
    {decode : Decoding Addr Time → Except Stop (Decoding Addr Time)} {key : Bytes}
    (found : handlerOf (resultDecHandlers parsers) key = some decode) (pos : Decoding Addr Time)
    (panics : decode pos = .error .panic) :
    key = ascii "Rules" ∧ decodeResultRules parsers pos = .error .panic := by
  obtain ⟨name, member, rfl⟩ := handlerOf_eq_some found
  simp only [resultDecHandlers, List.mem_cons, Prod.mk.injEq, List.not_mem_nil, or_false] at member
  rcases member with ⟨rfl, rfl⟩ | ⟨rfl, rfl⟩ | ⟨rfl, rfl⟩ | ⟨rfl, rfl⟩
  · exact absurd panics (decodeResultReverseHosts_quiet parsers pos)
  · exact absurd panics (decodeResultIPList_quiet parsers valid pos)
  · exact ⟨rfl, panics⟩
  · exact absurd panics (decodeResultDNSRewriteResult_quiet parsers pos)

/-- A round of the loop over a result panics where it reads rules that do not fit. -/
theorem decodeResultKeyValue_panics (pos : Decoding Addr Time) :
    decodeResultKeyValue parsers pos = .inr (.error .panic) ↔
      ∃ rules, RulesRead pos rules ∧
        ¬ RulesFit parsers 0 rules.2.result.rules.length rules.1.tokens := by
  obtain ⟨dec, ent⟩ := pos
  constructor
  · intro panics
    unfold decodeResultKeyValue at panics
    dsimp only at panics
    split at panics
    · cases panics
    · rename_i key rest parsed
      split at panics
      · cases panics
      · rename_i nonempty
        split at panics
        · rename_i decode found
          obtain ⟨stop, failed, equal⟩ := goOn_eq_inr.mp panics
          cases equal
          obtain ⟨rfl, inner⟩ := resultDecHandlers_panics parsers valid found _ failed
          obtain ⟨d, dec', read, never⟩ := (decodeResultRules_panics parsers _).mp inner
          exact ⟨(dec', ent), ⟨rest, d, parseKeyToken_some parsed nonempty, read, rfl⟩, never⟩
        · split at panics
          · cases panics
          · exact absurd panics (handleValue_quiet _ _ _)
  · rintro ⟨⟨dec', ent'⟩, ⟨key, d, read, delim, same⟩, never⟩
    obtain rfl : ent' = ent := same
    have panics := (decodeResultRules_panics parsers (key, ent')).mpr ⟨d, dec', delim, never⟩
    have parsed : parseKeyToken dec = (some (ascii "Rules"), key) := by
      simp only [parseKeyToken, read]
    have found : handlerOf (resultDecHandlers parsers) (ascii "Rules") =
        some (@decodeResultRules _ Time parsers) := by
      simp +decide only [resultDecHandlers, handlerOf_cons, if_true, if_false]
    have nonempty : ascii "Rules" ≠ [] := by decide
    simp only [decodeResultKeyValue, parsed, if_neg nonempty, found, panics, goOn]

end Valid

/-- The decoding gets from one place to another in the loop over the keys of an entry. -/
def EntryReaches : Decoding Addr Time → Decoding Addr Time → Prop :=
  Relation.ReflTransGen fun pos next => decodeLogEntryKeyValue parsers pos = .inl next

def ResultReaches : Decoding Addr Time → Decoding Addr Time → Prop :=
  Relation.ReflTransGen fun pos next => decodeResultKeyValue parsers pos = .inl next

def RulesReached (start rules : Decoding Addr Time) : Prop :=
  ∃ pos dec before, EntryReaches parsers start pos ∧
    pos.1.token = some (.string (ascii "Result"), dec) ∧
    ResultReaches parsers (dec, pos.2) before ∧ RulesRead before rules

def AllRulesFit (ent : LogEntry Addr Time) (tokens : List (Token Bytes)) : Prop :=
  ∀ rules, RulesReached parsers (.new tokens, ent) rules →
    RulesFit parsers 0 rules.2.result.rules.length rules.1.tokens

theorem decodeLogEntryKeyValue_panics :
    decodeLogEntryKeyValue parsers pos = .inr (.error .panic) ↔
      ∃ dec, pos.1.token = some (.string (ascii "Result"), dec) ∧
        decodeResult parsers (dec, pos.2) = .error .panic := by
  obtain ⟨dec, ent⟩ := pos
  constructor
  · intro panics
    unfold decodeLogEntryKeyValue at panics
    dsimp only at panics
    split at panics
    · cases panics
    · cases panics
    · rename_i key rest read
      split at panics
      · rename_i same
        subst same
        obtain ⟨stop, failed, equal⟩ := goOn_eq_inr.mp panics
        cases equal
        exact ⟨rest, read, failed⟩
      · split at panics
        · cases panics
        · exact absurd panics (handleValue_quiet _ _ _)
    · cases panics
  · rintro ⟨rest, read, failed⟩
    have read : dec.token = some (.string (ascii "Result"), rest) := read
    have failed : decodeResult parsers (rest, ent) = .error .panic := failed
    simp only [decodeLogEntryKeyValue, read, if_true, failed, goOn]

/-- The decoding of a line ends. It does not panic exactly when in the rules that it gets to,
each field of a rule that has a value comes when there are as many rules as objects before. -/
theorem decode_ends
    (valid : ∀ s, parsers.isValidIPString s = true → (parsers.parseAddr s).isSome = true)
    (ent : LogEntry Addr Time) (tokens : List (Token Bytes)) :
    decodeLogEntry parsers ent tokens ≠ .error .fuel ∧
      (decodeLogEntry parsers ent tokens ≠ .error .panic ↔ AllRulesFit parsers ent tokens) := by
  refine ⟨decodeLogEntry_fueled parsers ent tokens, ?_⟩
  have panics : decodeLogEntry parsers ent tokens = .error .panic ↔
      ∃ rules, RulesReached parsers (.new tokens, ent) rules ∧
        ¬ RulesFit parsers 0 rules.2.result.rules.length rules.1.tokens := by
    rw [decodeLogEntry, Fallible.map_error_iff]
    refine (@Consuming.loop_panics _ _ _ _ _ (decodeLogEntryKeyValue_consuming parsers)
      (.new tokens, ent)).trans ?_
    constructor
    · rintro ⟨pos, path, failed⟩
      obtain ⟨dec, read, failed⟩ := (decodeLogEntryKeyValue_panics parsers pos).mp failed
      rw [decodeResult, Fallible.map_error_iff] at failed
      obtain ⟨before, inner, last⟩ := (decodeResultKeyValue_consuming parsers).loop_panics.mp failed
      obtain ⟨rules, here, never⟩ := (decodeResultKeyValue_panics parsers valid before).mp last
      exact ⟨rules, ⟨pos, dec, before, path, read, inner, here⟩, never⟩
    · rintro ⟨rules, ⟨pos, dec, before, path, read, inner, here⟩, never⟩
      refine ⟨pos, path, (decodeLogEntryKeyValue_panics parsers pos).mpr ⟨dec, read, ?_⟩⟩
      rw [decodeResult, Fallible.map_error_iff]
      exact (decodeResultKeyValue_consuming parsers).loop_panics.mpr
        ⟨before, inner, (decodeResultKeyValue_panics parsers valid before).mpr ⟨rules, here, never⟩⟩
  rw [Ne, panics]
  constructor
  · intro never rules reached
    by_contra unfit
    exact never ⟨rules, reached, unfit⟩
  · rintro all ⟨rules, reached, unfit⟩
    exact unfit (all rules reached)

end Panics

/-- Parsers that know the address 192.0.2.1 only, and one time. -/
def fewParsers : EntryParsers (BitVec 32) Int where
  parseTime s := if s = ascii "2024-05-01T10:00:00Z" then (1714557600, true) else (0, false)
  parseIP s := if s = ascii "192.0.2.1" then some [192, 0, 2, 1] else none
  parseAddr s := if s = ascii "192.0.2.1" then some 3221225985 else none
  is4 _ := true
  isValidIPString s := decide (s = ascii "192.0.2.1")
  decodeBase64 s := ([], s = [])
  fqdn s := s ++ ascii "."

theorem fewParsers_valid (s : Bytes) (known : fewParsers.isValidIPString s = true) :
    (fewParsers.parseAddr s).isSome = true := by
  have same : s = ascii "192.0.2.1" := of_decide_eq_true known
  subst same
  rfl

def rulesLine (rules : List (Token Bytes)) : List (Token Bytes) :=
  [.delim .objectStart, .string (ascii "Result"), .delim .objectStart, .string (ascii "Rules"),
    .delim .arrayStart] ++ rules

def textRule (s : String) : List (Token Bytes) :=
  [.delim .objectStart, .string (ascii "Text"), .string (ascii s), .delim .objectEnd]

/-- A line that is cut after its second rule. -/
theorem decode_ends_cut :
    decodeLogEntry fewParsers (.zero 0) (rulesLine (textRule "||a^" ++ textRule "||b^")) ≠
        .error .fuel ∧
      decodeLogEntry fewParsers (.zero 0) (rulesLine (textRule "||a^" ++ textRule "||b^")) ≠
        .error .panic ∧
      AllRulesFit fewParsers (.zero 0) (rulesLine (textRule "||a^" ++ textRule "||b^")) := by
  obtain ⟨ends, fits⟩ := decode_ends fewParsers fewParsers_valid (.zero 0)
    (rulesLine (textRule "||a^" ++ textRule "||b^"))
  have never : decodeLogEntry fewParsers (.zero 0)
      (rulesLine (textRule "||a^" ++ textRule "||b^")) ≠ .error .panic := by
    intro panics
    cases panics
  exact ⟨ends, never, fits.mp never⟩

/-- An empty object before one with a text: the second rule is written where only one is. -/
theorem empty_rule_panics : ¬ ∀ (parsers : EntryParsers (BitVec 32) Int)
    (ent : LogEntry (BitVec 32) Int) (tokens : List (Token Bytes)),
      (∀ s, parsers.isValidIPString s = true → (parsers.parseAddr s).isSome = true) →
        ∃ decoded, decodeLogEntry parsers ent tokens = .ok decoded := by
  intro all
  obtain ⟨decoded, same⟩ := all fewParsers (.zero 0)
    (rulesLine ([.delim .objectStart, .delim .objectEnd] ++ textRule "a" ++
      [.delim .arrayEnd, .delim .objectEnd, .delim .objectEnd])) fewParsers_valid
  cases same

end AdGuardHome.Querylog
