import AdGuardHome.Querylog.DecodeSafe
import AdGuardHome.Querylog.Encode

namespace AdGuardHome.Querylog

open JSONTokens UTF8

def IsInt64 (n : Int) : Prop := minInt64 ≤ n ∧ n ≤ maxInt64

instance (n : Int) : Decidable (IsInt64 n) :=
  inferInstanceAs (Decidable (minInt64 ≤ n ∧ n ≤ maxInt64))

theorem int64_eq {n : Int} (fits : IsInt64 n) : (Number.int n).int64 = (n, true) := by
  rw [Number.int64, if_neg (not_lt_of_ge fits.1), if_neg (not_lt_of_ge fits.2)]

variable {Addr Time : Type}

section Over

variable {State : Type} {round : State → State ⊕ Except Stop (Decoding Addr Time)}

/-- Rounds of a loop get from one place to another, whatever is open there. -/
def Over (round : State → State ⊕ Except Stop (Decoding Addr Time))
    (first last : List Frame → State) : Prop :=
  ∀ frames, ∃ frames', Relation.ReflTransGen (fun state next => round state = .inl next)
    (first frames) (last frames')

theorem Over.refl (place : List Frame → State) : Over round place place :=
  fun frames => ⟨frames, .refl⟩

theorem Over.trans {first second third : List Frame → State} (one : Over round first second)
    (other : Over round second third) : Over round first third := by
  intro frames
  obtain ⟨middle, path⟩ := one frames
  obtain ⟨last, further⟩ := other middle
  exact ⟨last, path.trans further⟩

theorem Over.step {first last : List Frame → State}
    (goes : ∀ frames, ∃ frames', round (first frames) = .inl (last frames')) :
    Over round first last := by
  intro frames
  obtain ⟨frames', step⟩ := goes frames
  exact ⟨frames', .single step⟩

end Over

section Rules

variable {parsers : EntryParsers Addr Time} {formats : Formats Addr Time}

def ruleAt (i : Nat) (tokens : List (Token Bytes)) (ent : LogEntry Addr Time)
    (frames : List Frame) : Nat × Decoding Addr Time := (i, ⟨tokens, frames⟩, ent)

/-- The rules of an array so far: those that are finished, and the one that is decoded. -/
def soFar (done : List (ResultRule Addr)) (current : Option (ResultRule Addr)) :
    List (ResultRule Addr) := done ++ current.toList

theorem modify_soFar (done : List (ResultRule Addr)) (rule : ResultRule Addr)
    (set : ResultRule Addr → ResultRule Addr) :
    (soFar done (some rule)).modify done.length set = soFar done (some (set rule)) := by
  induction done with
  | nil => rfl
  | cons first done ih => exact congrArg (first :: ·) ih

/-- The value of a field adds the rule that is decoded when it is the first one. -/
theorem addRule_soFar (done : List (ResultRule Addr)) (current : Option (ResultRule Addr))
    (v : Token Bytes) (rest : List (Token Bytes)) (frames : List Frame) :
    decodeVTokenAndAddRule done.length ⟨v :: rest, frames⟩ (soFar done current) =
      (soFar done (some (current.getD .zero)), some v, ⟨rest, v.move frames⟩) := by
  cases current with
  | none =>
    have short : (soFar done none).length < done.length + 1 := by
      rw [soFar, List.length_append]
      exact Nat.lt_succ_self _
    simp only [decodeVTokenAndAddRule, Decoder.token, if_pos short]
    simp [soFar]
  | some rule =>
    have long : ¬ (soFar done (some rule)).length < done.length + 1 := by
      rw [soFar, List.length_append]
      exact Nat.lt_irrefl _
    simp only [decodeVTokenAndAddRule, Decoder.token, if_neg long]
    rfl

/-- A field of the rule that is decoded. -/
theorem ruleField_step {name : String}
    {field : Token Bytes → Option (ResultRule Addr → ResultRule Addr)}
    (found : handlerOf (ruleFields parsers) (ascii name) = some field) {v : Token Bytes}
    {set : ResultRule Addr → ResultRule Addr} (typed : field v = some set)
    (done : List (ResultRule Addr)) (current : Option (ResultRule Addr))
    (rest : List (Token Bytes)) (ent : LogEntry Addr Time) :
    Over (decodeResultRuleTokenRound parsers)
      (ruleAt done.length (Querylog.field name [v] ++ rest) (ent.withRules (soFar done current)))
      (ruleAt done.length rest
        (ent.withRules (soFar done (some (set (current.getD .zero)))))) := by
  refine .step fun frames => ⟨v.move (Token.move (.string (ascii name)) frames), ?_⟩
  have inside : done.length < (soFar done (some (current.getD .zero))).length := by
    rw [soFar, List.length_append]
    exact Nat.lt_succ_self _
  have step : decodeResultRuleKey parsers (ascii name) done.length
      (⟨v :: rest, Token.move (.string (ascii name)) frames⟩, ent.withRules (soFar done current)) =
      .ok (⟨rest, v.move (Token.move (.string (ascii name)) frames)⟩,
        ent.withRules (soFar done (some (set (current.getD .zero))))) := by
    have here : (ent.withRules (soFar done current)).result.rules = soFar done current := rfl
    simp only [decodeResultRuleKey, found, here, addRule_soFar, Option.bind_some, typed,
      if_pos inside, modify_soFar]
    rfl
  exact congrArg (fun step => goOn (Except.map (fun next => (done.length, next)) step)) step

/-- A field of a rule that may be left out. -/
theorem ruleField_over {name : String}
    {field : Token Bytes → Option (ResultRule Addr → ResultRule Addr)}
    (found : handlerOf (ruleFields parsers) (ascii name) = some field) {v : Token Bytes}
    {set : ResultRule Addr → ResultRule Addr} (typed : field v = some set) (empty : Bool)
    (done : List (ResultRule Addr)) (current : Option (ResultRule Addr))
    (rest : List (Token Bytes)) (ent : LogEntry Addr Time) :
    Over (decodeResultRuleTokenRound parsers)
      (ruleAt done.length (omitEmpty empty (Querylog.field name [v]) ++ rest)
        (ent.withRules (soFar done current)))
      (ruleAt done.length rest (ent.withRules (soFar done
        (if empty then current else some (set (current.getD .zero)))))) := by
  cases empty with
  | true => exact .refl _
  | false => exact ruleField_step found typed done current rest ent

def ResultRule.isZero (rule : ResultRule Addr) : Bool :=
  rule.text.isEmpty && rule.ip.isNone && rule.filterListID = 0

def ResultRule.decoded (rule : ResultRule Addr) : Option (ResultRule Addr) :=
  if rule.isZero then none else some { rule with text := toValid rule.text }

/-- The address of a rule is parsed back, and its list has an identifier of 64 bits. -/
structure RuleRestorable (parsers : EntryParsers Addr Time) (formats : Formats Addr Time)
    (rule : ResultRule Addr) : Prop where
  ip : ∀ ip, rule.ip = some ip → parsers.parseAddr (formats.formatAddr ip) = some ip
  filterListID : IsInt64 rule.filterListID

/-- The field with the address of a rule, which may be left out. -/
theorem ruleIP_over {ip : Option Addr}
    (restorable : ∀ addr, ip = some addr →
      parsers.parseAddr (formats.formatAddr addr) = some addr)
    (done : List (ResultRule Addr)) (current : Option (ResultRule Addr))
    (rest : List (Token Bytes)) (ent : LogEntry Addr Time) :
    Over (decodeResultRuleTokenRound parsers)
      (ruleAt done.length (encodeRuleIP formats ip ++ rest) (ent.withRules (soFar done current)))
      (ruleAt done.length rest (ent.withRules (soFar done
        (if ip.isNone then current else some { current.getD .zero with ip })))) := by
  cases ip with
  | none => exact .refl _
  | some addr =>
    have found : handlerOf (ruleFields parsers) (ascii "IP") = some (ipField parsers) := by
      simp +decide only [ruleFields, handlerOf_cons, if_true, if_false]
    have typed : ipField parsers (.string (formats.formatAddr addr)) =
        some fun rule => { rule with ip := some addr } := by
      rw [ipField, restorable addr rfl, Option.map_some]
    exact ruleField_step found typed done current rest ent

theorem encodeRule_append (rule : ResultRule Addr) (rest : List (Token Bytes)) :
    encodeRule formats rule ++ rest = .delim .objectStart ::
      (omitEmpty rule.text.isEmpty (field "Text" [jsonString rule.text]) ++
        (encodeRuleIP formats rule.ip ++
          (omitEmpty (rule.filterListID = 0)
            (field "FilterListID" [jsonInt rule.filterListID]) ++ .delim .objectEnd :: rest))) := by
  simp only [encodeRule, jsonObject, List.cons_append, List.append_assoc, List.nil_append]

theorem decoded_eq (rule : ResultRule Addr) :
    rule.decoded =
      let text := if rule.text.isEmpty then none
        else some { (ResultRule.zero : ResultRule Addr) with text := toValid rule.text }
      let addr := if rule.ip.isNone then text else some { text.getD .zero with ip := rule.ip }
      if decide (rule.filterListID = 0) then addr
      else some { addr.getD .zero with filterListID := rule.filterListID } := by
  obtain ⟨text, ip, id⟩ := rule
  rcases text with _ | ⟨c, text⟩ <;> cases ip <;> by_cases zero : id = 0 <;>
    simp [ResultRule.decoded, ResultRule.isZero, ResultRule.zero, zero]

/-- The rounds over one rule. A zero rule is counted, but none is added. -/
theorem rule_over {rule : ResultRule Addr} (restorable : RuleRestorable parsers formats rule)
    (done : List (ResultRule Addr)) (rest : List (Token Bytes)) (ent : LogEntry Addr Time) :
    Over (decodeResultRuleTokenRound parsers)
      (ruleAt done.length (encodeRule formats rule ++ rest) (ent.withRules done))
      (ruleAt (done.length + 1) rest (ent.withRules (soFar done rule.decoded))) := by
  have text : handlerOf (ruleFields parsers) (ascii "Text") = some textField := by
    simp +decide only [ruleFields, handlerOf_cons, if_true, if_false]
  have id : handlerOf (ruleFields parsers) (ascii "FilterListID") = some filterListIDField := by
    simp +decide only [ruleFields, handlerOf_cons, if_true, if_false]
  have typed : @filterListIDField Addr (jsonInt rule.filterListID) =
      some fun other => { other with filterListID := rule.filterListID } := by
    rw [jsonInt, filterListIDField, int64_eq restorable.filterListID]
  have start : soFar done none = done := by
    rw [soFar, Option.toList_none, List.append_nil]
  have opened : Over (decodeResultRuleTokenRound parsers)
      (ruleAt done.length (encodeRule formats rule ++ rest) (ent.withRules done))
      (ruleAt done.length _ (ent.withRules (soFar done none))) :=
    .step fun frames => ⟨.key :: frames, by
      rw [encodeRule_append, start]
      rfl⟩
  rw [decoded_eq]
  exact opened.trans ((ruleField_over text rfl _ done none _ ent).trans
    ((ruleIP_over restorable.ip done _ _ ent).trans
      ((ruleField_over id typed _ done _ _ ent).trans
        (.step fun frames => ⟨_, rfl⟩))))

def ResultRule.valid (rule : ResultRule Addr) : ResultRule Addr :=
  { rule with text := toValid rule.text }

/-- A zero rule is an empty object. -/
theorem zeroRule_over {rule : ResultRule Addr} (zero : rule.isZero = true) (i : Nat)
    (rest : List (Token Bytes)) (ent : LogEntry Addr Time) :
    Over (decodeResultRuleTokenRound parsers) (ruleAt i (encodeRule formats rule ++ rest) ent)
      (ruleAt (i + 1) rest ent) := by
  obtain ⟨text, ip, id⟩ := rule
  simp only [ResultRule.isZero, Bool.and_eq_true, List.isEmpty_iff, Option.isNone_iff_eq_none,
    decide_eq_true_iff] at zero
  obtain ⟨⟨rfl, rfl⟩, rfl⟩ := zero
  exact @Over.trans _ _ _ _ _ (ruleAt i (.delim .objectEnd :: rest) ent) _ (.step fun frames => ⟨_, rfl⟩) (.step fun frames => ⟨_, rfl⟩)

/-- A rule does not fit where there are fewer rules than closed objects. -/
theorem rule_unfit {rule : ResultRule Addr} (nonzero : rule.isZero = false)
    (restorable : RuleRestorable parsers formats rule) {i n : Nat} (less : n < i)
    (rest : List (Token Bytes)) : ¬ RulesFit parsers i n (encodeRule formats rule ++ rest) := by
  have first : ∀ {name field v} {later : List (Token Bytes)},
      handlerOf (ruleFields parsers) (ascii name) = some field → (field v).isSome →
        ¬ RulesFit parsers i n (Querylog.field name [v] ++ later) := by
    intro name field v later found typed fit
    have unfolded : RulesFit parsers i n (.string (ascii name) :: v :: later) := fit
    rw [RulesFit, found] at unfolded
    exact Nat.not_le_of_lt less (unfolded.1 typed)
  have text : handlerOf (ruleFields parsers) (ascii "Text") = some textField := by
    simp +decide only [ruleFields, handlerOf_cons, if_true, if_false]
  have addr : handlerOf (ruleFields parsers) (ascii "IP") = some (ipField parsers) := by
    simp +decide only [ruleFields, handlerOf_cons, if_true, if_false]
  have id : handlerOf (ruleFields parsers) (ascii "FilterListID") = some filterListIDField := by
    simp +decide only [ruleFields, handlerOf_cons, if_true, if_false]
  rw [encodeRule_append]
  change ¬ RulesFit parsers i n (_ ++ _)
  by_cases noText : rule.text.isEmpty = true
  · rw [noText, omitEmpty, if_pos rfl, List.nil_append]
    rcases here : rule.ip with _ | ip
    · have some_ : decide (rule.filterListID = 0) = false := by
        by_contra other
        rw [Bool.not_eq_false] at other
        rw [ResultRule.isZero, noText, here, other] at nonzero
        cases nonzero
      rw [some_]
      exact first id rfl
    · refine first addr ?_
      rw [ipField, restorable.ip ip here]
      rfl
  · rw [Bool.not_eq_true] at noText
    rw [noText]
    exact first text rfl

/-- After a zero rule, further zero rules are passed over, and any other one panics. -/
theorem gap_ends {rules : List (ResultRule Addr)}
    (restorable : ∀ rule ∈ rules, RuleRestorable parsers formats rule)
    (ent : LogEntry Addr Time) {i : Nat} (less : ent.result.rules.length < i)
    (rest : List (Token Bytes)) (frames : List Frame) :
    (rules.all ResultRule.isZero = true → ∃ frames',
      Looping.Ends (decodeResultRuleTokenRound parsers)
        (ruleAt i ((rules.map (encodeRule formats)).flatten ++ .delim .arrayEnd :: rest) ent frames)
        (.ok (⟨rest, frames'⟩, ent))) ∧
    (rules.all ResultRule.isZero = false →
      Looping.Ends (decodeResultRuleTokenRound parsers)
        (ruleAt i ((rules.map (encodeRule formats)).flatten ++ .delim .arrayEnd :: rest) ent frames)
        (.error .panic)) := by
  induction rules generalizing i frames with
  | nil => exact ⟨fun _ => ⟨_, .leave rfl⟩, fun never => (by cases never)⟩
  | cons rule rules ih =>
    rw [List.map_cons, List.flatten_cons, List.append_assoc, List.all_cons]
    cases zero : rule.isZero with
    | true =>
      obtain ⟨frames', path⟩ := @zeroRule_over _ _ parsers formats _ zero i
        ((rules.map (encodeRule formats)).flatten ++ .delim .arrayEnd :: rest) ent frames
      obtain ⟨ends, panics⟩ := ih (fun other member => restorable other (List.mem_cons_of_mem _ member))
        (Nat.lt_succ_of_lt less) frames'
      rw [Bool.true_and]
      constructor
      · intro all
        obtain ⟨last, ends⟩ := ends all
        exact ⟨last, ends.after path⟩
      · exact fun some_ => (panics some_).after path
    | false =>
      rw [Bool.false_and]
      refine ⟨fun never => (by cases never), fun _ => ?_⟩
      exact (ruleToken_panics parsers i _ frames ent).mpr
        (rule_unfit zero (restorable rule List.mem_cons_self) less _)

def decodedRules : List (ResultRule Addr) → Option (List (ResultRule Addr))
  | [] => some []
  | rule :: rules =>
    if rule.isZero then if rules.all ResultRule.isZero then some [] else none
    else (decodedRules rules).map (rule.valid :: ·)

theorem rules_end {rules : List (ResultRule Addr)}
    (restorable : ∀ rule ∈ rules, RuleRestorable parsers formats rule)
    (done : List (ResultRule Addr)) (rest : List (Token Bytes)) (ent : LogEntry Addr Time)
    (frames : List Frame) :
    (∀ decoded, decodedRules rules = some decoded → ∃ frames',
      Looping.Ends (decodeResultRuleTokenRound parsers)
        (ruleAt done.length ((rules.map (encodeRule formats)).flatten ++ .delim .arrayEnd :: rest)
          (ent.withRules done) frames)
        (.ok (⟨rest, frames'⟩, ent.withRules (done ++ decoded)))) ∧
    (decodedRules rules = none →
      Looping.Ends (decodeResultRuleTokenRound parsers)
        (ruleAt done.length ((rules.map (encodeRule formats)).flatten ++ .delim .arrayEnd :: rest)
          (ent.withRules done) frames)
        (.error .panic)) := by
  induction rules generalizing done frames with
  | nil =>
    refine ⟨fun decoded same => ⟨valueEnd frames.tail, ?_⟩, fun never => (by cases never)⟩
    cases same
    rw [List.append_nil]
    exact .leave rfl
  | cons rule rules ih =>
    have restorable' : ∀ rule ∈ rules, RuleRestorable parsers formats rule :=
      fun other member => restorable other (List.mem_cons_of_mem _ member)
    rw [List.map_cons, List.flatten_cons, List.append_assoc, decodedRules]
    cases zero : rule.isZero with
    | true =>
      obtain ⟨frames', path⟩ := @zeroRule_over _ _ parsers formats _ zero
        done.length ((rules.map (encodeRule formats)).flatten ++ .delim .arrayEnd :: rest)
        (ent.withRules done) frames
      obtain ⟨ends, panics⟩ := gap_ends restorable' (ent.withRules done)
        (Nat.lt_succ_self done.length) rest frames'
      rw [if_pos rfl]
      constructor
      · intro decoded same
        split at same
        · rename_i all
          cases same
          obtain ⟨last, ends⟩ := ends all
          rw [List.append_nil]
          exact ⟨last, ends.after path⟩
        · cases same
      · intro same
        split at same
        · cases same
        · rename_i some_
          exact (panics (by simpa using some_)).after path
    | false =>
      obtain ⟨frames', path⟩ := rule_over (restorable rule List.mem_cons_self) done
        ((rules.map (encodeRule formats)).flatten ++ .delim .arrayEnd :: rest) ent frames
      have one : soFar done rule.decoded = done ++ [rule.valid] := by
        rw [ResultRule.decoded, zero]
        rfl
      have length : (done ++ [rule.valid]).length = done.length + 1 := by
        rw [List.length_append, List.length_singleton]
      rw [one, ← length] at path
      obtain ⟨ends, panics⟩ := ih restorable' (done ++ [rule.valid]) frames'
      rw [if_neg (by decide)]
      constructor
      · intro decoded same
        obtain ⟨later, found, rfl⟩ := Option.map_eq_some_iff.mp same
        obtain ⟨last, ends⟩ := ends later found
        rw [List.append_assoc] at ends
        exact ⟨last, ends.after path⟩
      · intro same
        exact (panics (Option.map_eq_none_iff.mp same)).after path

/-- What the array of rules is decoded to. -/
theorem decodeResultRules_encode {rules : List (ResultRule Addr)}
    (restorable : ∀ rule ∈ rules, RuleRestorable parsers formats rule)
    {ent : LogEntry Addr Time} (fresh : ent.result.rules = []) (rest : List (Token Bytes))
    (frames : List Frame) :
    (∀ decoded, decodedRules rules = some decoded → ∃ frames',
      decodeResultRules parsers
        (⟨jsonArray (rules.map (encodeRule formats)) ++ rest, frames⟩, ent) =
          .ok (⟨rest, frames'⟩, ent.withRules decoded)) ∧
    (decodedRules rules = none →
      decodeResultRules parsers
        (⟨jsonArray (rules.map (encodeRule formats)) ++ rest, frames⟩, ent) = .error .panic) := by
  have same : ent.withRules [] = ent := by
    obtain ⟨_, _, _, _, _, _, _, _, _, _, _, result, _, _, _⟩ := ent
    obtain ⟨_, _, _, _, rules, _, _⟩ := result
    cases fresh
    rfl
  have tokens : jsonArray (rules.map (encodeRule formats)) ++ rest = .delim .arrayStart ::
      ((rules.map (encodeRule formats)).flatten ++ .delim .arrayEnd :: rest) := by
    simp only [jsonArray, List.cons_append, List.append_assoc, List.nil_append]
  have loop_ : ∀ result, decodeResultRules parsers
      (⟨jsonArray (rules.map (encodeRule formats)) ++ rest, frames⟩, ent) = result ↔
      Looping.Ends (decodeResultRuleTokenRound parsers)
        (ruleAt 0 ((rules.map (encodeRule formats)).flatten ++ .delim .arrayEnd :: rest)
          (ent.withRules []) (.element :: frames)) result := by
    intro result
    rw [tokens, same]
    exact (decodeResultRuleTokenRound_consuming parsers).loop_iff
  obtain ⟨ends, panics⟩ := rules_end restorable [] rest ent (.element :: frames)
  constructor
  · intro decoded found
    obtain ⟨frames', ends⟩ := ends decoded found
    exact ⟨frames', (loop_ _).mpr ends⟩
  · intro nothing
    exact (loop_ _).mpr (panics nothing)

theorem decodedRules_eq_self (rules : List (ResultRule Addr)) :
    decodedRules rules = some rules ↔
      ∀ rule ∈ rules, rule.isZero = false ∧ toValid rule.text = rule.text := by
  induction rules with
  | nil => exact ⟨fun _ rule member => (by cases member), fun _ => rfl⟩
  | cons rule rules ih =>
    rw [decodedRules, List.forall_mem_cons, ← ih]
    cases zero : rule.isZero with
    | true =>
      rw [if_pos rfl]
      refine ⟨fun same => ?_, fun both => (by cases both.1.1)⟩
      split at same <;> cases same
    | false =>
      rw [if_neg (by decide), Option.map_eq_some_iff]
      constructor
      · rintro ⟨later, found, same⟩
        obtain ⟨valid, rfl⟩ := List.cons.inj same
        exact ⟨⟨rfl, congrArg ResultRule.text valid⟩, found⟩
      · rintro ⟨⟨_, valid⟩, found⟩
        refine ⟨rules, found, ?_⟩
        rw [ResultRule.valid, valid]

end Rules

end AdGuardHome.Querylog
