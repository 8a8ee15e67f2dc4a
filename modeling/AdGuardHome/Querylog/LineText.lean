import AdGuardHome.Lib.JSONText
import AdGuardHome.Querylog.Encode
import Mathlib.Data.List.TakeWhile

/-! Package `querylog`: an entry as the line that it is written as, and what is read from a
line without decoding it. -/
namespace AdGuardHome.Querylog

open JSONTokens JSONText UTF8

section Line

variable {Addr Time : Type} (formats : Formats Addr Time) (str : Bytes → Token Bytes)

/-- `encodeRule`, with its text as `str` keeps it. -/
def ruleTokens (rule : ResultRule Addr) : List (Token Bytes) :=
  jsonObject
    (omitEmpty rule.text.isEmpty (field "Text" [str rule.text]) ++
      encodeRuleIP formats rule.ip ++
      omitEmpty (rule.filterListID = 0) (field "FilterListID" [jsonInt rule.filterListID]))

/-- `encodeResult`, with its texts as `str` keeps them. -/
def resultTokens (res : Result Addr) : List (Token Bytes) :=
  jsonObject
    (encodeResultRewrite formats res.dnsRewriteResult ++
      omitEmpty res.canonName.isEmpty (field "CanonName" [str res.canonName]) ++
      omitEmpty res.serviceName.isEmpty (field "ServiceName" [str res.serviceName]) ++
      omitEmpty res.ipList.isEmpty
        (field "IPList" (jsonArray (res.ipList.map fun ip => [.string (formats.formatAddr ip)]))) ++
      omitEmpty res.rules.isEmpty
        (field "Rules" (jsonArray (res.rules.map (ruleTokens formats str)))) ++
      omitEmpty (res.reason = 0) (field "Reason" [jsonInt res.reason.toNat]) ++
      omitEmpty (!res.isFiltered) (field "IsFiltered" [.bool res.isFiltered]))

/-- `encodeLogEntry`, with its texts as `str` keeps them. -/
def entryTokens (ent : LogEntry Addr Time) : List (Token Bytes) :=
  jsonObject
    (field "T" [.string (formats.formatTime ent.time)] ++
      field "QH" [str ent.qHost] ++
      field "QT" [str ent.qType] ++
      field "QC" [str ent.qClass] ++
      omitEmpty ent.reqECS.isEmpty (field "ECS" [str ent.reqECS]) ++
      omitEmpty ent.clientID.isEmpty (field "CID" [str ent.clientID]) ++
      field "CP" [str ent.clientProto] ++
      omitEmpty ent.upstream.isEmpty (field "Upstream" [str ent.upstream]) ++
      omitEmpty ent.answer.isEmpty
        (field "Answer" [.string (formats.encodeBase64 ent.answer)]) ++
      omitEmpty ent.origAnswer.isEmpty
        (field "OrigAnswer" [.string (formats.encodeBase64 ent.origAnswer)]) ++
      field "IP" [.string (formats.formatIP ent.ip)] ++
      field "Result" (resultTokens formats str ent.result) ++
      field "Elapsed" [jsonInt ent.elapsed] ++
      omitEmpty (!ent.cached) (field "Cached" [.bool ent.cached]) ++
      omitEmpty (!ent.authenticatedData) (field "AD" [.bool ent.authenticatedData]))

def lineOf (ent : LogEntry Addr Time) : Bytes := text (entryTokens formats Token.string ent)

end Line

section Index

variable {pattern : Bytes}

theorem index_passes {s t : Bytes} (passes : Passes pattern s t) :
    index pattern (s ++ t) = (index pattern t).map (· + s.length) := by
  induction s with
  | nil => simp
  | cons c s ih =>
    obtain ⟨here, later⟩ := passes
    have absent : ¬ pattern.isPrefixOf (c :: (s ++ t)) = true := by
      rw [List.isPrefixOf_iff_prefix]
      exact here
    rw [List.cons_append, index, if_neg absent, ih later, Option.map_map]
    rfl

theorem after_passes {s t : Bytes} (passes : Passes pattern s t) :
    after pattern (s ++ t) = after pattern t := by
  rw [after, after, index_passes passes, Option.map_map]
  congr 1
  funext i
  have order : i + s.length + pattern.length = s.length + (i + pattern.length) := by omega
  rw [Function.comp_apply, order, List.drop_append]
  simp

theorem after_none (nonempty : pattern ≠ []) {s : Bytes} (passes : Passes pattern s []) :
    after pattern s = none := by
  have whole := after_passes passes
  rw [List.append_nil] at whole
  rw [whole, after, index, if_neg nonempty]
  rfl

theorem after_here (c : BitVec 8) (rest t : Bytes) :
    after (c :: rest) (c :: rest ++ t) = some t := by
  have start : (c :: rest).isPrefixOf (c :: (rest ++ t)) = true := by
    rw [List.isPrefixOf_iff_prefix]
    exact List.prefix_append (c :: rest) t
  rw [after, List.cons_append, index, if_pos start]
  simp

end Index

section Reading

variable {name : Bytes} {tokens : List (Token Bytes)}

/-- What is read of a string without its escapes: its characters up to a quotation mark. -/
def rawText (s : Bytes) : Bytes := (escape s).takeWhile (· ≠ quoteMark)

theorem findIdx?_stops {p : BitVec 8 → Bool} {c : BitVec 8} (stops : p c = true) (s t : Bytes) :
    ∃ i, (s ++ c :: t).findIdx? p = some i ∧ (s ++ c :: t).take i = s.takeWhile fun b => !p b := by
  induction s with
  | nil => exact ⟨0, by rw [List.nil_append, List.findIdx?_cons, if_pos stops], rfl⟩
  | cons b s ih =>
    obtain ⟨i, found, taken⟩ := ih
    rw [List.cons_append, List.findIdx?_cons, List.takeWhile_cons]
    cases here : p b with
    | true => exact ⟨0, if_pos rfl, rfl⟩
    | false =>
      rw [if_neg (by decide), found, Bool.not_false, if_pos rfl, ← taken]
      exact ⟨i + 1, rfl, rfl⟩

theorem lookup_wanted {wanted : Token Bytes → Bool} {frames : List Frame} {value : Token Bytes}
    (found : lookup wanted name frames tokens = some value) : wanted value = true := by
  induction tokens generalizing frames with
  | nil => cases found
  | cons token tokens ih =>
    rw [lookup, Option.or_eq_some_iff] at found
    rcases found with here | ⟨_, later⟩
    · have both := (Option.filter_eq_some_iff.mp here).2
      rw [Bool.and_eq_true] at both
      exact both.2
    · exact ih later

def textOf : Option (Token Bytes) → Bytes
  | some (.string v) => rawText v
  | _ => []

/-- What is read as the number under a key, when there is one that is not negative. -/
def digitsOf : Option (Token Bytes) → Bytes
  | some (.number (.int (.ofNat n))) => decimal n
  | _ => []

theorem digitsOf_other {value : Token Bytes} (other : ∀ n, value ≠ .number (.int (.ofNat n))) :
    digitsOf (some value) = [] := by
  unfold digitsOf
  split
  · rename_i n same
    exact absurd (Option.some.inj same) (other n)
  · rfl

/-- The string under a key of a text, as it is read without decoding it. -/
theorem readJSONValue_text (known : Name name) (integral : ∀ t ∈ tokens, t ≠ .number .other)
    (last : ∀ s, tokens.getLast? ≠ some (.string s)) :
    readJSONValue (text tokens) (keyOf name [quoteMark]) =
      textOf (lookup isString name [] tokens) := by
  cases found : lookup isString name [] tokens with
  | none =>
    have none_ : after (keyOf name [quoteMark]) (render true [] tokens) = none :=
      after_none (List.cons_ne_nil _ _)
        (render_missing known starts_string integral last found true)
    rw [readJSONValue, text, none_]
    rfl
  | some value =>
    obtain ⟨v, rfl⟩ : ∃ v, value = .string v := by
      have quoted := lookup_wanted found
      cases value <;> first | exact ⟨_, rfl⟩ | cases quoted
    obtain ⟨s, outer, rest, _, same, passes⟩ :=
      render_found known starts_string integral found true
    rw [render_value] at same passes
    -- The pattern ends after the quotation mark that opens the string.
    have split_ : ∀ tail, keyOf name (tokenText (.string v) ++ tail) =
        keyOf name [quoteMark] ++ (escape v ++ quoteMark :: tail) := by
      intro tail
      simp only [keyOf, tokenText, string, List.cons_append, List.append_assoc, List.nil_append]
    rw [split_] at same passes
    have start_ : ∀ t, after (keyOf name [quoteMark]) (keyOf name [quoteMark] ++ t) = some t :=
      fun t => after_here quoteMark _ t
    obtain ⟨i, index_, taken⟩ := findIdx?_stops (p := fun b => decide (b = quote)) (c := quoteMark) rfl
      (escape v) (render (opens (.string v)) (Token.move (.string v) (.value :: outer)) rest)
    rw [readJSONValue, text, same, after_passes passes, start_]
    dsimp only
    rw [index_]
    dsimp only
    rw [taken, textOf, rawText]
    congr 1
    funext b
    exact (decide_not).symm

theorem endsNumber_head {token : Token Bytes} (integral : token ≠ .number .other)
    (other : ∀ n, token ≠ .number (.int (.ofNat n))) :
    ∃ c rest, tokenText token = c :: rest ∧ endsNumber c = true := by
  cases token with
  | delim d => exact ⟨_, [], rfl, by cases d <;> decide⟩
  | string s => exact ⟨quoteMark, _, rfl, by decide⟩
  | number n =>
    cases n with
    | other => exact absurd rfl integral
    | int n =>
      cases n with
      | ofNat n => exact absurd rfl (other n)
      | negSucc n => exact ⟨0x2D, _, rfl, by decide⟩
  | bool b => cases b <;> exact ⟨_, _, rfl, by decide⟩
  | null => exact ⟨_, _, rfl, by decide⟩

theorem endsNumber_after {tokens : List (Token Bytes)} (some_ : tokens ≠ []) (outer : List Frame) :
    ∃ c rest, render false (.key :: outer) tokens = c :: rest ∧ endsNumber c = true := by
  obtain ⟨token, tokens, rfl⟩ := List.exists_cons_of_ne_nil some_
  cases closing : closes token with
  | true =>
    obtain ⟨d, rfl⟩ : ∃ d, token = .delim d := by
      cases token <;> first | exact ⟨_, rfl⟩ | cases closing
    rw [render, separator, closing, if_pos (by simp)]
    exact ⟨delimByte d, _, rfl, by cases d <;> decide⟩
  | false =>
    rw [render, separator, closing, if_neg (by simp)]
    exact ⟨comma, _, rfl, by decide⟩

/-- The digits of a number under a key of a text, as they are read without decoding it. -/
theorem readJSONNumericValue_text (known : Name name)
    (integral : ∀ t ∈ tokens, t ≠ .number .other) {d : Delim}
    (last : tokens.getLast? = some (.delim d)) :
    readJSONNumericValue (text tokens) (keyOf name []) =
      digitsOf (lookup (fun _ => true) name [] tokens) := by
  have closing : ∀ s, tokens.getLast? ≠ some (.string s) := by
    intro s same
    rw [last] at same
    cases same
  cases found : lookup (fun _ => true) name [] tokens with
  | none =>
    have none_ : after (keyOf name []) (render true [] tokens) = none :=
      after_none (List.cons_ne_nil _ _)
        (render_missing known starts_any integral closing found true)
    rw [readJSONNumericValue, text, none_]
    rfl
  | some value =>
    obtain ⟨s, outer, rest, suffix, same, passes⟩ :=
      render_found known starts_any integral found true
    have split_ : ∀ t, keyOf name t = keyOf name [] ++ t := by
      intro t
      simp only [keyOf, List.cons_append, List.append_assoc, List.nil_append]
    have start_ : ∀ t, after (keyOf name []) (keyOf name [] ++ t) = some t :=
      fun t => after_here quoteMark _ t
    rw [render_value, split_ (tokenText value ++ _)] at same passes
    rw [readJSONNumericValue, text, same, after_passes passes, start_]
    dsimp only
    have integral_ : value ≠ .number .other := integral value (suffix.subset List.mem_cons_self)
    by_cases digits : ∃ n, value = .number (.int (.ofNat n))
    · obtain ⟨n, rfl⟩ := digits
      have some_ : rest ≠ [] := by
        rintro rfl
        obtain ⟨front, rfl⟩ := suffix
        rw [List.getLast?_concat] at last
        cases last
      obtain ⟨c, more, next, stops⟩ := endsNumber_after some_ outer
      have tail : render (opens (.number (.int (.ofNat n)))) (Token.move
          (.number (.int (.ofNat n)) : Token Bytes) (.value :: outer)) rest = c :: more := next
      obtain ⟨i, index_, taken⟩ := findIdx?_stops (p := endsNumber) stops (decimal n) more
      rw [tail, tokenText, number, index_]
      dsimp only
      rw [taken, digitsOf, List.takeWhile_eq_self_iff]
      intro b inside
      have digit := decimal_digits inside
      rw [endsNumber, Bool.not_eq_true', Bool.and_eq_false_iff, Bool.or_eq_false_iff,
        decide_eq_false_iff_not, decide_eq_false_iff_not]
      exact .inl ⟨by bv_omega, by bv_omega⟩
    · have other : ∀ n, value ≠ .number (.int (.ofNat n)) := fun n same => digits ⟨n, same⟩
      obtain ⟨c, more, head, stops⟩ := endsNumber_head integral_ other
      rw [head, List.cons_append, List.findIdx?_cons, if_pos stops, digitsOf_other other]
      rfl

end Reading

section Fields

variable {Addr Time : Type} {formats : Formats Addr Time}

def Fields (fields : List (Token Bytes)) : Prop :=
  ∃ members : List (Bytes × List (Token Bytes)),
    fields = members.flatMap (fun member => .string member.1 :: member.2) ∧
      ∀ member ∈ members, IsValue member.2

theorem Fields.nil : Fields [] := ⟨[], rfl, fun _ never => (by cases never)⟩

theorem Fields.append {fields more : List (Token Bytes)} (first : Fields fields)
    (second : Fields more) : Fields (fields ++ more) := by
  obtain ⟨members, rfl, all⟩ := first
  obtain ⟨others, rfl, rest⟩ := second
  refine ⟨members ++ others, List.flatMap_append.symm, fun member inside => ?_⟩
  rcases List.mem_append.mp inside with here | later
  · exact all member here
  · exact rest member later

theorem Fields.field {value : List (Token Bytes)} (isValue : IsValue value) (name : String) :
    Fields (field name value) := by
  refine ⟨[(ascii name, value)], ?_, fun member inside => ?_⟩
  · rw [List.flatMap_singleton]
    rfl
  · rw [List.mem_singleton.mp inside]
    exact isValue

theorem Fields.omitEmpty {fields : List (Token Bytes)} (all : Fields fields) (empty : Bool) :
    Fields (omitEmpty empty fields) := by
  cases empty with
  | true => exact nil
  | false => exact all

theorem Fields.members {fields : List (Token Bytes)} (all : Fields fields) : Members fields := by
  obtain ⟨members, rfl, values⟩ := all
  exact flatMap_induction Members.nil Members.append fun member inside =>
    .member (values member inside).whole (values member inside).nonempty member.1

theorem Fields.object {fields : List (Token Bytes)} (all : Fields fields) :
    IsValue (jsonObject fields) := by
  obtain ⟨members, rfl, values⟩ := all
  exact .object values

theorem isValue_string (s : Bytes) : IsValue [.string s] := .literal rfl (by simp)

theorem isValue_int (n : Int) : IsValue [jsonInt n] := .literal rfl (by simp [jsonInt])

theorem isValue_bool (b : Bool) : IsValue [.bool b] := .literal rfl (by simp)

def RRValue.IsJSON : RRValue Addr → Prop
  | .json value => IsValue value
  | _ => True

def DNSRewriteResult.IsJSON (rewrite : DNSRewriteResult Addr) : Prop :=
  ∀ resp, rewrite.response = some resp → ∀ entry ∈ resp.entries, ∀ v ∈ entry.2, v.IsJSON

theorem encodeRRValue_isValue {v : RRValue Addr} (isJSON : v.IsJSON) :
    IsValue (encodeRRValue formats v) := by
  cases v with
  | ip ip => exact isValue_string _
  | addr addr => exact isValue_string _
  | json value => exact isJSON

theorem encodeRewrite_isValue {rewrite : DNSRewriteResult Addr} (isJSON : rewrite.IsJSON) :
    IsValue (encodeRewrite formats rewrite) := by
  refine Fields.object (.append ?_ (.omitEmpty (.field (isValue_int _) _) _))
  cases same : rewrite.response with
  | none => exact .nil
  | some resp =>
    refine .omitEmpty (.field (Fields.object (flatMap_induction .nil .append fun entry sorted => ?_)) _) _
    have member : entry ∈ resp.entries := (List.mergeSort_perm _ _).mem_iff.mp sorted
    refine .field (.array fun value inside => ?_) _
    obtain ⟨v, here, rfl⟩ := List.mem_map.mp inside
    exact encodeRRValue_isValue (isJSON resp same entry member v here)

theorem rewrite_fields {rewrite : Option (DNSRewriteResult Addr)}
    (isJSON : ∀ r, rewrite = some r → r.IsJSON) : Fields (encodeResultRewrite formats rewrite) := by
  cases rewrite with
  | none => exact .nil
  | some rewrite => exact .field (encodeRewrite_isValue (isJSON rewrite rfl)) _

theorem ruleTokens_isValue (rule : ResultRule Addr) :
    IsValue (ruleTokens formats .string rule) := by
  refine Fields.object (.append (.append (.omitEmpty (.field (isValue_string _) _) _) ?_)
    (.omitEmpty (.field (isValue_int _) _) _))
  cases rule.ip with
  | none => exact .nil
  | some ip => exact .field (isValue_string _) _

theorem resultTokens_isValue {res : Result Addr}
    (isJSON : ∀ r, res.dnsRewriteResult = some r → r.IsJSON) :
    IsValue (resultTokens formats .string res) := by
  have ipList : IsValue
      (jsonArray (res.ipList.map fun ip => [Token.string (formats.formatAddr ip)])) := by
    refine .array fun value inside => ?_
    obtain ⟨ip, _, rfl⟩ := List.mem_map.mp inside
    exact isValue_string _
  have rules : IsValue (jsonArray (res.rules.map (ruleTokens formats .string))) := by
    refine .array fun value inside => ?_
    obtain ⟨rule, _, rfl⟩ := List.mem_map.mp inside
    exact ruleTokens_isValue rule
  exact Fields.object ((((((Fields.append (rewrite_fields isJSON)
    (.omitEmpty (.field (isValue_string _) _) _)).append
    (.omitEmpty (.field (isValue_string _) _) _)).append (.omitEmpty (.field ipList _) _)).append
    (.omitEmpty (.field rules _) _)).append (.omitEmpty (.field (isValue_int _) _) _)).append
    (.omitEmpty (.field (isValue_bool _) _) _))

theorem entryTokens_isValue {ent : LogEntry Addr Time}
    (isJSON : ∀ r, ent.result.dnsRewriteResult = some r → r.IsJSON) :
    IsValue (entryTokens formats .string ent) := by
  have text : ∀ (name : String) (s : Bytes), Fields (field name [.string s]) :=
    fun name s => .field (isValue_string s) name
  have result := Fields.field (@resultTokens_isValue _ _ formats _ isJSON) "Result"
  exact Fields.object ((((((((((((((Fields.append (text _ _) (text _ _)).append (text _ _)).append
    (text _ _)).append (.omitEmpty (text _ _) _)).append (.omitEmpty (text _ _) _)).append
    (text _ _)).append (.omitEmpty (text _ _) _)).append (.omitEmpty (text _ _) _)).append
    (.omitEmpty (text _ _) _)).append (text _ _)).append result).append
    (.field (isValue_int _) _)).append (.omitEmpty (.field (isValue_bool _) _) _)).append
    (.omitEmpty (.field (isValue_bool _) _) _))

def Skipped (wanted : Token Bytes → Bool) (name : Bytes) (fields : List (Token Bytes)) : Prop :=
  ∀ rest, lookup wanted name [.key] (fields ++ rest) = lookup wanted name [.key] rest

variable {wanted : Token Bytes → Bool} {name : Bytes} {key : String}

theorem lookup_jsonObject (fields : List (Token Bytes)) :
    lookup wanted name [] (jsonObject fields) =
      lookup wanted name [.key] (fields ++ [.delim .objectEnd]) :=
  lookup_other (named_eq_false (.inr rfl)) _

theorem lookup_field {value : List (Token Bytes)} (isValue : IsValue value)
    (rest : List (Token Bytes)) :
    lookup wanted name [.key] (field key value ++ rest) =
      ((value.head?.filter fun v => endsIn name (ascii key) && wanted v).or
        (lookup wanted name [] value)).or (lookup wanted name [.key] rest) :=
  lookup_member isValue.whole isValue.nonempty (ascii key) [] rest

theorem lookup_found {token : Token Bytes} (isValue : IsValue [token])
    (ends : endsIn name (ascii key) = true) (asked : wanted token = true)
    (rest : List (Token Bytes)) :
    lookup wanted name [.key] (field key [token] ++ rest) = some token := by
  rw [lookup_field isValue, List.head?_cons, Option.filter_some, ends, asked, Bool.true_and,
    if_pos rfl, Option.some_or, Option.some_or]

theorem Skipped.field {value : List (Token Bytes)} (isValue : IsValue value)
    (other : endsIn name (ascii key) = false) (inside : lookup wanted name [] value = none) :
    Skipped wanted name (field key value) := by
  intro rest
  have none_ : value.head?.filter (fun v => endsIn name (ascii key) && wanted v) = none := by
    rw [Option.filter_eq_none_iff]
    intro v _
    rw [other, Bool.false_and]
    exact Bool.false_ne_true
  rw [lookup_field isValue, none_, inside, Option.none_or, Option.none_or]

theorem Skipped.omitEmpty {fields : List (Token Bytes)} (skipped : Skipped wanted name fields)
    (empty : Bool) : Skipped wanted name (omitEmpty empty fields) := by
  cases empty with
  | true => exact fun _ => rfl
  | false => exact skipped

theorem skipped_string (other : endsIn name (ascii key) = false) (s : Bytes) :
    Skipped wanted name (field key [.string s]) :=
  .field (isValue_string s) other rfl

theorem skipped_int (other : endsIn name (ascii key) = false) (n : Int) :
    Skipped wanted name (field key [jsonInt n]) :=
  .field (isValue_int n) other rfl

theorem skipped_bool (other : endsIn name (ascii key) = false) (b : Bool) :
    Skipped wanted name (field key [.bool b]) :=
  .field (isValue_bool b) other rfl

def Absent (name : Bytes) (keys : List String) : Prop :=
  ∀ key ∈ keys, endsIn name (ascii key) = false

instance (name : Bytes) (keys : List String) : Decidable (Absent name keys) :=
  inferInstanceAs (Decidable (∀ key ∈ keys, endsIn name (ascii key) = false))

theorem lookup_values {values : List (List (Token Bytes))} (isValue : ∀ value ∈ values, IsValue value)
    (none_ : ∀ value ∈ values, lookup wanted name [] value = none) :
    lookup wanted name [] (jsonArray values) = none := by
  have all := @lookup_array wanted name values (fun value inside => (isValue value inside).whole) [] []
  rw [List.append_nil, lookup, Option.or_none] at all
  rw [jsonArray, all, List.findSome?_eq_none_iff]
  exact none_

theorem lookup_rule (absent : Absent name ["Text", "IP", "FilterListID"]) (rule : ResultRule Addr) :
    lookup wanted name [] (ruleTokens formats .string rule) = none := by
  have ip : Skipped wanted name (encodeRuleIP formats rule.ip) := by
    cases rule.ip with
    | none => exact fun _ => rfl
    | some ip => exact skipped_string (absent "IP" (by simp)) _
  rw [ruleTokens, lookup_jsonObject, List.append_assoc, List.append_assoc,
    (skipped_string (absent "Text" (by simp)) _).omitEmpty, ip,
    (skipped_int (absent "FilterListID" (by simp)) _).omitEmpty]
  rfl

/-- What is looked up in a result is in its rewrite or the reason. -/
theorem lookup_result (absent : Absent name ["Text", "IP", "FilterListID", "CanonName",
      "ServiceName", "IPList", "Rules", "IsFiltered"]) {res : Result Addr}
    (isJSON : ∀ r, res.dnsRewriteResult = some r → r.IsJSON) :
    lookup wanted name [] (resultTokens formats .string res) =
      (lookup wanted name [.key] (encodeResultRewrite formats res.dnsRewriteResult)).or
        (lookup wanted name [.key]
          (omitEmpty (res.reason = 0) (field "Reason" [jsonInt res.reason.toNat]))) := by
  have ipList : Skipped wanted name (field "IPList"
      (jsonArray (res.ipList.map fun ip => [Token.string (formats.formatAddr ip)]))) := by
    have isValue : ∀ value ∈ res.ipList.map fun ip => [Token.string (formats.formatAddr ip)],
        IsValue value ∧ lookup wanted name [] value = none := by
      intro value inside
      obtain ⟨ip, _, rfl⟩ := List.mem_map.mp inside
      exact ⟨isValue_string _, rfl⟩
    exact .field (.array fun value inside => (isValue value inside).1) (absent "IPList" (by simp))
      (lookup_values (fun value inside => (isValue value inside).1)
        fun value inside => (isValue value inside).2)
  have rules : Skipped wanted name
      (field "Rules" (jsonArray (res.rules.map (ruleTokens formats .string)))) := by
    have isValue : ∀ value ∈ res.rules.map (ruleTokens formats .string),
        IsValue value ∧ lookup wanted name [] value = none := by
      intro value inside
      obtain ⟨rule, _, rfl⟩ := List.mem_map.mp inside
      refine ⟨ruleTokens_isValue rule, lookup_rule (fun key known => absent key ?_) rule⟩
      exact List.mem_of_mem_take (i := 3) known
    exact .field (.array fun value inside => (isValue value inside).1) (absent "Rules" (by simp))
      (lookup_values (fun value inside => (isValue value inside).1)
        fun value inside => (isValue value inside).2)
  have reason : Members (omitEmpty (res.reason = 0) (field "Reason" [jsonInt res.reason.toNat])) :=
    (Fields.omitEmpty (.field (isValue_int _) _) _).members
  rw [resultTokens, lookup_jsonObject]
  simp only [List.append_assoc]
  rw [(rewrite_fields isJSON).members,
    (skipped_string (absent "CanonName" (by simp)) _).omitEmpty,
    (skipped_string (absent "ServiceName" (by simp)) _).omitEmpty, ipList.omitEmpty, rules.omitEmpty,
    reason, (skipped_bool (absent "IsFiltered" (by simp)) _).omitEmpty]
  change Option.or _ (Option.or _ none) = _
  rw [Option.or_none]

section Entry

variable {ent : LogEntry Addr Time}

theorem lookup_qHost : lookup isString (ascii "QH") [] (entryTokens formats .string ent) =
    some (.string ent.qHost) := by
  rw [entryTokens, lookup_jsonObject]
  simp only [List.append_assoc]
  rw [skipped_string (by decide), lookup_found (isValue_string _) (by decide) rfl]

theorem lookup_ip : lookup isString (ascii "IP") [] (entryTokens formats .string ent) =
    some (.string (formats.formatIP ent.ip)) := by
  rw [entryTokens, lookup_jsonObject]
  simp only [List.append_assoc]
  rw [skipped_string (by decide), skipped_string (by decide), skipped_string (by decide),
    skipped_string (by decide), (skipped_string (by decide) _).omitEmpty,
    (skipped_string (by decide) _).omitEmpty, skipped_string (by decide),
    (skipped_string (by decide) _).omitEmpty, (skipped_string (by decide) _).omitEmpty,
    (skipped_string (by decide) _).omitEmpty, lookup_found (isValue_string _) (by decide) rfl]

/-- What is looked up in an entry is its ClientID, or in the rewrite of its result, or the
reason of the result. -/
theorem lookup_entry (absent : Absent name ["T", "QH", "QT", "QC", "ECS", "CP", "Upstream", "Answer",
      "OrigAnswer", "IP", "Result", "Elapsed", "Cached", "AD", "Text", "FilterListID", "CanonName",
      "ServiceName", "IPList", "Rules", "IsFiltered"])
    (isJSON : ∀ r, ent.result.dnsRewriteResult = some r → r.IsJSON) :
    lookup wanted name [] (entryTokens formats .string ent) =
      (lookup wanted name [.key] (omitEmpty ent.clientID.isEmpty
        (field "CID" [.string ent.clientID]))).or
      ((lookup wanted name [.key] (encodeResultRewrite formats ent.result.dnsRewriteResult)).or
        (lookup wanted name [.key] (omitEmpty (ent.result.reason = 0)
          (field "Reason" [jsonInt ent.result.reason.toNat])))) := by
  have clientID : Members (omitEmpty ent.clientID.isEmpty (field "CID" [.string ent.clientID])) :=
    (Fields.omitEmpty (.field (isValue_string _) _) _).members
  have inside : Absent name ["Text", "IP", "FilterListID", "CanonName", "ServiceName", "IPList",
      "Rules", "IsFiltered"] := by
    intro key known
    exact absent key (by revert known; revert key; decide)
  have result := @lookup_field wanted name "Result" _
    (@resultTokens_isValue _ _ formats _ isJSON)
    (field "Elapsed" [jsonInt ent.elapsed] ++
      (omitEmpty (!ent.cached) (field "Cached" [.bool ent.cached]) ++
        (omitEmpty (!ent.authenticatedData) (field "AD" [.bool ent.authenticatedData]) ++
          [.delim .objectEnd])))
  have head : ((resultTokens formats Token.string ent.result).head?.filter fun v =>
      endsIn name (ascii "Result") && wanted v) = none := by
    rw [absent "Result" (by simp), Option.filter_eq_none_iff]
    intro v _
    rw [Bool.false_and]
    exact Bool.false_ne_true
  rw [head, Option.none_or, lookup_result inside isJSON, skipped_int (absent "Elapsed" (by simp)),
    (skipped_bool (absent "Cached" (by simp)) _).omitEmpty,
    (skipped_bool (absent "AD" (by simp)) _).omitEmpty] at result
  rw [entryTokens, lookup_jsonObject]
  simp only [List.append_assoc]
  rw [skipped_string (absent "T" (by simp)), skipped_string (absent "QH" (by simp)),
    skipped_string (absent "QT" (by simp)), skipped_string (absent "QC" (by simp)),
    (skipped_string (absent "ECS" (by simp)) _).omitEmpty, clientID,
    skipped_string (absent "CP" (by simp)),
    (skipped_string (absent "Upstream" (by simp)) _).omitEmpty,
    (skipped_string (absent "Answer" (by simp)) _).omitEmpty,
    (skipped_string (absent "OrigAnswer" (by simp)) _).omitEmpty,
    skipped_string (absent "IP" (by simp)), result]
  change Option.or _ (Option.or _ none) = _
  rw [Option.or_none]

/-- The first value of a string in the rewrite of an entry whose key ends in the one of a
ClientID. -/
def rewriteClientID (formats : Formats Addr Time) (ent : LogEntry Addr Time) :
    Option (Token Bytes) :=
  lookup isString (ascii "CID") [.key] (encodeResultRewrite formats ent.result.dnsRewriteResult)

/-- The first value in the rewrite of an entry whose key ends in the one of a reason. -/
def rewriteReason (formats : Formats Addr Time) (ent : LogEntry Addr Time) :
    Option (Token Bytes) :=
  lookup (fun _ => true) (ascii "Reason") [.key]
    (encodeResultRewrite formats ent.result.dnsRewriteResult)

section Lines

variable (isJSON : ∀ r, ent.result.dnsRewriteResult = some r → r.IsJSON)

include isJSON

theorem lineOf_string (formats : Formats Addr Time) {name : Bytes} (known : Name name) :
    readJSONValue (lineOf formats ent) (keyOf name [quoteMark]) =
      textOf (lookup isString name [] (entryTokens formats .string ent)) := by
  refine readJSONValue_text known (entryTokens_isValue isJSON).integral ?_
  intro s same
  rw [entryTokens, jsonObject, ← List.cons_append, List.getLast?_concat] at same
  cases same

theorem lineOf_qHost :
    readJSONValue (lineOf formats ent) (ascii "\"QH\":\"") = rawText ent.qHost := by
  have read := lineOf_string isJSON formats (show Name (ascii "QH") by decide)
  rw [lookup_qHost] at read
  exact read

theorem lineOf_ip :
    readJSONValue (lineOf formats ent) (ascii "\"IP\":\"") = rawText (formats.formatIP ent.ip) := by
  have read := lineOf_string isJSON formats (show Name (ascii "IP") by decide)
  rw [lookup_ip] at read
  exact read

theorem lineOf_clientID :
    readJSONValue (lineOf formats ent) (ascii "\"CID\":\"") =
      if ent.clientID = [] then textOf (rewriteClientID formats ent) else rawText ent.clientID := by
  have read := lineOf_string isJSON formats (show Name (ascii "CID") by decide)
  have reason : lookup isString (ascii "CID") [.key] (omitEmpty (ent.result.reason = 0)
      (field "Reason" [jsonInt ent.result.reason.toNat])) = none := by
    unfold omitEmpty
    split
    · rfl
    · rfl
  rw [lookup_entry (by decide) isJSON, reason, Option.or_none] at read
  refine Eq.trans read ?_
  by_cases empty : ent.clientID = []
  · rw [if_pos empty, empty]
    rfl
  · rw [if_neg empty]
    have some_ : ent.clientID.isEmpty = false := by simpa using empty
    have found := @lookup_found isString (ascii "CID") "CID" _ (isValue_string ent.clientID)
      (by decide) rfl []
    rw [List.append_nil] at found
    rw [some_, omitEmpty, if_neg (by decide), found, Option.some_or]
    rfl

theorem lineOf_reason :
    readJSONNumericValue (lineOf formats ent) (ascii "\"Reason\":") =
      digitsOf ((rewriteReason formats ent).or (if ent.result.reason = 0 then none
        else some (jsonInt ent.result.reason.toNat))) := by
  have last : (entryTokens formats Token.string ent).getLast? = some (.delim .objectEnd) := by
    rw [entryTokens, jsonObject, ← List.cons_append, List.getLast?_concat]
  have read := readJSONNumericValue_text (show Name (ascii "Reason") by decide)
    (entryTokens_isValue isJSON).integral last
  have clientID : lookup (fun _ => true) (ascii "Reason") [.key] (omitEmpty ent.clientID.isEmpty
      (field "CID" [.string ent.clientID])) = none := by
    unfold omitEmpty
    split
    · rfl
    · rfl
  have reason : lookup (fun _ => true) (ascii "Reason") [.key] (omitEmpty (ent.result.reason = 0)
      (field "Reason" [jsonInt ent.result.reason.toNat])) =
        if ent.result.reason = 0 then none else some (jsonInt ent.result.reason.toNat) := by
    by_cases zero : ent.result.reason = 0
    · rw [if_pos zero, decide_eq_true zero]
      rfl
    · rw [if_neg zero, decide_eq_false zero]
      rfl
  rw [lookup_entry (by decide) isJSON, clientID, Option.none_or, reason] at read
  exact read

end Lines

end Entry

end Fields

end AdGuardHome.Querylog
