import AdGuardHome.Querylog.CodecRules

namespace AdGuardHome.Querylog

open JSONTokens UTF8

variable {Addr Time : Type}

def placeAt (tokens : List (Token Bytes)) (ent : LogEntry Addr Time) (frames : List Frame) :
    Decoding Addr Time := (⟨tokens, frames⟩, ent)

def LogEntry.withResult (res : Result Addr) (ent : LogEntry Addr Time) : LogEntry Addr Time :=
  { ent with result := res }

section Omitted

variable {round : Decoding Addr Time → Decoding Addr Time ⊕ Except Stop (Decoding Addr Time)}

/-- A field that is left out when its value is the one that is there. -/
theorem omitEmpty_over {empty : Bool} {fields rest : List (Token Bytes)}
    {ent ent' : LogEntry Addr Time} (same : empty = true → ent' = ent)
    (decoded : Over round (placeAt (fields ++ rest) ent) (placeAt rest ent')) :
    Over round (placeAt (omitEmpty empty fields ++ rest) ent) (placeAt rest ent') := by
  cases empty with
  | true =>
    rw [same rfl]
    exact .refl _
  | false => exact decoded

end Omitted

variable {parsers : EntryParsers Addr Time} {formats : Formats Addr Time}

section Response

/-- Values of other types than addresses are encoded as whole values. -/
def RRValue.Whole : RRValue Addr → Prop
  | .json value => Passed 2 value
  | _ => True

theorem encodeRRValue_passed {v : RRValue Addr} (whole : v.Whole) :
    Passed 2 (encodeRRValue formats v) := by
  cases v with
  | ip ip => exact .literal rfl (by decide) (by decide)
  | addr addr => exact .literal rfl (by decide) (by decide)
  | json value => exact whole

theorem encodeResponse_split {resp : DNSRewriteResultResponse Addr}
    (whole : ∀ entry ∈ resp.entries, ∀ v ∈ entry.2, v.Whole) (rest : List (Token Bytes)) :
    splitValue 0 (encodeResponse formats resp ++ rest) =
      some (encodeResponse formats resp, rest) := by
  refine Passed.whole rfl rfl ?_ rest
  rw [List.flatMap_def]
  refine Passed.flatten fun value member => ?_
  obtain ⟨entry, sorted, rfl⟩ := List.mem_map.mp member
  have entry_ : entry ∈ resp.entries := (List.mergeSort_perm _ _).mem_iff.mp sorted
  have key : Passed 1 [Token.string (ascii (toString entry.1))] :=
    .literal rfl (by decide) (by decide)
  refine key.append (.bracketed rfl rfl (by decide) (by decide) (.flatten fun value member => ?_))
  obtain ⟨v, inside, rfl⟩ := List.mem_map.mp member
  exact encodeRRValue_passed (whole entry entry_ v inside)

def DNSRewriteResult.Whole (rewrite : DNSRewriteResult Addr) : Prop :=
  ∀ resp, rewrite.response = some resp → ∀ entry ∈ resp.entries, ∀ v ∈ entry.2, v.Whole

theorem rewriteResponse_step {resp : DNSRewriteResultResponse Addr}
    (whole : ∀ entry ∈ resp.entries, ∀ v ∈ entry.2, v.Whole) (rest : List (Token Bytes))
    (outer : List Frame) (res : Result Addr) (ent : LogEntry Addr Time) :
    ∃ rewrite, decodeResultDNSRewriteResultRound parsers
        (⟨field "Response" (encodeResponse formats resp) ++ rest, .key :: outer⟩,
          ent.withResult res) =
      .inl (⟨rest, .key :: outer⟩, ent.withResult { res with dnsRewriteResult := rewrite }) := by
  have parsed : parseKeyToken
      (⟨field "Response" (encodeResponse formats resp) ++ rest, .key :: outer⟩) =
        (some (ascii "Response"), ⟨encodeResponse formats resp ++ rest, .value :: outer⟩) := rfl
  have decoded : Decoder.decode ⟨encodeResponse formats resp ++ rest, .value :: outer⟩ =
      (some (encodeResponse formats resp), ⟨rest, .key :: outer⟩) := by
    have allowed : Decoder.valueAllowed
        ⟨encodeResponse formats resp ++ rest, .value :: outer⟩ = true := rfl
    rw [Decoder.decode, if_pos allowed, encodeResponse_split whole]
    rfl
  have nonempty : ascii "Response" ≠ [] := by decide
  have other : ascii "Response" ≠ ascii "RCode" := by decide
  simp only [decodeResultDNSRewriteResultRound, parsed, if_neg nonempty,
    decodeResultDNSRewriteResultKey, if_neg other, if_true, decoded]
  exact ⟨_, rfl⟩

theorem rewriteRCode_step (n : Int) (rest : List (Token Bytes)) (frames : List Frame)
    (res : Result Addr) (ent : LogEntry Addr Time) :
    ∃ rewrite frames', decodeResultDNSRewriteResultRound parsers
        (⟨field "RCode" [jsonInt n] ++ rest, frames⟩, ent.withResult res) =
      .inl (⟨rest, frames'⟩, ent.withResult { res with dnsRewriteResult := rewrite }) := by
  have parsed : parseKeyToken (⟨field "RCode" [jsonInt n] ++ rest, frames⟩) =
      (some (ascii "RCode"), ⟨jsonInt n :: rest, Token.move (.string (ascii "RCode")) frames⟩) :=
    rfl
  have nonempty : ascii "RCode" ≠ [] := by decide
  simp only [decodeResultDNSRewriteResultRound, parsed, if_neg nonempty,
    decodeResultDNSRewriteResultKey, if_true]
  exact ⟨_, _, rfl⟩

theorem encodeRewrite_append (rewrite : DNSRewriteResult Addr) (rest : List (Token Bytes)) :
    encodeRewrite formats rewrite ++ rest = .delim .objectStart ::
      (encodeRewriteResponse formats rewrite.response ++
        (omitEmpty (rewrite.rCode = 0) (field "RCode" [jsonInt rewrite.rCode]) ++
          .delim .objectEnd :: rest)) := by
  simp only [encodeRewrite, jsonObject, List.cons_append, List.append_assoc, List.nil_append]

/-- The rewrite result is read to its end. -/
theorem decodeResultDNSRewriteResult_encode {rewrite : DNSRewriteResult Addr}
    (whole : rewrite.Whole) (rest : List (Token Bytes)) (frames : List Frame)
    (res : Result Addr) (ent : LogEntry Addr Time) :
    ∃ decoded frames', decodeResultDNSRewriteResult parsers
        (⟨encodeRewrite formats rewrite ++ rest, frames⟩, ent.withResult res) =
      .ok (⟨rest, frames'⟩, ent.withResult { res with dnsRewriteResult := decoded }) := by
  let later := omitEmpty (rewrite.rCode = 0) (field "RCode" [jsonInt rewrite.rCode]) ++
    .delim .objectEnd :: rest
  have opened : decodeResultDNSRewriteResultRound parsers
      (⟨encodeRewrite formats rewrite ++ rest, frames⟩, ent.withResult res) =
      .inl (⟨encodeRewriteResponse formats rewrite.response ++ later, .key :: frames⟩,
        ent.withResult res) := by
    rw [encodeRewrite_append]
    rfl
  have response : ∃ decoded, Relation.ReflTransGen
      (fun pos next => decodeResultDNSRewriteResultRound parsers pos = .inl next)
      (⟨encodeRewriteResponse formats rewrite.response ++ later, .key :: frames⟩,
        ent.withResult res)
      (⟨later, .key :: frames⟩, ent.withResult { res with dnsRewriteResult := decoded }) := by
    rcases here : rewrite.response with _ | resp
    · exact ⟨res.dnsRewriteResult, .refl⟩
    · rw [encodeRewriteResponse]
      cases resp.entries.isEmpty with
      | true => exact ⟨res.dnsRewriteResult, .refl⟩
      | false =>
        obtain ⟨decoded, step⟩ := @rewriteResponse_step _ _ parsers formats _ (whole resp here) later frames res ent
        exact ⟨decoded, .single step⟩
  obtain ⟨first, path⟩ := response
  have code : ∃ decoded frames', Relation.ReflTransGen
      (fun pos next => decodeResultDNSRewriteResultRound parsers pos = .inl next)
      (⟨later, .key :: frames⟩, ent.withResult { res with dnsRewriteResult := first })
      (⟨.delim .objectEnd :: rest, frames'⟩,
        ent.withResult { res with dnsRewriteResult := decoded }) := by
    cases zero : decide (rewrite.rCode = 0) with
    | true =>
      refine ⟨first, .key :: frames, ?_⟩
      simp only [later, zero]
      exact .refl
    | false =>
      obtain ⟨decoded, frames', step⟩ := @rewriteRCode_step _ _ parsers rewrite.rCode (.delim .objectEnd :: rest) (.key :: frames) { res with dnsRewriteResult := first } ent
      refine ⟨decoded, frames', .single ?_⟩
      simp only [later, zero]
      exact step
  obtain ⟨decoded, frames', further⟩ := code
  refine ⟨decoded, valueEnd frames'.tail, ?_⟩
  refine (decodeResultDNSRewriteResultRound_consuming parsers).loop_iff.mpr ?_
  exact .again opened (Looping.Ends.after (Looping.Ends.after (.leave rfl) further) path)

end Response

section Fields

variable (valid : ∀ s, parsers.isValidIPString s = true → (parsers.parseAddr s).isSome = true)

include valid

/-- The list of addresses is read to its end. -/
theorem decodeResultIPList_encode (texts : List Bytes) (rest : List (Token Bytes))
    (frames : List Frame) (res : Result Addr) (ent : LogEntry Addr Time) :
    ∃ decoded frames', decodeResultIPList parsers
        (⟨jsonArray (texts.map fun text => [.string text]) ++ rest, frames⟩, ent.withResult res) =
      .ok (⟨rest, frames'⟩, ent.withResult { res with ipList := decoded }) := by
  have fueled : ∀ v (ent : LogEntry Addr Time),
      (appendIfValidIP parsers ent.result.ipList v).map (fun ipList =>
        ent.onResult fun res => { res with ipList }) ≠ .error .fuel := by
    intro v ent
    rw [Ne, Fallible.map_error_iff]
    exact appendIfValidIP_fueled parsers _ v
  have tokens : jsonArray (texts.map fun text => [.string text]) ++ rest = .delim .arrayStart ::
      ((texts.map fun text => [Token.string text]).flatten ++ .delim .arrayEnd :: rest) := by
    simp only [jsonArray, List.cons_append, List.append_assoc, List.nil_append]
  have walk : ∀ (texts : List Bytes) (frames : List Frame) (ips : List Addr),
      ∃ decoded frames', Looping.Ends (decodeListRound fun v ent =>
          (appendIfValidIP parsers ent.result.ipList v).map fun ipList =>
            ent.onResult fun res => { res with ipList })
        (⟨(texts.map fun text => [Token.string text]).flatten ++ .delim .arrayEnd :: rest,
          frames⟩, ent.withResult { res with ipList := ips })
        (.ok (⟨rest, frames'⟩, ent.withResult { res with ipList := decoded })) := by
    intro texts
    induction texts with
    | nil => exact fun frames ips => ⟨ips, _, .leave rfl⟩
    | cons text texts ih =>
      intro frames ips
      obtain ⟨more, added⟩ : ∃ more, appendIfValidIP parsers ips text = .ok more := by
        rcases found : appendIfValidIP parsers ips text with stop | more
        · cases stop with
          | panic => exact absurd found (appendIfValidIP_quiet parsers valid ips text)
          | fuel => exact absurd found (appendIfValidIP_fueled parsers ips text)
        · exact ⟨more, rfl⟩
      obtain ⟨decoded, frames', ends⟩ := ih (Token.move (.string text) frames) more
      refine ⟨decoded, frames', .again ?_ ends⟩
      change goOn (((appendIfValidIP parsers ips text).map _).map _) = _
      rw [added]
      rfl
  obtain ⟨decoded, frames', ends⟩ := walk texts (.element :: frames) res.ipList
  refine ⟨decoded, frames', (decodeListRound_consuming fueled).loop_iff.mpr (.again ?_ ends)⟩
  rw [tokens]
  rfl

end Fields

/-- A field of the result with a handler of one token. -/
theorem resultField_over {name : String} {handler : LogEntryHandler Addr Time}
    (other : handlerOf (resultDecHandlers parsers) (ascii name) = none)
    (found : handlerOf resultHandlers (ascii name) = some handler) (nonempty : ascii name ≠ [])
    {v : Token Bytes} {ent ent' : LogEntry Addr Time} (handled : handler v ent = (ent', true))
    (rest : List (Token Bytes)) :
    Over (decodeResultKeyValue parsers) (placeAt (field name [v] ++ rest) ent)
      (placeAt rest ent') := by
  refine .step fun frames => ⟨v.move (Token.move (.string (ascii name)) frames), ?_⟩
  have parsed : parseKeyToken (⟨field name [v] ++ rest, frames⟩) =
      (some (ascii name), ⟨v :: rest, Token.move (.string (ascii name)) frames⟩) := rfl
  simp only [placeAt, decodeResultKeyValue, parsed, if_neg nonempty, other, found, handleValue,
    Decoder.token, handled]

/-- A field of the result that has a decoder of its own. -/
theorem resultDecoder_step {name : String}
    {decode : Decoding Addr Time → Except Stop (Decoding Addr Time)}
    (found : handlerOf (resultDecHandlers parsers) (ascii name) = some decode)
    (nonempty : ascii name ≠ []) (value rest : List (Token Bytes)) (ent : LogEntry Addr Time)
    (frames : List Frame) :
    decodeResultKeyValue parsers (placeAt (field name value ++ rest) ent frames) =
      goOn (decode (⟨value ++ rest, Token.move (.string (ascii name)) frames⟩, ent)) := by
  have parsed : parseKeyToken (⟨field name value ++ rest, frames⟩) =
      (some (ascii name), ⟨value ++ rest, Token.move (.string (ascii name)) frames⟩) := rfl
  simp only [placeAt, decodeResultKeyValue, parsed, if_neg nonempty, found]

section Result

def Result.zero : Result Addr := ⟨none, [], [], [], [], 0, false⟩

/-- What of a result has to be parsed back is, and its values are whole ones. -/
structure ResultRestorable (parsers : EntryParsers Addr Time) (formats : Formats Addr Time)
    (res : Result Addr) : Prop where
  rewrite : ∀ rewrite, res.dnsRewriteResult = some rewrite → rewrite.Whole
  rules : ∀ rule ∈ res.rules, RuleRestorable parsers formats rule

def lastFields (res : Result Addr) : List (Token Bytes) :=
  omitEmpty (res.reason = 0) (field "Reason" [jsonInt res.reason.toNat]) ++
    omitEmpty (!res.isFiltered) (field "IsFiltered" [.bool res.isFiltered])

theorem encodeResult_append (res : Result Addr) (rest : List (Token Bytes)) :
    encodeResult formats res ++ rest = .delim .objectStart ::
      (encodeResultRewrite formats res.dnsRewriteResult ++
        (omitEmpty res.canonName.isEmpty (field "CanonName" [jsonString res.canonName]) ++
          (omitEmpty res.serviceName.isEmpty (field "ServiceName" [jsonString res.serviceName]) ++
            (omitEmpty res.ipList.isEmpty (field "IPList"
                (jsonArray (res.ipList.map fun ip => [.string (formats.formatAddr ip)]))) ++
              (omitEmpty res.rules.isEmpty
                  (field "Rules" (jsonArray (res.rules.map (encodeRule formats)))) ++
                (lastFields res ++ .delim .objectEnd :: rest)))))) := by
  simp only [encodeResult, lastFields, jsonObject, List.cons_append, List.append_assoc,
    List.nil_append]

def ResultPath (parsers : EntryParsers Addr Time) : Decoding Addr Time → Decoding Addr Time → Prop :=
  Relation.ReflTransGen fun pos next => decodeResultKeyValue parsers pos = .inl next

theorem resultRewrite_path {res : Result Addr} (restorable : ResultRestorable parsers formats res)
    (rest : List (Token Bytes)) (before : Result Addr) (ent : LogEntry Addr Time)
    (frames : List Frame) :
    ∃ rewrite frames', ResultPath parsers
      (placeAt (encodeResultRewrite formats res.dnsRewriteResult ++ rest) (ent.withResult before)
        frames)
      (placeAt rest (ent.withResult { before with dnsRewriteResult := rewrite }) frames') := by
  rcases here : res.dnsRewriteResult with _ | rewrite
  · exact ⟨before.dnsRewriteResult, frames, .refl⟩
  · have found : handlerOf (resultDecHandlers parsers) (ascii "DNSRewriteResult") =
        some (@decodeResultDNSRewriteResult _ Time parsers) := by
      simp +decide only [resultDecHandlers, handlerOf_cons, if_true, if_false]
    obtain ⟨decoded, frames', run⟩ := @decodeResultDNSRewriteResult_encode _ _ parsers formats _ (restorable.rewrite rewrite here) rest (Token.move (.string (ascii "DNSRewriteResult")) frames) before ent
    refine ⟨decoded, frames', .single ?_⟩
    rw [encodeResultRewrite, resultDecoder_step found (by decide), run]
    rfl

theorem resultIPs_path
    (valid : ∀ s, parsers.isValidIPString s = true → (parsers.parseAddr s).isSome = true)
    (res : Result Addr) (rest : List (Token Bytes)) (before : Result Addr)
    (ent : LogEntry Addr Time) (frames : List Frame) :
    ∃ ipList frames', ResultPath parsers
      (placeAt (omitEmpty res.ipList.isEmpty (field "IPList"
          (jsonArray (res.ipList.map fun ip => [.string (formats.formatAddr ip)]))) ++ rest)
        (ent.withResult before) frames)
      (placeAt rest (ent.withResult { before with ipList }) frames') := by
  cases res.ipList.isEmpty with
  | true => exact ⟨before.ipList, frames, .refl⟩
  | false =>
    have found : handlerOf (resultDecHandlers parsers) (ascii "IPList") =
        some (@decodeResultIPList _ Time parsers) := by
      simp +decide only [resultDecHandlers, handlerOf_cons, if_true, if_false]
    obtain ⟨decoded, frames', run⟩ := decodeResultIPList_encode valid
      (res.ipList.map formats.formatAddr) rest (Token.move (.string (ascii "IPList")) frames)
      before ent
    rw [List.map_map] at run
    refine ⟨decoded, frames', .single ?_⟩
    rw [omitEmpty, if_neg (by decide), resultDecoder_step found (by decide)]
    exact congrArg goOn run

/-- The fields of a result before its rules. What is read of the rewrite and of the
addresses is not followed here. -/
theorem firstFields_path
    (valid : ∀ s, parsers.isValidIPString s = true → (parsers.parseAddr s).isSome = true)
    {res : Result Addr} (restorable : ResultRestorable parsers formats res)
    (rest : List (Token Bytes)) (ent : LogEntry Addr Time) (frames : List Frame) :
    ∃ rewrite ipList frames', ResultPath parsers
      (placeAt (encodeResult formats res ++ rest) (ent.withResult .zero) frames)
      (placeAt (omitEmpty res.rules.isEmpty
            (field "Rules" (jsonArray (res.rules.map (encodeRule formats)))) ++
          (lastFields res ++ .delim .objectEnd :: rest))
        (ent.withResult ⟨rewrite, toValid res.canonName, toValid res.serviceName, ipList, [], 0,
          false⟩) frames') := by
  have canon : handlerOf (@resultHandlers Addr Time) (ascii "CanonName") =
      some (onString fun s ent => (ent.onResult fun res => { res with canonName := s }, true)) := by
    simp +decide only [resultHandlers, handlerOf_cons, if_true, if_false]
  have service : handlerOf (@resultHandlers Addr Time) (ascii "ServiceName") =
      some (onString fun s ent => (ent.onResult fun res => { res with serviceName := s }, true)) := by
    simp +decide only [resultHandlers, handlerOf_cons, if_true, if_false]
  have noDecoder : ∀ name ∈ ["CanonName", "ServiceName"],
      handlerOf (@resultDecHandlers _ Time parsers) (ascii name) = none := by
    simp +decide [resultDecHandlers, handlerOf]
  let rules := omitEmpty res.rules.isEmpty
      (field "Rules" (jsonArray (res.rules.map (encodeRule formats)))) ++
    (lastFields res ++ .delim .objectEnd :: rest)
  let ips := omitEmpty res.ipList.isEmpty (field "IPList"
    (jsonArray (res.ipList.map fun ip => [.string (formats.formatAddr ip)]))) ++ rules
  let names := omitEmpty res.canonName.isEmpty (field "CanonName" [jsonString res.canonName]) ++
    (omitEmpty res.serviceName.isEmpty (field "ServiceName" [jsonString res.serviceName]) ++ ips)
  rw [encodeResult_append]
  obtain ⟨rewrite, opened, first⟩ :=
    resultRewrite_path restorable names .zero ent (.key :: frames)
  have named : Over (decodeResultKeyValue parsers)
      (placeAt names (ent.withResult { Result.zero with dnsRewriteResult := rewrite }))
      (placeAt ips (ent.withResult ⟨rewrite, toValid res.canonName, toValid res.serviceName, [], [],
        0, false⟩)) := by
    refine Over.trans (omitEmpty_over ?_ (resultField_over (noDecoder _ (by simp)) canon
      (by decide) rfl _)) (omitEmpty_over ?_ (resultField_over (noDecoder _ (by simp)) service
      (by decide) rfl _))
    · intro empty
      rw [List.isEmpty_iff.mp empty]
      rfl
    · intro empty
      rw [List.isEmpty_iff.mp empty]
      rfl
  obtain ⟨middle, second⟩ := named opened
  obtain ⟨ipList, last, third⟩ := resultIPs_path valid res rules _ ent middle
  exact ⟨rewrite, ipList, last, .head rfl (first.trans (second.trans third))⟩

/-- The fields of a result after its rules. -/
theorem lastFields_over {res before : Result Addr}
    (fresh : before.reason = 0 ∧ before.isFiltered = false) (rest : List (Token Bytes))
    (ent : LogEntry Addr Time) :
    Over (decodeResultKeyValue parsers)
      (placeAt (lastFields res ++ rest) (ent.withResult before))
      (placeAt rest (ent.withResult
        { before with reason := res.reason, isFiltered := res.isFiltered })) := by
  have reason : handlerOf (@resultHandlers Addr Time) (ascii "Reason") =
      some (onInt64 fun i => LogEntry.onResult fun res => { res with reason := .ofInt 8 i }) := by
    simp +decide only [resultHandlers, handlerOf_cons, if_true, if_false]
  have filtered : handlerOf (@resultHandlers Addr Time) (ascii "IsFiltered") =
      some (onBool fun v => LogEntry.onResult fun res => { res with isFiltered := v }) := by
    simp +decide only [resultHandlers, handlerOf_cons, if_true, if_false]
  have noDecoder : ∀ name ∈ ["Reason", "IsFiltered"],
      handlerOf (@resultDecHandlers _ Time parsers) (ascii name) = none := by
    simp +decide [resultDecHandlers, handlerOf]
  have handled : onInt64 (fun i => LogEntry.onResult fun res => { res with reason := .ofInt 8 i })
      (jsonInt res.reason.toNat) (ent.withResult before) =
        (ent.withResult { before with reason := res.reason }, true) := by
    have fits : IsInt64 res.reason.toNat := by
      have bound := res.reason.isLt
      constructor
      · exact le_trans (by decide) (Int.natCast_nonneg _)
      · exact le_trans (Int.ofNat_le.mpr (Nat.le_of_lt bound)) (by decide)
    rw [jsonInt, onInt64, int64_eq fits, if_pos rfl, BitVec.ofInt_natCast, BitVec.ofNat_toNat,
      BitVec.setWidth_eq]
    rfl
  obtain ⟨_, _, _, _, _, beforeReason, beforeFiltered⟩ := before
  obtain ⟨rfl, rfl⟩ := fresh
  rw [lastFields, List.append_assoc]
  refine Over.trans (omitEmpty_over ?_ (resultField_over (noDecoder _ (by simp)) reason
    (by decide) handled _)) (omitEmpty_over ?_ (resultField_over (noDecoder _ (by simp)) filtered
    (by decide) rfl _))
  · intro zero
    rw [of_decide_eq_true zero]
  · intro unset
    have off : res.isFiltered = false := by simpa using unset
    rw [off]

theorem translateResult_fields (res : Result Addr) :
    (translateResult parsers res).rules = res.rules ∧
      (translateResult parsers res).reason = res.reason ∧
      (translateResult parsers res).isFiltered = res.isFiltered := by
  unfold translateResult
  split
  · exact ⟨rfl, rfl, rfl⟩
  · exact ⟨rfl, rfl, rfl⟩

/-- What the decoding makes of an encoded result. -/
theorem decodeResult_encode
    (valid : ∀ s, parsers.isValidIPString s = true → (parsers.parseAddr s).isSome = true)
    {res : Result Addr} (restorable : ResultRestorable parsers formats res)
    (rest : List (Token Bytes)) (ent : LogEntry Addr Time) (frames : List Frame) :
    (∀ decoded, decodedRules res.rules = some decoded → ∃ out frames',
      decodeResult parsers (placeAt (encodeResult formats res ++ rest) (ent.withResult .zero) frames) =
        .ok (placeAt rest (ent.withResult out) frames') ∧
      out.rules = decoded ∧ out.reason = res.reason ∧ out.isFiltered = res.isFiltered) ∧
    (decodedRules res.rules = none →
      decodeResult parsers (placeAt (encodeResult formats res ++ rest) (ent.withResult .zero) frames) =
        .error .panic) := by
  obtain ⟨rewrite, ipList, before, path⟩ :=
    firstFields_path valid restorable rest ent frames
  have found : handlerOf (resultDecHandlers parsers) (ascii "Rules") =
      some (@decodeResultRules _ Time parsers) := by
    simp +decide only [resultDecHandlers, handlerOf_cons, if_true, if_false]
  -- The rules themselves; when there are none, there is no field.
  obtain ⟨kept, panics⟩ := @decodeResultRules_encode _ _ _ formats _ restorable.rules (ent.withResult ⟨rewrite, toValid res.canonName, toValid res.serviceName, ipList, [], 0,
      false⟩) rfl (lastFields res ++ .delim .objectEnd :: rest) (Token.move (.string (ascii "Rules")) before)
  have ends : ∀ result, Looping.Ends (decodeResultKeyValue parsers)
      (placeAt (encodeResult formats res ++ rest) (ent.withResult .zero) frames) result →
      decodeResult parsers (placeAt (encodeResult formats res ++ rest) (ent.withResult .zero)
        frames) = result.map fun pos => (pos.1, pos.2.onResult (translateResult parsers)) := by
    intro result ends
    have run := (decodeResultKeyValue_consuming parsers).loop_iff.mpr ends
    change Except.map _ (loop _ (left _ + 1) _) = _
    rw [run]
  constructor
  · intro decoded same
    obtain ⟨after_, second⟩ : ∃ after_, ResultPath parsers
        (placeAt (omitEmpty res.rules.isEmpty
            (field "Rules" (jsonArray (res.rules.map (encodeRule formats)))) ++
          (lastFields res ++ .delim .objectEnd :: rest))
          (ent.withResult ⟨rewrite, toValid res.canonName, toValid res.serviceName, ipList, [], 0,
            false⟩) before)
        (placeAt (lastFields res ++ .delim .objectEnd :: rest)
          (ent.withResult ⟨rewrite, toValid res.canonName, toValid res.serviceName, ipList, decoded,
            0, false⟩) after_) := by
      cases empty : res.rules.isEmpty with
      | true =>
        rw [List.isEmpty_iff.mp empty] at same
        cases same
        exact ⟨before, .refl⟩
      | false =>
        obtain ⟨frames', run⟩ := kept decoded same
        refine ⟨frames', .single ?_⟩
        rw [omitEmpty, if_neg (by decide), resultDecoder_step found (by decide), run]
        rfl
    obtain ⟨last, third⟩ := @lastFields_over _ _ parsers res
      ⟨rewrite, toValid res.canonName, toValid res.serviceName, ipList, decoded, 0, false⟩
      ⟨rfl, rfl⟩ (.delim .objectEnd :: rest) ent after_
    have leaves : ∀ ent : LogEntry Addr Time,
        decodeResultKeyValue parsers (placeAt (.delim .objectEnd :: rest) ent last) =
          .inr (.ok (placeAt rest ent (valueEnd last.tail))) := fun _ => rfl
    have run := ends _ ((Looping.Ends.leave (leaves _)).after
      (path.trans (second.trans third)))
    obtain ⟨rules, reason, filtered⟩ := @translateResult_fields _ _ parsers
      ⟨rewrite, toValid res.canonName, toValid res.serviceName, ipList, decoded, res.reason,
        res.isFiltered⟩
    exact ⟨_, _, run, rules, reason, filtered⟩
  · intro same
    have some_ : res.rules.isEmpty = false := by
      by_contra empty
      rw [Bool.not_eq_false] at empty
      rw [List.isEmpty_iff.mp empty] at same
      cases same
    refine ends (.error .panic) (Looping.Ends.after (.leave ?_) path)
    rw [omitEmpty, some_, if_neg (by decide), resultDecoder_step found (by decide), panics same]
    rfl

end Result

end AdGuardHome.Querylog
