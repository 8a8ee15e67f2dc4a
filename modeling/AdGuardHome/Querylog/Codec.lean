import AdGuardHome.Querylog.CodecResult

namespace AdGuardHome.Querylog

open JSONTokens UTF8

variable {Addr Time : Type} {parsers : EntryParsers Addr Time} {formats : Formats Addr Time}
  {name : String} {ent : LogEntry Addr Time}

/-- A field of the entry with a handler of one token. -/
theorem entryField_over {handler : LogEntryHandler Addr Time} (other : ascii name ≠ ascii "Result")
    (found : handlerOf (logEntryHandlers parsers) (ascii name) = some handler) {v : Token Bytes}
    {ent ent' : LogEntry Addr Time} (handled : handler v ent = (ent', true))
    (rest : List (Token Bytes)) :
    Over (decodeLogEntryKeyValue parsers) (placeAt (field name [v] ++ rest) ent)
      (placeAt rest ent') := by
  refine .step fun frames => ⟨v.move (Token.move (.string (ascii name)) frames), ?_⟩
  have read : Decoder.token (⟨field name [v] ++ rest, frames⟩) =
      some (.string (ascii name), ⟨v :: rest, Token.move (.string (ascii name)) frames⟩) := rfl
  simp only [placeAt, decodeLogEntryKeyValue, read, if_neg other, found, handleValue]
  simp only [Decoder.token, handled]

/-- What of an entry has to be parsed back is: its time, its answers in base64, and what its
result needs. Its protocol is a valid one, and its integers have 64 bits. -/
structure Restorable (parsers : EntryParsers Addr Time) (formats : Formats Addr Time)
    (ent : LogEntry Addr Time) : Prop where
  time : parsers.parseTime (formats.formatTime ent.time) = (ent.time, true)
  answer : parsers.decodeBase64 (formats.encodeBase64 ent.answer) = (ent.answer, true)
  origAnswer :
    parsers.decodeBase64 (formats.encodeBase64 ent.origAnswer) = (ent.origAnswer, true)
  clientProto : ent.clientProto ∈ clientProtos
  elapsed : IsInt64 ent.elapsed
  result : ResultRestorable parsers formats ent.result

def beforeResult (parsers : EntryParsers Addr Time) (formats : Formats Addr Time)
    (ent : LogEntry Addr Time) (zeroTime : Time) : LogEntry Addr Time :=
  { LogEntry.zero zeroTime with
    time := ent.time
    qHost := toValid ent.qHost
    qType := toValid ent.qType
    qClass := toValid ent.qClass
    reqECS := toValid ent.reqECS
    clientID := toValid ent.clientID
    clientProto := ent.clientProto
    upstream := toValid ent.upstream
    answer := ent.answer
    origAnswer := ent.origAnswer
    ip := parsers.parseIP (formats.formatIP ent.ip) }

def lastEntryFields (ent : LogEntry Addr Time) : List (Token Bytes) :=
  field "Elapsed" [jsonInt ent.elapsed] ++
    (omitEmpty (!ent.cached) (field "Cached" [.bool ent.cached]) ++
      (omitEmpty (!ent.authenticatedData) (field "AD" [.bool ent.authenticatedData]) ++
        [.delim .objectEnd]))

theorem encodeLogEntry_eq (ent : LogEntry Addr Time) :
    encodeLogEntry formats ent = .delim .objectStart ::
      (field "T" [.string (formats.formatTime ent.time)] ++
        (field "QH" [jsonString ent.qHost] ++
          (field "QT" [jsonString ent.qType] ++
            (field "QC" [jsonString ent.qClass] ++
              (omitEmpty ent.reqECS.isEmpty (field "ECS" [jsonString ent.reqECS]) ++
                (omitEmpty ent.clientID.isEmpty (field "CID" [jsonString ent.clientID]) ++
                  (field "CP" [jsonString ent.clientProto] ++
                    (omitEmpty ent.upstream.isEmpty (field "Upstream" [jsonString ent.upstream]) ++
                      (omitEmpty ent.answer.isEmpty
                          (field "Answer" [.string (formats.encodeBase64 ent.answer)]) ++
                        (omitEmpty ent.origAnswer.isEmpty
                            (field "OrigAnswer" [.string (formats.encodeBase64 ent.origAnswer)]) ++
                          (field "IP" [.string (formats.formatIP ent.ip)] ++
                            (field "Result" (encodeResult formats ent.result) ++
                              lastEntryFields ent)))))))))))) := by
  simp only [encodeLogEntry, lastEntryFields, jsonObject, List.append_assoc]

theorem newClientProto_valid {proto : Bytes} (known : proto ∈ clientProtos) :
    newClientProto (toValid proto) = (proto, true) := by
  have same : toValid proto = proto := by
    revert known
    revert proto
    decide
  rw [same, newClientProto, if_pos known]

/-- A field of the entry that is a string. -/
theorem stringField_over {set : Bytes → LogEntry Addr Time → LogEntry Addr Time}
    (other : ascii name ≠ ascii "Result")
    (found : handlerOf (logEntryHandlers parsers) (ascii name) =
      some (onString fun v ent => (set v ent, true)))
    (s : Bytes) (ent : LogEntry Addr Time) (rest : List (Token Bytes)) :
    Over (decodeLogEntryKeyValue parsers) (placeAt (field name [jsonString s] ++ rest) ent)
      (placeAt rest (set (toValid s) ent)) :=
  entryField_over other found rfl rest

/-- A field of the entry that is a string, and is left out when it is empty. -/
theorem omittedString_over {set : Bytes → LogEntry Addr Time → LogEntry Addr Time}
    (fresh : set [] ent = ent) (other : ascii name ≠ ascii "Result")
    (found : handlerOf (logEntryHandlers parsers) (ascii name) =
      some (onString fun v ent => (set v ent, true)))
    (s : Bytes) (rest : List (Token Bytes)) :
    Over (decodeLogEntryKeyValue parsers)
      (placeAt (omitEmpty s.isEmpty (field name [jsonString s]) ++ rest) ent)
      (placeAt rest (set (toValid s) ent)) := by
  refine omitEmpty_over (fun empty => ?_) (stringField_over other found s ent rest)
  rw [List.isEmpty_iff.mp empty]
  exact fresh

/-- A field of the entry that is parsed. -/
theorem parsedField_over {V : Type} {parse : Bytes → V × Bool}
    (set : V → LogEntry Addr Time → LogEntry Addr Time) (other : ascii name ≠ ascii "Result")
    (found : handlerOf (logEntryHandlers parsers) (ascii name) =
      some (onString fun v ent => (set (parse v).1 ent, (parse v).2)))
    {text : Bytes} {v : V} (parsed : parse text = (v, true)) (ent : LogEntry Addr Time)
    (rest : List (Token Bytes)) :
    Over (decodeLogEntryKeyValue parsers) (placeAt (field name [.string text] ++ rest) ent)
      (placeAt rest (set v ent)) := by
  refine entryField_over other found ?_ rest
  rw [onString, parsed]

/-- A field of the entry that is parsed, and is left out when it is empty. -/
theorem omittedParsed_over {parse : Bytes → Bytes × Bool}
    (set : Bytes → LogEntry Addr Time → LogEntry Addr Time) (fresh : set [] ent = ent)
    (other : ascii name ≠ ascii "Result")
    (found : handlerOf (logEntryHandlers parsers) (ascii name) =
      some (onString fun v ent => (set (parse v).1 ent, (parse v).2)))
    {text v : Bytes} (parsed : parse text = (v, true)) (rest : List (Token Bytes)) :
    Over (decodeLogEntryKeyValue parsers)
      (placeAt (omitEmpty v.isEmpty (field name [.string text]) ++ rest) ent)
      (placeAt rest (set v ent)) := by
  refine omitEmpty_over (fun empty => ?_) (parsedField_over set other found parsed ent rest)
  rw [List.isEmpty_iff.mp empty]
  exact fresh

theorem logEntryHandlers_distinct :
    (((logEntryHandlers parsers).map Prod.fst).map ascii).Nodup := by
  have names : (logEntryHandlers parsers).map Prod.fst = ["CID", "IP", "T", "QH", "QT", "QC", "CP",
      "Answer", "OrigAnswer", "ECS", "Cached", "AD", "Upstream", "Elapsed"] := rfl
  rw [names]
  decide

/-- The handler at a place of the list is the one of its key. -/
theorem logEntryHandler_at {handler : LogEntryHandler Addr Time} (i : Nat)
    (here : (logEntryHandlers parsers)[i]? = some (name, handler)) :
    handlerOf (logEntryHandlers parsers) (ascii name) = some handler :=
  handlerOf_of_mem logEntryHandlers_distinct (List.mem_of_getElem? here)

theorem entryDelim_over (d : Delim) (rest : List (Token Bytes)) (ent : LogEntry Addr Time) :
    Over (decodeLogEntryKeyValue parsers) (placeAt (.delim d :: rest) ent) (placeAt rest ent) :=
  .step fun frames => ⟨Token.move (.delim d : Token Bytes) frames, rfl⟩

/-- The fields of an entry before its result. -/
theorem firstEntryFields_over (restorable : Restorable parsers formats ent) (zeroTime : Time) :
    Over (decodeLogEntryKeyValue parsers) (placeAt (encodeLogEntry formats ent) (.zero zeroTime))
      (placeAt (field "Result" (encodeResult formats ent.result) ++ lastEntryFields ent)
        (beforeResult parsers formats ent zeroTime)) := by
  rw [encodeLogEntry_eq]
  refine (entryDelim_over .objectStart _ _).trans ?_
  refine (parsedField_over (fun time ent => { ent with time }) (by decide)
    (logEntryHandler_at 2 rfl) restorable.time _ _).trans ?_
  refine (stringField_over (by decide) (logEntryHandler_at 3 rfl) ent.qHost _ _).trans ?_
  refine (stringField_over (by decide) (logEntryHandler_at 4 rfl) ent.qType _ _).trans ?_
  refine (stringField_over (by decide) (logEntryHandler_at 5 rfl) ent.qClass _ _).trans ?_
  refine (omittedString_over rfl (by decide) (logEntryHandler_at 9 rfl) ent.reqECS _).trans ?_
  refine (omittedString_over rfl (by decide) (logEntryHandler_at 0 rfl) ent.clientID _).trans ?_
  refine (parsedField_over (fun clientProto ent => { ent with clientProto }) (by decide)
    (logEntryHandler_at 6 rfl) (newClientProto_valid restorable.clientProto) _ _).trans ?_
  refine (omittedString_over rfl (by decide) (logEntryHandler_at 12 rfl) ent.upstream _).trans ?_
  refine (omittedParsed_over (fun answer ent => { ent with answer }) rfl (by decide)
    (logEntryHandler_at 7 rfl) restorable.answer _).trans ?_
  refine (omittedParsed_over (fun origAnswer ent => { ent with origAnswer }) rfl (by decide)
    (logEntryHandler_at 8 rfl) restorable.origAnswer _).trans ?_
  exact entryField_over (by decide) (logEntryHandler_at 1 rfl) rfl _

/-- The round over the result. -/
theorem entryResult_step (value rest : List (Token Bytes)) (ent : LogEntry Addr Time)
    (frames : List Frame) :
    decodeLogEntryKeyValue parsers (placeAt (field "Result" value ++ rest) ent frames) =
      goOn (decodeResult parsers (placeAt (value ++ rest) ent
        (Token.move (.string (ascii "Result") : Token Bytes) frames))) := by
  have read : Decoder.token (⟨field "Result" value ++ rest, frames⟩) =
      some (.string (ascii "Result"),
        ⟨value ++ rest, Token.move (.string (ascii "Result")) frames⟩) := rfl
  simp only [placeAt, decodeLogEntryKeyValue, read, if_true]

/-- A flag of the entry that is left out when it is not set. -/
theorem omittedBool_over {set : Bool → LogEntry Addr Time → LogEntry Addr Time}
    (fresh : set false ent = ent) (other : ascii name ≠ ascii "Result")
    (found : handlerOf (logEntryHandlers parsers) (ascii name) = some (onBool set)) (v : Bool)
    (rest : List (Token Bytes)) :
    Over (decodeLogEntryKeyValue parsers)
      (placeAt (omitEmpty (!v) (field name [.bool v]) ++ rest) ent) (placeAt rest (set v ent)) := by
  refine omitEmpty_over (fun unset => ?_) (entryField_over other found rfl rest)
  rw [Bool.not_eq_true' v |>.mp unset]
  exact fresh

def decodedEntry (parsers : EntryParsers Addr Time) (formats : Formats Addr Time)
    (ent : LogEntry Addr Time) (zeroTime : Time) (res : Result Addr) : LogEntry Addr Time :=
  { (beforeResult parsers formats ent zeroTime).withResult res with
    elapsed := ent.elapsed
    cached := ent.cached
    authenticatedData := ent.authenticatedData }

/-- The fields of an entry after its result. -/
theorem lastEntryFields_over (elapsed : IsInt64 ent.elapsed) (zeroTime : Time) (res : Result Addr) :
    Over (decodeLogEntryKeyValue parsers)
      (placeAt (lastEntryFields ent) ((beforeResult parsers formats ent zeroTime).withResult res))
      (placeAt [] (decodedEntry parsers formats ent zeroTime res)) := by
  have handled : ∀ before : LogEntry Addr Time,
      onInt64 (fun v ent => { ent with elapsed := v }) (jsonInt ent.elapsed) before =
        ({ before with elapsed := ent.elapsed }, true) := by
    intro before
    rw [jsonInt, onInt64, int64_eq elapsed]
    rfl
  rw [lastEntryFields]
  refine (entryField_over (by decide) (logEntryHandler_at 13 rfl) (handled _) _).trans ?_
  refine (omittedBool_over rfl (by decide) (logEntryHandler_at 10 rfl) ent.cached _).trans ?_
  refine (omittedBool_over rfl (by decide) (logEntryHandler_at 11 rfl)
    ent.authenticatedData _).trans ?_
  exact entryDelim_over .objectEnd _ _

theorem decodeLogEntry_ends {tokens : List (Token Bytes)}
    {result : Except Stop (Decoding Addr Time)}
    (ends : Looping.Ends (decodeLogEntryKeyValue parsers) (placeAt tokens ent []) result) :
    decodeLogEntry parsers ent tokens = result.map Prod.snd :=
  congrArg (Except.map Prod.snd) ((decodeLogEntryKeyValue_consuming parsers).loop_iff.mpr ends)

/-- What the decoding makes of an encoded entry: everything but the rewrite and the addresses
of its result is known. -/
theorem decodeLogEntry_encode
    (valid : ∀ s, parsers.isValidIPString s = true → (parsers.parseAddr s).isSome = true)
    (restorable : Restorable parsers formats ent) (zeroTime : Time) :
    (∀ decoded, decodedRules ent.result.rules = some decoded → ∃ res,
      decodeLogEntry parsers (.zero zeroTime) (encodeLogEntry formats ent) =
        .ok (decodedEntry parsers formats ent zeroTime res) ∧
      res.rules = decoded ∧ res.reason = ent.result.reason ∧
        res.isFiltered = ent.result.isFiltered) ∧
    (decodedRules ent.result.rules = none →
      decodeLogEntry parsers (.zero zeroTime) (encodeLogEntry formats ent) = .error .panic) := by
  obtain ⟨frames, path⟩ := firstEntryFields_over restorable zeroTime []
  obtain ⟨kept, panics⟩ := decodeResult_encode valid restorable.result (lastEntryFields ent)
    (beforeResult parsers formats ent zeroTime)
    (Token.move (.string (ascii "Result") : Token Bytes) frames)
  have round := @entryResult_step _ _ parsers (encodeResult formats ent.result) (lastEntryFields ent) (beforeResult parsers formats ent zeroTime) frames
  constructor
  · intro decoded same
    obtain ⟨res, frames', run, fields⟩ := kept decoded same
    obtain ⟨last, further⟩ := @lastEntryFields_over _ _ parsers formats _
      restorable.elapsed zeroTime res frames'
    have step : decodeLogEntryKeyValue parsers (placeAt (field "Result"
        (encodeResult formats ent.result) ++ lastEntryFields ent)
          (beforeResult parsers formats ent zeroTime) frames) =
        .inl (placeAt (lastEntryFields ent)
          ((beforeResult parsers formats ent zeroTime).withResult res) frames') :=
      round.trans (congrArg goOn run)
    have leaves : ∀ ent : LogEntry Addr Time,
        decodeLogEntryKeyValue parsers (placeAt [] ent last) =
          .inr (.ok (placeAt [] ent last)) := fun _ => rfl
    have rounds := (Looping.Ends.leave (leaves _)).after (path.trans (.head step further))
    exact ⟨res, decodeLogEntry_ends rounds, fields⟩
  · intro same
    have step : decodeLogEntryKeyValue parsers (placeAt (field "Result"
        (encodeResult formats ent.result) ++ lastEntryFields ent)
          (beforeResult parsers formats ent zeroTime) frames) = .inr (.error .panic) :=
      round.trans (congrArg goOn (panics same))
    exact decodeLogEntry_ends ((Looping.Ends.leave step).after path)

/-- The entry comes back, but for its address and what else its result holds. -/
structure Restored (ent decoded : LogEntry Addr Time) : Prop where
  time : decoded.time = ent.time
  qHost : decoded.qHost = ent.qHost
  qType : decoded.qType = ent.qType
  qClass : decoded.qClass = ent.qClass
  clientID : decoded.clientID = ent.clientID
  clientProto : decoded.clientProto = ent.clientProto
  upstream : decoded.upstream = ent.upstream
  answer : decoded.answer = ent.answer
  origAnswer : decoded.origAnswer = ent.origAnswer
  elapsed : decoded.elapsed = ent.elapsed
  cached : decoded.cached = ent.cached
  authenticatedData : decoded.authenticatedData = ent.authenticatedData
  isFiltered : decoded.result.isFiltered = ent.result.isFiltered
  reason : decoded.result.reason = ent.result.reason
  rules : decoded.result.rules = ent.result.rules

/-- The texts of an entry are in UTF-8 and no rule of it is zero. -/
structure Recoverable (ent : LogEntry Addr Time) : Prop where
  qHost : toValid ent.qHost = ent.qHost
  qType : toValid ent.qType = ent.qType
  qClass : toValid ent.qClass = ent.qClass
  clientID : toValid ent.clientID = ent.clientID
  upstream : toValid ent.upstream = ent.upstream
  rules : ∀ rule ∈ ent.result.rules, rule.isZero = false ∧ toValid rule.text = rule.text

/-- An entry comes back from its encoding just when its texts are in UTF-8 and no rule of it
is zero. -/
theorem decode_restores
    (valid : ∀ s, parsers.isValidIPString s = true → (parsers.parseAddr s).isSome = true)
    {ent : LogEntry Addr Time} (restorable : Restorable parsers formats ent) (zeroTime : Time) :
    (∃ decoded, decodeLogEntry parsers (.zero zeroTime) (encodeLogEntry formats ent) =
      .ok decoded ∧ Restored ent decoded) ↔ Recoverable ent := by
  obtain ⟨kept, panics⟩ := decodeLogEntry_encode valid restorable zeroTime
  constructor
  · rintro ⟨decoded, run, restored⟩
    rcases found : decodedRules ent.result.rules with _ | rules
    · rw [panics found] at run
      cases run
    · obtain ⟨res, same, rules_, _⟩ := kept rules found
      rw [same] at run
      cases run
      refine ⟨restored.qHost, restored.qType, restored.qClass, restored.clientID,
        restored.upstream, ?_⟩
      rw [← decodedRules_eq_self, found]
      exact congrArg some (rules_.symm.trans restored.rules)
  · intro recoverable
    obtain ⟨res, same, rules, reason, filtered⟩ :=
      kept ent.result.rules ((decodedRules_eq_self _).mpr recoverable.rules)
    exact ⟨_, same, rfl, recoverable.qHost, recoverable.qType, recoverable.qClass,
      recoverable.clientID, rfl, recoverable.upstream, rfl, rfl, rfl, rfl, rfl, filtered, reason,
      rules⟩

def fewFormats : Formats (BitVec 32) Int where
  formatTime _ := ascii "2024-05-01T10:00:00Z"
  formatIP _ := ascii "192.0.2.1"
  formatAddr _ := ascii "192.0.2.1"
  encodeBase64 s := s

def blockedEntry (rules : List (ResultRule (BitVec 32))) : LogEntry (BitVec 32) Int where
  time := 1714557600
  qHost := ascii "example.org"
  qType := ascii "A"
  qClass := ascii "IN"
  reqECS := []
  clientID := []
  clientProto := ascii "doh"
  upstream := []
  answer := []
  origAnswer := []
  ip := some [192, 0, 2, 1]
  result := ⟨none, [], [], [], rules, 3, true⟩
  elapsed := 1000
  cached := false
  authenticatedData := false

theorem blockedEntry_restorable {rules : List (ResultRule (BitVec 32))}
    (restorable : ∀ rule ∈ rules, RuleRestorable fewParsers fewFormats rule) :
    Restorable fewParsers fewFormats (blockedEntry rules) where
  time := rfl
  answer := rfl
  origAnswer := rfl
  clientProto := show ascii "doh" ∈ clientProtos by decide
  elapsed := show IsInt64 1000 by decide
  result := ⟨fun _ never => (by cases never), restorable⟩

/-- An entry with the rule for an address. -/
theorem decode_restores_hosts_rule :
    ∃ decoded, decodeLogEntry fewParsers (.zero 0) (encodeLogEntry fewFormats
        (blockedEntry [⟨ascii "192.0.2.1 example.org", some 3221225985, 1⟩])) = .ok decoded ∧
      Restored (blockedEntry [⟨ascii "192.0.2.1 example.org", some 3221225985, 1⟩]) decoded := by
  refine (decode_restores fewParsers_valid (blockedEntry_restorable ?_) 0).mpr ?_
  · rintro rule member
    cases List.mem_singleton.mp member
    exact ⟨fun ip same => (by cases same; rfl), by decide⟩
  · exact ⟨by decide, by decide, by decide, by decide, by decide, by decide⟩

/-- A zero rule before one with a text: the entry is written, but reading it panics. -/
theorem zero_rule_not_restored : ¬ ∀ (parsers : EntryParsers (BitVec 32) Int)
    (formats : Formats (BitVec 32) Int) (ent : LogEntry (BitVec 32) Int),
      (∀ s, parsers.isValidIPString s = true → (parsers.parseAddr s).isSome = true) →
      Restorable parsers formats ent →
        ∃ decoded, decodeLogEntry parsers (.zero 0) (encodeLogEntry formats ent) = .ok decoded ∧
          Restored ent decoded := by
  intro all
  have restorable : ∀ rule ∈ [ResultRule.zero, ⟨ascii "a", none, 0⟩],
      RuleRestorable fewParsers fewFormats rule := by
    rintro rule member
    rcases List.mem_pair.mp member with rfl | rfl
    · exact ⟨fun ip never => (by cases never), by decide⟩
    · exact ⟨fun ip never => (by cases never), by decide⟩
  obtain ⟨decoded, run, _⟩ := all fewParsers fewFormats _ fewParsers_valid
    (blockedEntry_restorable restorable)
  have panics := (decodeLogEntry_encode fewParsers_valid (blockedEntry_restorable restorable)
    0).2 rfl
  rw [panics] at run
  cases run

end AdGuardHome.Querylog
