import AdGuardHome.Lib.Loop
import AdGuardHome.Querylog.LogEntry

/-! Package `querylog`: decoding a line of the log token by token. -/
namespace AdGuardHome.Querylog

open JSONTokens

/-- What the decoding uses of other packages: parsing of times, addresses and base64, where
the flag says that there is no error, and the name in full. -/
structure EntryParsers (Addr Time : Type) where
  parseTime : Bytes → Time × Bool
  parseIP : Bytes → Option Bytes
  parseAddr : Bytes → Option Addr
  is4 : Addr → Bool
  isValidIPString : Bytes → Bool
  decodeBase64 : Bytes → Bytes × Bool
  fqdn : Bytes → Bytes

/-- How the decoding stops without a result: it panics, or the rounds that a loop is given
here are not enough. -/
inductive Stop where
  | panic
  | fuel
deriving DecidableEq

variable {Addr Time : Type}

/-- A handler of one token for a key, and whether it returns no error. -/
abbrev LogEntryHandler (Addr Time : Type) :=
  Token Bytes → LogEntry Addr Time → LogEntry Addr Time × Bool

def onString (handle : Bytes → LogEntry Addr Time → LogEntry Addr Time × Bool) :
    LogEntryHandler Addr Time
  | .string v, ent => handle v ent
  | _, ent => (ent, true)

def onBool (set : Bool → LogEntry Addr Time → LogEntry Addr Time) : LogEntryHandler Addr Time
  | .bool v, ent => (set v ent, true)
  | _, ent => (ent, true)

def onInt64 (set : Int → LogEntry Addr Time → LogEntry Addr Time) : LogEntryHandler Addr Time
  | .number n, ent => if n.int64.2 then (set n.int64.1 ent, true) else (ent, false)
  | _, ent => (ent, true)

def handlerOf {Handler : Type} (handlers : List (String × Handler)) (key : Bytes) :
    Option Handler :=
  (handlers.find? fun handler => ascii handler.1 = key).map Prod.snd

section Functions

variable (parsers : EntryParsers Addr Time)

def logEntryHandlers : List (String × LogEntryHandler Addr Time) :=
  [("CID", onString fun v ent => ({ ent with clientID := v }, true)),
    ("IP", onString fun v ent =>
      (if ent.ip.isNone then { ent with ip := parsers.parseIP v } else ent, true)),
    ("T", onString fun v ent =>
      ({ ent with time := (parsers.parseTime v).1 }, (parsers.parseTime v).2)),
    ("QH", onString fun v ent => ({ ent with qHost := v }, true)),
    ("QT", onString fun v ent => ({ ent with qType := v }, true)),
    ("QC", onString fun v ent => ({ ent with qClass := v }, true)),
    ("CP", onString fun v ent =>
      ({ ent with clientProto := (newClientProto v).1 }, (newClientProto v).2)),
    ("Answer", onString fun v ent =>
      ({ ent with answer := (parsers.decodeBase64 v).1 }, (parsers.decodeBase64 v).2)),
    ("OrigAnswer", onString fun v ent =>
      ({ ent with origAnswer := (parsers.decodeBase64 v).1 }, (parsers.decodeBase64 v).2)),
    ("ECS", onString fun v ent => ({ ent with reqECS := v }, true)),
    ("Cached", onBool fun v ent => { ent with cached := v }),
    ("AD", onBool fun v ent => { ent with authenticatedData := v }),
    ("Upstream", onString fun v ent => ({ ent with upstream := v }, true)),
    ("Elapsed", onInt64 fun v ent => { ent with elapsed := v })]

def setLastRule (set : ResultRule Addr → ResultRule Addr) (res : Result Addr) : Result Addr :=
  let rules := if res.rules = [] then [.zero] else res.rules
  { res with rules := rules.modify (rules.length - 1) set }

def resultHandlers : List (String × LogEntryHandler Addr Time) :=
  [("IsFiltered", onBool fun v => LogEntry.onResult fun res => { res with isFiltered := v }),
    ("Rule", onString fun s ent =>
      (ent.onResult (setLastRule fun rule => { rule with text := s }), true)),
    ("FilterID", onInt64 fun id =>
      LogEntry.onResult (setLastRule fun rule => { rule with filterListID := id })),
    ("Reason", onInt64 fun i => LogEntry.onResult fun res => { res with reason := .ofInt 8 i }),
    ("ServiceName", onString fun s ent =>
      (ent.onResult fun res => { res with serviceName := s }, true)),
    ("CanonName", onString fun s ent =>
      (ent.onResult fun res => { res with canonName := s }, true))]

def filterListIDField : Token Bytes → Option (ResultRule Addr → ResultRule Addr)
  | .number n => some fun rule => { rule with filterListID := n.int64.1 }
  | _ => none

def ipField : Token Bytes → Option (ResultRule Addr → ResultRule Addr)
  | .string ipStr => (parsers.parseAddr ipStr).map fun ip rule => { rule with ip := some ip }
  | _ => none

def textField : Token Bytes → Option (ResultRule Addr → ResultRule Addr)
  | .string s => some fun rule => { rule with text := s }
  | _ => none

/-- The keys of a rule, and what a token under each sets when it has the right type; an
address has to be parsed as well. -/
def ruleFields : List (String × (Token Bytes → Option (ResultRule Addr → ResultRule Addr))) :=
  [("FilterListID", filterListIDField), ("IP", ipField parsers), ("Text", textField)]

/-- `queryLog.decodeVTokenAndAddRule`. -/
def decodeVTokenAndAddRule (i : Nat) (dec : Decoder Bytes) (rules : List (ResultRule Addr)) :
    List (ResultRule Addr) × Option (Token Bytes) × Decoder Bytes :=
  match dec.token with
  | none => (rules, none, dec)
  | some (vToken, dec) =>
    (if rules.length < i + 1 then rules ++ [.zero] else rules, some vToken, dec)

abbrev Decoding (Addr Time : Type) := Decoder Bytes × LogEntry Addr Time

/-- `queryLog.decodeResultRuleKey`. -/
def decodeResultRuleKey (key : Bytes) (idx : Nat) :
    Decoding Addr Time → Except Stop (Decoding Addr Time)
  | (dec, ent) =>
    match handlerOf (ruleFields parsers) key with
    | none => .ok (dec, ent)
    | some field =>
      let (rules, vToken, dec) := decodeVTokenAndAddRule idx dec ent.result.rules
      match vToken.bind field with
      | none => .ok (dec, ent.withRules rules)
      | some set =>
        if idx < rules.length then .ok (dec, ent.withRules (rules.modify idx set))
        else .error .panic

def loop {State Result : Type} (round : State → State ⊕ Except Stop Result) (fuel : Nat)
    (state : State) : Except Stop Result :=
  (Looping.run round fuel state).getD (.error .fuel)

def goOn {State Result : Type} : Except Stop State → State ⊕ Except Stop Result
  | .ok state => .inl state
  | .error stop => .inr (.error stop)

/-- One round of `queryLog.decodeResultRuleToken`. -/
def decodeResultRuleTokenRound :
    Nat × Decoding Addr Time → (Nat × Decoding Addr Time) ⊕ Except Stop (Decoding Addr Time)
  | (i, dec, ent) =>
    match dec.token with
    | none => .inr (.ok (dec, ent))
    | some (.delim .objectEnd, dec) => .inl (i + 1, dec, ent)
    | some (.delim .arrayEnd, dec) => .inr (.ok (dec, ent))
    | some (.delim _, dec) => .inl (i, dec, ent)
    | some (.string key, dec) =>
      goOn ((decodeResultRuleKey parsers key i (dec, ent)).map fun next => (i, next))
    | some (_, dec) => .inr (.ok (dec, ent))

/-- `queryLog.decodeResultRuleToken`, which always ends with an error. -/
def decodeResultRuleToken (pos : Decoding Addr Time) : Except Stop (Decoding Addr Time) :=
  loop (decodeResultRuleTokenRound parsers) (pos.1.tokens.length + 1) (0, pos)

/-- `queryLog.decodeResultRules`. An unexpected delimiter is only logged; after the error
of `decodeResultRuleToken` there is no second round. -/
def decodeResultRules : Decoding Addr Time → Except Stop (Decoding Addr Time)
  | (dec, ent) =>
    match dec.token with
    | none => .ok (dec, ent)
    | some (.delim _, dec) => decodeResultRuleToken parsers (dec, ent)
    | some (_, dec) => .ok (dec, ent)

def decodeListRound (add : Bytes → LogEntry Addr Time → Except Stop (LogEntry Addr Time)) :
    Decoding Addr Time → Decoding Addr Time ⊕ Except Stop (Decoding Addr Time)
  | (dec, ent) =>
    match dec.token with
    | none => .inr (.ok (dec, ent))
    | some (.delim .arrayStart, dec) => .inl (dec, ent)
    | some (.delim _, dec) => .inr (.ok (dec, ent))
    | some (.string v, dec) => goOn ((add v ent).map fun ent => (dec, ent))
    | some (_, dec) => .inl (dec, ent)

/-- `rrTypes` of package `dns`. -/
def typeA : Nat := 1

def typePTR : Nat := 12

def typeAAAA : Nat := 28

def appendValue (resp : DNSRewriteResultResponse Addr) (qType : Nat) (v : RRValue Addr) :
    DNSRewriteResultResponse Addr :=
  resp.set qType (((resp.get qType).getD []) ++ [v])

/-- `setPTRRewriteResult`, where `dns.RcodeSuccess` is zero. -/
def setPTRRewriteResult (v : Bytes) (res : Result Addr) : Result Addr :=
  let resp := (res.dnsRewriteResult.bind DNSRewriteResult.response).getD ∅
  let response := appendValue resp typePTR (.json [.string (parsers.fqdn v)])
  { res with dnsRewriteResult := some { response := some response, rCode := 0 } }

/-- `queryLog.decodeResultReverseHosts`. -/
def decodeResultReverseHosts (pos : Decoding Addr Time) : Except Stop (Decoding Addr Time) :=
  loop (decodeListRound fun v ent => .ok (ent.onResult (setPTRRewriteResult parsers v)))
    (pos.1.tokens.length + 1) pos

/-- `appendIfValidIP`, with the panic of `netip.MustParseAddr`. -/
def appendIfValidIP (orig : List Addr) (s : Bytes) : Except Stop (List Addr) :=
  if parsers.isValidIPString s then
    match parsers.parseAddr s with
    | none => .error .panic
    | some ip => .ok (orig ++ [ip])
  else .ok orig

/-- `queryLog.decodeResultIPList`. -/
def decodeResultIPList (pos : Decoding Addr Time) : Except Stop (Decoding Addr Time) :=
  loop (decodeListRound fun v ent =>
      (appendIfValidIP parsers ent.result.ipList v).map fun ipList =>
        ent.onResult fun res => { res with ipList })
    (pos.1.tokens.length + 1) pos

/-- The values of an array, and the keys and values of an object, one after the other. -/
def valuesOf : Nat → List (Token Bytes) → List (List (Token Bytes))
  | 0, _ => []
  | fuel + 1, tokens =>
    match splitValue 0 tokens with
    | none => []
    | some (value, rest) => value :: valuesOf fuel rest

/-- `rules.RRType` as the key of an object: an unsigned integer of 16 bits. -/
def parseRRType (key : Bytes) : Option Nat :=
  if key = [] ∨ ¬ key.all (fun c => 48 ≤ c && c ≤ 57) then none
  else
    let n := key.foldl (fun n c => n * 10 + (c.toNat - 48)) 0
    if n < 65536 then some n else none

/-- The members of an object that are decoded into a response. Where a key or a value has
another type, that is an error, but the decoding goes on. -/
def setMembers : List (List (Token Bytes)) → DNSRewriteResultResponse Addr →
    DNSRewriteResultResponse Addr
  | [.string key] :: value :: members, resp =>
    match parseRRType key with
    | none => setMembers members resp
    | some rrType =>
      let rrValues := match value with
        | .delim .arrayStart :: inner => valuesOf inner.length inner.dropLast
        | _ => []
      setMembers members (resp.set rrType (rrValues.map .json))
  | _, resp => resp

/-- `Decoder.Decode` of a whole value into a response. -/
def unmarshalResponse (value : List (Token Bytes))
    (resp : Option (DNSRewriteResultResponse Addr)) : Option (DNSRewriteResultResponse Addr) :=
  match value with
  | [.null] => none
  | .delim .objectStart :: inner =>
    some (setMembers (valuesOf inner.length inner.dropLast) (resp.getD ∅))
  | _ => resp

/-- `logEntry.parseDNSRewriteResultIPs` for the values of one type. -/
def parseValues (rrType : Nat) (resp : DNSRewriteResultResponse Addr) :
    DNSRewriteResultResponse Addr :=
  match resp.get rrType with
  | none => resp
  | some rrValues => resp.set rrType (rrValues.map fun v =>
      .ip (parsers.parseIP (match v with
        | .json [.string s] => s
        | _ => [])))

/-- `logEntry.parseDNSRewriteResultIPs`. -/
def parseDNSRewriteResultIPs (resp : DNSRewriteResultResponse Addr) :
    DNSRewriteResultResponse Addr :=
  parseValues parsers typeAAAA (parseValues parsers typeA resp)

/-- `queryLog.decodeResultDNSRewriteResultKey`. -/
def decodeResultDNSRewriteResultKey (key : Bytes) : Decoding Addr Time → Decoding Addr Time
  | (dec, ent) =>
    let rewrite := ent.result.dnsRewriteResult.getD ⟨none, 0⟩
    if key = ascii "RCode" then
      match dec.token with
      | none => (dec, ent)
      | some (vToken, dec) =>
        let rCode := match vToken with
          | .number n => n.int64.1
          | _ => rewrite.rCode
        (dec, ent.onResult fun res => { res with dnsRewriteResult := some { rewrite with rCode } })
    else if key = ascii "Response" then
      let resp := some (rewrite.response.getD ∅)
      let (value, dec) := dec.decode
      let resp := match value with
        | none => resp
        | some value => unmarshalResponse value resp
      let response := resp.map (parseDNSRewriteResultIPs parsers)
      (dec, ent.onResult fun res =>
        { res with dnsRewriteResult := some { rewrite with response } })
    else (dec, ent)

/-- `parseKeyToken`: none is an error. -/
def parseKeyToken (dec : Decoder Bytes) : Option Bytes × Decoder Bytes :=
  match dec.token with
  | none => (none, dec)
  | some (.delim .objectEnd, dec) => (none, dec)
  | some (.delim _, dec) => (some [], dec)
  | some (.string key, dec) => (some key, dec)
  | some (_, dec) => (none, dec)

/-- One round of `queryLog.decodeResultDNSRewriteResult`. -/
def decodeResultDNSRewriteResultRound :
    Decoding Addr Time → Decoding Addr Time ⊕ Except Stop (Decoding Addr Time)
  | (dec, ent) =>
    match parseKeyToken dec with
    | (none, dec) => .inr (.ok (dec, ent))
    | (some key, dec) =>
      if key = [] then .inl (dec, ent)
      else .inl (decodeResultDNSRewriteResultKey parsers key (dec, ent))

/-- `queryLog.decodeResultDNSRewriteResult`. -/
def decodeResultDNSRewriteResult (pos : Decoding Addr Time) :
    Except Stop (Decoding Addr Time) :=
  loop (decodeResultDNSRewriteResultRound parsers) (pos.1.tokens.length + 1) pos

/-- `filtering.RewrittenAutoHosts`. -/
def rewrittenAutoHosts : Reason := 10

/-- `translateResult`. -/
def translateResult (res : Result Addr) : Result Addr :=
  if res.reason ≠ rewrittenAutoHosts ∨ res.ipList = [] then res
  else
    let rewrite := res.dnsRewriteResult.getD ⟨none, 0⟩
    let resp := res.ipList.foldl
      (fun resp ip => appendValue resp (if parsers.is4 ip then typeA else typeAAAA) (.addr ip))
      (rewrite.response.getD ∅)
    { res with
      dnsRewriteResult := some { rewrite with response := some resp }
      ipList := [] }

/-- `queryLog.resultDecHandler`: none when there is no handler. -/
def resultDecHandlers :
    List (String × (Decoding Addr Time → Except Stop (Decoding Addr Time))) :=
  [("ReverseHosts", decodeResultReverseHosts parsers),
    ("IPList", decodeResultIPList parsers),
    ("Rules", decodeResultRules parsers),
    ("DNSRewriteResult", decodeResultDNSRewriteResult parsers)]

/-- The value under a key and its handler; an error ends the loop. -/
def handleValue (handler : LogEntryHandler Addr Time) :
    Decoding Addr Time → Decoding Addr Time ⊕ Except Stop (Decoding Addr Time)
  | (dec, ent) =>
    match dec.token with
    | none => .inr (.ok (dec, ent))
    | some (val, dec) =>
      match handler val ent with
      | (ent, true) => .inl (dec, ent)
      | (ent, false) => .inr (.ok (dec, ent))

/-- `queryLog.decodeResultKeyValue`. -/
def decodeResultKeyValue :
    Decoding Addr Time → Decoding Addr Time ⊕ Except Stop (Decoding Addr Time)
  | (dec, ent) =>
    match parseKeyToken dec with
    | (none, dec) => .inr (.ok (dec, ent))
    | (some key, dec) =>
      if key = [] then .inl (dec, ent)
      else
        match handlerOf (resultDecHandlers parsers) key with
        | some decode => goOn (decode (dec, ent))
        | none =>
          match handlerOf resultHandlers key with
          | none => .inl (dec, ent)
          | some handler => handleValue handler (dec, ent)

/-- `queryLog.decodeResult`. -/
def decodeResult (pos : Decoding Addr Time) : Except Stop (Decoding Addr Time) :=
  (loop (decodeResultKeyValue parsers) (pos.1.tokens.length + 1) pos).map fun (dec, ent) =>
    (dec, ent.onResult (translateResult parsers))

/-- `queryLog.decodeLogEntryKeyValue`. -/
def decodeLogEntryKeyValue :
    Decoding Addr Time → Decoding Addr Time ⊕ Except Stop (Decoding Addr Time)
  | (dec, ent) =>
    match dec.token with
    | none => .inr (.ok (dec, ent))
    | some (.delim _, dec) => .inl (dec, ent)
    | some (.string key, dec) =>
      if key = ascii "Result" then goOn (decodeResult parsers (dec, ent))
      else
        match handlerOf (logEntryHandlers parsers) key with
        | none => .inl (dec, ent)
        | some handler => handleValue handler (dec, ent)
    | some (_, dec) => .inr (.ok (dec, ent))

/-- `queryLog.decodeLogEntry` of a text with these tokens. -/
def decodeLogEntry (ent : LogEntry Addr Time) (tokens : List (Token Bytes)) :
    Except Stop (LogEntry Addr Time) :=
  (loop (decodeLogEntryKeyValue parsers) (tokens.length + 1) (.new tokens, ent)).map Prod.snd

end Functions

end AdGuardHome.Querylog
