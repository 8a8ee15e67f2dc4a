import AdGuardHome.Lib.UTF8
import AdGuardHome.Querylog.LogEntry

namespace AdGuardHome.Querylog

open JSONTokens UTF8

/-- How times and addresses are written, and the base64 encoding. -/
structure Formats (Addr Time : Type) where
  formatTime : Time → Bytes
  formatIP : Option Bytes → Bytes
  formatAddr : Addr → Bytes
  encodeBase64 : Bytes → Bytes

variable {Addr Time : Type}

/-- A string, with the replacement character where it is not in UTF-8. -/
def jsonString (s : Bytes) : Token Bytes := .string (toValid s)

def jsonInt (n : Int) : Token Bytes := .number (.int n)

def field (name : String) (value : List (Token Bytes)) : List (Token Bytes) :=
  .string (ascii name) :: value

/-- A field with the option `omitempty`. -/
def omitEmpty (empty : Bool) (field : List (Token Bytes)) : List (Token Bytes) :=
  if empty then [] else field

def jsonArray (values : List (List (Token Bytes))) : List (Token Bytes) :=
  .delim .arrayStart :: (values.flatten ++ [.delim .arrayEnd])

def jsonObject (fields : List (Token Bytes)) : List (Token Bytes) :=
  .delim .objectStart :: (fields ++ [.delim .objectEnd])

section Functions

variable (formats : Formats Addr Time)

def encodeRuleIP : Option Addr → List (Token Bytes)
  | none => []
  | some ip => field "IP" [.string (formats.formatAddr ip)]

def encodeRule (rule : ResultRule Addr) : List (Token Bytes) :=
  jsonObject
    (omitEmpty rule.text.isEmpty (field "Text" [jsonString rule.text]) ++
      encodeRuleIP formats rule.ip ++
      omitEmpty (rule.filterListID = 0) (field "FilterListID" [jsonInt rule.filterListID]))

def encodeRRValue : RRValue Addr → List (Token Bytes)
  | .ip ip => [.string (formats.formatIP ip)]
  | .addr addr => [.string (formats.formatAddr addr)]
  | .json value => value

def encodeResponse (resp : DNSRewriteResultResponse Addr) : List (Token Bytes) :=
  jsonObject ((resp.entries.mergeSort fun one other =>
      decide (toString one.1 ≤ toString other.1)).flatMap fun entry =>
    field (toString entry.1) (jsonArray (entry.2.map (encodeRRValue formats))))

def encodeRewriteResponse : Option (DNSRewriteResultResponse Addr) → List (Token Bytes)
  | none => []
  | some resp => omitEmpty resp.entries.isEmpty (field "Response" (encodeResponse formats resp))

def encodeRewrite (rewrite : DNSRewriteResult Addr) : List (Token Bytes) :=
  jsonObject
    (encodeRewriteResponse formats rewrite.response ++
      omitEmpty (rewrite.rCode = 0) (field "RCode" [jsonInt rewrite.rCode]))

def encodeResultRewrite : Option (DNSRewriteResult Addr) → List (Token Bytes)
  | none => []
  | some rewrite => field "DNSRewriteResult" (encodeRewrite formats rewrite)

def encodeResult (res : Result Addr) : List (Token Bytes) :=
  jsonObject
    (encodeResultRewrite formats res.dnsRewriteResult ++
      omitEmpty res.canonName.isEmpty (field "CanonName" [jsonString res.canonName]) ++
      omitEmpty res.serviceName.isEmpty (field "ServiceName" [jsonString res.serviceName]) ++
      omitEmpty res.ipList.isEmpty
        (field "IPList" (jsonArray (res.ipList.map fun ip => [.string (formats.formatAddr ip)]))) ++
      omitEmpty res.rules.isEmpty
        (field "Rules" (jsonArray (res.rules.map (encodeRule formats)))) ++
      omitEmpty (res.reason = 0) (field "Reason" [jsonInt res.reason.toNat]) ++
      omitEmpty (!res.isFiltered) (field "IsFiltered" [.bool res.isFiltered]))

/-- `Encoder.Encode` of an entry. -/
def encodeLogEntry (ent : LogEntry Addr Time) : List (Token Bytes) :=
  jsonObject
    (field "T" [.string (formats.formatTime ent.time)] ++
      field "QH" [jsonString ent.qHost] ++
      field "QT" [jsonString ent.qType] ++
      field "QC" [jsonString ent.qClass] ++
      omitEmpty ent.reqECS.isEmpty (field "ECS" [jsonString ent.reqECS]) ++
      omitEmpty ent.clientID.isEmpty (field "CID" [jsonString ent.clientID]) ++
      field "CP" [jsonString ent.clientProto] ++
      omitEmpty ent.upstream.isEmpty (field "Upstream" [jsonString ent.upstream]) ++
      omitEmpty ent.answer.isEmpty
        (field "Answer" [.string (formats.encodeBase64 ent.answer)]) ++
      omitEmpty ent.origAnswer.isEmpty
        (field "OrigAnswer" [.string (formats.encodeBase64 ent.origAnswer)]) ++
      field "IP" [.string (formats.formatIP ent.ip)] ++
      field "Result" (encodeResult formats ent.result) ++
      field "Elapsed" [jsonInt ent.elapsed] ++
      omitEmpty (!ent.cached) (field "Cached" [.bool ent.cached]) ++
      omitEmpty (!ent.authenticatedData) (field "AD" [.bool ent.authenticatedData]))

end Functions

end AdGuardHome.Querylog
