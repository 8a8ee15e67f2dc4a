import AdGuardHome.Filtering.Engine
import AdGuardHome.Net

/-! `msg.go`: DNS messages and the responses that the server makes itself. -/
namespace AdGuardHome.Dnsforward

open Filtering Net Netip Strings

/-- `dns.ClassINET`. -/
def classINET : BitVec 16 := 1

def rcodeSuccess : Nat := 0
def rcodeServerFailure : Nat := 2
def rcodeNameError : Nat := 3
def rcodeRefused : Nat := 5

/-- `dns.Question`. -/
structure Question where
  name : Bytes
  qtype : RRType
  qclass : BitVec 16
deriving DecidableEq

namespace Question

def zero : Question := ⟨[], 0, 0⟩

end Question

/-- `dns.RR_Header`. -/
structure Hdr where
  name : Bytes
  rrtype : RRType
  qclass : BitVec 16
  ttl : BitVec 32
deriving DecidableEq

/-- `dns.SVCBKeyValue`: the address hints and the other parameters. -/
inductive SVCBKeyValue where
  | ipv4Hint (hint : List IP)
  | ipv6Hint (hint : List IP)
  | alpn (alpn : List Bytes)
  | port (port : BitVec 16)
  | doHPath (template : Bytes)
  | other (key : BitVec 16) (value : Bytes)
deriving DecidableEq

/-- `dns.RR`. -/
inductive RR where
  | a (hdr : Hdr) (ip : IP)
  | aaaa (hdr : Hdr) (ip : IP)
  | cname (hdr : Hdr) (target : Bytes)
  | https (hdr : Hdr) (priority : BitVec 16) (target : Bytes) (value : List SVCBKeyValue)
  | svcb (hdr : Hdr) (priority : BitVec 16) (target : Bytes) (value : List SVCBKeyValue)
  | ptr (hdr : Hdr) (ptr : Bytes)
  | mx (hdr : Hdr) (preference : BitVec 16) (mx : Bytes)
  | srv (hdr : Hdr) (priority weight port : BitVec 16) (target : Bytes)
  | txt (hdr : Hdr) (txt : List Bytes)
  | soa (hdr : Hdr) (ns mbox : Bytes) (serial refresh retry expire minttl : BitVec 32)
  | other (hdr : Hdr)
  /-- The nil interface that stands for a record of an unsupported type. -/
  | nil
deriving DecidableEq

/-- Where a response comes from, which the code does not keep. -/
inductive Source where
  | client
  | upstream
  /-- `genDNSFilterMessage`. -/
  | filter
  /-- Any other message of the server. -/
  | server
deriving DecidableEq

/-- `dns.Msg` with one question. -/
structure Msg where
  question : Question
  rcode : Nat
  answer : List RR
  ns : List RR
  extra : List RR
  authenticatedData : Bool
  compress : Bool
  source : Source
deriving DecidableEq

/-- `netip.Addr.AsSlice`. -/
def asSlice : Addr → IP
  | .zero => []
  | .v4 value => (List.range 4).map fun i => (value >>> (8 * (3 - i))).setWidth 8
  | .v6 value _ => (List.range 16).map fun i => (value >>> (8 * (15 - i))).setWidth 8

structure FilterConf where
  blockingMode : BlockingMode
  blockingIPv4 : Addr
  blockingIPv6 : Addr
  blockedResponseTTL : BitVec 32
  safeBrowsingBlockHost : Bytes
  parentalBlockHost : Bytes
  /-- `dns.Fqdn`. -/
  fqdn : Bytes → Bytes

/-- `Server.reply`. -/
def reply (req : Msg) (code : Nat) : Msg where
  question := req.question
  rcode := code
  answer := []
  ns := []
  extra := []
  authenticatedData := false
  compress := false
  source := .server

/-- `Server.replyCompressed`. -/
def replyCompressed (req : Msg) : Msg := { reply req rcodeSuccess with compress := true }

/-- `ipsFromRules`. -/
def ipsFromRules (rules : List ResultRule) : List Addr :=
  rules.foldl (fun ips r => if r.ip = .zero ∨ r.ip ∈ ips then ips else ips ++ [r.ip]) []

namespace FilterConf

variable (conf : FilterConf)

/-- `Server.hdr`. -/
def hdr (req : Msg) (rrType : RRType) : Hdr :=
  ⟨req.question.name, rrType, classINET, conf.blockedResponseTTL⟩

def genAnswerA (req : Msg) (ip : Addr) : RR := .a (conf.hdr req .a) (asSlice ip)

def genAnswerAAAA (req : Msg) (ip : Addr) : RR := .aaaa (conf.hdr req .aaaa) (asSlice ip)

def genAnswerCNAME (req : Msg) (cname : Bytes) : RR :=
  .cname (conf.hdr req .cname) (conf.fqdn cname)

/-- `Server.genAnswersWithIPv4s`: one other address is enough for no answer. -/
def genAnswersWithIPv4s (req : Msg) (ips : List Addr) : List RR :=
  if ips.all (·.is4) then ips.map (conf.genAnswerA req) else []

/-- The answers of `getCNAMEWithIPs` and `genResponseWithIPs` for a type. -/
def genAnswersWithIPs (req : Msg) (ips : List Addr) : List RR :=
  if req.question.qtype = .a then conf.genAnswersWithIPv4s req ips
  else if req.question.qtype = .aaaa then (ips.filter (·.is6)).map (conf.genAnswerAAAA req)
  else []

/-- `Server.getCNAMEWithIPs`; the name in the request is put back at the end. -/
def getCNAMEWithIPs (req : Msg) (ips : List Addr) (cname : Bytes) : Msg :=
  if cname ≠ [] then
    let renamed := { req with question := { req.question with name := conf.fqdn cname } }
    { replyCompressed req with
      answer := conf.genAnswerCNAME req cname :: conf.genAnswersWithIPs renamed ips }
  else { replyCompressed req with answer := conf.genAnswersWithIPs req ips }

/-- `Server.genResponseWithIPs`. -/
def genResponseWithIPs (req : Msg) (ips : List Addr) : Msg :=
  { replyCompressed req with answer := conf.genAnswersWithIPs req ips }

/-- `Server.makeResponseNullIP`. -/
def makeResponseNullIP (req : Msg) : Msg :=
  if req.question.qtype = .a then conf.genResponseWithIPs req [.v4 0]
  else if req.question.qtype = .aaaa then conf.genResponseWithIPs req [.v6 0 ""]
  else replyCompressed req

/-- `Server.makeResponseCustomIP`. -/
def makeResponseCustomIP (req : Msg) : Msg :=
  if req.question.qtype = .a then
    { replyCompressed req with answer := [conf.genAnswerA req conf.blockingIPv4] }
  else if req.question.qtype = .aaaa then
    { replyCompressed req with answer := [conf.genAnswerAAAA req conf.blockingIPv6] }
  else replyCompressed req

/-- `Server.genSOA`. -/
def genSOA (req : Msg) : List RR :=
  let zone := req.question.name
  let ttl := if conf.blockedResponseTTL = 0 then 3600 else conf.blockedResponseTTL
  [.soa ⟨zone, .soa, classINET, ttl⟩ (lit "fake-for-negative-caching.adguard.com.")
    (if zone ≠ lit "." then lit "hostmaster." ++ zone else lit "hostmaster.")
    100500 1800 900 604800 86400]

/-- `Server.NewMsgNXDOMAIN`. -/
def newMsgNXDOMAIN (req : Msg) : Msg := { reply req rcodeNameError with ns := conf.genSOA req }

/-- `Server.NewMsgNODATA`. -/
def newMsgNODATA (req : Msg) : Msg := { reply req rcodeSuccess with ns := conf.genSOA req }

/-- `Server.genForBlockingMode`. -/
def genForBlockingMode (req : Msg) (ips : List Addr) : Msg :=
  match conf.blockingMode with
  | .customIP => conf.makeResponseCustomIP req
  | .default =>
    if ips.length > 0 then conf.genResponseWithIPs req ips else conf.makeResponseNullIP req
  | .nullIP => conf.makeResponseNullIP req
  | .nxdomain => conf.newMsgNXDOMAIN req
  | .refused => reply req rcodeRefused
  | .invalid => replyCompressed req

end FilterConf

/-- `Server.NewMsgSERVFAIL`. -/
def newMsgSERVFAIL (req : Msg) : Msg := reply req rcodeServerFailure

def RR.rename (name : Bytes) : RR → RR
  | .a hdr ip => .a { hdr with name } ip
  | .aaaa hdr ip => .aaaa { hdr with name } ip
  | .cname hdr target => .cname { hdr with name } target
  | .https hdr priority target value => .https { hdr with name } priority target value
  | .svcb hdr priority target value => .svcb { hdr with name } priority target value
  | .ptr hdr target => .ptr { hdr with name } target
  | .mx hdr preference exchange => .mx { hdr with name } preference exchange
  | .srv hdr priority weight port target => .srv { hdr with name } priority weight port target
  | .txt hdr strs => .txt { hdr with name } strs
  | .soa hdr ns mbox serial refresh retry expire minttl =>
    .soa { hdr with name } ns mbox serial refresh retry expire minttl
  | .other hdr => .other { hdr with name }
  | .nil => .nil

section Responses

variable (conf : FilterConf) (req : Msg) (ips : List Addr)

namespace FilterConf

@[simp] theorem getCNAMEWithIPs_question (cname : Bytes) :
    (conf.getCNAMEWithIPs req ips cname).question = req.question := by
  unfold getCNAMEWithIPs
  split <;> rfl

@[simp] theorem makeResponseNullIP_question :
    (conf.makeResponseNullIP req).question = req.question := by
  unfold makeResponseNullIP
  split
  · rfl
  · split <;> rfl

@[simp] theorem makeResponseCustomIP_question :
    (conf.makeResponseCustomIP req).question = req.question := by
  unfold makeResponseCustomIP
  split
  · rfl
  · split <;> rfl

@[simp] theorem genForBlockingMode_question :
    (conf.genForBlockingMode req ips).question = req.question := by
  unfold genForBlockingMode
  cases conf.blockingMode with
  | customIP => exact conf.makeResponseCustomIP_question req
  | default =>
    dsimp only
    split
    · rfl
    · exact conf.makeResponseNullIP_question req
  | nullIP => exact conf.makeResponseNullIP_question req
  | nxdomain | refused | invalid => rfl

end FilterConf

end Responses

end AdGuardHome.Dnsforward
